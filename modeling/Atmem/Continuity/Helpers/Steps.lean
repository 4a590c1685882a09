import Atmem.Continuity.Helpers.Ledger
/-!
# What a call does

Each call of the service, taken apart once: what it has read and checked when
it returns, and what it saved.
-/

namespace Atmem.Continuity

open Evidence Checked

variable {α : Type} [LinearOrder α] {E : Engine α} {p : EvidencePrincipal} {x : Surroundings α}
variable {v v' : Vault α} {w : Workflow α} {op : Operation α} {wid name : String}

/-! ## Operations -/

omit [LinearOrder α] in
theorem name_of_operation (h : w.operation name = some op) : op.name = name := by
  have hp := List.find?_some h
  exact of_decide_eq_true hp

omit [LinearOrder α] in
/-- The operation that is looked up is the workflow's. -/
theorem operationOf_ok {message : String} (h : operationOf w name message = .ok op) :
    w.operation name = some op := by
  unfold operationOf at h
  split at h
  · rename_i heq
    exact heq.trans (congrArg some (Except.ok.inj h))
  · cases h

omit [LinearOrder α] in
theorem find?_replaceFirst_self {ops : List (Operation α)} {op op' : Operation α}
    (h : ops.find? (fun o => o.name = name) = some op) (hname : op'.name = name) :
    (replaceFirst name op' ops).find? (fun o => o.name = name) = some op' := by
  induction ops with
  | nil => cases h
  | cons o os ih =>
    unfold replaceFirst
    split
    · rw [List.find?_cons_of_pos (by rw [hname]; exact decide_eq_true rfl)]
    · rename_i ho
      rw [List.find?_cons_of_neg (by simpa using ho)] at h ⊢
      exact ih h

omit [LinearOrder α] in
theorem find?_replaceFirst_other {ops : List (Operation α)} {op' : Operation α} {other : String}
    (hname : op'.name = name) (hne : other ≠ name) :
    (replaceFirst name op' ops).find? (fun o => o.name = other) =
      ops.find? (fun o => o.name = other) := by
  induction ops with
  | nil => rfl
  | cons o os ih =>
    unfold replaceFirst
    split
    · rename_i ho
      rw [List.find?_cons_of_neg (by rw [hname]; simpa using hne.symm),
        List.find?_cons_of_neg (by rw [ho]; simpa using hne.symm)]
    · rw [List.find?_cons, List.find?_cons, ih]

omit [LinearOrder α] in
/-- The operation that was put is found. -/
theorem operation_put_self {op' : Operation α} (h : w.operation name = some op)
    (hname : op'.name = name) : (w.put name op').operation name = some op' :=
  find?_replaceFirst_self h hname

omit [LinearOrder α] in
/-- The others are found as before. -/
theorem operation_put_other {op' : Operation α} {other : String} (hname : op'.name = name)
    (hne : other ≠ name) : (w.put name op').operation other = w.operation other :=
  find?_replaceFirst_other hname hne

omit [LinearOrder α] in
/-- Counting the late receipts anew changes nothing else. -/
@[simp] theorem bare_counted (ds : List (Document α)) :
    (counted wid ds w).bare name = w.bare name := by
  unfold Workflow.bare Workflow.operation counted
  rw [List.find?_map, Option.map_map]
  rfl

/-! ## Begin -/

/-- What a decision to grant rests on. -/
structure Granted (E : Engine α) (w : Workflow α) (op : Operation α) (captured : Bool)
    (now : Reading α) (attemptId : String) (mode : Mode) : Prop where
  enabled : w.enabled = true
  captured : captured = true
  earlier : ∀ o ∈ w.earlier op.name, o.status = .completed
  fresh : ∀ a ∈ op.attempts, a.attemptId ≠ attemptId
  ranOut : ¬ now.Lt (op.leaseUntil.getD (zero E))
  room : w.revision < maxRevisions - 2
  allowed : actionFor E op now = .grant mode

/-- What must hold for a grant. -/
theorem decision_grant {captured : Bool} {now : Reading α} {attemptId : String} {mode : Mode}
    (h : decision E w op captured now attemptId = .grant mode) :
    Granted E w op captured now attemptId mode := by
  unfold decision at h
  by_cases h₁ : (!w.enabled || !captured) = true
  · rw [if_pos h₁] at h; cases h
  rw [if_neg h₁] at h
  by_cases h₂ : op.status = .completed
  · rw [if_pos h₂] at h; cases h
  rw [if_neg h₂] at h
  by_cases h₃ : op.status = .abandoned
  · rw [if_pos h₃] at h; cases h
  rw [if_neg h₃] at h
  by_cases h₄ : (w.earlier op.name).any (fun previous => decide (previous.status ≠ .completed)) = true
  · rw [if_pos h₄] at h; cases h
  rw [if_neg h₄] at h
  by_cases h₅ : op.attempts.any (fun a => decide (a.attemptId = attemptId)) = true
  · rw [if_pos h₅] at h; cases h
  rw [if_neg h₅] at h
  by_cases h₆ : now.Lt (op.leaseUntil.getD (zero E))
  · rw [if_pos h₆] at h; cases h
  rw [if_neg h₆] at h
  by_cases h₇ : 100 ≤ op.attempts.length
  · rw [if_pos h₇] at h; cases h
  rw [if_neg h₇] at h
  by_cases h₈ : maxRevisions - 2 ≤ w.revision
  · rw [if_pos h₈] at h; cases h
  rw [if_neg h₈] at h
  simp only [Bool.or_eq_true, Bool.not_eq_true', not_or, Bool.not_eq_false] at h₁
  simp only [List.any_eq_true, decide_eq_true_eq, not_exists, not_and, not_not] at h₄ h₅
  exact ⟨h₁.1, h₁.2, h₄, h₅, h₆, not_le.mp h₈, h⟩

/-- What a call that attempts work has read. -/
structure Opened (v : Vault α) (p : EvidencePrincipal) (control : Bool) (wid name : String)
    (w : Workflow α) (op : Operation α) : Prop where
  latest : latest v wid = .ok w
  authorized : authorize p w control = .ok ()
  operation : w.operation name = some op

/-- **What `begin` does**: it grants nothing and writes nothing, or it saves
the operation it grants. -/
theorem begin_ok {runId attemptId : String} {r : BeginReply α}
    (h : begin E p wid name runId attemptId x v = .ok (r, v')) :
    ∃ w op, Opened v p (byOperator p) wid name w op ∧ movedBack E w x.now = false ∧
      ((r.reply.grant? = none ∧ v' = v) ∨ ∃ mode w',
        Granted E w op (v.captureMode = .full) x.now attemptId mode ∧
        Saved E p x (w.put name (grantedOperation E op mode x.now x.leaseToken runId attemptId))
          .begun v w' v' ∧
        r.reply = .granted (grantOf E op mode runId attemptId x)) := by
  unfold begin at h
  obtain ⟨_, -, h⟩ := bind_eq_ok_iff.mp h
  obtain ⟨_, -, h⟩ := bind_eq_ok_iff.mp h
  obtain ⟨_, -, h⟩ := bind_eq_ok_iff.mp h
  obtain ⟨w, hw, h⟩ := bind_eq_ok_iff.mp h
  obtain ⟨_, ha, h⟩ := bind_eq_ok_iff.mp h
  obtain ⟨op, hop, h⟩ := bind_eq_ok_iff.mp h
  obtain ⟨_, hback, h⟩ := bind_eq_ok_iff.mp h
  rw [raiseIf_ok, Bool.not_eq_true] at hback
  have hop := operationOf_ok hop
  refine ⟨w, op, ⟨hw, ha, hop⟩, hback, ?_⟩
  unfold carryOut at h
  split at h
  · cases h
    exact .inl ⟨rfl, rfl⟩
  · cases h
    exact .inl ⟨rfl, rfl⟩
  · rename_i mode hd
    obtain ⟨⟨w', v''⟩, hs, h⟩ := bind_eq_ok_iff.mp h
    cases h
    rw [name_of_operation hop] at hs
    exact .inr ⟨mode, w', decision_grant hd, save_ok hs, rfl⟩

/-! ## Outcome -/

/-- **What `outcome` does**: it saves what a current attempt reports, or keeps
the receipt as an event. -/
theorem outcome_ok {token : String} {receipt : Json} {runId attemptId : String}
    {r : Bool × Status} (h : outcome E p wid name token receipt runId attemptId x v = .ok (r, v')) :
    ∃ w op, Opened v p (byOperator p) wid name w op ∧
      ((r.1 = false ∧ v' = v.append x (.event w.workflowId
          (.lateReceipt receipt p.principalId op.operationId runId attemptId x.now)) ∧
          checkStorageBudget E w v' = .ok ()) ∨
        ∃ w', isCurrent E op token runId attemptId = true ∧ op.status = .uncertain ∧
          Saved E p x
            { w.put name (recordedOperation E op receipt (isConfirmed op receipt) x.now) with
              history := w.history ++ [.receipt receipt attemptId runId op.operationId] }
            (if isConfirmed op receipt then .completed else .needsConfirmation) v w' v' ∧
          r = (true, (recordedOperation E op receipt (isConfirmed op receipt) x.now).status)) := by
  unfold outcome at h
  obtain ⟨_, -, h⟩ := bind_eq_ok_iff.mp h
  obtain ⟨_, -, h⟩ := bind_eq_ok_iff.mp h
  obtain ⟨_, -, h⟩ := bind_eq_ok_iff.mp h
  obtain ⟨w, hw, h⟩ := bind_eq_ok_iff.mp h
  obtain ⟨_, ha, h⟩ := bind_eq_ok_iff.mp h
  obtain ⟨op, hop, h⟩ := bind_eq_ok_iff.mp h
  obtain ⟨_, -, h⟩ := bind_eq_ok_iff.mp h
  have hop := operationOf_ok hop
  refine ⟨w, op, ⟨hw, ha, hop⟩, ?_⟩
  split at h
  · -- the attempt is current: its receipt is recorded
    rename_i hcurrent
    unfold record at h
    obtain ⟨⟨w', v''⟩, hs, h⟩ := bind_eq_ok_iff.mp h
    cases h
    rw [name_of_operation hop] at hs
    exact .inr ⟨w', hcurrent.1, hcurrent.2, save_ok hs, rfl⟩
  · obtain ⟨v'', hlate, h⟩ := bind_eq_ok_iff.mp h
    -- a late receipt is an event, and counts against the budget
    cases h
    unfold lateReceipt at hlate
    obtain ⟨_, -, hlate⟩ := bind_eq_ok_iff.mp hlate
    obtain ⟨_, -, hlate⟩ := bind_eq_ok_iff.mp hlate
    obtain ⟨_, -, hlate⟩ := bind_eq_ok_iff.mp hlate
    obtain ⟨_, hbudget, hlate⟩ := bind_eq_ok_iff.mp hlate
    cases hlate
    exact .inl ⟨rfl, rfl, hbudget⟩

/-! ## Renew, configure and abandon -/

/-- **What `renew` does**: it saves a longer lease of the current attempt. -/
theorem renew_ok {token runId attemptId : String} {leaseUntil : Reading α}
    (h : renew E p wid name token runId attemptId x v = .ok (leaseUntil, v')) :
    ∃ w op w', Opened v p (byOperator p) wid name w op ∧ op.status = .uncertain ∧
      isCurrent E op token runId attemptId = true ∧ w.revision < maxRevisions - 1 ∧
      Saved E p x (w.put name (renewedOperation E op x.now)) .leaseRenewed v w' v' ∧
      leaseUntil = leaseEnd E x.now := by
  unfold renew at h
  obtain ⟨_, -, h⟩ := bind_eq_ok_iff.mp h
  obtain ⟨w, hw, h⟩ := bind_eq_ok_iff.mp h
  obtain ⟨_, ha, h⟩ := bind_eq_ok_iff.mp h
  obtain ⟨op, hop, h⟩ := bind_eq_ok_iff.mp h
  obtain ⟨_, hactive, h⟩ := bind_eq_ok_iff.mp h
  obtain ⟨_, hcurrent, h⟩ := bind_eq_ok_iff.mp h
  obtain ⟨_, -, h⟩ := bind_eq_ok_iff.mp h
  obtain ⟨_, hroom, h⟩ := bind_eq_ok_iff.mp h
  obtain ⟨⟨w', v''⟩, hs, h⟩ := bind_eq_ok_iff.mp h
  have hop := operationOf_ok hop
  rw [raiseIf_ok] at hactive hcurrent hroom
  simp only [not_or, Bool.not_eq_false] at hactive hcurrent
  cases h
  rw [name_of_operation hop] at hs
  exact ⟨w, op, w', ⟨hw, ha, hop⟩, not_not.mp hactive.2.2, hcurrent.1, not_le.mp hroom,
    save_ok hs, rfl⟩

/-- **What `configure` does**: nothing, or it saves the workflow paused or
resumed. -/
theorem configure_ok {enabled : Bool} {r : Workflow α}
    (h : configure E p wid enabled x v = .ok (r, v')) :
    ∃ w, latest v wid = .ok w ∧ authorize p w true = .ok () ∧
      ((w.enabled = enabled ∧ v' = v) ∨ ∃ w', w.enabled ≠ enabled ∧
        Saved E p x { w with enabled } (if enabled then .enabled else .disabled) v w' v') := by
  unfold configure at h
  obtain ⟨_, -, h⟩ := bind_eq_ok_iff.mp h
  obtain ⟨w, hw, h⟩ := bind_eq_ok_iff.mp h
  obtain ⟨_, ha, h⟩ := bind_eq_ok_iff.mp h
  refine ⟨w, hw, ha, ?_⟩
  split at h
  · rename_i heq
    cases h
    exact .inl ⟨heq, rfl⟩
  · rename_i hne
    obtain ⟨_, -, h⟩ := bind_eq_ok_iff.mp h
    obtain ⟨⟨w', v''⟩, hs, h⟩ := bind_eq_ok_iff.mp h
    cases h
    exact .inr ⟨w', hne, save_ok hs⟩

/-- **What `abandon` does**: nothing, or it saves the operation stopped. -/
theorem abandon_ok {reason : String} {r : Workflow α}
    (h : abandon E p wid name reason x v = .ok (r, v')) :
    ∃ w op, Opened v p true wid name w op ∧ op.status ≠ .completed ∧
      ((op.status = .abandoned ∧ v' = v) ∨ ∃ w', op.status ≠ .abandoned ∧
        Saved E p x { w.put name (abandonedOperation E op) with
            history := w.history ++ [.operatorAttestation reason p.principalId op.operationId] }
          .abandoned v w' v') := by
  unfold abandon at h
  obtain ⟨_, -, h⟩ := bind_eq_ok_iff.mp h
  obtain ⟨_, -, h⟩ := bind_eq_ok_iff.mp h
  obtain ⟨w, hw, h⟩ := bind_eq_ok_iff.mp h
  obtain ⟨_, ha, h⟩ := bind_eq_ok_iff.mp h
  obtain ⟨op, hop, h⟩ := bind_eq_ok_iff.mp h
  obtain ⟨_, hstatus, h⟩ := bind_eq_ok_iff.mp h
  have hop := operationOf_ok hop
  rw [raiseIf_ok] at hstatus
  refine ⟨w, op, ⟨hw, ha, hop⟩, hstatus, ?_⟩
  split at h
  · rename_i hstopped
    cases h
    exact .inl ⟨hstopped, rfl⟩
  · rename_i hstopped
    obtain ⟨_, -, h⟩ := bind_eq_ok_iff.mp h
    obtain ⟨⟨w', v''⟩, hs, h⟩ := bind_eq_ok_iff.mp h
    cases h
    rw [name_of_operation hop] at hs
    exact .inr ⟨w', hstopped, save_ok hs⟩

end Atmem.Continuity
