import Atmem.Continuity.Helpers.Steps
/-!
# What a call does to a workflow

Whatever is called, what the scan for one workflow finds afterwards is what it
found before, or a new workflow, or the next revision of the one before; or
the scan raises, and then it always will. An operation moves exactly when a
caller is told so.
-/

namespace Atmem.Continuity

open Evidence Checked

variable {α : Type} [LinearOrder α] {E : Engine α} {p : EvidencePrincipal} {x : Surroundings α}
variable {v v' : Vault α} {wid wid' name name' : String}

/-! ## Scans that raise -/

omit [LinearOrder α] in
/-- A document that cannot be read stays so. -/
theorem scan_append_error {ds : List (Document α)} {e : Raised} (h : scan wid ds = .error e)
    (es : List (Document α)) :
    scan wid (ds ++ es) = .error e := by
  rw [scan_append, h]
  rfl

omit [LinearOrder α] in
/-- Revisions start at one. -/
theorem revision_pos_of_scan {ds : List (Document α)} {w : Workflow α}
    (h : scan wid ds = .ok (some w)) : 1 ≤ w.revision := by
  induction ds using List.reverseRecOn with
  | nil => cases h
  | append_singleton ds d ih =>
    obtain ⟨before, hs, hd⟩ := scan_concat h
    rcases scanDocument_ok hd with heq | ⟨u, -, -, hrev, heq⟩
    · exact ih (heq ▸ hs)
    · rw [Option.some.inj heq, hrev]
      exact Nat.le_add_left 1 _

omit [LinearOrder α] in
/-- A workflow with a tombstone is not found any more. -/
theorem scan_tombstone {ds : List (Document α)} {t : Tombstone} (h : .tombstone t ∈ ds)
    (hid : t.workflowId = wid) : ∃ e, scan wid ds = .error e := by
  obtain ⟨before, after, rfl⟩ := List.append_of_mem h
  cases hs : scan wid before with
  | error e => exact ⟨e, scan_append_error hs _⟩
  | ok found =>
    refine ⟨.valueError "workflow deleted; it cannot be resumed", ?_⟩
    rw [scan_append, hs]
    change List.foldlM _ _ _ = _
    rw [List.foldlM_cons]
    simp only [scanDocument, if_pos hid]
    rfl

/-- A document of a workflow's revisions. -/
def Document.isRevisionOf (wid : String) : Document α → Bool
  | .continuity w => w.workflowId = wid
  | .event _ _ | .tombstone _ | .settings _ | .evidence _ | .access _ _ _ => false

omit [LinearOrder α] in
/-- Documents a scan passes over may go. -/
theorem scan_filter {ds : List (Document α)} {keep : Document α → Bool}
    (h : ∀ d ∈ ds, keep d = false → ∀ found, scanDocument wid found d = .ok found) :
    scan wid (ds.filter keep) = scan wid ds := by
  unfold scan
  generalize (none : Option (Workflow α)) = found
  induction ds generalizing found with
  | nil => rfl
  | cons d ds ih =>
    have ih := ih fun d hd => h d (List.mem_cons_of_mem _ hd)
    rw [List.filter_cons]
    split
    · rw [List.foldlM_cons, List.foldlM_cons]
      exact bind_congr fun found' => ih found'
    · rename_i hkeep
      rw [List.foldlM_cons, h d List.mem_cons_self (Bool.not_eq_true _ ▸ hkeep)]
      exact ih found

omit [LinearOrder α] in
/-- Without a last revision there is none. -/
theorem lastOf_eq_none {ds : List (Document α)} (h : lastOf wid ds = none) :
    ∀ d ∈ ds, d.isRevisionOf wid = false := by
  induction ds using List.reverseRecOn with
  | nil => exact fun _ hd => nomatch hd
  | append_singleton ds d ih =>
    unfold lastOf at h
    rw [List.foldl_append] at h
    have hlast : lastOf wid ds = none ∧ d.isRevisionOf wid = false := by
      cases d with
      | continuity w =>
        simp only [List.foldl_cons, List.foldl_nil] at h
        split at h
        · cases h
        · rename_i hne
          exact ⟨h, decide_eq_false hne⟩
      | event _ _ | tombstone _ | settings _ | evidence _ | access _ _ _ => exact ⟨h, rfl⟩
    intro d' hd'
    rcases List.mem_append.mp hd' with hd' | hd'
    · exact ih hlast.1 d' hd'
    · rw [List.mem_singleton.mp hd']
      exact hlast.2

/-! ## Effects -/

/-- What the scan for a workflow finds before and after a call, and what the
caller is told of one of its operations. -/
inductive Effect (E : Engine α) (name : String) :
    Except Raised (Option (Workflow α)) → Option (Event α) →
      Except Raised (Option (Workflow α)) → Prop
  | same {s : Except Raised (Option (Workflow α))} : Effect E name s none s
  | created {w : Workflow α} (hformat : w.format = "atmem-workflow-v1") (hrev : w.revision = 1)
      (hnew : ∀ op ∈ w.operations, op.status = .pending ∧ op.attempts = [] ∧
        op.firstDispatch = none ∧ op.leaseHash = none) :
      Effect E name (.ok none) none (.ok (some w))
  | kept {w w' : Workflow α} (hformat : w'.format = w.format) (hop : w'.bare name = w.bare name) :
      Effect E name (.ok (some w)) none (.ok (some w'))
  | moved {w w' : Workflow α} {op op' : Operation α} {e : Event α}
      (hformat : w'.format = w.format) (hop : w.bare name = some op)
      (hop' : w'.bare name = some op') (hmove : Move E op e op') :
      Effect E name (.ok (some w)) (some e) (.ok (some w'))
  | stuck {s : Except Raised (Option (Workflow α))} {err : Raised} :
      Effect E name s none (.error err)

omit [LinearOrder α] in
theorem bare_of_operation {w : Workflow α} {op : Operation α} (h : w.operation name = some op) :
    w.bare name = some op.bare := by
  unfold Workflow.bare
  rw [h]
  rfl

/-- **A revision that is saved**, of what the latest was: the scan for the
workflow finds it, the scan for another finds what it did. -/
theorem effect_of_save {w w' w₁ : Workflow α} {event : Happening} {told : Option (Event α)}
    (hl : latest v wid' = .ok w) (hs : Saved E p x w₁ event v w' v')
    (hid : w₁.workflowId = w.workflowId) (hrev : w₁.revision = w.revision)
    (hformat : w₁.format = w.format) (hother : wid ≠ wid' → told = none)
    (hsame : wid = wid' → (told = none ∧ w₁.bare name = w.bare name) ∨ ∃ op op' e,
      told = some e ∧ w.bare name = some op ∧ w₁.bare name = some op' ∧ Move E op e op') :
    Effect E name (scan wid v.contents) told (scan wid v'.contents) := by
  obtain ⟨u, hu, -, rfl⟩ := latest_ok hl
  have hwid : w₁.workflowId = wid' := hid.trans (show u.workflowId = wid' from workflowId_of_scan hu)
  by_cases hne : wid = wid'
  · subst hne
    have hscan : scan wid v'.contents = .ok (some w') := by
      have h := hs.scan_self (u := u) (by rw [hwid]; exact hu) hrev
      rwa [hwid] at h
    have hbare : w'.bare name = w₁.bare name := by
      unfold Workflow.bare
      rw [hs.operation]
    rw [hu, hscan]
    have hformat' : w'.format = u.format := hs.format.trans hformat
    rcases hsame rfl with ⟨rfl, hop⟩ | ⟨op, op', e, rfl, hop, hop', hmove⟩
    · exact .kept hformat' (hbare.trans (hop.trans (bare_counted v.contents)))
    · exact .moved hformat' ((bare_counted v.contents).symm.trans hop) (hbare.trans hop') hmove
  · rw [hother hne, hs.scan_other (by rw [hwid]; exact hne)]
    exact .same

omit [LinearOrder α] in
/-- A change of the operation of one name leaves that of another. -/
theorem bare_put_other {w : Workflow α} {op : Operation α} (hname : op.name = name')
    (hne : name ≠ name') : (w.put name' op).bare name = w.bare name := by
  unfold Workflow.bare
  rw [operation_put_other hname hne]

/-- **A call that saves an operation it moves**, and tells its caller so. -/
theorem effect_of_move {w w' w₁ : Workflow α} {op op' : Operation α} {event : Happening}
    {control : Bool} {e : Event α} (ho : Opened v p control wid' name' w op)
    (hs : Saved E p x w₁ event v w' v') (hid : w₁.workflowId = w.workflowId)
    (hrev : w₁.revision = w.revision) (hformat : w₁.format = w.format)
    (hops : w₁.operations = (w.put name' op').operations) (hname : op'.name = op.name)
    (hmove : Move E op.bare e op'.bare) :
    Effect E name (scan wid v.contents) (if wid' = wid ∧ name' = name then some e else none)
      (scan wid v'.contents) := by
  have hname' : op'.name = name' := hname.trans (name_of_operation ho.operation)
  have hbare (n : String) : w₁.bare n = (w.put name' op').bare n := by
    unfold Workflow.bare Workflow.operation
    rw [hops]
  refine effect_of_save ho.latest hs hid hrev hformat (fun hne => if_neg fun h => hne h.1.symm)
    fun hw => ?_
  by_cases hn : name = name'
  · subst hn
    refine .inr ⟨op.bare, op'.bare, e, if_pos ⟨hw.symm, rfl⟩, bare_of_operation ho.operation, ?_,
      hmove⟩
    rw [hbare]
    exact bare_of_operation (operation_put_self ho.operation hname')
  · refine .inl ⟨if_neg fun h => hn h.2.symm, ?_⟩
    rw [hbare]
    exact bare_put_other hname' hn

/-! ## One call at a time -/

/-- **`begin`** grants, or changes nothing of the operation. -/
theorem begin_effect {runId attemptId : String} {r : BeginReply α}
    (h : begin E p wid' name' runId attemptId x v = .ok (r, v')) :
    Effect E name (scan wid v.contents)
      (if wid' = wid ∧ name' = name then r.reply.grant?.map fun g => .granted g x.now else none)
      (scan wid v'.contents) := by
  obtain ⟨w, op, ho, -, ⟨hnone, rfl⟩ | ⟨mode, w', hg, hs, hreply⟩⟩ := begin_ok h
  · rw [hnone]
    simp only [Option.map_none, ite_self]
    exact .same
  · rw [hreply]
    exact effect_of_move ho hs rfl rfl rfl rfl rfl (.granted hg.fresh hg.ranOut hg.allowed)

/-- **`outcome`** records, or changes nothing of it. -/
theorem outcome_effect (wid name : String) {token : String} {receipt : Json} {runId attemptId : String}
    {r : Bool × Status} (h : outcome E p wid' name' token receipt runId attemptId x v = .ok (r, v')) :
    Effect E name (scan wid v.contents)
      (if wid' = wid ∧ name' = name ∧ r.1 = true then some (.recorded attemptId token r.2) else none)
      (scan wid v'.contents) := by
  obtain ⟨w, op, ho, ⟨hlate, rfl, -⟩ | ⟨w', hcurrent, hstatus, hs, rfl⟩⟩ := outcome_ok h
  · rw [hlate]
    simp only [Bool.false_eq_true, and_false, if_false, contents_append]
    rw [scan_append]
    cases scan wid v.contents with
    | error e => exact .same
    | ok found => exact .same
  · simp only [and_true]
    exact effect_of_move ho hs rfl rfl rfl rfl rfl (.recorded hcurrent hstatus)

/-- **`renew`** extends the lease. -/
theorem renew_effect {token runId attemptId : String} {leaseUntil : Reading α}
    (h : renew E p wid' name' token runId attemptId x v = .ok (leaseUntil, v')) :
    Effect E name (scan wid v.contents)
      (if wid' = wid ∧ name' = name then some (.renewed attemptId token leaseUntil) else none)
      (scan wid v'.contents) := by
  obtain ⟨w, op, w', ho, -, hcurrent, -, hs, rfl⟩ := renew_ok h
  exact effect_of_move ho hs rfl rfl rfl rfl rfl (.renewed hcurrent)

/-- **`abandon`** gives the operation up. -/
theorem abandon_effect {reason : String} {r : Workflow α}
    (h : abandon E p wid' name' reason x v = .ok (r, v')) :
    Effect E name (scan wid v.contents) (if wid' = wid ∧ name' = name then some .abandoned else none)
      (scan wid v'.contents) := by
  obtain ⟨w, op, ho, hstatus, ⟨hstopped, rfl⟩ | ⟨w', -, hs⟩⟩ := abandon_ok h
  · split
    · rename_i heq
      obtain ⟨rfl, rfl⟩ := heq
      obtain ⟨u, hu, -, rfl⟩ := latest_ok ho.latest
      have hop : u.bare name' = some op.bare :=
        (bare_counted v'.contents).symm.trans (bare_of_operation ho.operation)
      rw [hu]
      exact .moved rfl hop hop (.abandonedAgain hstopped)
    · exact .same
  · exact effect_of_move ho hs rfl rfl rfl rfl rfl (.abandoned hstatus)

/-- **`configure`** leaves every operation as it is. -/
theorem configure_effect {enabled : Bool} {r : Workflow α}
    (h : configure E p wid' enabled x v = .ok (r, v')) :
    Effect E name (scan wid v.contents) none (scan wid v'.contents) := by
  obtain ⟨w, hw, -, ⟨-, rfl⟩ | ⟨w', -, hs⟩⟩ := configure_ok h
  · exact .same
  · exact effect_of_save hw hs rfl rfl rfl (fun _ => rfl) fun _ => .inl ⟨rfl, rfl⟩

omit [LinearOrder α] in
theorem contents_setFormat (v : Vault α) (n : ℕ) :
    ({ v with formatVersion := n } : Vault α).contents = v.contents := rfl

/-- **What `create` does**: it writes nothing, or it saves a new workflow. -/
theorem create_ok {workflowKey : String} {operations : Json} {activate : Bool} {r : Workflow α}
    (h : create E p workflowKey operations activate x v = .ok (r, v')) :
    v' = v ∨ ∃ definitions w', checkCreate E p workflowKey operations activate = .ok definitions ∧
      Saved E p x (newWorkflow p x workflowKey activate definitions)
        (if activate then .createdEnabled else .createdDisabled) { v with formatVersion := 3 } w' v' := by
  unfold create at h
  obtain ⟨definitions, hdefs, h⟩ := bind_eq_ok_iff.mp h
  obtain ⟨_, -, h⟩ := bind_eq_ok_iff.mp h
  obtain ⟨found, -, h⟩ := bind_eq_ok_iff.mp h
  cases found with
  | inr w =>
    cases h
    exact .inl rfl
  | inl owned =>
    unfold admitStart at h
    obtain ⟨_, -, h⟩ := bind_eq_ok_iff.mp h
    obtain ⟨⟨w', v''⟩, hs, h⟩ := bind_eq_ok_iff.mp h
    cases h
    exact .inr ⟨definitions, w', hdefs, save_ok hs⟩

omit [LinearOrder α] in
/-- Nothing has been done yet of a new workflow. -/
theorem operations_newWorkflow {workflowKey : String} {activate : Bool}
    {definitions : List (Definition α)} :
    ∀ op ∈ (newWorkflow p x workflowKey activate definitions).operations,
      op.status = .pending ∧ op.attempts = [] ∧ op.firstDispatch = none ∧ op.leaseHash = none := by
  intro op hop
  obtain ⟨d, -, rfl⟩ := List.mem_map.mp hop
  exact ⟨rfl, rfl, rfl, rfl⟩

/-- **`create`** makes a workflow whose operations were never granted. -/
theorem create_effect {workflowKey : String} {operations : Json} {activate : Bool} {r : Workflow α}
    (h : create E p workflowKey operations activate x v = .ok (r, v')) :
    Effect E name (scan wid v.contents) none (scan wid v'.contents) := by
  rcases create_ok h with rfl | ⟨definitions, w', -, hs⟩
  · exact .same
  by_cases hne : wid = w'.workflowId
  swap
  · rw [hs.scan_other (by rw [← hs.workflowId]; exact hne)]
    exact .same
  cases hscan : scan wid v.contents with
  | error e =>
    rw [hs.contents]
    have herror := scan_append_error hscan ((savedEntries p x (newWorkflow p x workflowKey activate
      definitions) (if activate then .createdEnabled else .createdDisabled)).map
        (.event (newWorkflow p x workflowKey activate definitions).workflowId) ++
          [.continuity w'])
    rw [contents_setFormat, herror]
    exact .stuck
  | ok found =>
    have hid : (newWorkflow p x workflowKey activate definitions).workflowId = wid := by
      rw [hne, hs.workflowId]
    have hrev : w'.revision = 1 := hs.revision
    have hafter : scan wid v'.contents = scanDocument wid found (.continuity w') := by
      rw [hs.contents, contents_setFormat, scan_append, hscan]
      change List.foldlM _ _ _ = _
      rw [List.foldlM_append, foldlM_scanDocument_events]
      change [Document.continuity w'].foldlM (scanDocument wid) found = _
      rw [List.foldlM_cons]
      cases scanDocument wid found (.continuity w') with
      | error e => rfl
      | ok after => rfl
    rw [hafter]
    cases found with
    | none =>
      have hfound : scanDocument wid none (.continuity w') = .ok (some w') := by
        simp only [scanDocument]
        rw [if_pos hne.symm, if_pos (by rw [hrev]; rfl)]
      rw [hfound]
      refine .created hs.format hrev ?_
      rw [hs.operations]
      exact operations_newWorkflow
    | some u =>
      -- the identifier was drawn before: the workflow cannot be read any more
      have hpos := revision_pos_of_scan hscan
      have hstuck : scanDocument wid (some u) (.continuity w') =
          .error (.valueError "workflow revision history is inconsistent") := by
        simp only [scanDocument]
        rw [if_pos hne.symm, if_neg]
        rw [hrev]
        intro heq
        have : 1 = u.revision + 1 := heq
        omega
      rw [hstuck]
      exact .stuck

/-- Documents of other workflows change nothing. -/
theorem effect_of_append {ds : List (Document α)} (h : ∀ d ∈ ds, d.workflowId ≠ some wid) :
    Effect E name (scan wid v.contents) none (scan wid (v.contents ++ ds)) := by
  rw [scan_append_of_ne h]
  exact .same

omit [LinearOrder α] in
/-- What is left of the documents after a run is deleted. -/
theorem contents_deleteRun (runId : String) : (v.deleteRun x runId).2.contents =
    (v.contents ++ (tombstoneOf runId v.contents).toList.map Document.tombstone).filter
      fun d => !d.isOfRun runId := by
  rw [← contents_appendAll x]
  unfold Vault.deleteRun Vault.contents
  rw [List.filter_map]
  rfl

omit [LinearOrder α] in
/-- What a deletion removes is passed over by the scan for another workflow. -/
theorem scanDocument_of_isOfRun {runId : String} {d : Document α} (h : d.isOfRun runId = true)
    (hne : wid ≠ runId) (found : Option (Workflow α)) : scanDocument wid found d = .ok found := by
  cases d with
  | continuity w =>
    have hid : w.workflowId = runId := of_decide_eq_true h
    simp only [scanDocument, if_neg (show w.workflowId ≠ wid from fun h => hne (h.symm.trans hid))]
  | tombstone t => cases h
  | event _ _ | settings _ | evidence _ | access _ _ _ => rfl

/-- **`delete_run`** leaves every operation as it is, or takes the workflow away. -/
theorem deleteRun_effect (runId : String) :
    Effect E name (scan wid v.contents) none (scan wid (v.deleteRun x runId).2.contents) := by
  rw [contents_deleteRun]
  by_cases hne : wid = runId
  swap
  · rw [scan_filter fun d _ hd found =>
      scanDocument_of_isOfRun (by simpa using hd) hne found]
    refine effect_of_append fun d hd => ?_
    obtain ⟨t, ht, rfl⟩ := List.mem_map.mp hd
    obtain ⟨w, -, rfl⟩ := Option.map_eq_some_iff.mp (Option.mem_toList.mp ht)
    exact fun h => hne (Option.some.inj h).symm
  subst hne
  cases hlast : lastOf wid v.contents with
  | some w =>
    -- a revision was there: its tombstone is now
    have htomb : Document.tombstone ⟨wid, w.workflowKey, w.scope, w.creatorId, some w.creatorRole⟩ ∈
        (v.contents ++ (tombstoneOf wid v.contents).toList.map Document.tombstone).filter
          fun d : Document α => !d.isOfRun wid := by
      refine List.mem_filter.mpr ⟨List.mem_append_right _ (List.mem_map.mpr ⟨_, ?_, rfl⟩), rfl⟩
      rw [Option.mem_toList, tombstoneOf, hlast]
      rfl
    obtain ⟨e, he⟩ := scan_tombstone htomb rfl
    rw [he]
    exact .stuck
  | none =>
    have hrev := lastOf_eq_none hlast
    have hnone : (tombstoneOf wid v.contents).toList.map Document.tombstone =
        ([] : List (Document α)) := by
      rw [tombstoneOf, hlast]
      rfl
    rw [hnone, List.append_nil, scan_filter]
    · exact .same
    intro d hd hgone found
    cases d with
    | continuity w =>
      have := hrev _ hd
      rw [show Document.isOfRun wid (.continuity w) = Document.isRevisionOf wid (.continuity w)
        from rfl, this] at hgone
      cases hgone
    | tombstone t => cases hgone
    | event _ _ | settings _ | evidence _ | access _ _ _ => rfl

/-! ## Every call -/

omit [LinearOrder α] in
/-- What is told of a call that raised: nothing. -/
theorem eventOf_error {k : Request α} {e : Raised} : eventOf wid name (k, .error e) = none := by
  unfold eventOf
  cases k.call <;> rfl

/-- A call that raises changes nothing. -/
theorem effect_of_raise {k : Request α} {e : Raised} :
    Effect E name (scan wid v.contents) (eventOf wid name (k, .error e))
      (scan wid v.contents) := by
  rw [eventOf_error]
  exact .same

/-- A deletion, granted or refused, and the record of it. -/
theorem deleteRun_call_effect {runId confirmation : String} :
    Effect E name (scan wid v.contents) none
      (scan wid (deleteRun p runId confirmation x v).2.contents) := by
  have haccess (u : Vault α) (allowed : Bool) :
      scan wid (u.append x (.access "delete" p.principalId allowed)).contents =
        scan wid u.contents := by
    rw [contents_append]
    exact scan_append_of_ne fun d hd => by
      rw [List.mem_singleton.mp hd]
      exact fun h => nomatch h
  unfold deleteRun
  split
  · exact .same
  dsimp only
  split
  · rw [haccess]
    exact .same
  split
  · rw [haccess]
    exact .same
  split
  · rw [haccess]
    exact .same
  · rw [haccess]
    exact deleteRun_effect runId

/-- **Whatever is called**, a workflow stays as it was, or is made, or moves as
a caller is told. -/
theorem perform_effect (wid name : String) (k : Request α) (v : Vault α) :
    Effect E name (scan wid v.contents) (eventOf wid name (k, (perform E k v).1))
      (scan wid (perform E k v).2.contents) := by
  obtain ⟨call, x⟩ := k
  cases call with
  | create p workflowKey operations activate =>
    cases h : create E p workflowKey operations activate x v with
    | error e => simp only [perform, h, transact]; exact effect_of_raise
    | ok r => simp only [perform, h, transact]; exact create_effect h
  | get p workflowId =>
    cases h : get p workflowId x v with
    | error e => simp only [perform, h, transact]; exact effect_of_raise
    | ok r =>
      simp only [perform, h, transact]
      unfold get at h
      obtain ⟨_, -, h⟩ := bind_eq_ok_iff.mp h
      obtain ⟨w, -, h⟩ := bind_eq_ok_iff.mp h
      obtain ⟨_, -, h⟩ := bind_eq_ok_iff.mp h
      cases h
      rw [contents_append]
      refine effect_of_append fun d hd => ?_
      rw [List.mem_singleton.mp hd]
      exact fun h => nomatch h
  | configure p workflowId enabled =>
    cases h : configure E p workflowId enabled x v with
    | error e => simp only [perform, h, transact]; exact effect_of_raise
    | ok r => simp only [perform, h, transact]; exact configure_effect h
  | begin p workflowId n runId attemptId =>
    cases h : begin E p workflowId n runId attemptId x v with
    | error e => simp only [perform, h, transact]; exact effect_of_raise
    | ok r => simp only [perform, h, transact]; exact begin_effect h
  | outcome p workflowId n token receipt runId attemptId =>
    cases h : outcome E p workflowId n token receipt runId attemptId x v with
    | error e => simp only [perform, h, transact]; exact effect_of_raise
    | ok r =>
      simp only [perform, h, transact]
      have heffect := outcome_effect wid name h
      obtain ⟨⟨accepted, status⟩, v'⟩ := r
      -- only an outcome that is accepted is told
      cases accepted with
      | true =>
        simp only [and_true] at heffect
        exact heffect
      | false =>
        simp only [Bool.false_eq_true, and_false, if_false] at heffect
        exact heffect
  | abandon p workflowId n reason =>
    cases h : abandon E p workflowId n reason x v with
    | error e => simp only [perform, h, transact]; exact effect_of_raise
    | ok r => simp only [perform, h, transact]; exact abandon_effect h
  | renew p workflowId n token runId attemptId =>
    cases h : renew E p workflowId n token runId attemptId x v with
    | error e => simp only [perform, h, transact]; exact effect_of_raise
    | ok r => simp only [perform, h, transact]; exact renew_effect h
  | deleteRun p runId confirmation =>
    have hnone : eventOf wid name (⟨.deleteRun p runId confirmation, x⟩,
        ((deleteRun p runId confirmation x v).1.map Answer.deleted)) = none := by
      cases (deleteRun p runId confirmation x v).1 <;> rfl
    simp only [perform, hnone]
    exact deleteRun_call_effect
  | setCaptureMode p mode =>
    cases h : setCaptureMode p mode x v with
    | error e => simp only [perform, h, transact]; exact effect_of_raise
    | ok r =>
      simp only [perform, h, transact]
      unfold setCaptureMode at h
      obtain ⟨_, -, h⟩ := bind_eq_ok_iff.mp h
      obtain ⟨_, -, h⟩ := bind_eq_ok_iff.mp h
      cases h
      rw [contents_appendAll]
      refine effect_of_append fun d hd => ?_
      rcases List.mem_cons.mp hd with rfl | hd
      · exact fun h => nomatch h
      · rw [List.mem_singleton.mp hd]
        exact fun h => nomatch h
  | capture runId =>
    change Effect E name _ none (scan wid (capture runId x v).contents)
    unfold capture
    split
    · exact .same
    · rw [contents_append]
      refine effect_of_append fun d hd => ?_
      rw [List.mem_singleton.mp hd]
      exact fun h => nomatch h

end Atmem.Continuity
