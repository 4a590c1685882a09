import Atmem.Continuity.Model.Events
import Atmem.Continuity.Helpers.Scans
/-!
# The ledger of an operation

What an operation, as it is stored, has to do with what its callers were told.
An operation only moves by the events of its callers, and each move keeps the
ledger.
-/

namespace Atmem.Continuity

open Evidence Leases

variable {α : Type} [LinearOrder α] {E : Engine α}

/-- An operation, but for its late receipts. -/
def Operation.bare (op : Operation α) : Operation α := { op with lateReceipts := none }

/-- The operation of a name, but for its late receipts. -/
def Workflow.bare (w : Workflow α) (name : String) : Option (Operation α) :=
  (w.operation name).map Operation.bare

/-! ## Moves -/

/-- One event, and what it makes of the operation. -/
inductive Move (E : Engine α) : Operation α → Event α → Operation α → Prop
  | granted {op : Operation α} {mode : Mode} {runId attemptId : String} {x : Surroundings α}
      (hfresh : ∀ a ∈ op.attempts, a.attemptId ≠ attemptId)
      (hover : ¬ x.now.Lt (op.leaseUntil.getD (zero E)))
      (hallowed : actionFor E op x.now = .grant mode) :
      Move E op (.granted (grantOf E op mode runId attemptId x) x.now)
        (grantedOperation E op mode x.now x.leaseToken runId attemptId)
  | renewed {op : Operation α} {now : Reading α} {token runId attemptId : String}
      (hcurrent : isCurrent E op token runId attemptId = true) :
      Move E op (.renewed attemptId token (leaseEnd E now)) (renewedOperation E op now)
  | recorded {op : Operation α} {receipt : Json} {confirmed : Bool} {ended : Reading α}
      {token runId attemptId : String}
      (hcurrent : isCurrent E op token runId attemptId = true) (hstatus : op.status = .uncertain) :
      Move E op (.recorded attemptId token (recordedOperation E op receipt confirmed ended).status)
        (recordedOperation E op receipt confirmed ended)
  | abandoned {op : Operation α} (hstatus : op.status ≠ .completed) :
      Move E op .abandoned (abandonedOperation E op)
  | abandonedAgain {op : Operation α} (hstatus : op.status = .abandoned) :
      Move E op .abandoned op

/-! ## The ledger -/

/-- What is stored of an operation, beside what its callers were told. -/
structure Ledger (E : Engine α) (op : Operation α) (evs : List (Event α)) : Prop where
  /-- An attempt is kept of every lease. -/
  attempts : op.attempts.map (·.attemptId) = (leases evs).map (·.holder)
  nodup : ((leases evs).map (·.holder)).Nodup
  wellKept : WellKept (leases evs)
  keys : ∀ g ∈ grants evs, g.1.idempotencyKey = op.idempotencyKey
  pending : op.status = .pending → grants evs = []
  first : op.firstDispatch = (grants evs).head?.map (·.2)
  finished : ∀ e ∈ evs, e.finishes = true → op.status = .completed ∨ op.status = .abandoned
  stopped : op.status = .abandoned → op.leaseHash = some ""
  /-- A lease that has not ended is the one that is stored. -/
  stored : ∀ l ∈ leases evs, l.ended = none →
    op.leaseHash = some (E.sha256 l.secret) ∧ op.leaseUntil = some l.runsUntil
  /-- A digest is stored only of a lease that has not ended. -/
  held : ∀ hash, op.leaseHash = some hash → hash ≠ "" →
    ∃ l, (leases evs).getLast? = some l ∧ l.ended = none

omit [LinearOrder α] in
/-- A change of the last attempt leaves the identifiers. -/
theorem attemptIds_changeLast (op : Operation α) {f : Attempt α → Attempt α}
    (hf : ∀ a, (f a).attemptId = a.attemptId) :
    (op.changeLast f).map (·.attemptId) = op.attempts.map (·.attemptId) := by
  unfold Operation.changeLast
  refine List.ext_getElem? fun i => ?_
  rw [List.getElem?_map, List.getElem?_map, List.getElem?_modify]
  cases op.attempts[i]? with
  | none => rfl
  | some a =>
    simp only [Option.map_some, Option.map_eq_map]
    split
    · rw [hf]
    · rfl

omit [LinearOrder α] in
/-- What a current token and attempt show. -/
theorem isCurrent_iff {op : Operation α} {token runId attemptId : String} :
    isCurrent E op token runId attemptId = true ↔
      op.leaseHash = some (E.sha256 token) ∧ E.sha256 token ≠ "" ∧
        ∃ a, op.attempts.getLast? = some a ∧ a.runId = runId ∧ a.attemptId = attemptId := by
  unfold isCurrent
  cases op.leaseHash with
  | none => simp
  | some hash =>
    cases op.attempts.getLast? with
    | none => simp
    | some a =>
      simp only [Bool.and_eq_true, decide_eq_true_eq, Option.some.injEq, ne_eq]
      constructor
      · rintro ⟨⟨hne, rfl⟩, hrun, hattempt⟩
        exact ⟨rfl, hne, a, rfl, hrun, hattempt⟩
      · rintro ⟨rfl, hne, a', rfl, hrun, hattempt⟩
        exact ⟨⟨hne, rfl⟩, hrun, hattempt⟩

namespace Ledger

variable {op : Operation α} {evs : List (Event α)}

/-- **The token that is current is that of the last lease**, or has its
digest; the lease has not ended. -/
theorem current (h : Ledger E op evs) {token runId attemptId : String}
    (hcurrent : isCurrent E op token runId attemptId = true) :
    ∃ l, (leases evs).getLast? = some l ∧ l.ended = none ∧ l.holder = attemptId ∧
      E.sha256 token = E.sha256 l.secret := by
  obtain ⟨hhash, hne, a, hlast, -, hattempt⟩ := isCurrent_iff.mp hcurrent
  obtain ⟨l, hl, hopen⟩ := h.held _ hhash hne
  refine ⟨l, hl, hopen, ?_, ?_⟩
  · have hids := congrArg List.getLast? h.attempts
    rw [List.getLast?_map, List.getLast?_map, hlast, hl] at hids
    exact (Option.some.inj hids).symm.trans hattempt
  · have hstored := (h.stored l (List.mem_of_getLast? hl) hopen).1
    rw [hhash] at hstored
    exact Option.some.inj hstored

/-- A lease that has not ended is the one whose token is current. -/
theorem holder_of_open (h : Ledger E op evs) {token runId attemptId : String}
    (hcurrent : isCurrent E op token runId attemptId = true) {l : Lease String String α}
    (hl : l ∈ leases evs) (hopen : l.ended = none) : l.holder = attemptId := by
  obtain ⟨l', hlast, -, hholder, -⟩ := h.current hcurrent
  rw [h.wellKept.eq_last hl hopen hlast]
  exact hholder

/-- Nothing that is left to do was finished before. -/
theorem not_finished (h : Ledger E op evs) (hc : op.status ≠ .completed)
    (ha : op.status ≠ .abandoned) : ∀ e ∈ evs, e.finishes = false := by
  intro e he
  cases hf : e.finishes with
  | false => rfl
  | true =>
    rcases h.finished e he hf with h' | h'
    · exact absurd h' hc
    · exact absurd h' ha

omit [LinearOrder α] in
/-- A finishing event comes last, and nothing was finished before. -/
theorem finishes_of_mem_concat {e f : Event α} (hnone : ∀ e ∈ evs, e.finishes = false)
    (he : f ∈ evs ++ [e]) (hf : f.finishes = true) : f = e := by
  rcases List.mem_append.mp he with he | he
  · rw [hnone f he] at hf
    cases hf
  · exact List.mem_singleton.mp he

end Ledger

/-! ## What a grant rests on -/

/-- An operation that may be attempted is pending, or its outcome is not
known. -/
theorem actionFor_grant {op : Operation α} {now : Reading α} {mode : Mode}
    (h : actionFor E op now = .grant mode) :
    (op.status = .pending ∧ mode = .execute) ∨
      (op.status = .uncertain ∧ op.capability = .query ∧ mode = .query) ∨
      (op.status = .uncertain ∧ op.capability = .idempotent ∧ mode = .execute ∧
        withinWindow E op now (op.firstDispatch.getD (zero E))) := by
  unfold actionFor at h
  split at h
  · rename_i hs
    cases h
    exact .inl ⟨hs, rfl⟩
  · rename_i hs
    split at h
    · rename_i hc
      cases h
      exact .inr (.inl ⟨hs, hc, rfl⟩)
    · rename_i hc
      split at h
      · rename_i hw
        cases h
        exact .inr (.inr ⟨hs, hc, rfl, hw⟩)
      · cases h
    · cases h
  · cases h
  · cases h

/-- Nothing is granted of what is finished. -/
theorem status_of_actionFor {op : Operation α} {now : Reading α} {mode : Mode}
    (h : actionFor E op now = .grant mode) : op.status ≠ .completed ∧ op.status ≠ .abandoned := by
  rcases actionFor_grant h with ⟨hs, -⟩ | ⟨hs, -⟩ | ⟨hs, -⟩ <;> rw [hs] <;>
    exact ⟨(fun h => nomatch h), (fun h => nomatch h)⟩

/-! ## Every move keeps the ledger -/

namespace Ledger

variable {op : Operation α} {evs : List (Event α)}

/-- A new operation has an empty ledger. -/
theorem empty (hstatus : op.status = .pending) (hattempts : op.attempts = [])
    (hfirst : op.firstDispatch = none) (hhash : op.leaseHash = none) : Ledger E op [] where
  attempts := by rw [hattempts]; rfl
  nodup := .nil
  wellKept := wellKept_nil
  keys := fun _ h => nomatch h
  pending := fun _ => rfl
  first := hfirst
  finished := fun _ h => nomatch h
  stopped := by rw [hstatus]; exact fun h => nomatch h
  stored := fun _ h => nomatch h
  held := by rw [hhash]; exact fun _ h => nomatch h

/-- A grant keeps the ledger. -/
theorem grant (h : Ledger E op evs) {mode : Mode} {now : Reading α}
    {token runId attemptId : String} {g : Grant α} (hid : g.attemptId = attemptId)
    (htoken : g.leaseToken = token) (hkey : g.idempotencyKey = op.idempotencyKey)
    (huntil : g.leaseUntil = leaseEnd E now) (hfresh : ∀ a ∈ op.attempts, a.attemptId ≠ attemptId)
    (hover : ¬ now.Lt (op.leaseUntil.getD (zero E))) (hallowed : actionFor E op now = .grant mode) :
    Ledger E (grantedOperation E op mode now token runId attemptId) (evs ++ [.granted g now]) := by
  subst hid htoken
  obtain ⟨hc, ha⟩ := status_of_actionFor hallowed
  have hbook : leases (evs ++ [.granted g now]) =
      Leases.grant (leases evs) g.attemptId g.leaseToken now g.leaseUntil := leases_concat _ _
  constructor
  case attempts =>
    rw [hbook, holders_grant, ← h.attempts]
    exact List.map_append
  case nodup =>
    rw [hbook, holders_grant, ← h.attempts]
    refine List.Nodup.append (h.attempts ▸ h.nodup) (List.nodup_singleton _) ?_
    intro a hmem hatt
    obtain ⟨attempt, hattempt, rfl⟩ := List.mem_map.mp hmem
    exact hfresh attempt hattempt (List.mem_singleton.mp hatt)
  case wellKept =>
    rw [hbook]
    -- what has not ended has run out at this reading
    refine h.wellKept.grant fun l hl hopen => ?_
    rw [(h.stored l hl hopen).2] at hover
    exact hover
  case keys =>
    intro g' hg'
    rw [grants_concat] at hg'
    rcases List.mem_append.mp hg' with hg' | hg'
    · exact h.keys g' hg'
    · rw [List.mem_singleton.mp hg']
      exact hkey
  case pending => exact fun hp => nomatch hp
  case first =>
    rw [grants_concat]
    change some (op.firstDispatch.getD now) = _
    rw [h.first]
    cases grants evs with
    | nil => rfl
    | cons g' gs => rfl
  case finished =>
    intro e he hf
    rw [finishes_of_mem_concat (h.not_finished hc ha) he hf] at hf
    cases hf
  case stopped => exact fun hs => nomatch hs
  case stored =>
    intro l hl hopen
    rw [hbook] at hl
    rcases List.mem_append.mp hl with hl | hl
    · obtain ⟨l₀, -, rfl⟩ := List.mem_map.mp hl
      rw [close_ended] at hopen
      cases hopen
    · rw [List.mem_singleton.mp hl]
      exact ⟨rfl, congrArg some huntil.symm⟩
  case held =>
    intro hash _ _
    rw [hbook]
    exact ⟨_, List.getLast?_concat, rfl⟩

/-- A renewal keeps the ledger. -/
theorem renew (h : Ledger E op evs) {token runId attemptId : String} {now : Reading α}
    (hcurrent : isCurrent E op token runId attemptId = true) :
    Ledger E (renewedOperation E op now) (evs ++ [.renewed attemptId token (leaseEnd E now)]) := by
  have hbook : leases (evs ++ [.renewed attemptId token (leaseEnd E now)]) =
      Leases.renew (leases evs) attemptId (leaseEnd E now) := leases_concat _ _
  have hgrants : grants (evs ++ [.renewed attemptId token (leaseEnd E now)]) = grants evs := by
    rw [grants_concat]
    exact List.append_nil _
  constructor
  case attempts =>
    rw [hbook, holders_renew]
    refine Eq.trans ?_ h.attempts
    exact attemptIds_changeLast op (f := fun a =>
      { a with renewals := some (op.renewals + 1) }) fun _ => rfl
  case nodup => rw [hbook, holders_renew]; exact h.nodup
  case wellKept => rw [hbook]; exact h.wellKept.renew
  case keys => rw [hgrants]; exact h.keys
  case pending => rw [hgrants]; exact h.pending
  case first => rw [hgrants]; exact h.first
  case finished =>
    intro e he hf
    rcases List.mem_append.mp he with he | he
    · exact h.finished e he hf
    · rw [List.mem_singleton.mp he] at hf
      cases hf
  case stopped => exact h.stopped
  case stored =>
    intro l hl hopen
    rw [hbook] at hl
    obtain ⟨l₀, hl₀, rfl⟩ := List.mem_map.mp hl
    -- the lease that has not ended is the one that is renewed
    have hopen₀ : l₀.ended = none := by
      split at hopen
      · rwa [extend_ended] at hopen
      · exact hopen
    rw [if_pos (h.holder_of_open hcurrent hl₀ hopen₀)]
    unfold Lease.extend
    rw [hopen₀]
    exact ⟨(h.stored l₀ hl₀ hopen₀).1, rfl⟩
  case held =>
    intro hash hhash hne
    obtain ⟨l, hlast, hopen⟩ := h.held hash hhash hne
    have hlast' : (Leases.renew (leases evs) attemptId (leaseEnd E now)).getLast? =
        some (if l.holder = attemptId then l.extend (leaseEnd E now) else l) := by
      unfold Leases.renew
      rw [List.getLast?_map, hlast]
      rfl
    rw [hbook]
    refine ⟨_, hlast', ?_⟩
    split
    · rw [extend_ended]
      exact hopen
    · exact hopen

/-- An outcome keeps the ledger. -/
theorem record (h : Ledger E op evs) {token runId attemptId : String} {receipt : Json}
    {confirmed : Bool} {ended : Reading α} (hcurrent : isCurrent E op token runId attemptId = true)
    (hstatus : op.status = .uncertain) :
    Ledger E (recordedOperation E op receipt confirmed ended) (evs ++ [.recorded attemptId token
      (recordedOperation E op receipt confirmed ended).status]) := by
  have hbook (status : Status) : leases (evs ++ [.recorded attemptId token status]) =
      giveUp (leases evs) fun holder => decide (holder = attemptId) := leases_concat _ _
  have hgrants (status : Status) : grants (evs ++ [.recorded attemptId token status]) =
      grants evs := by
    rw [grants_concat]
    exact List.append_nil _
  have hopen : ∀ e ∈ evs, e.finishes = false :=
    h.not_finished (by rw [hstatus]; exact fun h => nomatch h)
      (by rw [hstatus]; exact fun h => nomatch h)
  constructor
  case attempts =>
    rw [hbook, holders_giveUp, ← h.attempts]
    exact attemptIds_changeLast op (f := fun a => { a with
      ended := some ended, outcome := some (if confirmed then "completed" else "unknown") })
      fun _ => rfl
  case nodup => rw [hbook, holders_giveUp]; exact h.nodup
  case wellKept => rw [hbook]; exact h.wellKept.giveUp _
  case keys => rw [hgrants]; exact h.keys
  case pending =>
    intro hp
    cases confirmed with
    | true => cases hp
    | false => exact absurd (hstatus.symm.trans hp) fun h => nomatch h
  case first => rw [hgrants]; exact h.first
  case finished =>
    intro e he hf
    rw [finishes_of_mem_concat hopen he hf] at hf
    exact .inl (of_decide_eq_true hf)
  case stopped => exact fun _ => rfl
  case stored =>
    intro l hl hnone
    rw [hbook] at hl
    obtain ⟨l₀, hl₀, rfl⟩ := List.mem_map.mp hl
    -- no lease is left that has not ended
    exfalso
    split at hnone
    · rw [close_ended] at hnone
      cases hnone
    · rename_i hholder
      exact hholder (decide_eq_true (h.holder_of_open hcurrent hl₀ hnone))
  case held => exact fun hash hhash hne => absurd (Option.some.inj hhash).symm hne

omit [LinearOrder α] in
/-- Once an operation is abandoned no lease is left that has not ended. -/
theorem close_all {l : Lease String String α} (hl : l ∈ leases (evs ++ [.abandoned])) :
    l.ended ≠ none := by
  rw [leases_concat] at hl
  obtain ⟨l₀, -, rfl⟩ := List.mem_map.mp hl
  rw [if_pos rfl, close_ended]
  exact Option.some_ne_none _

/-- Giving up keeps the ledger. -/
theorem abandon (h : Ledger E op evs) {op' : Operation α}
    (hattempts : op'.attempts = op.attempts) (hkey : op'.idempotencyKey = op.idempotencyKey)
    (hfirst : op'.firstDispatch = op.firstDispatch) (hstatus : op'.status = .abandoned)
    (hhash : op'.leaseHash = some "") : Ledger E op' (evs ++ [.abandoned]) := by
  have hbook : leases (evs ++ [.abandoned]) = giveUp (leases evs) fun _ => true :=
    leases_concat _ _
  have hgrants : grants (evs ++ [.abandoned]) = grants evs := by
    rw [grants_concat]
    exact List.append_nil _
  constructor
  case attempts => rw [hbook, holders_giveUp, hattempts]; exact h.attempts
  case nodup => rw [hbook, holders_giveUp]; exact h.nodup
  case wellKept => rw [hbook]; exact h.wellKept.giveUp _
  case keys => rw [hgrants, hkey]; exact h.keys
  case pending => rw [hstatus]; exact fun hp => nomatch hp
  case first => rw [hgrants, hfirst]; exact h.first
  case finished => exact fun _ _ _ => .inr hstatus
  case stopped => exact fun _ => hhash
  case stored => exact fun l hl hnone => absurd hnone (close_all hl)
  case held => exact fun hash h hne => absurd (Option.some.inj (hhash.symm.trans h)).symm hne

/-- **Every move keeps the ledger.** -/
theorem move (h : Ledger E op evs) {e : Event α} {op' : Operation α} (hm : Move E op e op') :
    Ledger E op' (evs ++ [e]) := by
  cases hm with
  | granted hfresh hover hallowed => exact h.grant rfl rfl rfl rfl hfresh hover hallowed
  | renewed hcurrent => exact h.renew hcurrent
  | recorded hcurrent hstatus => exact h.record hcurrent hstatus
  | abandoned _ => exact h.abandon rfl rfl rfl rfl rfl
  | abandonedAgain hstatus => exact h.abandon rfl rfl rfl hstatus (h.stopped hstatus)

end Ledger

end Atmem.Continuity
