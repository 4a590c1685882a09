import Atmem.TaskState.Helpers.Writes
import Atmem.TaskState.Properties.Policy
/-!
# What counts as progress

Whether a proposal is progress is decided operation by operation, each at the
snapshot the earlier ones arrived at. A phase that is set, a constraint that
is satisfied and a source that is marked always count, whether or not they
change anything; so a proposal is honest about its progress exactly where one
of its movements lasts, or nothing in it counts.
-/

namespace Atmem

variable {H : Hashing} {state next w w' last : TaskState} {profile : TaskProfile}
variable {proposal : TaskStateProposal} {operation : TaskOperation}
variable {operations : List TaskOperation} {nowIso : String} {known : Option (List String)}
variable {allowPrivileged : Bool} {decision : PolicyDecision}

/-- Something moved between two snapshots: the phase is another, an item
newly is running, completed or skipped, a constraint is satisfied that was
not, or a source is inspected that was not. -/
def Moved (state next : TaskState) : Prop :=
  next.val.phase ≠ state.val.phase ∨
  (∃ item ∈ next.val.items, item.val.status ∈ progressStatuses ∧
    state.statusOf item.val.itemId ≠ some item.val.status) ∨
  (∃ (i : ℕ) (row : TaskConstraint), next.val.constraints[i]? = some row ∧
    row.val.satisfied = true ∧
    ∀ before, state.val.constraints[i]? = some before → before.val.satisfied = false) ∨
  ∃ source ∈ next.val.completedSources, source ∉ state.val.completedSources

/-- An operation counts, at items of these statuses. -/
def Counts (statusOf : String → Option ItemStatus) (operation : TaskOperation) : Prop :=
  operation.val.kind = .setPhase ∨ operation.val.kind = .satisfyConstraint ∨
  operation.val.kind = .markSourceInspected ∨
  operation.val.kind = .setItemStatus ∧ ∃ current target,
    statusOf (str operation.val.itemId) = some current ∧ operation.val.status = some target ∧
      target ≠ current ∧ target ∈ progressStatuses

/-- Some operation counts, at the statuses the ones before it wrote. -/
def SomethingCounts (state : TaskState) (operations : List TaskOperation) : Prop :=
  ∃ before operation after, operations = before ++ operation :: after ∧
    Counts (fun itemId => (lastItemWrite itemId before).or (state.statusOf itemId)) operation

/-- The last word of the operations on something is a movement. -/
def MovementLasts (state : TaskState) (operations : List TaskOperation) : Prop :=
  (∃ phase, lastPhaseWrite operations = some phase ∧ phase ≠ state.val.phase) ∨
  (∃ itemId status, lastItemWrite itemId operations = some status ∧
    status ∈ progressStatuses ∧ state.statusOf itemId ≠ some status) ∨
  ((∃ row ∈ state.val.constraints, row.val.satisfied = false ∧
      ∃ operation ∈ operations, operation.satisfies row.val.constraintId = true) ∨
    ∃ before operation after, operations = before ++ operation :: after ∧
      operation.val.kind = .addConstraint ∧
      ∃ later ∈ after, later.satisfies (str operation.val.constraintId) = true) ∨
  ∃ operation ∈ operations, ∃ source, sourceMark operation = some source ∧
    source ∉ state.val.completedSources

/-! ## What counts -/

/-- What counts as progress. -/
theorem isProgress_iff : isProgress operation w = true ↔ Counts w.statusOf operation := by
  unfold isProgress Counts TaskState.statusOf
  rcases hk : operation.val.kind
  case setItemStatus =>
    rcases w.item (str operation.val.itemId) with - | item
    · simp
    · rcases operation.val.status with - | target
      · simp
      · simp
  all_goals simp

theorem somethingCounts_nil : ¬ SomethingCounts w [] := by
  rintro ⟨before, operation, after, hsplit, -⟩
  cases before <;> cases hsplit

/-- The first operation counts, or one of the others does at what the first
one made. -/
theorem somethingCounts_cons
    (hs : ∀ itemId, w'.statusOf itemId = (itemWrite operation itemId).or (w.statusOf itemId)) :
    SomethingCounts w (operation :: operations) ↔
      Counts w.statusOf operation ∨ SomethingCounts w' operations := by
  have hlater (before : List TaskOperation) :
      (fun itemId => (lastItemWrite itemId (operation :: before)).or (w.statusOf itemId)) =
        fun itemId => (lastItemWrite itemId before).or (w'.statusOf itemId) := by
    funext itemId
    rw [lastItemWrite, Option.or_assoc, hs]
  constructor
  · rintro ⟨before, op, after, hsplit, hc⟩
    rcases before with - | ⟨first, before⟩
    · obtain ⟨rfl, -⟩ := List.cons.inj hsplit
      exact .inl hc
    · obtain ⟨rfl, htail⟩ := List.cons.inj hsplit
      rw [hlater] at hc
      exact .inr ⟨before, op, after, htail, hc⟩
  · rintro (hc | ⟨before, op, after, rfl, hc⟩)
    · exact ⟨[], operation, operations, rfl, hc⟩
    · refine ⟨operation :: before, op, after, rfl, ?_⟩
      rw [hlater]
      exact hc

/-- **What the loop finds of progress.** -/
theorem progressed_iff {progressed progressed' : Bool}
    (h : validateOperations profile proposal allowPrivileged w progressed operations =
      .ok (.ok progressed')) :
    progressed' = true ↔ progressed = true ∨ SomethingCounts w operations := by
  induction operations generalizing w progressed with
  | nil =>
    cases h
    rw [or_iff_left somethingCounts_nil]
  | cons operation operations ih =>
    obtain ⟨hv, w', ha, -, hrest⟩ := validateOperations_cons h fun _ h => nomatch h
    rw [ih hrest, somethingCounts_cons (statusOf_step hv ha), Bool.or_eq_true, isProgress_iff,
      or_assoc]

/-! ## What moved -/

/-- A new constraint is satisfied by a later operation only. -/
theorem newConstraint_satisfied {after : List TaskOperation} :
    (onConstraints after operation.newConstraint).satisfied = true ↔
      ∃ later ∈ after, later.satisfies (str operation.val.constraintId) = true := by
  rw [onConstraints_eq]
  simp [TaskOperation.newConstraint]

/-- A constraint became satisfied exactly where an operation satisfies one
that was not, or one that was added before it. -/
theorem constraintMoved_iff (h : operations.foldlM applyOperation state.draft = .ok next.draft) :
    (∃ (i : ℕ) (row : TaskConstraint), next.val.constraints[i]? = some row ∧
      row.val.satisfied = true ∧
      ∀ before, state.val.constraints[i]? = some before → before.val.satisfied = false) ↔
    (∃ row ∈ state.val.constraints, row.val.satisfied = false ∧
      ∃ operation ∈ operations, operation.satisfies row.val.constraintId = true) ∨
    ∃ before operation after, operations = before ++ operation :: after ∧
      operation.val.kind = .addConstraint ∧
      ∃ later ∈ after, later.satisfies (str operation.val.constraintId) = true := by
  have hrows : next.val.constraints.map Subtype.val =
      (state.val.constraints.map Subtype.val).map (onConstraints operations) ++
        addedRows operations := rowsOf_foldlM h
  have hlookup (i : ℕ) : (next.val.constraints[i]?).map Subtype.val =
      ((state.val.constraints.map Subtype.val).map (onConstraints operations) ++
        addedRows operations)[i]? := by
    rw [← hrows, List.getElem?_map]
  have hnext (i : ℕ) (row : TaskConstraintFields)
      (hi : ((state.val.constraints.map Subtype.val).map (onConstraints operations) ++
        addedRows operations)[i]? = some row) :
      ∃ held : TaskConstraint, next.val.constraints[i]? = some held ∧ held.val = row :=
    Option.map_eq_some_iff.mp ((hlookup i).trans hi)
  constructor
  · rintro ⟨i, row, hi, hsat, hbase⟩
    have hrow := hlookup i
    rw [hi, Option.map_some] at hrow
    rcases hb : state.val.constraints[i]? with - | before
    · -- a row that was added
      refine .inr ?_
      rw [List.getElem?_append_right (by simpa using List.getElem?_eq_none_iff.mp hb)] at hrow
      obtain ⟨before, op, after, hsplit, hk, heq⟩ :=
        mem_addedRows.mp (List.mem_of_getElem? hrow.symm)
      rw [heq] at hsat
      exact ⟨before, op, after, hsplit, hk, newConstraint_satisfied.mp hsat⟩
    · -- a row that was there
      refine .inl ⟨before, List.mem_of_getElem? hb, hbase before hb, ?_⟩
      have hlt := (List.getElem?_eq_some_iff.mp hb).1
      rw [List.getElem?_append_left (by simpa using hlt), List.getElem?_map, List.getElem?_map, hb]
        at hrow
      have heq : row.val = onConstraints operations before.val := Option.some.inj hrow
      rw [heq, onConstraints_eq, hbase before hb] at hsat
      simpa using hsat
  · rintro (⟨before, hmem, hbase, op, hop, hs⟩ | ⟨before, op, after, hsplit, hk, hlater⟩)
    · obtain ⟨i, hi⟩ := List.mem_iff_getElem?.mp hmem
      have hlt := (List.getElem?_eq_some_iff.mp hi).1
      obtain ⟨held, hheld, hval⟩ := hnext i (onConstraints operations before.val) (by
        rw [List.getElem?_append_left (by simpa using hlt), List.getElem?_map, List.getElem?_map,
          hi]
        rfl)
      refine ⟨i, held, hheld, ?_, fun before' hb => ?_⟩
      · rw [hval, onConstraints_eq]
        simp only [Bool.or_eq_true, List.any_eq_true]
        exact .inr ⟨op, hop, hs⟩
      · obtain rfl := Option.some.inj (hi.symm.trans hb)
        exact hbase
    · obtain ⟨i, hi⟩ := List.mem_iff_getElem?.mp (mem_addedRows.mpr ⟨before, op, after, hsplit, hk,
        rfl⟩)
      obtain ⟨held, hheld, hval⟩ :=
        hnext (state.val.constraints.length + i) (onConstraints after op.newConstraint)
          (by rw [List.getElem?_append_right (by simp)]; simpa using hi)
      refine ⟨_, held, hheld, ?_, fun before' hb => ?_⟩
      · rw [hval]
        exact newConstraint_satisfied.mpr hlater
      · have hlt := (List.getElem?_eq_some_iff.mp hb).1
        omega

/-- An item newly moved exactly where the last status written to it says so. -/
theorem itemMoved_iff
    (hs : ∀ itemId, next.statusOf itemId =
      (lastItemWrite itemId operations).or (state.statusOf itemId)) :
    (∃ item ∈ next.val.items, item.val.status ∈ progressStatuses ∧
      state.statusOf item.val.itemId ≠ some item.val.status) ↔
    ∃ itemId status, lastItemWrite itemId operations = some status ∧
      status ∈ progressStatuses ∧ state.statusOf itemId ≠ some status := by
  constructor
  · rintro ⟨item, hi, hp, hne⟩
    have hstatus : next.statusOf item.val.itemId = some item.val.status := by
      rw [TaskState.statusOf, item_eq_some_iff.mpr ⟨hi, rfl⟩]
      rfl
    rw [hs] at hstatus
    refine ⟨item.val.itemId, item.val.status, ?_, hp, hne⟩
    rcases hl : lastItemWrite item.val.itemId operations with - | status
    · rw [hl] at hstatus
      exact absurd hstatus hne
    · rw [hl] at hstatus
      exact hstatus
  · rintro ⟨itemId, status, hl, hp, hne⟩
    have hstatus : next.statusOf itemId = some status := by
      rw [hs, hl]
      rfl
    obtain ⟨item, hitem, rfl⟩ := Option.map_eq_some_iff.mp hstatus
    obtain ⟨hmem, rfl⟩ := mem_of_item_eq_some hitem
    exact ⟨item, hmem, hp, hne⟩

/-- The statuses an accepted proposal commits. -/
theorem Acceptance.statusOf_next
    (h : Acceptance H state profile proposal nowIso known allowPrivileged decision next)
    (itemId : String) :
    next.statusOf itemId =
      (lastItemWrite itemId proposal.val.operations).or (state.statusOf itemId) := by
  obtain ⟨last, hrun, hd⟩ := h.accepted
  rw [← statusOf_run hrun]
  have hitems : next.val.items = last.val.items := congrArg Draft.items hd
  unfold TaskState.statusOf TaskState.item
  rw [hitems]

/-- **Something moved exactly where a movement lasts.** -/
theorem Acceptance.moved_iff
    (h : Acceptance H state profile proposal nowIso known allowPrivileged decision next) :
    Moved state next ↔ MovementLasts state proposal.val.operations := by
  obtain ⟨hfold, -⟩ := applyOperations_eq_ok h.applied
  have hphase : next.val.phase = _ := phase_foldlM hfold
  have hsources : next.val.completedSources = _ := completedSources_foldlM hfold
  refine or_congr ?_ (or_congr (itemMoved_iff h.statusOf_next)
    (or_congr (constraintMoved_iff hfold) ?_))
  · rw [hphase]
    rcases lastPhaseWrite proposal.val.operations with - | phase
    · simp [TaskState.draft]
    · simp
  · rw [hsources]
    simp only [mem_foldl_addSource, List.mem_filterMap]
    constructor
    · rintro ⟨source, hbase | ⟨op, hop, hmark⟩, hnew⟩
      · exact absurd hbase hnew
      · exact ⟨op, hop, source, hmark, hnew⟩
    · rintro ⟨op, hop, source, hmark, hnew⟩
      exact ⟨source, .inr ⟨op, hop, hmark⟩, hnew⟩

/-- The clock only moves with progress. -/
theorem Acceptance.isProgress_of_clock
    (h : Acceptance H state profile proposal nowIso known allowPrivileged decision next)
    (hclock : next.val.lastProgressAt ≠ state.val.lastProgressAt) : decision.isProgress = true := by
  obtain ⟨-, hclose⟩ := applyOperations_eq_ok h.applied
  by_contra hidle
  rw [if_neg hidle] at hclose
  refine hclock ?_
  rw [hclose]
  change (if truthy (some state.val.lastProgressAt) = true then str (some state.val.lastProgressAt)
    else state.val.lastProgressAt) = _
  split <;> rfl

/-- **Progress is honest exactly where a movement lasts, or nothing counts.**
Of an accepted proposal that is taken for progress, or that moves the clock
of the task, something moved between the base and what is committed if and
only if the last word of its operations on something is a movement, or none
of its operations counts at the statuses the ones before it wrote. -/
theorem progress_honest_iff
    (h : evaluate H state profile proposal nowIso known allowPrivileged = .ok decision)
    (ha : decision.accepted = true) (hn : decision.nextState = some next) :
    ((decision.isProgress = true ∨ next.val.lastProgressAt ≠ state.val.lastProgressAt) →
      Moved state next) ↔
    (SomethingCounts state proposal.val.operations →
      MovementLasts state proposal.val.operations) := by
  obtain ⟨next', hacc⟩ := acceptance_of_evaluate h ha
  obtain rfl : next' = next := Option.some.inj (hacc.nextState.symm.trans hn)
  have hcounts : decision.isProgress = true ↔ SomethingCounts state proposal.val.operations := by
    rw [progressed_iff hacc.progressed]
    simp
  rw [hacc.moved_iff, or_iff_left_of_imp hacc.isProgress_of_clock, hcounts]

/-! ## A restatement that counts -/

/-- The phase the task is in, asked for again. -/
def samePhaseOperation : TaskOperation :=
  ⟨{ kind := .setPhase, phase := some "plan" }, by decide +kernel⟩

/-- The phase the task is in, and a change of an item's content. -/
def restatingProposal : TaskStateProposal :=
  ⟨{ exampleProposal contentOperation with operations := [samePhaseOperation, contentOperation] },
    by decide +kernel⟩

/-- The phase that is stated again counts as progress. -/
theorem restatement_counts :
    ¬ ∀ (H : Hashing) (state next : TaskState) (profile : TaskProfile)
      (proposal : TaskStateProposal) (nowIso : String) (known : Option (List String))
      (decision : PolicyDecision),
      evaluate H state profile proposal nowIso known false = .ok decision →
      decision.accepted = true → decision.nextState = some next →
      (decision.isProgress = true ∨ next.val.lastProgressAt ≠ state.val.lastProgressAt) →
      Moved state next := by
  intro hall
  have hc : ((committed (evaluate exampleHashing completedState generalV1 restatingProposal "n" none
      false)).any fun next => next.val.lastProgressAt = "n" && next.val.phase = "plan" &&
        next.val.items.all (fun item =>
          completedState.statusOf item.val.itemId = some item.val.status) &&
        next.val.constraints = [] && next.val.completedSources = []) = true := by
    decide +kernel
  obtain ⟨decision, next, he, ha, hn, hb⟩ := committed_any hc
  simp only [Bool.and_eq_true, decide_eq_true_eq, List.all_eq_true] at hb
  obtain ⟨⟨⟨⟨hclock, hphase⟩, hitems⟩, hconstraints⟩, hsources⟩ := hb
  have hmoved := hall _ _ _ _ _ _ _ _ he ha hn (.inr (by rw [hclock]; decide))
  rcases hmoved with h | ⟨item, hi, -, hne⟩ | ⟨i, row, hrow, -⟩ | ⟨source, hs, -⟩
  · exact h hphase
  · exact hne (hitems item hi)
  · rw [hconstraints] at hrow
    cases hrow
  · rw [hsources] at hs
    cases hs

/-- The law at a change of content: nothing in it counts. -/
theorem progress_honest_of_content :
    ∃ decision next, evaluate exampleHashing completedState generalV1 contentProposal "n" none
      false = .ok decision ∧
      ((decision.isProgress = true ∨
        next.val.lastProgressAt ≠ completedState.val.lastProgressAt) →
        Moved completedState next) := by
  have hc : ((committed (evaluate exampleHashing completedState generalV1 contentProposal "n" none
      false)).any fun _ => true) = true := by decide +kernel
  obtain ⟨decision, next, he, ha, hn, -⟩ := committed_any hc
  refine ⟨decision, next, he, (progress_honest_iff he ha hn).mpr ?_⟩
  rintro ⟨before, op, after, hsplit, hcount⟩
  have hop : op ∈ contentProposal.val.operations := by
    rw [hsplit]
    exact List.mem_append_right _ List.mem_cons_self
  obtain rfl := List.mem_singleton.mp hop
  rcases hcount with hk | hk | hk | ⟨hk, -⟩ <;> cases hk

end Atmem
