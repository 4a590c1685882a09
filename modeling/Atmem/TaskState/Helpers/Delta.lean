import Atmem.TaskState.Helpers.Apply
/-!
# What a delta makes of the rest of a snapshot

Beside the items (`Apply.lean`): the constraints, the phase, the inspected
sources and the lock, after any number of operations. A constraint is only
ever satisfied, a source only ever added, the lock only ever set, and the
phase is the last that was asked for.
-/

namespace Atmem

open Checked

variable {H : Hashing} {state next w w' last : TaskState} {profile : TaskProfile}
variable {proposal : TaskStateProposal} {operation : TaskOperation}
variable {operations : List TaskOperation} {draft draft' : Draft} {allowPrivileged : Bool}

/-! ## Constraints -/

/-- The fields of a list of constraints. -/
def rowsOf (constraints : List TaskConstraint) : List TaskConstraintFields :=
  constraints.map Subtype.val

/-- What an operation makes of one constraint. -/
def TaskOperation.onConstraint (operation : TaskOperation) (row : TaskConstraintFields) :
    TaskConstraintFields :=
  if operation.val.kind = .satisfyConstraint ∧
      row.constraintId = str operation.val.constraintId then
    { row with satisfied := true }
  else row

/-- The constraint an operation adds, if it adds one. -/
def TaskOperation.addedConstraint (operation : TaskOperation) : List TaskConstraintFields :=
  if operation.val.kind = .addConstraint then [operation.newConstraint] else []

@[simp] theorem onConstraint_id (row : TaskConstraintFields) :
    (operation.onConstraint row).constraintId = row.constraintId := by
  unfold TaskOperation.onConstraint
  split <;> rfl

theorem onConstraint_of_kind_ne (h : operation.val.kind ≠ .satisfyConstraint)
    (rows : List TaskConstraintFields) : rows.map operation.onConstraint = rows := by
  refine List.map_id'' (fun row => ?_) rows
  exact if_neg fun hk => h hk.1

/-- **What one operation makes of the constraints.** -/
theorem rowsOf_applyOperation (h : applyOperation draft operation = .ok draft') :
    rowsOf draft'.constraints =
      (rowsOf draft.constraints).map operation.onConstraint ++ operation.addedConstraint := by
  -- most kinds leave the constraints alone
  have hother (hs : operation.val.kind ≠ .satisfyConstraint) (ha : operation.val.kind ≠ .addConstraint)
      (hc : draft'.constraints = draft.constraints) :
      rowsOf draft'.constraints =
        (rowsOf draft.constraints).map operation.onConstraint ++ operation.addedConstraint := by
    rw [onConstraint_of_kind_ne hs, TaskOperation.addedConstraint, if_neg ha, hc, List.append_nil]
  unfold applyOperation at h
  split at h <;> rename_i hk
  case h_6 =>
    obtain ⟨row, hm, h⟩ := bind_eq_ok_iff.mp h
    cases h
    rw [onConstraint_of_kind_ne (by rw [hk]; decide), TaskOperation.addedConstraint, if_pos hk]
    simp [rowsOf, make_eq_ok.mp hm]
  case h_7 =>
    obtain ⟨rows, hr, h⟩ := bind_eq_ok_iff.mp h
    cases h
    -- the row with the identifier is satisfied, every other is kept
    have hmap := map_of_mapM_eq_ok (v := Subtype.val)
      (g := fun row : TaskConstraint => operation.onConstraint row.val) (fun a b hab => ?_) hr
    · rw [TaskOperation.addedConstraint, if_neg (by rw [hk]; decide), List.append_nil]
      simpa [rowsOf, Function.comp_def] using hmap
    · unfold TaskOperation.onConstraint
      split at hab
      · rw [make_eq_ok.mp hab, if_pos ⟨hk, ‹_›⟩]
      · cases hab
        rw [if_neg fun hk' => ‹¬ _› hk'.2]
  case h_2 | h_3 | h_4 | h_5 =>
    obtain ⟨items, -, h⟩ := bind_eq_ok_iff.mp h
    cases h
    exact hother (by rw [hk]; decide) (by rw [hk]; decide) rfl
  case h_8 =>
    cases h
    exact hother (by rw [hk]; decide) (by rw [hk]; decide) (by split <;> rfl)
  case h_1 | h_9 =>
    cases h
    exact hother (by rw [hk]; decide) (by rw [hk]; decide) rfl

/-- What a list of operations makes of one constraint. -/
def onConstraints (operations : List TaskOperation) (row : TaskConstraintFields) :
    TaskConstraintFields :=
  operations.foldl (fun row operation => operation.onConstraint row) row

/-- The constraints a list of operations adds, each as the later ones made
it. -/
def addedRows : List TaskOperation → List TaskConstraintFields
  | [] => []
  | operation :: operations =>
    operation.addedConstraint.map (onConstraints operations) ++ addedRows operations

/-- **The constraints that were there come first**, each as the operations
made it; after them come those that were added. -/
theorem rowsOf_foldlM (h : operations.foldlM applyOperation draft = .ok draft') :
    rowsOf draft'.constraints =
      (rowsOf draft.constraints).map (onConstraints operations) ++ addedRows operations := by
  induction operations generalizing draft with
  | nil =>
    cases h
    rw [addedRows, List.append_nil]
    exact (List.map_id'' (fun _ => rfl) _).symm
  | cons operation operations ih =>
    rw [List.foldlM_cons] at h
    obtain ⟨draft₁, h₁, h₂⟩ := bind_eq_ok_iff.mp h
    rw [ih h₂, rowsOf_applyOperation h₁, addedRows, List.map_append, List.map_map,
      List.append_assoc]
    rfl

/-- Every constraint that was added is the work of one operation. -/
theorem mem_addedRows {row : TaskConstraintFields} :
    row ∈ addedRows operations ↔ ∃ before operation after,
      operations = before ++ operation :: after ∧ operation.val.kind = .addConstraint ∧
        row = onConstraints after operation.newConstraint := by
  induction operations with
  | nil => simp [addedRows]
  | cons operation operations ih =>
    rw [addedRows, List.mem_append, ih]
    constructor
    · rintro (hrow | ⟨before, op, after, rfl, hk, hrow⟩)
      · unfold TaskOperation.addedConstraint at hrow
        split at hrow
        · exact ⟨[], operation, operations, rfl, ‹_›, List.mem_singleton.mp hrow⟩
        · cases hrow
      · exact ⟨operation :: before, op, after, rfl, hk, hrow⟩
    · rintro ⟨before, op, after, hsplit, hk, hrow⟩
      rcases before with - | ⟨first, before⟩
      · obtain ⟨rfl, rfl⟩ := List.cons.inj hsplit
        refine .inl ?_
        rw [TaskOperation.addedConstraint, if_pos hk, hrow]
        exact List.mem_cons_self
      · exact .inr ⟨before, op, after, (List.cons.inj hsplit).2, hk, hrow⟩

/-- Whether an operation satisfies the constraint of an identity. -/
def TaskOperation.satisfies (operation : TaskOperation) (constraintId : String) : Bool :=
  operation.val.kind = .satisfyConstraint && constraintId = str operation.val.constraintId

/-- A constraint is satisfied once an operation satisfies it, and stays as it
is otherwise. -/
theorem onConstraints_eq (row : TaskConstraintFields) :
    onConstraints operations row =
      { row with satisfied := row.satisfied || operations.any (·.satisfies row.constraintId) } := by
  induction operations generalizing row with
  | nil => simp [onConstraints]
  | cons operation operations ih =>
    change onConstraints operations (operation.onConstraint row) = _
    rw [ih, onConstraint_id]
    unfold TaskOperation.onConstraint TaskOperation.satisfies
    by_cases hs : operation.val.kind = .satisfyConstraint ∧
        row.constraintId = str operation.val.constraintId
    · rw [if_pos hs]
      simp [hs.1, hs.2]
    · rw [if_neg hs]
      have hf : (decide (operation.val.kind = .satisfyConstraint) &&
          decide (row.constraintId = str operation.val.constraintId)) = false := by
        simpa using hs
      simp [hf]

/-! ## The phase, the sources and the lock -/

/-- The phase an operation asks for. -/
def phaseWrite (operation : TaskOperation) : Option String :=
  if operation.val.kind = .setPhase then some (str operation.val.phase) else none

/-- The last phase a list of operations asks for. -/
def lastPhaseWrite : List TaskOperation → Option String
  | [] => none
  | operation :: operations => (lastPhaseWrite operations).or (phaseWrite operation)

/-- An operation writes the phase, or leaves it. -/
theorem phase_applyOperation (h : applyOperation draft operation = .ok draft') :
    draft'.phase = (phaseWrite operation).getD draft.phase := by
  unfold applyOperation at h
  split at h <;> rename_i hk
  case h_1 =>
    cases h
    rw [phaseWrite, if_pos hk]
    rfl
  case h_8 =>
    cases h
    have hw : phaseWrite operation = none := if_neg (by rw [hk]; decide)
    rw [hw]
    split <;> rfl
  case h_9 =>
    cases h
    have hw : phaseWrite operation = none := if_neg (by rw [hk]; decide)
    rw [hw]
    rfl
  all_goals
    obtain ⟨_, -, h⟩ := bind_eq_ok_iff.mp h
    cases h
    have hw : phaseWrite operation = none := if_neg (by rw [hk]; decide)
    rw [hw]
    rfl

/-- The last write of the phase counts. -/
theorem phase_foldlM (h : operations.foldlM applyOperation draft = .ok draft') :
    draft'.phase = (lastPhaseWrite operations).getD draft.phase := by
  induction operations generalizing draft with
  | nil =>
    cases h
    rfl
  | cons operation operations ih =>
    rw [List.foldlM_cons] at h
    obtain ⟨draft₁, h₁, h₂⟩ := bind_eq_ok_iff.mp h
    rw [ih h₂, phase_applyOperation h₁, lastPhaseWrite]
    cases lastPhaseWrite operations <;> rfl

/-- The source an operation marks as inspected. -/
def sourceMark (operation : TaskOperation) : Option String :=
  if operation.val.kind = .markSourceInspected then some (str operation.val.sourceId) else none

/-- One more source. -/
def addSource (sources : List String) (source : String) : List String :=
  if source ∈ sources then sources else sources ++ [source]

/-- An operation marks a source, or none. -/
theorem completedSources_applyOperation (h : applyOperation draft operation = .ok draft') :
    draft'.completedSources = (sourceMark operation).toList.foldl addSource draft.completedSources := by
  unfold sourceMark
  unfold applyOperation at h
  split at h <;> rename_i hk
  case h_8 =>
    cases h
    rw [if_pos hk]
    change _ = addSource draft.completedSources (str operation.val.sourceId)
    unfold addSource
    split <;> rfl
  case h_1 | h_9 =>
    cases h
    rw [if_neg (by rw [hk]; decide)]
    rfl
  all_goals
    obtain ⟨_, -, h⟩ := bind_eq_ok_iff.mp h
    cases h
    rw [if_neg (by rw [hk]; decide)]
    rfl

/-- **The inspected sources** are those that were, and those that are marked. -/
theorem completedSources_foldlM (h : operations.foldlM applyOperation draft = .ok draft') :
    draft'.completedSources =
      (operations.filterMap sourceMark).foldl addSource draft.completedSources := by
  induction operations generalizing draft with
  | nil =>
    cases h
    rfl
  | cons operation operations ih =>
    rw [List.foldlM_cons] at h
    obtain ⟨draft₁, h₁, h₂⟩ := bind_eq_ok_iff.mp h
    rw [ih h₂, completedSources_applyOperation h₁, List.filterMap_cons]
    cases sourceMark operation <;> rfl

/-- Sources are added at the end. -/
theorem prefix_foldl_addSource (sources marks : List String) :
    sources <+: marks.foldl addSource sources := by
  induction marks generalizing sources with
  | nil => exact List.prefix_refl _
  | cons mark marks ih =>
    refine List.IsPrefix.trans ?_ (ih (addSource sources mark))
    unfold addSource
    split
    · exact List.prefix_refl _
    · exact List.prefix_append _ _

/-- And once each. -/
theorem nodup_foldl_addSource {sources : List String} (h : sources.Nodup) (marks : List String) :
    (marks.foldl addSource sources).Nodup := by
  induction marks generalizing sources with
  | nil => exact h
  | cons mark marks ih =>
    refine ih ?_
    unfold addSource
    split
    · exact h
    · rename_i hnew
      exact List.nodup_append.mpr ⟨h, List.nodup_singleton _, fun a ha b hb heq =>
        hnew (List.mem_singleton.mp hb ▸ heq ▸ ha)⟩

/-- The sources are those before and those marked. -/
theorem mem_foldl_addSource {sources marks : List String} {source : String} :
    source ∈ marks.foldl addSource sources ↔ source ∈ sources ∨ source ∈ marks := by
  induction marks generalizing sources with
  | nil => simp
  | cons mark marks ih =>
    rw [List.foldl_cons, ih, List.mem_cons]
    unfold addSource
    split
    · rename_i hmem
      constructor
      · rintro (h | h)
        · exact .inl h
        · exact .inr (.inr h)
      · rintro (h | rfl | h)
        · exact .inl h
        · exact .inl hmem
        · exact .inr h
    · rw [List.mem_append, List.mem_singleton, or_assoc]

/-- A schema that is locked stays so. -/
theorem schemaLocked_applyOperation (h : applyOperation draft operation = .ok draft') :
    draft'.schemaLocked = (draft.schemaLocked || operation.val.kind = .lockSchema) := by
  unfold applyOperation at h
  split at h <;> rename_i hk <;> rw [hk]
  case h_1 | h_9 =>
    cases h
    simp
  case h_8 =>
    cases h
    split <;> simp
  all_goals
    obtain ⟨_, -, h⟩ := bind_eq_ok_iff.mp h
    cases h
    simp

/-- The lock is never taken off. -/
theorem schemaLocked_foldlM (h : operations.foldlM applyOperation draft = .ok draft')
    (hlocked : draft.schemaLocked = true) : draft'.schemaLocked = true := by
  induction operations generalizing draft with
  | nil =>
    cases h
    exact hlocked
  | cons operation operations ih =>
    rw [List.foldlM_cons] at h
    obtain ⟨draft₁, h₁, h₂⟩ := bind_eq_ok_iff.mp h
    refine ih h₂ ?_
    rw [schemaLocked_applyOperation h₁, hlocked, Bool.true_or]

/-! ## What the loop lets through -/

/-- One operation, in the loop: only the draft changes. -/
theorem validateOperations_cons {progressed : Bool} {verdict : Except ReasonCode Bool}
    (h : validateOperations profile proposal allowPrivileged w progressed
      (operation :: operations) = .ok verdict) (hok : ∀ code, verdict ≠ .error code) :
    validateOperation operation w profile proposal allowPrivileged = none ∧
      ∃ w', applyOperation w.draft operation = .ok w'.draft ∧
        w'.val.sourcesToInspect = w.val.sourcesToInspect ∧
        validateOperations profile proposal allowPrivileged w'
          (progressed || isProgress operation w) operations = .ok verdict := by
  unfold validateOperations at h
  split at h
  · cases h
    exact absurd rfl (hok _)
  · rename_i hv
    obtain ⟨w', ha, h⟩ := bind_eq_ok_iff.mp h
    obtain ⟨hd, hclose⟩ := applyOperations_eq_ok ha
    refine ⟨hv, w', ?_, ?_, h⟩
    · simpa [List.foldlM_cons] using hd
    · rw [hclose]
      rfl

/-- A source that is marked is one there is to inspect. -/
theorem mem_sourcesToInspect {progressed progressed' : Bool}
    (h : validateOperations profile proposal allowPrivileged w progressed operations =
      .ok (.ok progressed')) {source : String} (hs : source ∈ operations.filterMap sourceMark) :
    source ∈ w.val.sourcesToInspect := by
  induction operations generalizing w progressed with
  | nil => cases hs
  | cons operation operations ih =>
    obtain ⟨hv, w', -, hsources, hrest⟩ := validateOperations_cons h fun _ h => nomatch h
    obtain ⟨op, hop, hmark⟩ := List.mem_filterMap.mp hs
    rcases List.mem_cons.mp hop with rfl | hop
    · unfold sourceMark at hmark
      split at hmark
      · rename_i hk
        have hpassed := validateOperation_eq_none hv
        rw [hk] at hpassed
        rw [← Option.some.inj hmark]
        exact hpassed
      · cases hmark
    · rw [← hsources]
      exact ih hrest (List.mem_filterMap.mpr ⟨op, hop, hmark⟩)

end Atmem
