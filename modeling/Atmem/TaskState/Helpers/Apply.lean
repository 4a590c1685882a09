import Atmem.TaskState.Model.Policy
/-!
# What operations make of a snapshot

An operation acts on each item of a snapshot and adds at most one, and
the snapshot an accepted proposal commits is the one the validation loop
arrived at, operation by operation. Everything a proposal can do to an
item is read off these two facts.
-/

namespace Atmem

open Checked

variable {H : Hashing} {state next w w' last : TaskState} {profile : TaskProfile}
variable {proposal : TaskStateProposal} {operation : TaskOperation}
variable {operations : List TaskOperation} {draft draft' : Draft}

/-! ## Items of a snapshot -/

/-- What the check of a snapshot asks of its items. -/
structure ItemsFit (items : List TaskItem) : Prop where
  bound : items.length ≤ maxItems
  unique : (itemIds items).Nodup
  known : ∀ item ∈ items, ∀ id ∈ item.val.dependsOn, id ∈ itemIds items

/-- What the checks of a state are. -/
theorem taskState_postInit_eq_ok {f : TaskStateFields} :
    f.postInit = .ok () ↔
      isIdentifier (strip f.taskId) = true ∧ 1 ≤ f.revision ∧ ItemsFit f.items := by
  unfold TaskStateFields.postInit
  simp only [bind_eq_ok, identifier_eq_ok, ensure_eq_ok, ensureAll_eq_ok, List.filter_eq_nil_iff,
    decide_eq_true_eq, not_not]
  constructor
  · rintro ⟨htask, hrev, hbound, hunique, hknown⟩
    exact ⟨htask, hrev, hbound, hunique, hknown⟩
  · rintro ⟨htask, hrev, hbound, hunique, hknown⟩
    exact ⟨htask, hrev, hbound, hunique, hknown⟩

/-- The items of a state fit. -/
theorem itemsFit (state : TaskState) : ItemsFit state.val.items :=
  (taskState_postInit_eq_ok.mp state.2).2.2

/-- The fields of a list of items. -/
def fieldsOf (items : List TaskItem) : List TaskItemFields := items.map Subtype.val

/-- No two items of a snapshot share an identity. -/
theorem nodup_itemIds (state : TaskState) : (itemIds state.val.items).Nodup :=
  (itemsFit state).unique

/-- Two items of a snapshot with one identity are one item. -/
theorem eq_of_itemId_eq {a b : TaskItem} (ha : a ∈ state.val.items) (hb : b ∈ state.val.items)
    (h : a.val.itemId = b.val.itemId) : a = b :=
  List.inj_on_of_nodup_map (nodup_itemIds state) ha hb h

/-- An item that is found is one of the state. -/
theorem mem_of_item_eq_some {itemId : String} {item : TaskItem}
    (h : state.item itemId = some item) : item ∈ state.val.items ∧ item.val.itemId = itemId :=
  ⟨List.mem_of_find?_eq_some h, by simpa using List.find?_some h⟩

/-- **A lookup finds the item of the identity.** -/
theorem item_eq_some_iff {itemId : String} {item : TaskItem} :
    state.item itemId = some item ↔ item ∈ state.val.items ∧ item.val.itemId = itemId := by
  constructor
  · exact mem_of_item_eq_some
  · rintro ⟨hm, rfl⟩
    rcases hf : state.item item.val.itemId with - | found
    · have := List.find?_eq_none.mp hf item hm
      simp at this
    · obtain ⟨hm', hid⟩ := mem_of_item_eq_some hf
      rw [eq_of_itemId_eq hm' hm hid]

/-- An identifier is found exactly if an item has it. -/
theorem item_isSome_iff {itemId : String} :
    (state.item itemId).isSome = true ↔ ∃ item ∈ state.val.items, item.val.itemId = itemId := by
  rw [Option.isSome_iff_exists]
  exact exists_congr fun item => item_eq_some_iff

/-! ## One operation -/

/-- What an operation makes of one item. -/
def TaskOperation.onItem (operation : TaskOperation) (item : TaskItemFields) : TaskItemFields :=
  if item.itemId = str operation.val.itemId then
    match operation.val.kind with
    | .setItemStatus => operation.setStatus item
    | .setItemContent => { item with content := operation.val.content.getD [] }
    | .setItemBlocker => operation.setBlocker item
    | _ => item
  else item

/-- What an operation adds. -/
def TaskOperation.added (operation : TaskOperation) : List TaskItemFields :=
  if operation.val.kind = .addItem then [operation.newItem] else []

@[simp] theorem onItem_itemId (item : TaskItemFields) :
    (operation.onItem item).itemId = item.itemId := by
  unfold TaskOperation.onItem
  split
  · split <;> rfl
  · rfl

@[simp] theorem onItem_dependsOn (item : TaskItemFields) :
    (operation.onItem item).dependsOn = item.dependsOn := by
  unfold TaskOperation.onItem
  split
  · split <;> rfl
  · rfl

/-- Rebuilding the items of an identity rewrites their fields. -/
theorem fieldsOf_replaceItem {items items' : List TaskItem} {itemId : String}
    {change : TaskItemFields → TaskItemFields} (h : replaceItem items itemId change = .ok items') :
    fieldsOf items' =
      (fieldsOf items).map fun item => if item.itemId = itemId then change item else item := by
  have hmap := map_of_mapM_eq_ok (v := Subtype.val)
    (g := fun item : TaskItem => if item.val.itemId = itemId then change item.val else item.val)
    (fun a b hab => ?_) h
  · simpa [fieldsOf, Function.comp_def] using hmap
  · split at hab
    · rw [make_eq_ok.mp hab, if_pos ‹_›]
    · cases hab
      rw [if_neg ‹_›]

/-- An operation that names no item leaves every item as it is. -/
theorem map_onItem_of_requiresItem_eq_false (h : operation.val.kind.requiresItem = false)
    (items : List TaskItemFields) : items.map operation.onItem = items := by
  refine List.map_id'' (fun item => ?_) items
  unfold TaskOperation.onItem
  split
  · split <;> simp_all [OperationKind.requiresItem]
  · rfl

/-- **What one operation makes of the items.** -/
theorem fieldsOf_applyOperation (h : applyOperation draft operation = .ok draft') :
    fieldsOf draft'.items = (fieldsOf draft.items).map operation.onItem ++ operation.added := by
  have hother (hk : operation.val.kind.requiresItem = false) (hi : draft'.items = draft.items) :
      fieldsOf draft'.items = (fieldsOf draft.items).map operation.onItem ++ operation.added := by
    have hadd : operation.val.kind ≠ .addItem := fun ha => by rw [ha] at hk; cases hk
    rw [map_onItem_of_requiresItem_eq_false hk, TaskOperation.added, if_neg hadd, hi,
      List.append_nil]
  unfold applyOperation at h
  split at h <;> rename_i hk
  case h_2 | h_4 | h_5 =>
    obtain ⟨items, hr, h⟩ := bind_eq_ok_iff.mp h
    cases h
    simp [fieldsOf_replaceItem hr, TaskOperation.onItem, TaskOperation.added, hk]
  case h_3 =>
    obtain ⟨item, hm, h⟩ := bind_eq_ok_iff.mp h
    cases h
    have hitem (i : TaskItemFields) : operation.onItem i = i := by
      simp [TaskOperation.onItem, hk]
    simp [fieldsOf, TaskOperation.added, hk, make_eq_ok.mp hm, funext hitem]
  case h_6 | h_7 =>
    obtain ⟨rows, -, h⟩ := bind_eq_ok_iff.mp h
    cases h
    exact hother (by rw [hk]; rfl) rfl
  case h_8 =>
    cases h
    exact hother (by rw [hk]; rfl) (by split <;> rfl)
  case h_1 | h_9 =>
    cases h
    exact hother (by rw [hk]; rfl) rfl

/-- What a list of operations makes of one item. -/
def onItems (operations : List TaskOperation) (item : TaskItemFields) : TaskItemFields :=
  operations.foldl (fun item operation => operation.onItem item) item

/-- No operation changes an item's identifier. -/
@[simp] theorem onItems_itemId (item : TaskItemFields) :
    (onItems operations item).itemId = item.itemId := by
  induction operations generalizing item with
  | nil => rfl
  | cons operation operations ih =>
    exact (ih (operation.onItem item)).trans (onItem_itemId item)

/-- **The items that were there come first**, each as the operations made
it. -/
theorem fieldsOf_foldlM (h : operations.foldlM applyOperation draft = .ok draft') :
    ∃ rest, fieldsOf draft'.items = (fieldsOf draft.items).map (onItems operations) ++ rest := by
  induction operations generalizing draft with
  | nil =>
    cases h
    exact ⟨[], by rw [List.append_nil]; exact (List.map_id'' (fun _ => rfl) _).symm⟩
  | cons operation operations ih =>
    rw [List.foldlM_cons] at h
    obtain ⟨draft₁, h₁, h₂⟩ := bind_eq_ok_iff.mp h
    obtain ⟨rest, hr⟩ := ih h₂
    rw [hr, fieldsOf_applyOperation h₁]
    refine ⟨operation.added.map (onItems operations) ++ rest, ?_⟩
    rw [List.map_append, List.map_map, List.append_assoc]
    rfl

/-! ## What passed -/

/-- What an operation that passed rests on, whatever its kind. -/
theorem validateOperation_eq_none {allowPrivileged : Bool}
    (h : validateOperation operation w profile proposal allowPrivileged = none) :
    match operation.val.kind with
    | .setPhase => validatePhase (str operation.val.phase) w profile = none
    | .addItem => validateNewItem operation w = none
    | .setItemStatus => ∃ item, w.item (str operation.val.itemId) = some item ∧
        ∀ target, operation.val.status = some target →
          validateStatus operation item target w proposal allowPrivileged = none
    | .setItemContent | .setItemBlocker =>
      ∃ item, w.item (str operation.val.itemId) = some item
    | .satisfyConstraint => ∃ row, w.constraint (str operation.val.constraintId) = some row
    | .addConstraint => w.constraint (str operation.val.constraintId) = none
    | .markSourceInspected => str operation.val.sourceId ∈ w.val.sourcesToInspect
    | .lockSchema => True := by
  unfold validateOperation at h
  dsimp only at h
  -- the four checks that do not depend on the kind
  iterate 4
    split at h
    · cases h
  cases hk : operation.val.kind <;> rw [hk] at h <;> dsimp only at h ⊢
  case setPhase | addItem => exact h
  case setItemStatus =>
    split at h
    · rename_i item target hi ht
      exact ⟨item, hi, fun target' ht' => by rw [ht] at ht'; cases ht'; exact h⟩
    · rename_i item hi ht
      exact ⟨item, hi, fun target' ht' => by rw [ht] at ht'; cases ht'⟩
    · cases h
  case setItemContent | setItemBlocker | satisfyConstraint =>
    split_ifs at h with hi
    exact Option.ne_none_iff_exists'.mp fun hn => hi (by rw [hn]; rfl)
  case addConstraint =>
    split_ifs at h with hi
    exact Option.not_isSome_iff_eq_none.mp hi
  case markSourceInspected =>
    split_ifs at h with hi
    exact hi

/-- An item that was there, after the operation. -/
theorem exists_onItem (ha : applyOperation w.draft operation = .ok w'.draft) {item : TaskItem}
    (hi : item ∈ w.val.items) : ∃ after ∈ w'.val.items, after.val = operation.onItem item.val := by
  have hf : fieldsOf w'.val.items = (fieldsOf w.val.items).map operation.onItem ++ operation.added :=
    fieldsOf_applyOperation ha
  have hm : operation.onItem item.val ∈ fieldsOf w'.val.items := by
    rw [hf]
    exact List.mem_append_left _ (List.mem_map_of_mem (List.mem_map_of_mem hi))
  exact List.mem_map.mp hm

/-- An item that is there after the operation was there, or was added. -/
theorem onItem_or_added (ha : applyOperation w.draft operation = .ok w'.draft) {after : TaskItem}
    (hi : after ∈ w'.val.items) :
    (∃ item ∈ w.val.items, after.val = operation.onItem item.val) ∨
      (operation.val.kind = .addItem ∧ after.val = operation.newItem) := by
  have hf : fieldsOf w'.val.items = (fieldsOf w.val.items).map operation.onItem ++ operation.added :=
    fieldsOf_applyOperation ha
  have hm : after.val ∈ fieldsOf w'.val.items := List.mem_map_of_mem hi
  rw [hf] at hm
  rcases List.mem_append.mp hm with hm | hm
  · obtain ⟨fields, hfields, hv⟩ := List.mem_map.mp hm
    obtain ⟨item, hitem, rfl⟩ := List.mem_map.mp hfields
    exact Or.inl ⟨item, hitem, hv.symm⟩
  · unfold TaskOperation.added at hm
    split at hm
    · exact Or.inr ⟨‹_›, List.mem_singleton.mp hm⟩
    · cases hm

/-! ## The loop -/

/-- The operations all passed, each at the snapshot the earlier ones
arrived at, and took `w` to `last`. -/
inductive Accepted (profile : TaskProfile) (proposal : TaskStateProposal)
    (allowPrivileged : Bool) : TaskState → List TaskOperation → TaskState → Prop
  | nil (w : TaskState) : Accepted profile proposal allowPrivileged w [] w
  | cons {w w' last : TaskState} {operation : TaskOperation} {operations : List TaskOperation}
      (hv : validateOperation operation w profile proposal allowPrivileged = none)
      (ha : applyOperation w.draft operation = .ok w'.draft)
      (h : Accepted profile proposal allowPrivileged w' operations last) :
      Accepted profile proposal allowPrivileged w (operation :: operations) last

/-- The draft a snapshot closes and opens again is the same draft. -/
theorem applyOperations_eq_ok {revision : ℕ} {updatedAt : String} {progress : Option String}
    (h : applyOperations state operations revision updatedAt progress = .ok next) :
    operations.foldlM applyOperation state.draft = .ok next.draft ∧
      next.val = next.draft.close state revision updatedAt progress := by
  obtain ⟨draft, hd, hm⟩ := bind_eq_ok_iff.mp h
  have hv := make_eq_ok.mp hm
  have hdraft : next.draft = draft := by
    unfold TaskState.draft
    rw [hv]
    rfl
  exact ⟨by rw [hdraft]; exact hd, by rw [hdraft]; exact hv⟩

/-- The loop that lets every operation through. -/
theorem accepted_of_validateOperations {allowPrivileged progressed progressed' : Bool}
    (h : validateOperations profile proposal allowPrivileged w progressed operations =
      .ok (.ok progressed')) :
    ∃ last, Accepted profile proposal allowPrivileged w operations last ∧
      operations.foldlM applyOperation w.draft = .ok last.draft := by
  induction operations generalizing w progressed with
  | nil => exact ⟨w, .nil w, rfl⟩
  | cons operation operations ih =>
    unfold validateOperations at h
    split at h
    · cases h
    · rename_i hv
      obtain ⟨w', ha, h⟩ := bind_eq_ok_iff.mp h
      obtain ⟨last, hl, hf⟩ := ih h
      obtain ⟨hd, -⟩ := applyOperations_eq_ok ha
      have ha' : applyOperation w.draft operation = .ok w'.draft := by
        simpa [List.foldlM_cons] using hd
      refine ⟨last, .cons hv ha' hl, ?_⟩
      rw [List.foldlM_cons, ha']
      exact hf

/-- A test whose failure is looked past finds nothing. -/
theorem ite_some_eq_none {p : Prop} [Decidable p] {refusal : PolicyDecision}
    {rest : Option PolicyDecision} :
    (if p then some refusal else rest) = none ↔ ¬ p ∧ rest = none := by
  by_cases hp : p
  · simp [hp]
  · simp [hp]

/-- What a chain of tests finds is what the first that holds says. -/
theorem ite_some_eq_some {p : Prop} [Decidable p] {refusal found : PolicyDecision}
    {rest : Option PolicyDecision} :
    (if p then some refusal else rest) = some found ↔
      (p ∧ refusal = found) ∨ (¬ p ∧ rest = some found) := by
  by_cases hp : p
  · simp [hp]
  · simp [hp]

/-- The proposal is of the task, the role may propose, and the task is open,
at the revision the proposal was made against. -/
structure Eligible (state : TaskState) (proposal : TaskStateProposal) : Prop where
  scope : proposal.val.scope = state.val.scope
  taskId : proposal.val.taskId = state.val.taskId
  actorRole : proposal.val.actorRole ∈ proposingRoles
  live : state.val.lifecycle.terminal = false
  running : state.val.lifecycle ≠ .paused
  baseRevision : proposal.val.baseRevision = state.val.revision

/-- **What passes the first tests is eligible.** -/
theorem eligible_of_preconditions {known : Option (List String)}
    (h : preconditions state proposal known = none) : Eligible state proposal := by
  unfold preconditions at h
  simp only [ite_some_eq_none, ne_eq, not_not, Bool.not_eq_true] at h
  obtain ⟨hscope, htask, hrole, hlive, hrunning, hbase, -⟩ := h
  exact ⟨hscope, htask, hrole, hlive, hrunning, hbase⟩

/-- **What does not is rejected**, or is stale. -/
theorem refusal_of_preconditions {known : Option (List String)} {refusal : PolicyDecision}
    (h : preconditions state proposal known = some refusal) : (∃ code, refusal = reject code) ∨
      refusal = { outcome := .conflict, reasonCodes := [.staleBaseRevision] } := by
  unfold preconditions at h
  simp only [ite_some_eq_some, reduceCtorEq, and_false, or_false] at h
  rcases h with ⟨-, rfl⟩ | ⟨-, ⟨-, rfl⟩ | ⟨-, ⟨-, rfl⟩ | ⟨-, ⟨-, rfl⟩ | ⟨-, ⟨-, rfl⟩ | ⟨-,
    ⟨-, rfl⟩ | ⟨-, ⟨-, rfl⟩ | ⟨-, -, rfl⟩⟩⟩⟩⟩⟩⟩
  case inr.inr.inr.inr.inr.inl => exact .inr rfl
  all_goals exact .inl ⟨_, rfl⟩

/-- What an accepted decision rests on. -/
structure Acceptance (H : Hashing) (state : TaskState) (profile : TaskProfile)
    (proposal : TaskStateProposal) (nowIso : String) (known : Option (List String))
    (allowPrivileged : Bool) (decision : PolicyDecision) (next : TaskState) : Prop where
  eligible : preconditions state proposal known = none
  progressed : validateOperations profile proposal allowPrivileged state false
    proposal.val.operations = .ok (.ok decision.isProgress)
  applied : applyOperations state proposal.val.operations (state.val.revision + 1) nowIso
    (some (if decision.isProgress then nowIso else state.val.lastProgressAt)) = .ok next
  differs : next.semanticDigest H ≠ state.semanticDigest H
  reasonCodes : decision.reasonCodes = [.transitionAccepted]
  nextState : decision.nextState = some next
  assurance : decision.effectiveAssurance = proposal.val.assurance

/-- **An accepted decision, taken apart.** -/
theorem acceptance_of_evaluate {nowIso : String} {known : Option (List String)}
    {allowPrivileged : Bool} {decision : PolicyDecision}
    (h : evaluate H state profile proposal nowIso known allowPrivileged = .ok decision)
    (ha : decision.accepted = true) :
    ∃ next, Acceptance H state profile proposal nowIso known allowPrivileged decision next := by
  have hrefused : ∀ code, decision ≠ reject code := by
    rintro code rfl
    cases ha
  unfold evaluate at h
  split at h
  · rename_i refusal hp
    cases h
    rcases refusal_of_preconditions hp with ⟨code, hcode⟩ | rfl
    · exact absurd hcode (hrefused code)
    · cases ha
  · rename_i hp
    obtain ⟨verdict, hv, h⟩ := bind_eq_ok_iff.mp h
    split at h
    · cases h
      exact absurd rfl (hrefused _)
    · split at h
      · cases h
        exact absurd rfl (hrefused _)
      · obtain ⟨next, hn, h⟩ := bind_eq_ok_iff.mp h
        split at h
        · cases h
          cases ha
        · rename_i hd
          obtain ⟨guards, -, h⟩ := bind_eq_ok_iff.mp h
          cases h
          exact ⟨next, hp, hv, hn, hd, rfl, rfl, rfl⟩

/-- An item of the base, in the snapshot that is committed. -/
theorem Acceptance.item_next {nowIso : String} {known : Option (List String)}
    {allowPrivileged : Bool} {decision : PolicyDecision}
    (h : Acceptance H state profile proposal nowIso known allowPrivileged decision next)
    {item : TaskItem} (hi : item ∈ state.val.items) :
    ∃ after, next.item item.val.itemId = some after ∧
      after.val = onItems proposal.val.operations item.val := by
  obtain ⟨rest, hr⟩ := fieldsOf_foldlM (applyOperations_eq_ok h.applied).1
  have hm : onItems proposal.val.operations item.val ∈ fieldsOf next.draft.items := by
    rw [hr]
    exact List.mem_append_left _ (List.mem_map_of_mem (List.mem_map_of_mem hi))
  obtain ⟨after, ha, hv⟩ := List.mem_map.mp hm
  exact ⟨after, item_eq_some_iff.mpr ⟨ha, by rw [hv, onItems_itemId]⟩, hv⟩

/-- **The snapshot that is committed is the one the loop arrived at.** -/
theorem Acceptance.accepted {nowIso : String} {known : Option (List String)}
    {allowPrivileged : Bool} {decision : PolicyDecision}
    (h : Acceptance H state profile proposal nowIso known allowPrivileged decision next) :
    ∃ last, Accepted profile proposal allowPrivileged state proposal.val.operations last ∧
      next.draft = last.draft := by
  obtain ⟨last, hl, hf⟩ := accepted_of_validateOperations h.progressed
  have hn := (applyOperations_eq_ok h.applied).1
  rw [hf] at hn
  exact ⟨last, hl, (Except.ok.inj hn).symm⟩

end Atmem
