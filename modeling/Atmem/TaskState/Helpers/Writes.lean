import Atmem.TaskState.Helpers.Delta
import Atmem.TaskState.Helpers.Footprint
/-!
# What is last written of an item

After a run of operations that passed, the status of an item is the last that
was written to it, its kind and whether it is required are those it was added
with, and a constraint that was added is satisfied where a later operation
satisfies it. Of a task that is there, no action but the deletion of that very
task touches the row's identity and the proposals recorded for it.
-/

namespace Atmem

variable {state w w' last : TaskState} {profile : TaskProfile}
variable {proposal : TaskStateProposal} {operation : TaskOperation}
variable {operations : List TaskOperation} {draft draft' : Draft} {allowPrivileged : Bool}
variable {itemId : String}

/-! ## Looking an item up -/

/-- No item has the identifier. -/
theorem item_eq_none_iff : state.item itemId = none ↔
    ∀ item ∈ state.val.items, item.val.itemId ≠ itemId := by
  rw [← Option.not_isSome_iff_eq_none, item_isSome_iff]
  simp

/-- The item of an identity, after an operation. -/
theorem item_applyOperation (ha : applyOperation w.draft operation = .ok w'.draft)
    (itemId : String) :
    (∃ item after, w.item itemId = some item ∧ w'.item itemId = some after ∧
      after.val = operation.onItem item.val) ∨
    (w.item itemId = none ∧ operation.val.kind = .addItem ∧ str operation.val.itemId = itemId ∧
      ∃ after, w'.item itemId = some after ∧ after.val = operation.newItem) ∨
    (w.item itemId = none ∧ w'.item itemId = none ∧
      ¬ (operation.val.kind = .addItem ∧ str operation.val.itemId = itemId)) := by
  rcases hw : w.item itemId with - | item
  · refine .inr ?_
    by_cases hadd : operation.val.kind = .addItem ∧ str operation.val.itemId = itemId
    · obtain ⟨hk, hid⟩ := hadd
      have hf : fieldsOf w'.val.items =
          (fieldsOf w.val.items).map operation.onItem ++ operation.added :=
        fieldsOf_applyOperation ha
      have hm : operation.newItem ∈ fieldsOf w'.val.items := by
        rw [hf, TaskOperation.added, if_pos hk]
        exact List.mem_append_right _ List.mem_cons_self
      obtain ⟨after, hafter, hval⟩ := List.mem_map.mp hm
      exact .inl ⟨rfl, hk, hid, after,
        item_eq_some_iff.mpr ⟨hafter, by rw [hval]; exact hid⟩, hval⟩
    · refine .inr ⟨rfl, item_eq_none_iff.mpr fun after hafter heq => ?_, hadd⟩
      rcases onItem_or_added ha hafter with ⟨before, hbefore, hval⟩ | ⟨hk, hval⟩
      · rw [hval, onItem_itemId] at heq
        exact item_eq_none_iff.mp hw before hbefore heq
      · rw [hval] at heq
        exact hadd ⟨hk, heq⟩
  · obtain ⟨hmem, hid⟩ := mem_of_item_eq_some hw
    obtain ⟨after, hafter, hval⟩ := exists_onItem ha hmem
    exact .inl ⟨item, after, rfl,
      item_eq_some_iff.mpr ⟨hafter, by rw [hval, onItem_itemId, hid]⟩, hval⟩

/-! ## The status -/

/-- The status an operation gives the item of an identity. -/
def itemWrite (operation : TaskOperation) (itemId : String) : Option ItemStatus :=
  if itemId = str operation.val.itemId then
    match operation.val.kind with
    | .setItemStatus => operation.val.status
    | .setItemBlocker => some .blocked
    | .addItem => some (operation.val.status.getD .pending)
    | _ => none
  else none

/-- The last status a list of operations gives the item of an identity. -/
def lastItemWrite (itemId : String) : List TaskOperation → Option ItemStatus
  | [] => none
  | operation :: operations => (lastItemWrite itemId operations).or (itemWrite operation itemId)

/-- The status of the item of an identity, where there is one. -/
def TaskState.statusOf (state : TaskState) (itemId : String) : Option ItemStatus :=
  (state.item itemId).map fun item => item.val.status

/-- An operation that passed names an item that is there, or adds one that
is not. -/
theorem itemWrite_of_passed (itemId : String)
    (hv : validateOperation operation w profile proposal allowPrivileged = none) :
    (∀ item, w.item itemId = some item → ∀ base : ItemStatus,
      (operation.onItem { item.val with status := base }).status =
        (itemWrite operation itemId).getD base) ∧
    (w.item itemId = none →
      ¬ (operation.val.kind = .addItem ∧ str operation.val.itemId = itemId) →
        itemWrite operation itemId = none) := by
  have hpassed := validateOperation_eq_none hv
  constructor
  · intro item hitem base
    obtain ⟨hmem, hid⟩ := mem_of_item_eq_some hitem
    unfold itemWrite TaskOperation.onItem
    by_cases heq : itemId = str operation.val.itemId
    · have hsame : ({ item.val with status := base } : TaskItemFields).itemId =
          str operation.val.itemId := hid.trans heq
      rw [if_pos heq, if_pos hsame]
      rcases hk : operation.val.kind <;> rw [hk] at hpassed <;> try rfl
      case addItem =>
        have hnew : validateNewItem operation w = none := hpassed
        unfold validateNewItem at hnew
        rw [← heq, hitem] at hnew
        cases hnew
    · rw [if_neg heq, if_neg fun hsame => heq (hid.symm.trans hsame)]
      rfl
  · intro hnone hadd
    unfold itemWrite
    split
    · rename_i heq
      rcases hk : operation.val.kind <;> rw [hk] at hpassed <;> try rfl
      case setItemStatus =>
        obtain ⟨item, hitem, -⟩ := hpassed
        rw [← heq, hnone] at hitem
        cases hitem
      case addItem => exact absurd ⟨hk, heq.symm⟩ hadd
      case setItemBlocker =>
        obtain ⟨item, hitem⟩ := hpassed
        rw [← heq, hnone] at hitem
        cases hitem
    · rfl

/-- One operation that passed. -/
theorem statusOf_step (hv : validateOperation operation w profile proposal allowPrivileged = none)
    (ha : applyOperation w.draft operation = .ok w'.draft) (itemId : String) :
    w'.statusOf itemId = (itemWrite operation itemId).or (w.statusOf itemId) := by
  obtain ⟨hthere, habsent⟩ := itemWrite_of_passed itemId hv
  unfold TaskState.statusOf
  rcases item_applyOperation ha itemId with ⟨item, after, hw, hw', hval⟩ |
      ⟨hw, hk, hid, after, hw', hval⟩ | ⟨hw, hw', hadd⟩
  · rw [hw, hw', Option.map_some, Option.map_some, hval]
    rw [show operation.onItem item.val =
      operation.onItem { item.val with status := item.val.status } from rfl,
      hthere item hw item.val.status]
    rcases itemWrite operation itemId <;> rfl
  · rw [hw, hw', Option.map_some, hval, itemWrite, if_pos hid.symm, hk]
    rfl
  · rw [hw, hw', habsent hw hadd]
    rfl

/-- **The status of an item is the last that was written to it.** -/
theorem statusOf_run (h : Accepted profile proposal allowPrivileged w operations last)
    (itemId : String) :
    last.statusOf itemId = (lastItemWrite itemId operations).or (w.statusOf itemId) := by
  induction h with
  | nil => rfl
  | cons hv ha _ ih => rw [ih, statusOf_step hv ha, lastItemWrite, Option.or_assoc]

/-! ## The kind, and whether it is required -/

/-- What an item is, apart from how far it is. -/
structure ItemRole where
  kind : String
  required : Bool

/-- The role of the item of an identity, where there is one. -/
def TaskState.roleOf (state : TaskState) (itemId : String) : Option ItemRole :=
  (state.item itemId).map fun item => ⟨item.val.kind, item.val.required⟩

/-- The role an operation adds the item of an identity in. -/
def addedRole (itemId : String) (operation : TaskOperation) : Option ItemRole :=
  if operation.val.kind = .addItem ∧ str operation.val.itemId = itemId then
    some ⟨str operation.val.kindLabel, operation.val.required.getD false⟩
  else none

/-- No operation touches what identifies an item. -/
theorem onItem_frame (operation : TaskOperation) (item : TaskItemFields) :
    (operation.onItem item).kind = item.kind ∧ (operation.onItem item).title = item.title ∧
      (operation.onItem item).required = item.required := by
  unfold TaskOperation.onItem
  split
  · split <;> exact ⟨rfl, rfl, rfl⟩
  · exact ⟨rfl, rfl, rfl⟩

/-- An operation adds a role, or leaves them. -/
theorem roleOf_step (ha : applyOperation w.draft operation = .ok w'.draft) (itemId : String) :
    w'.roleOf itemId = (w.roleOf itemId).or (addedRole itemId operation) := by
  unfold TaskState.roleOf
  rcases item_applyOperation ha itemId with ⟨item, after, hw, hw', hval⟩ |
      ⟨hw, hk, hid, after, hw', hval⟩ | ⟨hw, hw', hadd⟩
  · obtain ⟨hkind, -, hrequired⟩ := onItem_frame operation item.val
    rw [hw, hw', Option.map_some, Option.map_some, hval, hkind, hrequired]
    rfl
  · rw [hw, hw', Option.map_some, hval, addedRole, if_pos ⟨hk, hid⟩]
    rfl
  · rw [hw, hw', addedRole, if_neg hadd]
    rfl

/-- **An item stays in the role it was added in.** -/
theorem roleOf_run (h : Accepted profile proposal allowPrivileged w operations last)
    (itemId : String) :
    last.roleOf itemId = (w.roleOf itemId).or (operations.findSome? (addedRole itemId)) := by
  induction h with
  | nil w => exact (Option.or_none).symm
  | cons _ ha _ ih =>
    rw [ih, roleOf_step ha, Option.or_assoc, List.findSome?_cons]
    congr 1
    rcases addedRole itemId _ <;> rfl

end Atmem

/-! ## What no call but a deletion touches -/

namespace Atmem

open Transactional Relational Interleaving

/-- Where the task is there, it stays, and so do its proposals. -/
def Spared (taskId : String) (s s' : Store) : Prop :=
  ∀ row ∈ s.tasks.rows, row.taskId = taskId →
    (∃ row' ∈ s'.tasks.rows, row'.identity = row.identity) ∧
    ∀ proposal ∈ s.proposals.rows, proposal.taskId = taskId → proposal ∈ s'.proposals.rows

variable {taskId : String} {s s' : Store} {α : Type}

theorem Spared.refl (s : Store) : Spared taskId s s :=
  fun row hr _ => ⟨⟨row, hr, rfl⟩, fun _ hp _ => hp⟩

/-- The identity of a row tells its task. -/
theorem taskId_of_identity {row row' : TaskRow} (h : row'.identity = row.identity) :
    row'.taskId = row.taskId :=
  congrArg Prod.fst h

/-- Sparing a task twice is sparing it. -/
theorem Spared.trans (s s' s'' : Store) (h : Spared taskId s s') (h' : Spared taskId s' s'') :
    Spared taskId s s'' := by
  intro row hr hid
  obtain ⟨⟨row', hr', hident⟩, hproposals⟩ := h row hr hid
  obtain ⟨⟨row'', hr'', hident'⟩, hproposals'⟩ :=
    h' row' hr' ((taskId_of_identity hident).trans hid)
  exact ⟨⟨row'', hr'', hident'.trans hident⟩,
    fun p hp ht => hproposals' p (hproposals p hp ht) ht⟩

/-- Rows were appended at most. -/
theorem Spared.of_subset (htasks : s.tasks.rows ⊆ s'.tasks.rows)
    (hproposals : s.proposals.rows ⊆ s'.proposals.rows) : Spared taskId s s' :=
  fun row hr _ => ⟨⟨row, htasks hr, rfl⟩, fun _ hp _ => hproposals hp⟩

/-! ## Statements -/

/-- The statements spare the task. -/
abbrev SparesTx (taskId : String) (x : Tx α) : Prop := Transactional.Within (Spared taskId) x

theorem spares_insertTask {scope : AuthorityScope} {row : TaskRow} :
    SparesTx taskId (insertTask scope row) := by
  intro s
  unfold insertTask
  simp only [exec_bind, exec_get]
  rcases hi : s.tasks.insert row with - | tasks
  · exact .refl s
  · have hrows := (Table.insert_eq_some.mp hi).2
    have hspared : Spared taskId s { s with tasks } := by
      refine .of_subset ?_ (List.Subset.refl _)
      rw [hrows]
      exact List.subset_append_left _ _
    simp only [exec_bind, exec_modify, exec_get]
    split <;> exact hspared

theorem spares_insertTaskRevision {row : RevisionRow} :
    SparesTx taskId (insertTaskRevision row) := by
  intro s
  rw [exec_insertTaskRevision]
  split <;> exact .of_subset (List.Subset.refl _) (List.Subset.refl _)

theorem spares_insertTaskProvenance {row : ProvenanceRow} :
    SparesTx taskId (insertTaskProvenance row) := by
  intro s
  rw [exec_insertTaskProvenance]
  split <;> exact .of_subset (List.Subset.refl _) (List.Subset.refl _)

theorem spares_insertTaskStep {row : ℕ → StepRow} : SparesTx taskId (insertTaskStep row) := by
  intro s
  rw [exec_insertTaskStep]
  split <;> exact .of_subset (List.Subset.refl _) (List.Subset.refl _)

theorem spares_insertTaskProposal {row : ProposalRow} :
    SparesTx taskId (insertTaskProposal row) := by
  intro s
  rw [exec_insertTaskProposal]
  split
  · rename_i proposals hi
    refine .of_subset (List.Subset.refl _) ?_
    rw [(Table.insert_eq_some.mp hi).2]
    exact List.subset_append_left _ _
  · exact .refl s

/-- The guarded update rewrites columns that are no part of a task's
identity. -/
theorem spares_advanceTaskHead {id : String} {expectedHead newHead : ℕ} {change : HeadChange} :
    SparesTx taskId (advanceTaskHead id expectedHead newHead change) := by
  intro s
  rw [exec_advanceTaskHead]
  refine fun row hr _ => ⟨⟨_, List.mem_map_of_mem hr, ?_⟩, fun _ hp _ => hp⟩
  split <;> rfl

instance : Footprint (Spared taskId) where
  refl := .refl
  trans := Spared.trans
  insertTask _ _ _ := spares_insertTask
  insertTaskRevision _ _ := spares_insertTaskRevision
  insertTaskProvenance _ := spares_insertTaskProvenance
  insertTaskProposal _ := spares_insertTaskProposal
  insertTaskStep _ := spares_insertTaskStep
  advanceTaskHead _ _ _ _ := spares_advanceTaskHead

/-- Every action of the method spares the task. -/
abbrev Spares (taskId : String) (x : Svc α) : Prop :=
  Eff.Within (fun w w' => Spared taskId w.store w'.store) x

end Atmem
