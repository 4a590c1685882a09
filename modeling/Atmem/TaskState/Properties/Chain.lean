import Atmem.TaskState.Helpers.Discipline
import Atmem.TaskState.Properties.Policy
/-!
# The revision chain of a task

Whatever calls interleave, every task's revisions are one unbroken chain
that ends at the head, and the head only moves from the revision the new
snapshot was computed from to the next.
-/

namespace Atmem

open Relation Interleaving

/-- The stored revisions of a task, oldest first. -/
def Store.chain (s : Store) (taskId : String) : List RevisionRow :=
  s.revisions.rows.filter fun r => r.taskId = taskId

/-- The chain of a task, as its row and the store have it. -/
structure Unbroken (s : Store) (row : TaskRow) : Prop where
  numbers : (s.chain row.taskId).map (·.revision) = List.range' 1 row.headRevision
  parents : ∀ r ∈ s.chain row.taskId, 1 < r.revision →
    r.parentRevision = some (r.revision - 1)
  /-- What the head's number names in the store is the row's snapshot. -/
  head : ∃ r, s.getTaskRevision row.taskId row.headRevision = some r ∧
    r.state.val.revision = row.headRevision ∧ r.state.val.lifecycle = row.lifecycle

/-- A committed advance: from the revision at the head, which the new
snapshot was computed from, to the next. -/
structure HeadAdvance (H : Hashing) (s s' : Store) (row row' : TaskRow) : Prop where
  head : row'.headRevision = row.headRevision + 1
  next : ∃ base next, s.getTaskRevision row.taskId row.headRevision = some base ∧
    ComputedFrom H base.state next.state ∧ next.revision = row.headRevision + 1 ∧
    next.parentRevision = some row.headRevision ∧
    s'.chain row.taskId = s.chain row.taskId ++ [next]

variable {H : Hashing} {w : World} {c c' : System} {E : Setting} {h : Timeline World}
variable {s : Store} {taskId : String} {cell cell' : Cell}

/-- The chain of a task is its revisions. -/
theorem Store.chain_of_cell (hc : s.cell taskId = some cell) : s.chain taskId = cell.revisions :=
  (cell_eq_some.mp hc).2.2.symm

/-- The code's lookup of the head, in the cell. -/
theorem Cell.Chained.getTaskRevision (hc : cell.Chained E h) (hs : s.cell taskId = some cell) :
    ∃ base, cell.head? = some base ∧
      s.getTaskRevision taskId cell.row.headRevision = some base :=
  getTaskRevision_head hc .refl hs

/-- **A chained cell is an unbroken chain of the store.** -/
theorem Cell.Chained.unbroken (hc : cell.Chained E h)
    (hs : s.cell cell.row.taskId = some cell) : Unbroken s cell.row := by
  have hchain := Store.chain_of_cell hs
  refine ⟨?_, ?_, ?_⟩
  · rw [hchain]
    exact hc.numbers
  · rw [hchain]
    intro r hr hlt
    -- a revision's place in the list is its number, and its parent's the one before
    obtain ⟨i, hi, hget⟩ := List.getElem_of_mem hr
    have hnumber : (cell.revisions.map (·.revision))[i]? = some r.revision := by
      rw [List.getElem?_map, List.getElem?_eq_getElem hi, hget]
      rfl
    have hparent : (cell.revisions.map (·.parentRevision))[i]? = some r.parentRevision := by
      rw [List.getElem?_map, List.getElem?_eq_getElem hi, hget]
      rfl
    rw [hc.numbers, List.getElem?_eq_some_iff] at hnumber
    rw [hc.parents, List.getElem?_eq_some_iff] at hparent
    obtain ⟨_, hn⟩ := hnumber
    obtain ⟨_, hp⟩ := hparent
    rw [List.getElem_range', Nat.one_mul] at hn
    rw [List.getElem_map, List.getElem_range] at hp
    have hpos : i ≠ 0 := by omega
    rw [← hp, if_neg hpos]
    congr 1
    omega
  · obtain ⟨base, hb, hget⟩ := hc.getTaskRevision hs
    obtain ⟨base', hb', hrev, hlife, -⟩ := hc.head
    obtain rfl := Option.some.inj (hb.symm.trans hb')
    have hstored := hc.stored base (List.mem_of_getLast? hb)
    exact ⟨base, hget, hstored.trans hrev, hlife⟩

/-- **A move of a cell is an advance of the head.** -/
theorem Moves.headAdvance {s' : Store} (hm : Moves E h cell cell')
    (hs : s.cell cell.row.taskId = some cell) (hs' : s'.cell cell.row.taskId = some cell') :
    HeadAdvance E.hashing s s' cell.row cell'.row := by
  obtain ⟨base, next, S⟩ := hm.2.successor hm.1
  obtain ⟨base', hb', hget⟩ := hm.1.getTaskRevision hs
  obtain rfl := Option.some.inj (S.headRow.symm.trans hb')
  obtain ⟨hrev, -⟩ := head_state_revision hm.1 hb'
  refine ⟨hm.headRevision, base, next, hget, S.computed, ?_, ?_, ?_⟩
  · rw [S.revision, hrev]
  · rw [S.parentRevision, hrev]
  · rw [Store.chain_of_cell hs, Store.chain_of_cell hs', S.revisions]

/-- **The revision chain under concurrency.** At every moment of every
run of calls, each task's chain is unbroken; and every step leaves a task
as it is or advances its head by one, from the very revision the new
snapshot was computed from. -/
theorem revision_chain (hv : Visits H Call.keepsTasks w c) :
    (∀ row ∈ c.time.now.store.tasks.rows, Unbroken c.time.now.store row) ∧
    ∀ c', Step (Call.body H) Call.keepsTasks c c' →
      ∀ row ∈ c.time.now.store.tasks.rows, ∃ row' ∈ c'.time.now.store.tasks.rows,
        row'.taskId = row.taskId ∧
        (row' = row ∧ c'.time.now.store.chain row.taskId = c.time.now.store.chain row.taskId ∨
          HeadAdvance H c.time.now.store c'.time.now.store row row') := by
  constructor
  · intro row hr
    obtain ⟨cell, hc, rfl, hg⟩ := hv.cell hr
    exact hg.chained.unbroken hc
  · intro c' hstep row hr
    obtain ⟨cell, hc, rfl, hg⟩ := hv.cell hr
    rcases hv.acts hstep with htime | hact
    · rw [htime]
      exact ⟨cell.row, hr, rfl, Or.inl ⟨rfl, rfl⟩⟩
    · obtain ⟨cell', hc', hcases⟩ := hact.store.cell_some hc
      obtain ⟨hmem, hid, -⟩ := cell_eq_some.mp hc'
      refine ⟨cell'.row, hmem, hid, ?_⟩
      rcases hcases with rfl | hm
      · exact Or.inl ⟨rfl, by rw [Store.chain_of_cell hc', Store.chain_of_cell hc]⟩
      · exact Or.inr (hm.headAdvance hc hc')

/-! ## A run -/

/-- A hash that tells snapshots apart by their items. -/
def itemHashing : Hashing where
  digest j :=
    match j.get? "items" with
    | some (.arr items) => String.join (items.map fun item =>
        match item.get? "item_id", item.get? "status" with
        | some (.str itemId), some (.str status) => itemId ++ status
        | _, _ => "")
    | _ => ""
  sha256Hex s := s

/-- An empty store, and a clock that is read once a second. -/
def exampleWorld : World where
  store := {}
  clock n := n * 1000000

theorem fresh_exampleWorld : Fresh exampleWorld := ⟨rfl, rfl, rfl, rfl, rfl⟩

/-- A task is started. -/
def exampleStart : TaskStartRequest :=
  ⟨{ taskId := "t", scope := exampleScope, profileId := "general", profileVersion := "general-v1",
     goal := "g", actor := "a", actorRole := .operator, idempotencyKey := "k" },
    by decide +kernel⟩

/-- An item the task cannot be completed without. -/
def addOperation : TaskOperation :=
  ⟨{ kind := .addItem, itemId := some "i", text := some "t", kindLabel := some "k",
     required := some true }, by decide +kernel⟩

/-- An item is added to it. -/
def addProposal : TaskStateProposal := ⟨exampleProposal addOperation, by decide +kernel⟩

/-- The law, where a task was started and an item was added to it. -/
theorem revision_chain_of_add :
    ∃ c row, Visits itemHashing Call.keepsTasks exampleWorld c ∧
      row ∈ c.time.now.store.tasks.rows ∧ row.headRevision = 2 ∧
      Unbroken c.time.now.store row := by
  have hcalls : ∀ k ∈ [Call.start exampleStart [], .submit addProposal false "step"],
      k.keepsTasks := by decide
  obtain ⟨c, hv, hnow⟩ := visits_runAll (H := itemHashing) fresh_exampleWorld hcalls
  have hhead : ∃ row ∈ c.time.now.store.tasks.rows, row.headRevision = 2 := by
    rw [hnow]
    decide +kernel
  obtain ⟨row, hr, hrow⟩ := hhead
  exact ⟨c, row, hv, hr, hrow, (revision_chain hv).1 row hr⟩

end Atmem
