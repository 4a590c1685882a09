import Atmem.Common.Transaction
import Atmem.TaskState.Helpers.Cells
/-!
# What the transactions do to the store

The run of each statement as an equation, and of each transaction taken
apart; then their effect on the cells of the store. A successor of a
revision that is not the head clashes with the one that is there, so a
write that goes through was computed from the head.
-/

namespace Atmem

open Transactional Relational Checked Interleaving

variable {s s' : Store} {E : Setting} {h : Timeline World}

/-! ## Statements -/

/-- What inserting a task does. -/
theorem exec_insertTask_ok {scope : AuthorityScope} {row task : TaskRow} :
    exec (insertTask scope row) s = (.ok task, s') ↔
      ∃ tasks, s.tasks.insert row = some tasks ∧ s' = { s with tasks } ∧
        s'.getTask scope row.taskId = some task := by
  unfold insertTask
  simp only [exec_bind, exec_get]
  rcases s.tasks.insert row with - | tasks
  · simp
  · simp only [exec_bind, exec_modify, exec_get]
    rcases hg : ({ s with tasks } : Store).getTask scope row.taskId with - | stored
    · constructor
      · intro h
        cases h
      · rintro ⟨tasks', ht, rfl, h⟩
        cases ht
        rw [hg] at h
        cases h
    · constructor
      · intro h
        cases h
        exact ⟨tasks, rfl, rfl, hg⟩
      · rintro ⟨tasks', ht, rfl, h⟩
        cases ht
        rw [hg] at h
        cases h
        rfl

/-- What inserting a revision does. -/
theorem exec_insertTaskRevision (row : RevisionRow) :
    exec (insertTaskRevision row) s =
      match if s.hasTask row.taskId then s.revisions.insert row else none with
      | some revisions => (.ok (), { s with revisions })
      | none => (.error .integrityError, s) := by
  unfold insertTaskRevision
  simp only [exec_bind, exec_get]
  rcases s.hasTask row.taskId
  · rfl
  · simp only [Bool.not_true, exec_bind, exec_get, if_true, Bool.false_eq_true, if_false]
    rcases s.revisions.insert row <;> rfl

/-- What inserting provenance does. -/
theorem exec_insertTaskProvenance (row : ProvenanceRow) :
    exec (insertTaskProvenance row) s =
      if s.hasTask row.taskId then (.ok (), { s with provenance := s.provenance ++ [row] })
      else (.error .integrityError, s) := by
  unfold insertTaskProvenance
  simp only [exec_bind, exec_get]
  rcases s.hasTask row.taskId <;> rfl

/-- What inserting a proposal does. -/
theorem exec_insertTaskProposal (row : ProposalRow) :
    exec (insertTaskProposal row) s =
      match s.proposals.insert row with
      | some proposals => (.ok (), { s with proposals })
      | none => (.error .integrityError, s) := by
  unfold insertTaskProposal
  simp only [exec_bind, exec_get]
  rcases s.proposals.insert row <;> rfl

/-- What inserting a step does. -/
theorem exec_insertTaskStep (row : ℕ → StepRow) :
    exec (insertTaskStep row) s =
      if s.hasTask (row 0).taskId then
        (.ok (), { s with steps := s.steps ++ [row (s.nextStepSequence (row 0).taskId)] })
      else (.error .integrityError, s) := by
  unfold insertTaskStep
  simp only [exec_bind, exec_get]
  rcases s.hasTask (row 0).taskId <;> rfl

/-- The store after the head's update, whatever rows it selected. -/
def Store.advanced (s : Store) (taskId : String) (expectedHead newHead : ℕ)
    (change : HeadChange) : Store :=
  { s with
    tasks := s.tasks.update (guarded taskId expectedHead) (change.assign newHead)
      (change.assign_key newHead) }

/-- What advancing a head does, and says. -/
theorem exec_advanceTaskHead (taskId : String) (expectedHead newHead : ℕ) (change : HeadChange) :
    exec (advanceTaskHead taskId expectedHead newHead change) s =
      (.ok (decide (s.tasks.rows.countP (guarded taskId expectedHead) = 1)),
        s.advanced taskId expectedHead newHead change) := rfl

/-- Provenance of a task that is there is appended. -/
theorem exec_forM_provenance {α : Type} {as : List α} {f : α → ProvenanceRow}
    (hf : ∀ a ∈ as, s.hasTask (f a).taskId = true) :
    exec (as.forM fun a => insertTaskProvenance (f a)) s =
      (.ok (), { s with provenance := s.provenance ++ as.map f }) := by
  induction as generalizing s with
  | nil =>
    rw [List.map_nil, List.append_nil]
    rfl
  | cons a as ih =>
    have ha : exec (insertTaskProvenance (f a)) s =
        (.ok (), { s with provenance := s.provenance ++ [f a] }) := by
      rw [exec_insertTaskProvenance, if_pos (hf a List.mem_cons_self)]
    have hrest := ih (s := { s with provenance := s.provenance ++ [f a] })
      fun a ha => hf a (List.mem_cons_of_mem _ ha)
    refine ((exec_bind_ok ha).trans hrest).trans ?_
    rw [List.append_assoc]
    rfl

/-! ## Cells -/

/-- Two rows of one task clash. -/
theorem taskClash_of_taskId (a b : TaskRow) (hab : a.taskId = b.taskId) :
    taskClash a.key b.key = true := by
  simp [TaskRow.key, taskClash, hab]

/-- What a task's row, looked up by its identifier, is. -/
theorem find?_taskId {taskId : String} {row : TaskRow} :
    s.tasks.rows.find? (fun r => r.taskId = taskId) = some row ↔
      row ∈ s.tasks.rows ∧ row.taskId = taskId :=
  Table.find?_id_eq_some taskClash_of_taskId

/-- A cell is a row and its revisions. -/
theorem cell_eq_some {taskId : String} {c : Cell} :
    s.cell taskId = some c ↔ c.row ∈ s.tasks.rows ∧ c.row.taskId = taskId ∧
      c.revisions = s.revisions.rows.filter fun r => r.taskId = taskId := by
  unfold Store.cell
  rw [Option.map_eq_some_iff]
  constructor
  · rintro ⟨row, hr, rfl⟩
    exact ⟨(find?_taskId.mp hr).1, (find?_taskId.mp hr).2, rfl⟩
  · rintro ⟨hm, hid, hrevs⟩
    exact ⟨c.row, find?_taskId.mpr ⟨hm, hid⟩, by cases c; simp_all⟩

/-- There is none exactly if no row has the identifier. -/
theorem cell_eq_none {taskId : String} :
    s.cell taskId = none ↔ ∀ r ∈ s.tasks.rows, r.taskId ≠ taskId := by
  simp [Store.cell]

/-- A task is there exactly if it has a cell. -/
theorem hasTask_iff {taskId : String} : s.hasTask taskId = true ↔ ∃ c, s.cell taskId = some c := by
  rcases hc : s.cell taskId with - | c
  · simpa [Store.hasTask] using cell_eq_none.mp hc
  · obtain ⟨hm, hid, -⟩ := cell_eq_some.mp hc
    simp only [Option.some.injEq, exists_eq', iff_true]
    exact List.any_eq_true.mpr ⟨c.row, hm, by simpa using hid⟩

/-- A row that is in the store is the row of its cell. -/
theorem cell_of_mem {row : TaskRow} (hr : row ∈ s.tasks.rows) :
    ∃ c, s.cell row.taskId = some c ∧ c.row = row :=
  ⟨⟨row, _⟩, cell_eq_some.mpr ⟨hr, rfl, rfl⟩, rfl⟩

/-- **A scoped lookup finds the row of the task's cell**, where the scope
is the row's. -/
theorem getTask_eq_some {scope : AuthorityScope} {taskId : String} {row : TaskRow} :
    s.getTask scope taskId = some row ↔
      ∃ c, s.cell taskId = some c ∧ c.row = row ∧ row.scopeFields = scope.val := by
  constructor
  · intro hg
    have hp := List.find?_some hg
    simp only [decide_eq_true_eq] at hp
    obtain ⟨rfl, h₁, h₂, h₃⟩ := hp
    obtain ⟨c, hc, rfl⟩ := cell_of_mem (List.mem_of_find?_eq_some hg)
    exact ⟨c, hc, rfl, by simp [TaskRow.scopeFields, h₁, h₂, h₃]⟩
  · rintro ⟨c, hc, rfl, hscope⟩
    obtain ⟨hm, hid, -⟩ := cell_eq_some.mp hc
    have hcols : c.row.subjectId = scope.val.subjectId ∧ c.row.agentId = scope.val.agentId ∧
        c.row.workspaceId = scope.val.workspaceId := by
      rw [← hscope]
      exact ⟨rfl, rfl, rfl⟩
    rcases hg : s.getTask scope taskId with - | row
    · have := List.find?_eq_none.mp hg c.row hm
      simp [hid, hcols] at this
    · have hp := List.find?_some hg
      simp only [decide_eq_true_eq] at hp
      rw [Table.eq_of_id_eq taskClash_of_taskId (List.mem_of_find?_eq_some hg) hm
        (hp.1.trans hid.symm)]

/-- **The head a reader saw is still stored under its number**, however
far the cell has moved since. -/
theorem getTaskRevision_head {taskId : String} {c cNow : Cell} (hc : c.Chained E h)
    (hadv : Advances E h c cNow) (hnow : s.cell taskId = some cNow) :
    ∃ base, c.head? = some base ∧
      s.getTaskRevision taskId c.row.headRevision = some base := by
  obtain ⟨base, hb, hfind⟩ := hc.find_head
  obtain ⟨rest, hrest⟩ := hadv.revisions
  refine ⟨base, hb, ?_⟩
  have := hfind rest
  rw [hrest, (cell_eq_some.mp hnow).2.2, List.find?_filter] at this
  simpa [Store.getTaskRevision] using this

/-! ## Successors -/

/-- The numbers of a chained cell's revisions. -/
theorem Cell.Chained.mem_revision {c : Cell} (hc : c.Chained E h) {k : ℕ} :
    (∃ r ∈ c.revisions, r.revision = k) ↔ 1 ≤ k ∧ k ≤ c.row.headRevision := by
  rw [← List.mem_map (f := fun r : RevisionRow => r.revision), hc.numbers, List.mem_range'_1]
  omega

/-- No revision of a chained cell has the head as its parent. -/
theorem Cell.Chained.parent_ne {c : Cell} (hc : c.Chained E h) {r : RevisionRow}
    (hr : r ∈ c.revisions) : r.parentRevision ≠ some c.row.headRevision := by
  have hm : r.parentRevision ∈ c.revisions.map (·.parentRevision) := List.mem_map_of_mem hr
  rw [hc.parents] at hm
  obtain ⟨i, hi, hp⟩ := List.mem_map.mp hm
  rw [← hp]
  have := List.mem_range.mp hi
  split
  · simp
  · simp only [ne_eq, Option.some.injEq]
    omega

/-- **A successor is accepted exactly at the head.** -/
theorem insert_successor {taskId : String} {c : Cell} (hc : c.Chained E h)
    (hcell : s.cell taskId = some c) {row : RevisionRow} (hid : row.taskId = taskId) {k : ℕ}
    (hrev : row.revision = k + 1) (hparent : row.parentRevision = some k)
    (hk : k ≤ c.row.headRevision) :
    (∃ revisions, s.revisions.insert row = some revisions) ↔ k = c.row.headRevision := by
  have hrevs := (cell_eq_some.mp hcell).2.2
  have hmem {r : RevisionRow} (hr : r ∈ s.revisions.rows) (ht : r.taskId = taskId) :
      r ∈ c.revisions := by
    rw [hrevs]
    exact List.mem_filter.mpr ⟨hr, by simpa using ht⟩
  constructor
  · rintro ⟨revisions, hi⟩
    by_contra hne
    obtain ⟨r, hr, hn⟩ := hc.mem_revision.mpr ⟨by omega, (by omega : k + 1 ≤ c.row.headRevision)⟩
    rw [hrevs] at hr
    have hclash := (Table.insert_eq_some.mp hi).1 r (List.mem_filter.mp hr).1
    have ht : r.taskId = taskId := by simpa using (List.mem_filter.mp hr).2
    simp [revisionClash, RevisionRow.key, ht, hid, hn, hrev] at hclash
  · rintro rfl
    have hfresh : ∀ r ∈ s.revisions.rows, revisionClash r.key row.key = false := fun r hr => by
      rcases ne_or_eq r.taskId taskId with ht | ht
      · simp [revisionClash, RevisionRow.key, hid, ht]
      · have hle := (hc.mem_revision.mp ⟨r, hmem hr ht, rfl⟩).2
        have hp := hc.parent_ne (hmem hr ht)
        have hn : r.revision ≠ c.row.headRevision + 1 := by omega
        simp [revisionClash, RevisionRow.key, hid, ht, hrev, hparent, hn, hp]
    exact (Table.insert_of_fresh hfresh).imp fun _ hi => hi.1

/-- The guard selects one row where the head is the expected one. -/
theorem countP_guarded {taskId : String} {c : Cell} (hcell : s.cell taskId = some c) :
    s.tasks.rows.countP (guarded taskId c.row.headRevision) = 1 := by
  obtain ⟨hm, hid, -⟩ := cell_eq_some.mp hcell
  refine Table.countP_eq_one taskClash_of_taskId hm ?_ fun r hr => ?_
  · simp [guarded, hid]
  · simp only [guarded, Bool.and_eq_true, decide_eq_true_eq] at hr
    rw [hr.1, hid]

/-! ## What a write does to the cells -/

/-- A head that was advanced, and the revision that was appended. -/
theorem cell_advanced {taskId : String} {c : Cell} {row : RevisionRow}
    {revisions : RevisionTable} (change : HeadChange) (newHead : ℕ)
    (hcell : s.cell taskId = some c) (hid : row.taskId = taskId)
    (hi : s.revisions.insert row = some revisions) (id : String) :
    (({ s with revisions } : Store).advanced taskId c.row.headRevision newHead change).cell id =
      if id = taskId then some ⟨change.assign newHead c.row, c.revisions ++ [row]⟩
      else s.cell id := by
  obtain ⟨hm, hrow, hrs⟩ := cell_eq_some.mp hcell
  generalize hs : ({ s with revisions } : Store).advanced taskId c.row.headRevision newHead
    change = s'
  have htasks : s'.tasks.rows = s.tasks.rows.map fun r =>
      if guarded taskId c.row.headRevision r then change.assign newHead r else r := by
    rw [← hs]
    rfl
  have hrevs : s'.revisions.rows = s.revisions.rows ++ [row] := by
    rw [← hs]
    exact (Table.insert_eq_some.mp hi).2
  have hkeep (r : TaskRow) : (if guarded taskId c.row.headRevision r then
      change.assign newHead r else r).taskId = r.taskId := by split <;> rfl
  -- the guard changes no identity, so the same row is found
  have hfind : s'.tasks.rows.find? (fun r => r.taskId = id) =
      (s.tasks.rows.find? fun r => r.taskId = id).map fun r =>
        if guarded taskId c.row.headRevision r then change.assign newHead r else r := by
    rw [htasks, List.find?_map]
    congr 2
    funext r
    simp only [Function.comp_apply, hkeep]
  unfold Store.cell
  rw [hfind, hrevs, List.filter_append, Option.map_map]
  split
  · rename_i heq
    rw [heq, find?_taskId.mpr ⟨hm, hrow⟩]
    simp [guarded, hrow, hid, hrs]
  · rename_i hne
    rcases hf : s.tasks.rows.find? (fun r => r.taskId = id) with - | r
    · rw [hf]
      rfl
    · have hr : r.taskId ≠ taskId := by rw [(find?_taskId.mp hf).2]; exact hne
      rw [hf]
      simp [guarded, hr, hid, Ne.symm hne]

/-- A task that was inserted with its first revision. -/
theorem cell_started {task : TaskRow} {row : RevisionRow} {tasks : TaskTable}
    {revisions : RevisionTable} (hi : s.tasks.insert task = some tasks)
    (hr : s.revisions.insert row = some revisions) (hid : row.taskId = task.taskId)
    (hfresh : ∀ r ∈ s.revisions.rows, r.taskId ≠ task.taskId) (id : String) :
    ({ s with tasks, revisions } : Store).cell id =
      if id = task.taskId then some ⟨task, [row]⟩ else s.cell id := by
  obtain ⟨hclash, hrows⟩ := Table.insert_eq_some.mp hi
  have hrevs := (Table.insert_eq_some.mp hr).2
  have hnew : s.tasks.rows.find? (fun r => r.taskId = task.taskId) = none :=
    List.find?_eq_none.mpr fun r hr heq => by
      have := hclash r hr
      simp [taskClash, TaskRow.key, (by simpa using heq : r.taskId = task.taskId)] at this
  unfold Store.cell
  simp only [hrows, hrevs, List.find?_append, List.filter_append]
  split
  · rename_i heq
    have hnone : s.revisions.rows.filter (fun r => r.taskId = task.taskId) = [] :=
      List.filter_eq_nil_iff.mpr fun r hr => by simpa using hfresh r hr
    simp [heq, hnew, hnone, hid]
  · rename_i hne
    simp [hid, Ne.symm hne]

/-- One action's effect on one cell. -/
inductive CellStep (E : Setting) (h : Timeline World) : Option Cell → Option Cell → Prop
  | same (o : Option Cell) : CellStep E h o o
  | start {c : Cell} (hs : Started E h c) : CellStep E h none (some c)
  | move {c c' : Cell} (hm : Moves E h c c') : CellStep E h (some c) (some c')

/-- One action's effect on the store. -/
structure StoreStep (E : Setting) (h : Timeline World) (s s' : Store) : Prop where
  cells : ∀ id, CellStep E h (s.cell id) (s'.cell id)
  /-- A revision that is new belongs to a task that is there. -/
  owned : ∀ r ∈ s'.revisions.rows, r ∈ s.revisions.rows ∨ ∃ c, s'.cell r.taskId = some c
  proposals : s.proposals.rows <+: s'.proposals.rows
  steps : s.steps <+: s'.steps
  provenance : s.provenance <+: s'.provenance
  profiles : s'.profiles = s.profiles
  sessionBindings : s'.sessionBindings = s.sessionBindings
  auditEvents : s'.auditEvents = s.auditEvents

theorem StoreStep.refl (E : Setting) (h : Timeline World) (s : Store) : StoreStep E h s s :=
  ⟨fun _ => .same _, fun _ hr => Or.inl hr, List.prefix_refl _, List.prefix_refl _,
    List.prefix_refl _, rfl, rfl, rfl⟩

/-- A task that is there stays there. -/
theorem StoreStep.cell_some {taskId : String} {c : Cell} (hs : StoreStep E h s s')
    (hc : s.cell taskId = some c) :
    ∃ c', s'.cell taskId = some c' ∧ (c' = c ∨ Moves E h c c') := by
  have hstep := hs.cells taskId
  rw [hc] at hstep
  generalize s'.cell taskId = after at hstep ⊢
  cases hstep with
  | same => exact ⟨c, rfl, Or.inl rfl⟩
  | @move _ c' hm => exact ⟨c', rfl, Or.inr hm⟩

/-- A store step, and then rows appended to the ledgers. -/
theorem StoreStep.append {s₁ : Store} (hs : StoreStep E h s s₁)
    (htasks : s'.tasks = s₁.tasks) (hrevs : s'.revisions = s₁.revisions)
    (hproposals : s₁.proposals.rows <+: s'.proposals.rows) (hsteps : s₁.steps <+: s'.steps)
    (hprovenance : s₁.provenance <+: s'.provenance) (hprofiles : s'.profiles = s₁.profiles)
    (hbindings : s'.sessionBindings = s₁.sessionBindings)
    (haudit : s'.auditEvents = s₁.auditEvents) : StoreStep E h s s' := by
  have hcell (id : String) : s'.cell id = s₁.cell id := by unfold Store.cell; rw [htasks, hrevs]
  exact ⟨fun id => by rw [hcell]; exact hs.cells id,
    fun r hr => by rw [hcell]; exact hs.owned r (by rw [← hrevs]; exact hr),
    hs.proposals.trans hproposals, hs.steps.trans hsteps, hs.provenance.trans hprovenance,
    hprofiles.trans hs.profiles, hbindings.trans hs.sessionBindings, haudit.trans hs.auditEvents⟩

/-- **A successor written at the head is an advance of the cell.** -/
theorem StoreStep.advance {c : Cell} {row : RevisionRow} {revisions : RevisionTable}
    {taskId : String} (change : HeadChange) (newHead : ℕ) (hcell : s.cell taskId = some c)
    (hid : row.taskId = taskId) (hi : s.revisions.insert row = some revisions)
    (hm : Moves E h c ⟨change.assign newHead c.row, c.revisions ++ [row]⟩) :
    StoreStep E h s (({ s with revisions } : Store).advanced taskId c.row.headRevision newHead
      change) := by
  obtain ⟨-, hrows⟩ := Table.insert_eq_some.mp hi
  have hcells := cell_advanced change newHead hcell hid hi
  refine ⟨fun id => ?_, fun r hr => ?_, List.prefix_refl _, List.prefix_refl _,
    List.prefix_refl _, rfl, rfl, rfl⟩
  · rw [hcells id]
    split
    · rename_i heq
      rw [heq, hcell]
      exact .move hm
    · exact .same _
  · rcases List.mem_append.mp ((congrArg (r ∈ ·) hrows).mp hr) with hr | hr
    · exact Or.inl hr
    · refine Or.inr ⟨_, (hcells r.taskId).trans (if_pos ?_)⟩
      rw [List.mem_singleton.mp hr, hid]

end Atmem
