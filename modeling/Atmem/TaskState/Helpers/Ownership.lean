import Atmem.TaskState.Helpers.Discipline
import Atmem.TaskState.Helpers.Footprint
/-!
# Every revision is of a task that is there

The foreign key of the revisions, as an invariant: a revision is inserted
only for a task that is there, no statement changes a task's identifier,
and a deletion takes a task's revisions with it. So it holds in every run of
any calls, deletions included. That every task is of a scope that can be
named is another, and a third that every revision is the one its snapshot
says it is.
-/

namespace Atmem

open Transactional Relational Interleaving

variable {H : Hashing} {s s' : Store} {w : World} {c : System} {α : Type}

/-- Every revision is of a task that is there. -/
def Owned (s : Store) : Prop := ∀ r ∈ s.revisions.rows, s.hasTask r.taskId = true

/-- The statements keep it so. -/
def KeepsOwned (s s' : Store) : Prop := Owned s → Owned s'

/-- A task is there exactly if a row is. -/
theorem hasTask_iff_mem {taskId : String} :
    s.hasTask taskId = true ↔ ∃ r ∈ s.tasks.rows, r.taskId = taskId := by
  simp [Store.hasTask, List.any_eq_true]

/-- No revision was added, and no task removed. -/
theorem KeepsOwned.of_tasks (hrevisions : s'.revisions.rows = s.revisions.rows)
    (htasks : ∀ taskId, s.hasTask taskId = true → s'.hasTask taskId = true) : KeepsOwned s s' := by
  intro howned r hr
  rw [hrevisions] at hr
  exact htasks _ (howned r hr)

/-- A new task owns nothing yet. -/
theorem keepsOwned_insertTask (scope : AuthorityScope) (row : TaskRow) :
    Transactional.Within KeepsOwned (insertTask scope row) := by
  intro s
  unfold insertTask
  simp only [exec_bind, exec_get]
  rcases hi : s.tasks.insert row with - | tasks
  · exact fun howned => howned
  · have hrows := (Table.insert_eq_some.mp hi).2
    have hkept : KeepsOwned s { s with tasks } := by
      refine .of_tasks rfl fun taskId ht => ?_
      rw [hasTask_iff_mem] at ht ⊢
      obtain ⟨r, hr, hid⟩ := ht
      exact ⟨r, by rw [hrows]; exact List.mem_append_left _ hr, hid⟩
    simp only [exec_bind, exec_modify, exec_get]
    split <;> exact hkept

/-- A revision is of a task that is there. -/
theorem keepsOwned_insertTaskRevision (row : RevisionRow) :
    Transactional.Within KeepsOwned (insertTaskRevision row) := by
  intro s
  rw [exec_insertTaskRevision]
  by_cases ht : s.hasTask row.taskId = true
  · rw [if_pos ht]
    rcases hi : s.revisions.insert row with - | revisions
    · exact fun howned => howned
    · intro howned r hr
      rw [show ({ s with revisions } : Store).revisions.rows = s.revisions.rows ++ [row] from
        (Table.insert_eq_some.mp hi).2] at hr
      rcases List.mem_append.mp hr with hr | hr
      · exact howned r hr
      · rw [List.mem_singleton.mp hr]
        exact ht
  · rw [if_neg ht]
    exact fun howned => howned

theorem keepsOwned_advanceTaskHead (id : String) (expectedHead newHead : ℕ) (change : HeadChange) :
    Transactional.Within KeepsOwned (advanceTaskHead id expectedHead newHead change) := by
  intro s
  rw [exec_advanceTaskHead]
  refine .of_tasks rfl fun taskId ht => ?_
  rw [hasTask_iff_mem] at ht ⊢
  obtain ⟨r, hr, hid⟩ := ht
  refine ⟨_, List.mem_map_of_mem hr, ?_⟩
  split <;> exact hid

instance : Footprint KeepsOwned where
  refl _ howned := howned
  trans _ _ _ h h' howned := h' (h howned)
  insertTask scope row _ := keepsOwned_insertTask scope row
  insertTaskRevision row _ := keepsOwned_insertTaskRevision row
  insertTaskProvenance row s := by
    rw [exec_insertTaskProvenance]
    split <;> exact .of_tasks rfl fun _ ht => ht
  insertTaskProposal row s := by
    rw [exec_insertTaskProposal]
    split <;> exact .of_tasks rfl fun _ ht => ht
  insertTaskStep row s := by
    rw [exec_insertTaskStep]
    split <;> exact .of_tasks rfl fun _ ht => ht
  advanceTaskHead := keepsOwned_advanceTaskHead

/-- A deletion takes the revisions of its task with it. -/
theorem keepsOwned_deleteTask (id : String) :
    Transactional.Within KeepsOwned (deleteTask id) := by
  intro s howned r hr
  obtain ⟨hmem, hne⟩ := List.mem_filter.mp hr
  obtain ⟨t, ht, hid⟩ := hasTask_iff_mem.mp (howned r hmem)
  refine hasTask_iff_mem.mpr ⟨t, List.mem_filter.mpr ⟨ht, ?_⟩, hid⟩
  simpa [hid] using hne

/-- **Every run keeps the revisions owned.** -/
theorem owned_of_visits {allowed : Call → Prop} (hv : Visits H allowed w c) :
    Owned c.time.now.store := by
  refine touches_of_visits keepsOwned_deleteTask hv fun r hr => ?_
  rw [hv.1.revisions] at hr
  exact absurd hr List.not_mem_nil

/-! ## Whose a task is -/

/-- Every task is of a scope that can be named. -/
def Scoped (s : Store) : Prop := ∀ r ∈ s.tasks.rows, r.scopeFields.postInit = .ok ()

/-- A step that leaves every task of a scope that can be named. -/
def KeepsScoped (s s' : Store) : Prop := Scoped s → Scoped s'

/-- A new task is of the scope it was started in. -/
theorem keepsScoped_insertTask {scope : AuthorityScope} {row : TaskRow}
    (hrow : row.scopeFields = scope.val) :
    Transactional.Within KeepsScoped (insertTask scope row) := by
  intro s
  unfold insertTask
  simp only [exec_bind, exec_get]
  rcases hi : s.tasks.insert row with - | tasks
  · exact fun hscoped => hscoped
  · have hkept : KeepsScoped s { s with tasks } := by
      intro hscoped r hr
      rw [show ({ s with tasks } : Store).tasks.rows = s.tasks.rows ++ [row] from
        (Table.insert_eq_some.mp hi).2] at hr
      rcases List.mem_append.mp hr with hr | hr
      · exact hscoped r hr
      · rw [List.mem_singleton.mp hr, hrow]
        exact scope.2
    simp only [exec_bind, exec_modify, exec_get]
    split <;> exact hkept

theorem keepsScoped_advanceTaskHead (id : String) (expectedHead newHead : ℕ)
    (change : HeadChange) :
    Transactional.Within KeepsScoped (advanceTaskHead id expectedHead newHead change) := by
  intro s
  rw [exec_advanceTaskHead]
  intro hscoped r hr
  obtain ⟨before, hbefore, rfl⟩ := List.mem_map.mp hr
  split <;> exact hscoped before hbefore

instance : Footprint KeepsScoped where
  refl _ hscoped := hscoped
  trans _ _ _ h h' hscoped := h' (h hscoped)
  insertTask _ _ := keepsScoped_insertTask
  insertTaskRevision row _ s := by
    rw [exec_insertTaskRevision]
    split <;> exact fun hscoped => hscoped
  insertTaskProvenance row s := by
    rw [exec_insertTaskProvenance]
    split <;> exact fun hscoped => hscoped
  insertTaskProposal row s := by
    rw [exec_insertTaskProposal]
    split <;> exact fun hscoped => hscoped
  insertTaskStep row s := by
    rw [exec_insertTaskStep]
    split <;> exact fun hscoped => hscoped
  advanceTaskHead := keepsScoped_advanceTaskHead

theorem keepsScoped_deleteTask (id : String) :
    Transactional.Within KeepsScoped (deleteTask id) := fun _ hscoped r hr =>
  hscoped r (List.mem_filter.mp hr).1

/-- **Every run keeps the tasks scoped.** -/
theorem scoped_of_visits {allowed : Call → Prop} (hv : Visits H allowed w c) :
    Scoped c.time.now.store := by
  refine touches_of_visits keepsScoped_deleteTask hv fun r hr => ?_
  rw [hv.1.tasks] at hr
  exact absurd hr List.not_mem_nil

/-! ## What a revision says it is -/

/-- Every revision has the task and the number of its snapshot. -/
def Numbered (s : Store) : Prop := ∀ r ∈ s.revisions.rows, r.Numbered

/-- A step that leaves every revision with the task and the number of its
snapshot. -/
def KeepsNumbered (s s' : Store) : Prop := Numbered s → Numbered s'

theorem KeepsNumbered.of_revisions (h : s'.revisions.rows = s.revisions.rows) :
    KeepsNumbered s s' := by
  intro hnumbered r hr
  rw [h] at hr
  exact hnumbered r hr

theorem keepsNumbered_insertTask (scope : AuthorityScope) (row : TaskRow) :
    Transactional.Within KeepsNumbered (insertTask scope row) := by
  intro s
  unfold insertTask
  simp only [exec_bind, exec_get]
  rcases s.tasks.insert row with - | tasks
  · exact .of_revisions rfl
  · simp only [exec_bind, exec_modify, exec_get]
    split <;> exact .of_revisions rfl

/-- A revision that is numbered keeps the others so. -/
theorem keepsNumbered_insertTaskRevision {row : RevisionRow} (hrow : row.Numbered) :
    Transactional.Within KeepsNumbered (insertTaskRevision row) := by
  intro s
  rw [exec_insertTaskRevision]
  by_cases ht : s.hasTask row.taskId = true
  · rw [if_pos ht]
    rcases hi : s.revisions.insert row with - | revisions
    · exact .of_revisions rfl
    · intro hnumbered r hr
      rw [show ({ s with revisions } : Store).revisions.rows = s.revisions.rows ++ [row] from
        (Table.insert_eq_some.mp hi).2] at hr
      rcases List.mem_append.mp hr with hr | hr
      · exact hnumbered r hr
      · rw [List.mem_singleton.mp hr]
        exact hrow
  · rw [if_neg ht]
    exact .of_revisions rfl

instance : Footprint KeepsNumbered where
  refl _ hnumbered := hnumbered
  trans _ _ _ h h' hnumbered := h' (h hnumbered)
  insertTask scope row _ := keepsNumbered_insertTask scope row
  insertTaskRevision _ := keepsNumbered_insertTaskRevision
  insertTaskProvenance row s := by
    rw [exec_insertTaskProvenance]
    split <;> exact .of_revisions rfl
  insertTaskProposal row s := by
    rw [exec_insertTaskProposal]
    split <;> exact .of_revisions rfl
  insertTaskStep row s := by
    rw [exec_insertTaskStep]
    split <;> exact .of_revisions rfl
  advanceTaskHead id expectedHead newHead change s := by
    rw [exec_advanceTaskHead]
    exact .of_revisions rfl

theorem keepsNumbered_deleteTask (id : String) :
    Transactional.Within KeepsNumbered (deleteTask id) := fun _ hnumbered r hr =>
  hnumbered r (List.mem_filter.mp hr).1

/-- **Every run keeps the revisions numbered.** -/
theorem numbered_of_visits {allowed : Call → Prop} (hv : Visits H allowed w c) :
    Numbered c.time.now.store := by
  refine touches_of_visits keepsNumbered_deleteTask hv fun r hr => ?_
  rw [hv.1.revisions] at hr
  exact absurd hr List.not_mem_nil

end Atmem
