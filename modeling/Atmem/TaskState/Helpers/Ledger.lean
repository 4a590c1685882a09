import Atmem.Common.Stopwatch
import Atmem.TaskState.Helpers.Footprint
import Atmem.TaskState.Model.Calls
/-!
# The ledger of steps and the last progress

Every step is recorded by the transaction it was decided in, with the
instant the transaction writes everywhere. So the last progress a row keeps
is the stamp of a step: of the last accepted progress, or of the start where
nothing has progressed since. Whatever calls run, and in whatever order,
the ledger keeps to that.
-/

namespace Atmem

open Transactional Relational Interleaving

variable {s s' s₁ : Store} {H : Hashing} {now : Instant}

/-! ## Progress in the ledger -/

/-- The steps of a task, in the order they were recorded. -/
def Store.stepsOf (s : Store) (taskId : String) : List StepRow :=
  s.steps.filter fun r => r.taskId = taskId

/-- The revision an accepted step resulted in is a progress. -/
def Store.progressed (s : Store) (step : StepRow) : Bool :=
  step.outcome = .accepted && s.revisions.rows.any fun r =>
    r.taskId = step.taskId && step.resultingRevision = some r.revision && r.isProgress

/-- The step of the last accepted progress, or the first one, and what was
recorded after it. -/
def Store.sinceProgressStep (s : Store) (taskId : String) : List StepRow :=
  Stopwatch.sinceLast s.progressed (s.stepsOf taskId)

/-- A revision has one row. -/
theorem revision_of_number {a b : RevisionRow} (ha : a ∈ s.revisions.rows)
    (hb : b ∈ s.revisions.rows) (htask : a.taskId = b.taskId) (h : a.revision = b.revision) :
    a = b := by
  have hclash : ∀ a b : RevisionRow, (a.taskId, a.revision) = (b.taskId, b.revision) →
      revisionClash a.key b.key = true := fun a b h => by
    simp [revisionClash, RevisionRow.key, (Prod.mk.inj h).1, (Prod.mk.inj h).2]
  exact Table.eq_of_id_eq hclash ha hb (Prod.ext htask h)

/-- So has a task. -/
theorem task_of_taskId {a b : TaskRow} (ha : a ∈ s.tasks.rows) (hb : b ∈ s.tasks.rows)
    (h : a.taskId = b.taskId) : a = b :=
  Table.eq_of_id_eq taskClash_of_taskId ha hb h

/-- An accepted step progressed where the revision it names did. -/
theorem progressed_eq {step : StepRow} {r : RevisionRow} (ha : step.outcome = .accepted)
    (hr : r ∈ s.revisions.rows) (htask : r.taskId = step.taskId)
    (hrevision : step.resultingRevision = some r.revision) : s.progressed step = r.isProgress := by
  unfold Store.progressed
  rw [ha, Bool.eq_iff_iff]
  simp only [decide_true, Bool.true_and, List.any_eq_true, Bool.and_eq_true, decide_eq_true_eq]
  constructor
  · rintro ⟨r', hr', ⟨htask', hrevision'⟩, hprogress⟩
    rw [hrevision, Option.some.injEq] at hrevision'
    rwa [revision_of_number hr hr' (htask.trans htask'.symm) hrevision']
  · exact fun hprogress => ⟨r, hr, ⟨htask, hrevision⟩, hprogress⟩

/-- A step that was not accepted is no progress. -/
theorem progressed_of_not_accepted {step : StepRow} (ha : step.outcome ≠ .accepted) :
    s.progressed step = false := by
  unfold Store.progressed
  rw [decide_eq_false ha, Bool.false_and]

/-! ## The invariant -/

/-- The steps of every task account for its last progress. -/
structure Ledgered (s : Store) : Prop where
  numbered : ∀ r ∈ s.revisions.rows, r.Numbered
  /-- A step is of a task that is there. -/
  owned : ∀ step ∈ s.steps, ∃ t ∈ s.tasks.rows, t.taskId = step.taskId
  /-- An accepted step names a revision of its task. -/
  resulted : ∀ step ∈ s.steps, step.outcome = .accepted → ∃ r ∈ s.revisions.rows,
    r.taskId = step.taskId ∧ step.resultingRevision = some r.revision
  since : ∀ t ∈ s.tasks.rows, ∃ p ∈ (s.sinceProgressStep t.taskId).head?,
    t.lastProgressAtUtc = p.recordedAtUtc

/-- What a step was does not change with the revisions that come. -/
theorem Ledgered.progressed (hl : Ledgered s) (hrevs : s.revisions.rows ⊆ s'.revisions.rows)
    {step : StepRow} (hstep : step ∈ s.steps) : s'.progressed step = s.progressed step := by
  by_cases ha : step.outcome = .accepted
  · obtain ⟨r, hr, htask, hrevision⟩ := hl.resulted step hstep ha
    rw [progressed_eq ha hr htask hrevision, progressed_eq ha (hrevs hr) htask hrevision]
  · rw [progressed_of_not_accepted ha, progressed_of_not_accepted ha]

/-- The steps of a task. -/
theorem mem_stepsOf {taskId : String} {step : StepRow} :
    step ∈ s.stepsOf taskId ↔ step ∈ s.steps ∧ step.taskId = taskId := by
  simp [Store.stepsOf]

/-- The same steps, cut at the same progress. -/
theorem sinceProgressStep_congr {taskId : String} (hsteps : s'.stepsOf taskId = s.stepsOf taskId)
    (hmarks : ∀ q ∈ s.stepsOf taskId, s'.progressed q = s.progressed q) :
    s'.sinceProgressStep taskId = s.sinceProgressStep taskId := by
  unfold Store.sinceProgressStep
  rw [hsteps]
  exact (Stopwatch.cut_congr _ hmarks).2

/-- A store with the same three tables. -/
structure SameLedger (s s' : Store) : Prop where
  tasks : s'.tasks = s.tasks
  revisions : s'.revisions = s.revisions
  steps : s'.steps = s.steps

theorem SameLedger.refl (s : Store) : SameLedger s s := ⟨rfl, rfl, rfl⟩

theorem SameLedger.trans (s s' s'' : Store) (h : SameLedger s s') (h' : SameLedger s' s'') :
    SameLedger s s'' :=
  ⟨h'.tasks.trans h.tasks, h'.revisions.trans h.revisions, h'.steps.trans h.steps⟩

/-- **One step is recorded**: where it is a progress, it is stamped with the
progress its row is given, and no other row is touched. -/
theorem Ledgered.record (hl : Ledgered s) {step : StepRow}
    (hnumbered : ∀ r ∈ s'.revisions.rows, r.Numbered)
    (hrevs : s.revisions.rows ⊆ s'.revisions.rows) (hsteps : s'.steps = s.steps ++ [step])
    (hresulted : step.outcome = .accepted → ∃ r ∈ s'.revisions.rows,
      r.taskId = step.taskId ∧ step.resultingRevision = some r.revision)
    (hstays : ∀ t ∈ s.tasks.rows, ∃ t' ∈ s'.tasks.rows, t'.taskId = t.taskId)
    (howned : ∃ t ∈ s'.tasks.rows, t.taskId = step.taskId)
    (htasks : ∀ t' ∈ s'.tasks.rows, ∃ t ∈ s.tasks.rows, t'.taskId = t.taskId ∧
      t'.lastProgressAtUtc = if t.taskId = step.taskId ∧ s'.progressed step = true
        then step.recordedAtUtc else t.lastProgressAtUtc) : Ledgered s' := by
  refine ⟨hnumbered, fun q hq => ?_, fun q hq ha => ?_, fun t' ht' => ?_⟩
  · rcases List.mem_append.mp (hsteps ▸ hq) with hq | hq
    · obtain ⟨t, ht, hid⟩ := hl.owned q hq
      obtain ⟨t', ht', hid'⟩ := hstays t ht
      exact ⟨t', ht', hid'.trans hid⟩
    · rw [List.mem_singleton.mp hq]
      exact howned
  · rcases List.mem_append.mp (hsteps ▸ hq) with hq | hq
    · obtain ⟨r, hr, hrest⟩ := hl.resulted q hq ha
      exact ⟨r, hrevs hr, hrest⟩
    · rw [List.mem_singleton.mp hq] at ha ⊢
      exact hresulted ha
  · obtain ⟨t, ht, hid, hlast⟩ := htasks t' ht'
    obtain ⟨p, hp, hsince⟩ := hl.since t ht
    have hmarks : Stopwatch.sinceLast s'.progressed (s.stepsOf t.taskId) =
        s.sinceProgressStep t.taskId :=
      (Stopwatch.cut_congr _ fun q hq => hl.progressed hrevs (mem_stepsOf.mp hq).1).2
    unfold Store.sinceProgressStep Store.stepsOf
    rw [hsteps, List.filter_append, hid]
    rw [← hmarks] at hp
    by_cases hown : step.taskId = t.taskId
    · -- the task of the step
      rw [List.filter_singleton, decide_eq_true hown]
      rcases hprogress : s'.progressed step with - | -
      · rw [hprogress, if_neg fun h => Bool.false_ne_true h.2] at hlast
        exact ⟨p, Stopwatch.head?_sinceLast_concat _ hprogress hp, hlast.trans hsince⟩
      · rw [if_pos ⟨hown.symm, hprogress⟩] at hlast
        refine ⟨step, ?_, hlast⟩
        rw [cond_true, Stopwatch.sinceLast_concat_of_mark _ hprogress]
        rfl
    · -- another task
      rw [List.filter_singleton, decide_eq_false hown, cond_false, List.append_nil]
      rw [if_neg fun h => hown h.1.symm] at hlast
      exact ⟨p, hp, hlast.trans hsince⟩

/-! ## Statements -/

theorem sameLedger_insertTaskProvenance (row : ProvenanceRow) :
    Transactional.Within SameLedger (insertTaskProvenance row) := by
  intro s
  rw [exec_insertTaskProvenance]
  split <;> exact ⟨rfl, rfl, rfl⟩

theorem sameLedger_insertTaskProposal (row : ProposalRow) :
    Transactional.Within SameLedger (insertTaskProposal row) := by
  intro s
  rw [exec_insertTaskProposal]
  split <;> exact ⟨rfl, rfl, rfl⟩

/-- Provenance is beside the ledger. -/
theorem sameLedger_provenance {α : Type} (as : List α) (f : α → ProvenanceRow) :
    Transactional.Within SameLedger (as.forM fun a => insertTaskProvenance (f a)) :=
  .forM SameLedger.refl SameLedger.trans fun _ => sameLedger_insertTaskProvenance _

/-- What such statements leave. -/
theorem sameLedger_of_exec {α : Type} {x : Tx α} {a : α}
    (hx : Transactional.Within SameLedger x) (he : exec x s = (.ok a, s')) : SameLedger s s' := by
  have h := hx s
  rwa [he] at h

/-- A revision that goes in is new, and of a task that is there. -/
theorem exec_insertTaskRevision_eq_ok {row : RevisionRow}
    (he : exec (insertTaskRevision row) s = (.ok (), s')) :
    s.hasTask row.taskId = true ∧ ∃ revisions, s.revisions.insert row = some revisions ∧
      s' = { s with revisions } := by
  rw [exec_insertTaskRevision] at he
  split at he
  · rename_i revisions hi
    split at hi
    · rename_i hhas
      cases he
      exact ⟨hhas, revisions, hi, rfl⟩
    · cases hi
  · cases he

/-- A step is stored at the end of its task's. -/
theorem exec_insertTaskStep_eq_ok {row : ℕ → StepRow}
    (he : exec (insertTaskStep row) s = (.ok (), s')) :
    s.hasTask (row 0).taskId = true ∧
      s' = { s with steps := s.steps ++ [row (s.nextStepSequence (row 0).taskId)] } := by
  rw [exec_insertTaskStep] at he
  split at he
  · rename_i hhas
    cases he
    exact ⟨hhas, rfl⟩
  · cases he

/-- The rows after a head that moved. -/
theorem advanced_rows {taskId : String} {expectedHead newHead : ℕ} {change : HeadChange}
    (hone : s.tasks.rows.countP (guarded taskId expectedHead) = 1) {t' : TaskRow}
    (ht' : t' ∈ (s.advanced taskId expectedHead newHead change).tasks.rows) :
    ∃ t ∈ s.tasks.rows, t'.taskId = t.taskId ∧ t'.lastProgressAtUtc =
      if t.taskId = taskId then change.lastProgressAtUtc.getD t.lastProgressAtUtc
      else t.lastProgressAtUtc := by
  obtain ⟨t, ht, rfl⟩ := List.mem_map.mp ht'
  refine ⟨t, ht, ?_⟩
  by_cases hg : guarded taskId expectedHead t = true
  · have hid : t.taskId = taskId := by
      have := (Bool.and_eq_true_iff.mp hg).1
      exact of_decide_eq_true this
    rw [if_pos hg, if_pos hid]
    exact ⟨rfl, rfl⟩
  · rw [if_neg hg]
    refine ⟨rfl, (if_neg fun hid => hg ?_).symm⟩
    obtain ⟨t₀, ht₀, hg₀⟩ := List.countP_pos_iff.mp (by rw [hone]; exact Nat.one_pos)
    have hid₀ : t₀.taskId = taskId := of_decide_eq_true (Bool.and_eq_true_iff.mp hg₀).1
    rwa [task_of_taskId ht ht₀ (hid.trans hid₀.symm)]

/-- A head that advances removes no task. -/
theorem advanced_stays {taskId : String} {expectedHead newHead : ℕ} {change : HeadChange}
    {t : TaskRow} (ht : t ∈ s.tasks.rows) :
    ∃ t' ∈ (s.advanced taskId expectedHead newHead change).tasks.rows, t'.taskId = t.taskId := by
  refine ⟨_, List.mem_map_of_mem ht, ?_⟩
  split <;> rfl

/-- A head that did not move left the rows. -/
theorem mem_of_not_advanced {taskId : String} {expectedHead newHead : ℕ} {change : HeadChange}
    (hnone : s.tasks.rows.countP (guarded taskId expectedHead) ≠ 1) {t' : TaskRow}
    (ht' : t' ∈ (s.advanced taskId expectedHead newHead change).tasks.rows) :
    t' ∈ s.tasks.rows := by
  obtain ⟨t, ht, rfl⟩ := List.mem_map.mp ht'
  have hid : ∀ r : TaskRow, guarded taskId expectedHead r = true → r.taskId = taskId :=
    fun r hr => of_decide_eq_true (Bool.and_eq_true_iff.mp hr).1
  rw [if_neg]
  · exact ht
  · intro hg
    refine hnone (Table.countP_eq_one taskClash_of_taskId ht hg fun r hr => ?_)
    rw [hid r hr, hid t hg]

/-- A task that is there has a row. -/
theorem exists_of_hasTask {taskId : String} (h : s.hasTask taskId = true) :
    ∃ t ∈ s.tasks.rows, t.taskId = taskId := by
  simpa [Store.hasTask] using h

end Atmem
