import Atmem.TaskState.Helpers.Alone
import Atmem.TaskState.Model.Observability
import Atmem.TaskState.Properties.NoProgress
/-!
# What the audits find

The replay of a whole chain arrives at the columns its row keeps, and a whole
chain has no gap and ends at the head. But an audit sees a bounded listing of
the chain: it agrees with the row exactly as long as the chain fits the
bound.
-/

namespace Atmem

open Relation Interleaving

variable {H : Hashing} {w : World} {c : System} {E : Setting} {h : Timeline World} {s : Store}
variable {cell cell' : Cell} {taskId : String}

/-- Both audits agree with a task's row: the paused time is the stored one,
and nothing is wrong with the chain. -/
def Audited (s : Store) (row : TaskRow) : Prop :=
  s.rebuildTaskPauseAccounting row.taskId = row.noProgressPausedMs ∧
    (integrity s [row]).valid = true

/-! ## The replay -/

/-- **One advance, replayed**: the replay stays where the row is. -/
theorem Moves.replayed (hm : Moves E h cell cell') (ha : cell.Accounted E)
    (hr : cell.revisions.foldl PauseReplay.step {} =
      ⟨cell.row.noProgressPausedMs, cell.row.pausedAtUtc⟩) :
    cell'.revisions.foldl PauseReplay.step {} =
      ⟨cell'.row.noProgressPausedMs, cell'.row.pausedAtUtc⟩ := by
  obtain ⟨base, next, S⟩ := hm.2.successor hm.1
  rw [S.revisions, List.foldl_append, hr, List.foldl_cons, List.foldl_nil, PauseReplay.step,
    S.lifecycle]
  rcases hm.pauseColumns ha.paused S.revisions with ⟨hlife, hnone, hsome, htotal⟩ |
    ⟨hlife, hnone, htotal⟩
  · rw [if_pos ⟨hlife, hnone⟩, hsome, htotal]
  · rw [if_neg fun hand => hlife hand.1, if_pos hlife, hnone, htotal, pausedMsAt]
    rcases cell.row.pausedAtUtc with - | since
    · rfl
    · rfl

/-- **The replay of a whole chain arrives at the row.** -/
theorem Grown.replayed (hg : Grown E h cell) :
    cell.revisions.foldl PauseReplay.step {} =
      ⟨cell.row.noProgressPausedMs, cell.row.pausedAtUtc⟩ := by
  obtain ⟨first, hs, ha⟩ := hg
  have hstart : first.Accounted E ∧ first.revisions.foldl PauseReplay.step {} =
      ⟨first.row.noProgressPausedMs, first.row.pausedAtUtc⟩ := by
    refine ⟨hs.accounted, ?_⟩
    obtain ⟨-, -, -, -, -, -, hlifecycle, hrow, hrevs⟩ := hs
    rw [hrevs, hrow]
    simp [PauseReplay.step, revisionRow, hlifecycle, startRow]
  exact (Versioned.invariant
    (P := fun cell : Cell => cell.Accounted E ∧ cell.revisions.foldl PauseReplay.step {} =
      ⟨cell.row.noProgressPausedMs, cell.row.pausedAtUtc⟩)
    (fun _ _ hm hk => ⟨hk.1.moves hm, hm.replayed hk.1 hk.2⟩) ha hstart).2

/-! ## The listing -/

/-- A listing of a chain is its beginning. -/
theorem listTaskRevisions_of_cell (hc : cell.Chained E h) (hcell : s.cell taskId = some cell) :
    s.listTaskRevisions taskId 1000 = cell.revisions.take 1000 := by
  have hsorted : cell.revisions.Pairwise fun a b => decide (a.revision ≤ b.revision) = true := by
    have hnumbers : (cell.revisions.map (·.revision)).Pairwise (· < ·) := by
      rw [hc.numbers]
      exact List.pairwise_lt_range'
    exact (List.pairwise_map.mp hnumbers).imp fun hlt => decide_eq_true (Nat.le_of_lt hlt)
  unfold Store.listTaskRevisions
  rw [← (cell_eq_some.mp hcell).2.2, List.mergeSort_of_pairwise hsorted]
  rfl

/-- The first numbers of a stretch. -/
theorem take_range' (n m : ℕ) : (List.range' 1 m).take n = List.range' 1 (min n m) := by
  rcases Nat.le_total n m with hle | hle
  · rw [List.take_range'_of_length_ge hle, Nat.min_eq_left hle]
  · rw [List.take_range'_of_length_le hle, Nat.min_eq_right hle]

/-- The last number of a stretch. -/
theorem max?_range' {m : ℕ} (hm : 1 ≤ m) : (List.range' 1 m).max? = some m := by
  rw [List.max?_eq_some_iff]
  refine ⟨?_, fun k hk => ?_⟩
  · rw [List.mem_range'_1]
    omega
  · rw [List.mem_range'_1] at hk
    omega

/-- **Nothing is wrong with a chain that fits the listing**, and something is
with every other. -/
theorem integrity_valid_iff (hc : cell.Chained E h) (hcell : s.cell cell.row.taskId = some cell) :
    (integrity s [cell.row]).valid = true ↔ cell.row.headRevision ≤ 1000 := by
  have hhead : 1 ≤ cell.row.headRevision := by
    obtain ⟨base, hb, hrev, -⟩ := hc.head
    exact (hc.mem_revision.mp ⟨base, List.mem_of_getLast? hb, hrev⟩).1
  have hnumbers : (s.listTaskRevisions cell.row.taskId 1000).map (·.revision) =
      List.range' 1 (min 1000 cell.row.headRevision) := by
    rw [listTaskRevisions_of_cell hc hcell, List.map_take, hc.numbers, take_range']
  have hmax := max?_range' (m := min 1000 cell.row.headRevision) (by omega)
  have hproblems : chainProblems s cell.row = if cell.row.headRevision ≠
      min 1000 cell.row.headRevision then
        [cell.row.taskId ++ ": head does not match the latest revision"] else [] := by
    simp only [chainProblems, hnumbers, hmax, List.length_range', ne_eq, not_true_eq_false,
      if_false, List.nil_append]
  simp only [integrity, List.flatMap_cons, List.flatMap_nil, List.append_nil, hproblems,
    List.isEmpty_iff]
  split
  · simp only [List.cons_ne_nil, false_iff]
    omega
  · simp only [true_iff]
    omega

/-- **The audits agree with the fast path exactly on chains that fit the
listing.** In every run of calls that deletes no task, at every moment, the
replayed paused time of a task is the stored one and its chain is found valid
if and only if the task has at most 1000 revisions. -/
theorem audits_agree_iff (hv : Visits H Call.keepsTasks w c) {row : TaskRow}
    (hr : row ∈ c.time.now.store.tasks.rows) :
    Audited c.time.now.store row ↔ row.headRevision ≤ 1000 := by
  obtain ⟨cell, hc, rfl, hg⟩ := hv.cell hr
  have hvalid := integrity_valid_iff hg.chained hc
  refine ⟨fun ha => hvalid.mp ha.2, fun hle => ⟨?_, hvalid.mpr hle⟩⟩
  have hlength : cell.revisions.length ≤ 1000 := by
    have hcount := congrArg List.length hg.chained.numbers
    rw [List.length_map, List.length_range'] at hcount
    omega
  rw [Store.rebuildTaskPauseAccounting, listTaskRevisions_of_cell hg.chained hc,
    List.take_of_length_le hlength, hg.replayed]

/-! ## A chain that does not fit -/

/-- A task that can be paused and resumed for ever. -/
structure Pausable (cell : Cell) : Prop where
  scope : cell.row.scopeFields = exampleScope.val
  lifecycle : cell.row.lifecycle = .open ∨ cell.row.lifecycle = .paused
  absolute : cell.row.expiryRule.val.maxAbsoluteAgeMs = none
  noProgress : cell.row.expiryRule.val.maxNoProgressAgeMs = none

/-- A task that can be paused is not due. -/
theorem Pausable.dueReason (hp : Pausable cell) (t : Instant) :
    (expiryStatusAt cell.row t).dueReason = none := by
  simp [expiryStatusAt, hp.absolute, hp.noProgress]

/-- The call that changes a lifecycle once more. -/
def toggle (lifecycle : TaskLifecycle) : Call :=
  if lifecycle = .paused then exampleResume else examplePause

/-- **A pausable task is paused or resumed once more.** -/
theorem Pausable.toggled (hp : Pausable cell) (hst : Stands E h w.store "t" cell) :
    ∃ cell', (((toggle cell.row.lifecycle).body H).exec w).2.store.cell "t" = some cell' ∧
      Pausable cell' ∧ cell'.row.headRevision = cell.row.headRevision + 1 := by
  -- a pause and a reopening differ in their target only
  have hchanges (target : TaskLifecycle) (htarget : target = .open ∨ target = .paused)
      (hne : cell.row.lifecycle ≠ target) :
      ∃ cell', ((answer .view
          (Atmem.lifecycle H exampleScope "t" target "a" .operator "r" none)).exec w).2.store.cell "t" =
          some cell' ∧ Pausable cell' ∧
        cell'.row.headRevision = cell.row.headRevision + 1 := by
    have hlive : cell.row.lifecycle.terminal = false := by
      rcases hp.lifecycle with hl | hl <;> rw [hl] <;> rfl
    have hexpired : target ≠ .expired := by
      rcases htarget with rfl | rfl <;> exact fun heq => nomatch heq
    obtain ⟨base, hready⟩ := hst.ready
    obtain ⟨v, s', next, hexec, hcell, hnrev, -, -⟩ := exec_lifecycleVia_alone (H := H) (w := w)
      (expireIfDue H) target "a" .operator "r" none hready hp.scope (by rw [if_neg hexpired]; decide)
      hlive hne (fun _ => exec_expireIfDue_live (hp.dueReason _)) (fun heq => absurd heq hexpired)
      rfl
    have hafter : Pausable (cell.changed H next target "a" .operator "r" none
        (w.ticked.clock w.ticked.ticks)) := by
      refine ⟨hp.scope, ?_, hp.absolute, hp.noProgress⟩
      have hlife : ((lifecycleChange cell.row target "r" (w.ticked.clock w.ticked.ticks)).assign
          next.val.revision cell.row).lifecycle = target := by
        rw [HeadChange.assign, lifecycleChange_lifecycle]
        rfl
      exact htarget.imp hlife.trans hlife.trans
    refine ⟨_, ?_, hafter, hnrev⟩
    unfold answer Atmem.lifecycle
    rw [Eff.exec_bind_ok hexec]
    exact hcell
  unfold toggle
  rcases hp.lifecycle with hl | hl
  · rw [hl, if_neg (by decide)]
    exact hchanges .paused (.inr rfl) (by rw [hl]; decide)
  · rw [hl, if_pos rfl]
    exact hchanges .open (.inl rfl) (by rw [hl]; decide)

/-- Pausing and resuming removes no task. -/
theorem keepsTasks_toggle (lifecycle : TaskLifecycle) : (toggle lifecycle).keepsTasks := by
  unfold toggle
  split <;> trivial

/-- **A chain grows to any length.** -/
theorem exists_chain_of_length (n : ℕ) :
    ∃ c cell, Visits itemHashing Call.keepsTasks exampleWorld c ∧
      c.time.now.store.cell "t" = some cell ∧ Pausable cell ∧ cell.row.headRevision = n + 1 := by
  induction n with
  | zero =>
    have hcalls : ∀ k ∈ [Call.start exampleStart []], k.keepsTasks := by decide
    obtain ⟨c, hv, hnow⟩ := visits_runAll (H := itemHashing) fresh_exampleWorld hcalls
    have hrow : ∃ row ∈ c.time.now.store.tasks.rows, row.taskId = "t" ∧
        row.scopeFields = exampleScope.val ∧ row.lifecycle = .open ∧
        row.expiryRule.val.maxAbsoluteAgeMs = none ∧
        row.expiryRule.val.maxNoProgressAgeMs = none ∧ row.headRevision = 1 := by
      rw [hnow]
      decide +kernel
    obtain ⟨row, hr, hid, hscope, hlife, habsolute, hprogress, hhead⟩ := hrow
    obtain ⟨cell, hc, rfl⟩ := cell_of_mem hr
    rw [hid] at hc
    exact ⟨c, cell, hv, hc, ⟨hscope, .inl hlife, habsolute, hprogress⟩, hhead⟩
  | succ n ih =>
    obtain ⟨c, cell, hv, hc, hp, hhead⟩ := ih
    obtain ⟨cell', hc', hp', hhead'⟩ := hp.toggled (H := itemHashing) (hv.kept.stands hc)
    have hcalls : ∀ k ∈ [toggle cell.row.lifecycle], k.keepsTasks :=
      List.forall_mem_singleton.mpr (keepsTasks_toggle _)
    obtain ⟨c', hr, hnow, -⟩ := reaches_runAll (Call.body itemHashing) (c := c) hcalls
    refine ⟨c', cell', ⟨hv.1, hv.2.trans hr⟩, ?_, hp', by rw [hhead', hhead]⟩
    rw [hnow]
    exact hc'

/-- A task that was paused and resumed a thousand times over is found
broken. -/
theorem long_chain_not_audited :
    ¬ ∀ (H : Hashing) (w : World) (c : System), Visits H Call.keepsTasks w c →
      ∀ row ∈ c.time.now.store.tasks.rows, Audited c.time.now.store row := by
  intro hall
  obtain ⟨c, cell, hv, hc, -, hhead⟩ := exists_chain_of_length 1000
  obtain ⟨hmem, hid, -⟩ := cell_eq_some.mp hc
  have haudited := (hall _ _ c hv cell.row hmem).2
  rw [integrity_valid_iff (hv.kept.grown _ _ hc).chained (by rw [hid]; exact hc), hhead]
    at haudited
  omega

/-- The audits of a task that was paused once. -/
theorem audits_agree_of_pause :
    ∃ c row, Visits itemHashing Call.keepsTasks exampleWorld c ∧
      row ∈ c.time.now.store.tasks.rows ∧ row.headRevision = 3 ∧
      Audited c.time.now.store row := by
  obtain ⟨c, cell, hv, hc, -, hhead⟩ := exists_chain_of_length 2
  have hmem := (cell_eq_some.mp hc).1
  exact ⟨c, cell.row, hv, hmem, hhead, (audits_agree_iff hv hmem).mpr (by rw [hhead]; decide)⟩

end Atmem
