import Atmem.Store.Schema
/-!
# The audits of governed task state

What an operator checks the store with: the paused time of a task, counted
again from its revisions, and the shape of every chain. Both read a task's
revisions through the bounded listing.
-/

namespace Atmem

/-! ## Pause accounting -/

/-- What the replay of a chain has counted, and since when the task is
paused. -/
structure PauseReplay where
  total : ℕ := 0
  pausedSince : Option Instant := none
deriving DecidableEq

/-- One revision of the replay. -/
def PauseReplay.step (replay : PauseReplay) (row : RevisionRow) : PauseReplay :=
  let moment := row.createdAtUtc
  if row.state.val.lifecycle = .paused ∧ replay.pausedSince = none then
    { replay with pausedSince := some moment }
  else if row.state.val.lifecycle ≠ .paused then
    match replay.pausedSince with
    | some since => { total := replay.total + elapsedMs since moment, pausedSince := none }
    | none => replay
  else replay

/-- `rebuild_task_pause_accounting`: completed paused milliseconds, from the
revision chain. -/
def Store.rebuildTaskPauseAccounting (s : Store) (taskId : String) : ℕ :=
  ((s.listTaskRevisions taskId 1000).foldl PauseReplay.step {}).total

/-! ## Integrity -/

/-- What is wrong with one task's chain. -/
def chainProblems (s : Store) (task : TaskRow) : List String :=
  let numbers := (s.listTaskRevisions task.taskId 1000).map (·.revision)
  match numbers.max? with
  | none => [task.taskId ++ ": no revisions"]
  | some latest =>
    (if numbers ≠ List.range' 1 numbers.length then [task.taskId ++ ": revision chain has a gap"]
      else []) ++
    if task.headRevision ≠ latest then
      [task.taskId ++ ": head does not match the latest revision"]
    else []

/-- The answer of the integrity check. -/
structure IntegrityReport where
  valid : Bool
  checkedTasks : ℕ
  problems : List String
deriving DecidableEq

/-- `_integrity`: every head has a revision and the chain has no gaps. -/
def integrity (s : Store) (tasks : List TaskRow) : IntegrityReport :=
  let problems := tasks.flatMap (chainProblems s)
  { valid := problems.isEmpty, checkedTasks := tasks.length, problems }

end Atmem
