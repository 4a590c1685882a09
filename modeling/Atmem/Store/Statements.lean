import Atmem.Store.Bindings
import Atmem.Store.Schema
import Atmem.TaskState.Model.Policy
/-!
# The statements a transaction runs

A statement reads and writes the store inside a transaction and may
raise; one that raises has changed nothing, and a caller that catches it
keeps what the earlier statements did. The `CHECK` constraints are left
out: the contracts build no row that breaks one.
-/

namespace Atmem

open Relational

/-- What the service can raise. -/
inductive Raised
  | valueError (message : String)
  | assertionError (message : String)
  | integrityError
  | indexError
  | capabilityDenied (actorRole : ActorRole) (action : GovernanceAction)
  | taskStateError (reasonCode : ReasonCode) (message : String)
  | taskCompletionDenied (reasonCode : ReasonCode) (guard : GuardSignal)
deriving DecidableEq

/-- Statements of one transaction. -/
abbrev Tx (α : Type) : Type := ExceptT Raised (StateM Store) α

/-- A constructor of a contract raises `ValueError`. -/
def liftTx {α : Type} : Except String α → Tx α
  | .ok a => pure a
  | .error message => throw (.valueError message)

/-- The foreign key of a child table. -/
def Store.hasTask (s : Store) (taskId : String) : Bool :=
  s.tasks.rows.any fun r => r.taskId = taskId

/-! ## Inserts -/

/-- `insert_task`: the row, read back as it is stored. -/
def insertTask (scope : AuthorityScope) (row : TaskRow) : Tx TaskRow := do
  match (← get).tasks.insert row with
  | none => throw .integrityError
  | some tasks =>
    modify fun s => { s with tasks }
    match (← get).getTask scope row.taskId with
    | some stored => pure stored
    | none => throw (.assertionError "")

/-- `insert_task_revision`: append one immutable revision. -/
def insertTaskRevision (row : RevisionRow) : Tx Unit := do
  if !(← get).hasTask row.taskId then throw .integrityError
  match (← get).revisions.insert row with
  | none => throw .integrityError
  | some revisions => modify fun s => { s with revisions }

/-- `insert_task_provenance`. -/
def insertTaskProvenance (row : ProvenanceRow) : Tx Unit := do
  if !(← get).hasTask row.taskId then throw .integrityError
  modify fun s => { s with provenance := s.provenance ++ [row] }

/-- `insert_task_proposal`. -/
def insertTaskProposal (row : ProposalRow) : Tx Unit := do
  match (← get).proposals.insert row with
  | none => throw .integrityError
  | some proposals => modify fun s => { s with proposals }

/-- `insert_task_step`: the sequence is the next one of the task. -/
def insertTaskStep (row : ℕ → StepRow) : Tx Unit := do
  let taskId := (row 0).taskId
  if !(← get).hasTask taskId then throw .integrityError
  modify fun s => { s with steps := s.steps ++ [row (s.nextStepSequence taskId)] }

/-! ## The head -/

/-- What `advance_task_head` assigns beside the head. -/
structure HeadChange where
  updatedAtUtc : Instant
  lastProgressAtUtc : Option Instant := none
  lifecycle : Option TaskLifecycle := none
  terminalReason : Option String := none
  pausedAtUtc : Option Instant := none
  clearPausedAt : Bool := false
  addPausedMs : ℕ := 0

/-- The assignments, on a row. -/
def HeadChange.assign (change : HeadChange) (newHead : ℕ) (r : TaskRow) : TaskRow :=
  { r with
    headRevision := newHead
    updatedAtUtc := change.updatedAtUtc
    lastProgressAtUtc := change.lastProgressAtUtc.getD r.lastProgressAtUtc
    lifecycle := change.lifecycle.getD r.lifecycle
    terminalReason := if change.terminalReason.isSome then change.terminalReason
      else r.terminalReason
    pausedAtUtc := if change.clearPausedAt then none
      else if change.pausedAtUtc.isSome then change.pausedAtUtc else r.pausedAtUtc
    noProgressPausedMs := r.noProgressPausedMs + change.addPausedMs }

/-- No keyed column is assigned. -/
theorem HeadChange.assign_key (change : HeadChange) (newHead : ℕ) (r : TaskRow) :
    (change.assign newHead r).key = r.key := rfl

/-- The row the expected-head guard selects. -/
def guarded (taskId : String) (expectedHead : ℕ) (r : TaskRow) : Bool :=
  r.taskId = taskId && r.headRevision = expectedHead

/-- `advance_task_head`: move the head exactly once, under an
expected-head guard; false where another writer already moved it. -/
def advanceTaskHead (taskId : String) (expectedHead newHead : ℕ) (change : HeadChange) :
    Tx Bool := do
  let rowcount := (← get).tasks.rows.countP (guarded taskId expectedHead)
  modify fun s => { s with
    tasks := s.tasks.update (guarded taskId expectedHead) (change.assign newHead)
      (change.assign_key newHead) }
  pure (rowcount = 1)

/-! ## Deletion -/

/-- `delete_task`'s transaction: the task and everything derived from
it. -/
def deleteTask (taskId : String) : Tx Unit :=
  modify fun s => { s with
    steps := s.steps.filter fun r => r.taskId ≠ taskId
    proposals := s.proposals.delete fun r => r.taskId = taskId
    provenance := s.provenance.filter fun r => r.taskId ≠ taskId
    sessionBindings := s.sessionBindings.filter fun r => r.taskId ≠ taskId
    revisions := s.revisions.delete fun r => r.taskId = taskId
    tasks := s.tasks.delete fun r => r.taskId = taskId }

end Atmem
