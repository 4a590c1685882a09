import Atmem.Contracts.Records
/-!
# How a snapshot changes, and when a task may complete

The domain helpers over the contracts: the status transitions an ordinary
proposal may make, what still stands between a task and completion, and
the snapshot a list of operations results in. A snapshot is rebuilt
through its constructor, so applying an operation can raise what a
constructor raises.
-/

namespace Atmem

open Checked

/-- `LEGAL_STATUS_TRANSITIONS`: settled work does not silently reopen. -/
def legalStatusTransitions : ItemStatus → List ItemStatus
  | .pending => [.ready, .running, .blocked, .completed, .skipped, .failed]
  | .ready => [.running, .blocked, .completed, .skipped, .failed]
  | .running => [.completed, .blocked, .failed, .ready]
  | .blocked => [.ready, .skipped, .failed, .pending]
  | .failed => [.ready, .skipped]
  | .completed | .skipped => []

/-- `PROGRESS_STATUSES`: only these are forward movement. -/
def progressStatuses : List ItemStatus := [.running, .completed, .skipped]

/-- `allows_status_transition`. -/
def allowsStatusTransition (current target : ItemStatus) : Bool :=
  current = target || target ∈ legalStatusTransitions current

/-- Everything this item waits on is settled. -/
def dependenciesSatisfied (state : TaskState) (item : TaskItem) : Bool :=
  item.val.dependsOn.all fun dependencyId =>
    (state.item dependencyId).any fun dependency => dependency.val.status.settled

/-! ## Lists a person reads -/

/-- Waiting to be picked up. -/
def isWaiting (item : TaskItem) : Bool := item.val.status = .pending || item.val.status = .ready

/-- `ready_items`. -/
def readyItems (state : TaskState) : List TaskItem :=
  state.val.items.filter fun item => isWaiting item && dependenciesSatisfied state item

/-- `blocked_items`. -/
def blockedItems (state : TaskState) : List TaskItem :=
  state.val.items.filter fun item =>
    item.val.status = .blocked || (isWaiting item && !dependenciesSatisfied state item)

/-- `remaining_items`. -/
def remainingItems (state : TaskState) : List TaskItem :=
  state.val.items.filter fun item => !item.val.status.settled

/-! ## Completion -/

/-- Some item of the kind is there, and every one of them is settled. -/
def kindSettled (state : TaskState) (kind : String) : Bool :=
  let matching := state.val.items.filter fun item => item.val.kind = kind
  !matching.isEmpty && matching.all fun item => item.val.status.settled

/-- Exactly what still stands between this task and completion. -/
def completionBlockers (state : TaskState) (profile : TaskProfile) : List String :=
  let items := state.val.items.filter fun item => item.val.required && !item.val.status.settled
  let kinds := profile.val.requiredItemKinds.filter fun kind => !kindSettled state kind
  let constraints := state.val.constraints.filter fun row =>
    row.val.requiredForCompletion && !row.val.satisfied
  (itemIds items ++ kinds.map ("kind:" ++ ·) ++
    constraints.map fun row => "constraint:" ++ row.val.constraintId).eraseDups

/-- Whether applying this operation would be semantic forward movement. -/
def isProgress (operation : TaskOperation) (state : TaskState) : Bool :=
  match operation.val.kind with
  | .setItemStatus =>
    match state.item (str operation.val.itemId), operation.val.status with
    | some item, some status => status ≠ item.val.status && status ∈ progressStatuses
    | _, _ => false
  | .setPhase | .satisfyConstraint | .markSourceInspected => true
  | _ => false

/-! ## Applying operations -/

/-- `_replace_item`: each item of the identity, rebuilt. -/
def replaceItem (items : List TaskItem) (itemId : String)
    (change : TaskItemFields → TaskItemFields) : Except String (List TaskItem) :=
  items.mapM fun item =>
    if item.val.itemId = itemId then TaskItem.make (change item.val) else .ok item

/-- `_stronger`. -/
def stronger (current proposed : Assurance) : Assurance :=
  if current.rank < proposed.rank then proposed else current

/-- What a status operation makes of the item it names. -/
def TaskOperation.setStatus (operation : TaskOperation) (item : TaskItemFields) :
    TaskItemFields :=
  { item with
    status := operation.val.status.getD item.status
    blockerReason := if operation.val.status = some .blocked then operation.val.reason else none
    skipReason := if operation.val.status = some .skipped then operation.val.reason
      else item.skipReason
    assurance := stronger item.assurance operation.val.assurance }

/-- The item an operation adds. -/
def TaskOperation.newItem (operation : TaskOperation) : TaskItemFields where
  itemId := str operation.val.itemId
  kind := str operation.val.kindLabel
  title := str operation.val.text
  status := operation.val.status.getD .pending
  content := operation.val.content.getD []
  dependsOn := operation.val.dependsOn.getD []
  required := operation.val.required.getD false
  assurance := operation.val.assurance

/-- What a blocker operation makes of the item it names. -/
def TaskOperation.setBlocker (operation : TaskOperation) (item : TaskItemFields) :
    TaskItemFields :=
  { item with
    status := .blocked
    blockerReason := some
      (if truthy operation.val.reason then str operation.val.reason else "blocked") }

/-- The constraint an operation adds. -/
def TaskOperation.newConstraint (operation : TaskOperation) : TaskConstraintFields where
  constraintId := str operation.val.constraintId
  text := str operation.val.text
  requiredForCompletion := operation.val.required.getD true

/-- The parts of a snapshot operations change, while they are applied. -/
structure Draft where
  items : List TaskItem
  constraints : List TaskConstraint
  phase : String
  completedSources : List String
  schemaLocked : Bool

/-- The draft a snapshot starts as. -/
def TaskState.draft (state : TaskState) : Draft :=
  ⟨state.val.items, state.val.constraints, state.val.phase, state.val.completedSources,
    state.val.schemaLocked⟩

/-- One operation of the loop. -/
def applyOperation (draft : Draft) (operation : TaskOperation) : Except String Draft :=
  match operation.val.kind with
  | .setPhase => .ok { draft with phase := str operation.val.phase }
  | .setItemStatus => do
    let items ← replaceItem draft.items (str operation.val.itemId) operation.setStatus
    .ok { draft with items }
  | .addItem => do
    let item ← TaskItem.make operation.newItem
    .ok { draft with items := draft.items ++ [item] }
  | .setItemContent => do
    let items ← replaceItem draft.items (str operation.val.itemId) fun item =>
      { item with content := operation.val.content.getD [] }
    .ok { draft with items }
  | .setItemBlocker => do
    let items ← replaceItem draft.items (str operation.val.itemId) operation.setBlocker
    .ok { draft with items }
  | .addConstraint => do
    let row ← TaskConstraint.make operation.newConstraint
    .ok { draft with constraints := draft.constraints ++ [row] }
  | .satisfyConstraint => do
    let constraints ← draft.constraints.mapM fun row =>
      if row.val.constraintId = str operation.val.constraintId then
        TaskConstraint.make { row.val with satisfied := true }
      else .ok row
    .ok { draft with constraints }
  | .markSourceInspected =>
    let sourceId := str operation.val.sourceId
    .ok (if sourceId ∈ draft.completedSources then draft
      else { draft with completedSources := draft.completedSources ++ [sourceId] })
  | .lockSchema => .ok { draft with schemaLocked := true }

/-- The fields of the snapshot a draft is closed into. -/
def Draft.close (draft : Draft) (state : TaskState) (revision : ℕ) (updatedAt : String)
    (lastProgressAt : Option String) : TaskStateFields :=
  { state.val with
    revision
    parentRevision := some state.val.revision
    phase := draft.phase
    items := draft.items
    constraints := draft.constraints
    completedSources := draft.completedSources
    schemaLocked := draft.schemaLocked
    updatedAt
    lastProgressAt := if truthy lastProgressAt then str lastProgressAt
      else state.val.lastProgressAt }

/-- The snapshot that results from applying every operation. -/
def applyOperations (state : TaskState) (operations : List TaskOperation) (revision : ℕ)
    (updatedAt : String) (lastProgressAt : Option String) : Except String TaskState := do
  let draft ← operations.foldlM applyOperation state.draft
  TaskState.make (draft.close state revision updatedAt lastProgressAt)

/-! ## The view a person reads -/

/-- `summarize`. -/
structure TaskSummary where
  goal : String
  lifecycle : TaskLifecycle
  phase : String
  revision : ℕ
  totalItems : ℕ
  completedItems : ℕ
  skippedItems : ℕ
  failedItems : ℕ
  blockedItems : List String
  readyItems : List String
  remainingItems : List String
  unsatisfiedConstraints : List String
  completionAllowed : Bool
  completionBlockers : List String
  lastProgressAt : String
deriving DecidableEq

/-- `summarize`. -/
def summarize (state : TaskState) (profile : TaskProfile) : TaskSummary :=
  let count (status : ItemStatus) := state.val.items.countP fun item => item.val.status = status
  let blockers := completionBlockers state profile
  { goal := state.val.goal
    lifecycle := state.val.lifecycle
    phase := state.val.phase
    revision := state.val.revision
    totalItems := state.val.items.length
    completedItems := count .completed
    skippedItems := count .skipped
    failedItems := count .failed
    blockedItems := itemIds (blockedItems state)
    readyItems := itemIds (readyItems state)
    remainingItems := itemIds (remainingItems state)
    unsatisfiedConstraints :=
      (state.val.constraints.filter fun row => !row.val.satisfied).map fun row =>
        row.val.constraintId
    completionAllowed := blockers.isEmpty
    completionBlockers := blockers
    lastProgressAt := state.val.lastProgressAt }

end Atmem
