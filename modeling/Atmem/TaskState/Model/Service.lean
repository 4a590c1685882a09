import Atmem.Common.Program
import Atmem.Store.Statements
import Atmem.TaskState.Model.Policy
/-!
# The authority over governed task state

Every method of the service, as a program of atomic actions: a read of
the clock, one query, or one transaction. Between two actions of a call
any other connection may act, so what a call read may be stale by the
time its transaction runs. A transaction is one action, as
`BEGIN IMMEDIATE` makes it, and one that raises leaves the store as it
found it.
-/

namespace Atmem

open Interleaving

/-- What the connections share: the store, and the readings of the clock
in the order they are taken. -/
structure World where
  store : Store
  clock : ℕ → Instant
  ticks : ℕ := 0
  clockSource : String := "system-utc-v1"

/-- The kinds of action a call is made of. -/
inductive Label
  | now | getTask | findTaskByIdempotencyKey | getTaskRevision | getTaskProfile | findTaskProposal
  | listTasks | tasksDueForExpiryScan | listTaskRevisions | listAuditEvents
  | findActiveSessionBinding | findActiveBindingsForSessionKey | transaction
deriving DecidableEq

/-- A method of the service. -/
abbrev Svc (α : Type) : Type 1 := Eff Raised Label World α

/-- `self.clock.now()`: the next reading. -/
def now : Svc Instant :=
  Eff.action .now fun w => (.ok (w.clock w.ticks), { w with ticks := w.ticks + 1 })

/-- One query. -/
def query {α : Type} (label : Label) (f : Store → α) : Svc α :=
  Eff.read label fun w => f w.store

/-- `with self.store.transaction()`: commit, or roll back and raise. -/
def transaction {α : Type} (body : Tx α) : Svc α :=
  Eff.action .transaction fun w => match body.run.run w.store with
    | (.ok a, store) => (.ok a, { w with store })
    | (.error e, _) => (.error e, w)

/-- A constructor of a contract, called by the service. -/
def lift {α : Type} : Except String α → Svc α := Eff.ofExcept Raised.valueError

/-- `require(actor_role, action)`. -/
def require (actorRole : ActorRole) (action : GovernanceAction) : Svc Unit :=
  if permits actorRole action then pure () else throw (.capabilityDenied actorRole action)

/-! ## Views -/

/-- A task and its current state, as an operator or agent reads it. -/
structure TaskView where
  task : TaskRow
  state : TaskState
  profile : TaskProfile
  summary : TaskSummary

/-- `ProfileRegistry.get`. -/
def profileOf (version : String) : Svc (Option TaskProfile) :=
  match builtInProfile version with
  | some selected => pure (some selected)
  | none => query .getTaskProfile fun s => (s.getTaskProfile version).map (·.profile)

/-- `ProfileRegistry.require`. -/
def requireProfile (version : String) : Svc TaskProfile := do
  match ← profileOf version with
  | some profile => pure profile
  | none => throw (.valueError ("unknown task profile version: " ++ repr version))

/-- `_view`: the snapshot at the head the row names. -/
def view (row : TaskRow) : Svc TaskView := do
  match ← query .getTaskRevision (·.getTaskRevision row.taskId row.headRevision) with
  | none => throw (.assertionError "a task always has its head revision stored")
  | some revision =>
    let profile ← requireProfile row.profileVersion
    pure
      { task := row
        state := revision.state
        profile
        summary := summarize revision.state profile }

/-- The refusal of a task that is not there, which does not tell whether
it exists elsewhere. -/
def noEligibleTask : Raised :=
  .taskStateError .taskNotEligible "no eligible task for this scope and identity"

/-- `_require_task`. -/
def requireTask (scope : AuthorityScope) (taskId : String) : Svc TaskRow := do
  match ← query .getTask (·.getTask scope taskId) with
  | some row => pure row
  | none => throw noEligibleTask

/-- `_scope_of`. -/
def scopeOf (row : TaskRow) : Svc AuthorityScope :=
  lift (AuthorityScope.make
    { subjectId := row.subjectId, agentId := row.agentId, workspaceId := row.workspaceId })

/-! ## Writing -/

/-- The row `_write_revision` inserts. -/
def revisionRow (H : Hashing) (state : TaskState) (actor : String) (actorRole : ActorRole)
    (reasonCodes : List ReasonCode) (evidence : List Json) (createdAtUtc : Instant)
    (isProgress : Bool) : RevisionRow where
  taskId := state.val.taskId
  revision := state.val.revision
  parentRevision := state.val.parentRevision
  state := state
  stateSha256 := state.stateDigest H
  semanticSha256 := state.semanticDigest H
  actor
  actorRole
  reasonCodes
  evidence
  createdAtUtc
  isProgress

/-- The row of `_write_transition_provenance` for one changed value. -/
def provenanceRow (proposal : TaskStateProposal) (revision : ℕ) (targetKind targetId : String)
    (assurance : Assurance) (interpreter : Option String) (supersededRevision : Option ℕ)
    (now : Instant) : ProvenanceRow where
  taskId := proposal.val.taskId
  revision
  targetKind
  targetId
  actor := proposal.val.actor
  actorRole := proposal.val.actorRole
  method := "typed_delta"
  assurance
  interpreter
  evidence := proposal.val.evidence.map EvidenceRef.toDict
  observedAtUtc := now
  supersededRevision

/-- `_write_transition_provenance`: one row for the transition and one
for each value it changed. -/
def transitionProvenance (proposal : TaskStateProposal) (revision : ℕ) (previous current : TaskState)
    (now : Instant) : List ProvenanceRow :=
  let row := provenanceRow proposal revision
  let assurance := proposal.val.assurance
  let superseded := some previous.val.revision
  let phase :=
    if current.val.phase ≠ previous.val.phase then
      [row "field" "phase" assurance none superseded now]
    else []
  let statuses := current.val.items.filterMap fun item =>
    let before := previous.item item.val.itemId
    if before.all fun before => before.val.status ≠ item.val.status then
      let claimed := if assurance.rank ≤ item.val.assurance.rank then item.val.assurance
        else assurance
      some (row "status" item.val.itemId claimed proposal.val.interpreter
        (before.map fun _ => previous.val.revision) now)
    else none
  let constraints := current.val.constraints.filterMap fun constraint =>
    let before := previous.constraint constraint.val.constraintId
    if before.all fun before => before.val.satisfied ≠ constraint.val.satisfied then
      some (row "constraint" constraint.val.constraintId assurance none none now)
    else none
  row "transition" proposal.val.proposalId assurance proposal.val.interpreter superseded now ::
    (phase ++ statuses ++ constraints)

/-! ## Start -/

/-- `request.constraints`, numbered from one. -/
def startConstraints (index : ℕ) : List String → Except String (List TaskConstraint)
  | [] => .ok []
  | text :: texts => do
    let row ← TaskConstraint.make
      { constraintId := "constraint-" ++ toString (index + 1), text }
    let rows ← startConstraints (index + 1) texts
    .ok (row :: rows)

/-- The row `start` inserts. -/
def startRow (request : TaskStartRequest) (profile : TaskProfile) (now : Instant)
    (clockSource : String) : TaskRow where
  taskId := request.val.taskId
  subjectId := request.val.scope.val.subjectId
  agentId := request.val.scope.val.agentId
  workspaceId := request.val.scope.val.workspaceId
  profileId := profile.val.profileId
  profileVersion := profile.val.version
  goal := request.val.goal
  lifecycle := .open
  headRevision := 1
  createdAtUtc := now
  updatedAtUtc := now
  lastProgressAtUtc := now
  expiryRule := profile.val.expiry
  clockSource
  continuesTaskId := request.val.continuesTaskId
  idempotencyKey := request.val.idempotencyKey

/-- The transaction of `start`. -/
def startTx (H : Hashing) (request : TaskStartRequest) (items : List TaskItem) (row : TaskRow)
    (state : TaskState) (now : Instant) : Tx TaskRow := do
  let evidence := request.val.evidence.map EvidenceRef.toDict
  let task ← insertTask request.val.scope row
  insertTaskRevision (revisionRow H state request.val.actor request.val.actorRole
    [.lifecycleChangeAccepted] evidence now false)
  let provenance (targetKind targetId : String) (assurance : Assurance) (evidence : List Json) :
      ProvenanceRow :=
    { taskId := request.val.taskId
      revision := 1
      targetKind
      targetId
      actor := request.val.actor
      actorRole := request.val.actorRole
      method := "task_start"
      assurance
      evidence
      observedAtUtc := now }
  insertTaskProvenance (provenance "task" request.val.taskId .operatorConfirmed evidence)
  items.forM fun item =>
    insertTaskProvenance (provenance "item" item.val.itemId item.val.assurance [])
  insertTaskStep fun sequence =>
    { taskId := request.val.taskId
      stepKind := "task_start"
      outcome := .accepted
      baseRevision := 1
      resultingRevision := some 1
      actor := request.val.actor
      recordedAtUtc := now
      reasonCodes := [.lifecycleChangeAccepted]
      sequence }
  pure task

/-- `start`: create revision 1 of a governed task. -/
def start (H : Hashing) (request : TaskStartRequest) (items : List TaskItem) : Svc TaskView := do
  require request.val.actorRole .changeLifecycle
  match ← query .findTaskByIdempotencyKey
      (·.findTaskByIdempotencyKey request.val.scope request.val.idempotencyKey) with
  -- the same request again
  | some existing => view existing
  | none =>
    match ← profileOf request.val.profileVersion with
    | none => throw (.taskStateError .taskNotEligible
        ("unknown task profile version: " ++ repr request.val.profileVersion))
    | some profile =>
      let now ← now
      let constraints ← lift (startConstraints 0 request.val.constraints)
      let state ← lift (TaskState.make
        { taskId := request.val.taskId
          scope := request.val.scope
          revision := 1
          lifecycle := .open
          phase := profile.initialPhase
          goal := request.val.goal
          profileId := profile.val.profileId
          profileVersion := profile.val.version
          items
          constraints
          sourcesToInspect := request.val.sourcesToInspect
          createdAt := toIso now
          updatedAt := toIso now
          lastProgressAt := toIso now })
      let clockSource ← Eff.read .now fun w : World => w.clockSource
      let task ← transaction
        (startTx H request items (startRow request profile now clockSource) state now)
      view task

/-! ## Expiry -/

/-- How close a task is to each of its bound thresholds. -/
structure ExpiryStatus where
  rule : ExpiryPolicy
  clockSource : String
  evaluatedAtUtc : Instant
  absoluteAgeMs : ℕ
  noProgressAgeMs : ℕ
  pausedMs : ℕ
  maxAbsoluteAgeMs : Option ℕ
  maxNoProgressAgeMs : Option ℕ
  dueReason : Option ReasonCode
deriving DecidableEq

/-- Completed pauses, and the pause that is open. -/
def pausedMsAt (row : TaskRow) (now : Instant) : ℕ :=
  row.noProgressPausedMs + match row.pausedAtUtc with
    | some pausedAt => elapsedMs pausedAt now
    | none => 0

/-- `expiry_status`, at an instant. -/
def expiryStatusAt (row : TaskRow) (now : Instant) : ExpiryStatus :=
  let rule := row.expiryRule
  let absoluteMs := elapsedMs row.createdAtUtc now
  let pausedMs := pausedMsAt row now
  let noProgressMs := elapsedMs row.lastProgressAtUtc now - pausedMs
  { rule
    clockSource := row.clockSource
    evaluatedAtUtc := now
    absoluteAgeMs := absoluteMs
    noProgressAgeMs := noProgressMs
    pausedMs
    maxAbsoluteAgeMs := rule.val.maxAbsoluteAgeMs
    maxNoProgressAgeMs := rule.val.maxNoProgressAgeMs
    dueReason :=
      if rule.val.maxAbsoluteAgeMs.any (· ≤ absoluteMs) then some .expiredAbsoluteAge
      else if rule.val.maxNoProgressAgeMs.any (· ≤ noProgressMs) then some .expiredNoProgress
      else none }

/-- `expiry_status`, at the time it is read. -/
def expiryStatus (row : TaskRow) : Svc ExpiryStatus := do
  let now ← now
  pure (expiryStatusAt row now)

/-! ## Lifecycle -/

/-- The snapshot a lifecycle change commits. -/
def lifecycleState (state : TaskState) (target : TaskLifecycle) (now : Instant) :
    Except String TaskState :=
  TaskState.make { state.val with
    revision := state.val.revision + 1
    parentRevision := some state.val.revision
    lifecycle := target
    updatedAt := toIso now }

/-- Pause accounting: opening a pause records when it began, closing one
adds its duration. -/
def lifecycleChange (row : TaskRow) (target : TaskLifecycle) (reason : String) (now : Instant) :
    HeadChange :=
  let base : HeadChange :=
    { updatedAtUtc := now
      lifecycle := some target
      terminalReason := if target.terminal then some reason else none }
  if target = .paused then { base with pausedAtUtc := some now }
  else match row.pausedAtUtc with
    | some pausedAt => { base with clearPausedAt := true, addPausedMs := elapsedMs pausedAt now }
    | none => base

/-- The evidence an expiry cites. -/
def policyRule (expiryRule : Option String) : List Json :=
  match expiryRule with
  | some rule => [.obj [("kind", .str "policy_rule"), ("reference_id", .str rule)]]
  | none => []

/-- The refusal of a task that is terminal. -/
def taskIsTerminal (taskId : String) (current : TaskLifecycle) : Raised :=
  .taskStateError .taskIsTerminal
    ("task " ++ taskId ++ " is " ++ value current ++ " and cannot be changed")

/-- The refusal of a lifecycle change that lost a race. -/
def staleLifecycle : Raised :=
  .taskStateError .staleBaseRevision
    "the task changed while this lifecycle request was in flight"

/-- The transaction of `_lifecycle`. -/
def lifecycleTx (H : Hashing) (taskId : String) (row : TaskRow) (state next : TaskState)
    (target : TaskLifecycle) (actor : String) (actorRole : ActorRole) (reason : String)
    (expiryRule : Option String) (now : Instant) : Tx Unit := do
  insertTaskRevision (revisionRow H next actor actorRole [.lifecycleChangeAccepted]
    (policyRule expiryRule) now false)
  let advanced ← advanceTaskHead taskId state.val.revision next.val.revision
    (lifecycleChange row target reason now)
  -- the head has moved since the row was read
  if !advanced then throw staleLifecycle
  else
    insertTaskProvenance
      { taskId
        revision := next.val.revision
        targetKind := "lifecycle"
        targetId := value target
        actor
        actorRole
        method := "lifecycle_" ++ value target
        assurance := if target = .expired then .ruleExtracted else .operatorConfirmed
        observedAtUtc := now
        evidence := policyRule expiryRule }
    insertTaskStep fun sequence =>
      { taskId
        stepKind := "lifecycle_" ++ value target
        outcome := .accepted
        baseRevision := state.val.revision
        resultingRevision := some next.val.revision
        reasonCodes := [.lifecycleChangeAccepted]
        actor
        recordedAtUtc := now
        sequence }

/-- `self._expire_if_due(scope, row) or row`. -/
def refresh (expireIfDue : AuthorityScope → TaskRow → Svc (Option TaskRow))
    (scope : AuthorityScope) (row : TaskRow) : Svc TaskRow := do
  let expired ← expireIfDue scope row
  pure (expired.getD row)

/-- `_lifecycle`, with the lazy expiry it runs first as an argument: the
two call each other, and a call that is itself the expiry runs none. -/
def lifecycleVia (expireIfDue : AuthorityScope → TaskRow → Svc (Option TaskRow)) (H : Hashing)
    (scope : AuthorityScope) (taskId : String) (target : TaskLifecycle) (actor : String)
    (actorRole : ActorRole) (reason : String) (expiryRule : Option String) : Svc TaskView := do
  require actorRole (if target = .expired then .expireTask else .changeLifecycle)
  let found ← requireTask scope taskId
  let row ← (if target ≠ .expired ∧ !found.lifecycle.terminal then
    refresh expireIfDue scope found else pure found)
  if row.lifecycle.terminal then throw (taskIsTerminal taskId row.lifecycle)
  else if row.lifecycle = target then view row
  else
    let now ← now
    let current ← view row
    let next ← lift (lifecycleState current.state target now)
    transaction (lifecycleTx H taskId row current.state next target actor actorRole reason
      expiryRule now)
    view (← requireTask scope taskId)

/-- The errors of a race the lazy expiry lost. -/
def lostRace : Raised → Bool
  | .taskStateError code _ | .taskCompletionDenied code _ =>
    code = .taskIsTerminal || code = .staleBaseRevision
  | _ => false

/-- `_expire_if_due`: retire the task where its bound rule is due, and
read it back. -/
def expireIfDue (H : Hashing) (scope : AuthorityScope) (row : TaskRow) : Svc (Option TaskRow) := do
  let status ← expiryStatus row
  match status.dueReason with
  | none => pure none
  | some dueReason =>
    tryCatch
      (do
        let _ ← lifecycleVia (fun _ _ => pure none) H scope row.taskId .expired
          "atmem-policy-evaluator" .policyEvaluator (value dueReason) (some (value dueReason)))
      fun e => if lostRace e then pure () else throw e
    query .getTask (·.getTask scope row.taskId)

/-- `_lifecycle`. -/
def lifecycle (H : Hashing) : AuthorityScope → String → TaskLifecycle → String → ActorRole →
    String → Option String → Svc TaskView :=
  lifecycleVia (expireIfDue H) H

/-- `pause`. -/
def pause (H : Hashing) (scope : AuthorityScope) (taskId actor : String) (actorRole : ActorRole)
    (reason : String) : Svc TaskView :=
  lifecycle H scope taskId .paused actor actorRole reason none

/-- `resume`. -/
def resume (H : Hashing) (scope : AuthorityScope) (taskId actor : String) (actorRole : ActorRole)
    (reason : String) : Svc TaskView :=
  lifecycle H scope taskId .open actor actorRole reason none

/-- `complete`: only where the profile's gates are satisfied. -/
def complete (H : Hashing) (scope : AuthorityScope) (taskId actor : String)
    (actorRole : ActorRole) (reason : String) : Svc TaskView := do
  let row ← requireTask scope taskId
  let current ← view row
  match ← lift (evaluateCompletion current.state current.profile) with
  | (true, _, _) => lifecycle H scope taskId .completed actor actorRole reason none
  | (false, reasons, some guard) =>
    throw (.taskCompletionDenied (reasons.headD .requiredItemsIncomplete) guard)
  | (false, _, none) => throw (.assertionError "")

/-- `cancel`: a reason must be given. -/
def cancel (H : Hashing) (scope : AuthorityScope) (taskId actor : String) (actorRole : ActorRole)
    (reason : String) : Svc TaskView := do
  if strip reason = [] then
    throw (.taskStateError .reasonRequired "cancellation requires a reason")
  else lifecycle H scope taskId .cancelled actor actorRole reason none

/-! ## Transitions -/

/-- What the transaction of `_commit` resolved the step to. -/
structure Resolution where
  outcome : StepOutcome
  decision : PolicyDecision
  resultingRevision : Option ℕ

/-- The head part of `_commit`: an accepted delta is written and the head
advanced, and a writer that claimed the base first makes it a conflict. -/
def resolve (H : Hashing) (proposal : TaskStateProposal) (view : TaskView)
    (decision : PolicyDecision) (now : Instant) : Tx Resolution :=
  if decision.accepted then
    match decision.nextState with
    | none => throw (.assertionError "")
    | some next => do
      let advanced ← tryCatch
        (do
          insertTaskRevision (revisionRow H next proposal.val.actor proposal.val.actorRole
            decision.reasonCodes (proposal.val.evidence.map EvidenceRef.toDict) now
            decision.isProgress)
          advanceTaskHead proposal.val.taskId view.state.val.revision next.val.revision
            { updatedAtUtc := now
              lastProgressAtUtc := if decision.isProgress then some now else none })
        -- another writer has taken the number
        fun e => if e = .integrityError then pure false else throw e
      if !advanced then
        pure
          { outcome := .conflict
            decision := { outcome := .conflict, reasonCodes := [.concurrentSuccessorCommitted] }
            resultingRevision := none }
      else
        (transitionProvenance proposal next.val.revision view.state next now).forM
          insertTaskProvenance
        pure { outcome := decision.outcome, decision, resultingRevision := some next.val.revision }
  else
    pure
      { outcome := decision.outcome
        decision
        resultingRevision :=
          if decision.outcome = .noChange then some view.state.val.revision else none }

/-- The identifier of a decision. -/
def decisionId (H : Hashing) (proposal : TaskStateProposal) (now : Instant) : String :=
  "decision_" ++ String.ofList ((H.sha256Hex (proposal.val.proposalId ++ toIso now)).toList.take 32)

/-- The decision a resolution is recorded as. -/
def typedDecision (H : Hashing) (proposal : TaskStateProposal) (resolution : Resolution)
    (now : Instant) : TransitionDecisionFields where
  decisionId := decisionId H proposal now
  proposalId := proposal.val.proposalId
  taskId := proposal.val.taskId
  scope := proposal.val.scope
  outcome := resolution.outcome
  reasonCodes := resolution.decision.reasonCodes
  baseRevision := proposal.val.baseRevision
  resultingRevision := resolution.resultingRevision
  decidedAt := toIso now
  assurance := resolution.decision.effectiveAssurance
  evidence := proposal.val.evidence
  guards := resolution.decision.guards

/-- The row `_record_proposal` inserts. -/
def proposalRow (H : Hashing) (proposal : TaskStateProposal) (typed : TransitionDecision)
    (outcome : StepOutcome) (resultingRevision : Option ℕ) (now : Instant) : ProposalRow where
  proposalId := proposal.val.proposalId
  taskId := proposal.val.taskId
  subjectId := proposal.val.scope.val.subjectId
  agentId := proposal.val.scope.val.agentId
  workspaceId := proposal.val.scope.val.workspaceId
  idempotencyKey := proposal.val.idempotencyKey
  payloadSha256 := proposal.payloadDigest H
  baseRevision := proposal.val.baseRevision
  actor := proposal.val.actor
  actorRole := proposal.val.actorRole
  proposal := proposal.toDict
  decision := typed.toDict
  outcome
  resultingRevision
  createdAtUtc := now

/-- The step `_commit` records. -/
def commitStep (proposal : TaskStateProposal) (resolution : Resolution) (stepKind : String)
    (started now : Instant) (sequence : ℕ) : StepRow where
  taskId := proposal.val.taskId
  stepKind
  outcome := resolution.outcome
  proposalId := some proposal.val.proposalId
  baseRevision := proposal.val.baseRevision
  resultingRevision := resolution.resultingRevision
  reasonCodes := resolution.decision.reasonCodes
  actionFingerprint := proposal.val.actionFingerprint
  actor := proposal.val.actor
  durationMs := elapsedMs started now
  recordedAtUtc := now
  sequence

/-- The refusal of a proposal id that names another request. -/
def proposalIdTaken (proposal : TaskStateProposal) : Raised :=
  .taskStateError .taskNotEligible ("proposal id " ++ repr proposal.val.proposalId ++
    " is already recorded for a different request")

/-- The transaction of `_commit`. -/
def commitTx (H : Hashing) (proposal : TaskStateProposal) (view : TaskView)
    (decision : PolicyDecision) (stepKind : String) (started now : Instant) :
    Tx TransitionDecision := do
  let resolution ← resolve H proposal view decision now
  let typed ← liftTx (TransitionDecision.make (typedDecision H proposal resolution now))
  tryCatch
    (insertTaskProposal (proposalRow H proposal typed resolution.outcome
      resolution.resultingRevision now))
    fun e => throw (if e = .integrityError then proposalIdTaken proposal else e)
  insertTaskStep (commitStep proposal resolution stepKind started now)
  pure typed

/-- `_commit`. -/
def commit (H : Hashing) (proposal : TaskStateProposal) (view : TaskView)
    (decision : PolicyDecision) (stepKind : String) (started : Instant) :
    Svc TransitionDecision := do
  let now ← now
  transaction (commitTx H proposal view decision stepKind started now)

/-- The replay of a recorded proposal: the stored decision, marked. -/
def replay (H : Hashing) (proposal : TaskStateProposal) (replayed : ProposalRow) :
    Svc TransitionDecision :=
  if replayed.payloadSha256 ≠ proposal.payloadDigest H then
    throw (.taskStateError .taskNotEligible
      "proposal idempotency key was reused with a different delta")
  else lift (decisionFromDict (replayed.decision.set "replayed" (.bool true)))

/-- `submit`: validate one proposal and, if it is accepted, commit it. -/
def submit (H : Hashing) (proposal : TaskStateProposal) (allowPrivileged : Bool)
    (stepKind : String) : Svc TransitionDecision := do
  let started ← now
  match ← query .getTask (·.getTask proposal.val.scope proposal.val.taskId) with
  | none => throw noEligibleTask
  | some found =>
    match ← query .findTaskProposal
        (·.findTaskProposal proposal.val.taskId proposal.val.idempotencyKey) with
    | some replayed => replay H proposal replayed
    | none =>
      let row ← (if found.lifecycle.terminal then pure found
        else refresh (expireIfDue H) proposal.val.scope found)
      let current ← view row
      let evaluatedAt ← now
      let decision ← lift (evaluate H current.state current.profile proposal (toIso evaluatedAt)
        none allowPrivileged)
      commit H proposal current decision stepKind started

/-- `correct`: an authorized operator correction appends history. -/
def correct (H : Hashing) (proposal : TaskStateProposal) (reason : String) :
    Svc TransitionDecision := do
  require proposal.val.actorRole .correctState
  if strip reason = [] then
    throw (.taskStateError .reasonRequired "a correction requires a reason")
  else
    let amended ← lift (TaskStateProposal.make { proposal.val with reason := some reason })
    submit H amended true "operator_correction"

/-! ## Reads -/

/-- `get`: read one task, expiring it first if due. -/
def TaskStateService.get (H : Hashing) (scope : AuthorityScope) (taskId : String) (evaluateExpiry : Bool) :
    Svc TaskView := do
  let found ← requireTask scope taskId
  let row ← (if evaluateExpiry ∧ !found.lifecycle.terminal then
    refresh (expireIfDue H) scope found else pure found)
  view row

/-- `list`'s answer: the rows, and where the next page starts. -/
structure TaskListing where
  nextCursor : Option String
  tasks : List TaskRow

/-- Each row of a listing, expired first if due. -/
def refreshAll (H : Hashing) : List TaskRow → Svc (List TaskRow)
  | [] => pure []
  | found :: rows => do
    let row ← (if found.lifecycle.terminal then pure found
      else do
        let scope ← scopeOf found
        refresh (expireIfDue H) scope found)
    let rest ← refreshAll H rows
    pure (row :: rest)

/-- `next_cursor`: `rows[-1]`, where there are as many rows as were asked
for. -/
def nextCursor (rows : List TaskRow) (limit : Int) : Svc (Option String) :=
  if (rows.length : Int) = limit then
    match rows.getLast? with
    | some row => pure (some (toIso row.createdAtUtc ++ "|" ++ row.taskId))
    | none => throw .indexError
  else pure none

/-- `list`: one page of the tasks, in listing order. -/
def TaskStateService.list (H : Hashing) (scope : Option AuthorityScope) (lifecycles : Option (List String))
    (cursor : Option String) (limit : Int) (evaluateExpiry : Bool) : Svc TaskListing := do
  let found ← query .listTasks (·.listTasks scope lifecycles cursor limit)
  let rows ← (if evaluateExpiry then refreshAll H found else pure found)
  let nextCursor ← nextCursor rows limit
  pure { nextCursor, tasks := rows }

/-! ## Expiry and deletion on request -/

/-- `evaluate_expiry`. -/
def evaluateExpiry (H : Hashing) (scope : AuthorityScope) (taskId : String) :
    Svc (Option TaskRow) := do
  match ← query .getTask (·.getTask scope taskId) with
  | none => pure none
  | some row => expireIfDue H scope row

/-- The tasks of a scan that were due, in the order of the scan. -/
def expireAll (H : Hashing) : List TaskRow → Svc (List String)
  | [] => pure []
  | row :: rows => do
    let scope ← scopeOf row
    let expired ← expireIfDue H scope row
    let rest ← expireAll H rows
    pure (if expired.isSome then row.taskId :: rest else rest)

/-- `scan_for_expiry`. -/
def scanForExpiry (H : Hashing) (limit : Int) : Svc (List String × Instant) := do
  let rows ← query .tasksDueForExpiryScan (·.tasksDueForExpiryScan limit)
  let expired ← expireAll H rows
  let scannedAt ← now
  pure (expired, scannedAt)

/-- `forget`'s receipt. -/
structure DeletionReceipt where
  taskId : String
  deleted : Bool
  revisionsRemoved : ℕ
  goalSha256 : String
  actor : String
  deletedAtUtc : Instant

/-- `forget`: remove a task and everything derived from it. -/
def forget (H : Hashing) (scope : AuthorityScope) (taskId actor : String)
    (actorRole : ActorRole) : Svc DeletionReceipt := do
  require actorRole .deleteState
  let row ← requireTask scope taskId
  let revisions ← query .listTaskRevisions (·.listTaskRevisions taskId 200)
  let found ← query .getTask (·.getTask scope taskId)
  (if found.isSome then transaction (deleteTask taskId) else pure ())
  let deletedAt ← now
  pure
    { taskId
      deleted := found.isSome
      revisionsRemoved := revisions.length
      goalSha256 := "sha256:" ++ H.sha256Hex row.goal
      actor
      deletedAtUtc := deletedAt }

end Atmem
