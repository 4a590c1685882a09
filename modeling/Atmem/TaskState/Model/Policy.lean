import Atmem.Contracts.Codec
import Atmem.Contracts.Records
import Atmem.Contracts.Vocabulary
import Atmem.TaskState.Model.Items
/-!
# What is accepted as a change to task state

The decision layer: a snapshot, a profile and an untrusted proposal in,
exactly one outcome with stable reason codes out. It performs no I/O and
commits nothing. The one thing it cannot answer with a decision is a
constructor that raises while an operation is applied. Beside it stand the
built-in profile, `general-v1`, and what each role may do, which is derived
from the role and never from a string an actor supplied.
-/

namespace Atmem

open Checked

/-- Only these roles may nominate a change at all. -/
def proposingRoles : List ActorRole :=
  [.atbotIntelligence, .hostAgent, .operator, .administrator, .verifier]

/-- `ASSURANCE_CEILING`: the strongest assurance each role may claim. -/
def assuranceCeiling : ActorRole → Assurance
  | .atbotIntelligence => .modelInterpreted
  | .hostAgent => .hostReported
  | .operator => .operatorConfirmed
  | .administrator => .operatorConfirmed
  | .verifier => .independentlyVerified
  | .policyEvaluator => .ruleExtracted
  | .atmemAuthority => .ruleExtracted
  | .auditor | .delegatedProvider => .asserted

/-- Operations only a person with the right permission may request. -/
def privilegedOperations : List OperationKind := [.lockSchema]

/-- Operations that change the structure of the task. -/
def schemaOperations : List OperationKind := [.addItem, .addConstraint]

/-- The outcome of evaluating one proposal, before anything is written. -/
structure PolicyDecision where
  outcome : StepOutcome
  reasonCodes : List ReasonCode
  nextState : Option TaskState := none
  isProgress : Bool := false
  guards : List GuardSignal := []
  effectiveAssurance : Assurance := .asserted

/-- `accepted`. -/
def PolicyDecision.accepted (decision : PolicyDecision) : Bool := decision.outcome = .accepted

/-- `_reject`. -/
def reject (code : ReasonCode) : PolicyDecision := { outcome := .rejected, reasonCodes := [code] }

/-! ## One operation -/

/-- The phase an operation asks for. -/
def validatePhase (target : String) (state : TaskState) (profile : TaskProfile) :
    Option ReasonCode :=
  if target ∉ profile.val.phases then some .illegalPhaseTransition
  else if target ≠ state.val.phase ∧ !profile.allowsPhaseTransition state.val.phase target then
    some .illegalPhaseTransition
  else if target = profile.terminalPhase ∧ completionBlockers state profile ≠ [] then
    some .requiredItemsIncomplete
  else none

/-- The item an operation adds. -/
def validateNewItem (operation : TaskOperation) (state : TaskState) : Option ReasonCode :=
  if (state.item (str operation.val.itemId)).isSome then some .duplicateItemId
  else if (operation.val.dependsOn.getD []).any (· ∉ itemIds state.val.items) then
    some .unknownItem
  else none

/-- The status an operation asks for. -/
def validateStatus (operation : TaskOperation) (item : TaskItem) (target : ItemStatus)
    (state : TaskState) (proposal : TaskStateProposal) (allowPrivileged : Bool) :
    Option ReasonCode :=
  let claimed := max operation.val.assurance.rank proposal.val.assurance.rank
  if !allowsStatusTransition item.val.status target then some .illegalStatusTransition
  else if (target = .running ∨ target = .completed) ∧ !dependenciesSatisfied state item then
    some .dependencyUnsatisfied
  else if target = .skipped ∧ !truthy operation.val.reason then some .reasonRequired
  else if target = .blocked ∧ !truthy operation.val.reason then some .reasonRequired
  else if target = .completed ∧
      ¬ (proposal.val.evidence ≠ [] ∨ Assurance.hostReported.rank ≤ claimed) then
    some .evidenceRequired
  else if item.val.required ∧ target = .skipped ∧ !allowPrivileged then some .capabilityDenied
  else none

/-- `_validate_operation`: the reason this operation may not be applied. -/
def validateOperation (operation : TaskOperation) (state : TaskState) (profile : TaskProfile)
    (proposal : TaskStateProposal) (allowPrivileged : Bool) : Option ReasonCode :=
  let kind := operation.val.kind
  if !profile.allowsOperation kind then some .operationNotPermittedByProfile
  else if kind ∈ privilegedOperations ∧ !allowPrivileged then some .capabilityDenied
  else if kind ∈ schemaOperations ∧ state.val.schemaLocked then some .schemaIsLocked
  else if kind ∈ schemaOperations ∧ profile.val.allowSchemaExtensionPhases ≠ [] ∧
      state.val.phase ∉ profile.val.allowSchemaExtensionPhases then
    some .schemaIsLocked
  else match kind with
  | .setPhase => validatePhase (str operation.val.phase) state profile
  | .addItem => validateNewItem operation state
  | .setItemStatus =>
    match state.item (str operation.val.itemId), operation.val.status with
    | some item, some target => validateStatus operation item target state proposal allowPrivileged
    | some _, none => none -- the contract of the operation excludes it
    | none, _ => some .unknownItem
  | .setItemContent | .setItemBlocker =>
    if (state.item (str operation.val.itemId)).isNone then some .unknownItem else none
  | .satisfyConstraint =>
    if (state.constraint (str operation.val.constraintId)).isNone then some .unknownConstraint
    else none
  | .addConstraint =>
    if (state.constraint (str operation.val.constraintId)).isSome then some .unknownConstraint
    else none
  | .markSourceInspected =>
    if str operation.val.sourceId ∉ state.val.sourcesToInspect then some .unknownSource else none
  | .lockSchema => none

/-- The loop over the operations: the first refusal, or whether any of
them was progress. Later operations see earlier ones applied. -/
def validateOperations (profile : TaskProfile) (proposal : TaskStateProposal)
    (allowPrivileged : Bool) (working : TaskState) (progressed : Bool) :
    List TaskOperation → Except String (Except ReasonCode Bool)
  | [] => .ok (.ok progressed)
  | operation :: operations =>
    match validateOperation operation working profile proposal allowPrivileged with
    | some failure => .ok (.error failure)
    | none => do
      let next ← applyOperations working [operation] working.val.revision working.val.updatedAt none
      validateOperations profile proposal allowPrivileged next
        (progressed || isProgress operation working) operations

/-! ## One proposal -/

/-- `_completion_guards`. -/
def completionGuards (state : TaskState) : Except String (List GuardSignal) :=
  let unmet := itemIds (state.val.items.filter fun item =>
    isWaiting item && !dependenciesSatisfied state item)
  if unmet = [] then .ok []
  else do
    let guard ← GuardSignal.make
      { guardType := .dependencyUnsatisfied
        taskId := state.val.taskId
        revision := state.val.revision
        message := toString unmet.length ++ " item(s) are waiting on unfinished dependencies."
        blockingItemIds := unmet }
    .ok [guard]

/-- What is decided of a proposal before its operations are looked at. -/
def preconditions (state : TaskState) (proposal : TaskStateProposal)
    (knownEvidenceIds : Option (List String)) : Option PolicyDecision :=
  if proposal.val.scope ≠ state.val.scope then some (reject .scopeMismatch)
  else if proposal.val.taskId ≠ state.val.taskId then some (reject .taskNotEligible)
  else if proposal.val.actorRole ∉ proposingRoles then some (reject .capabilityDenied)
  else if state.val.lifecycle.terminal then some (reject .taskIsTerminal)
  else if state.val.lifecycle = .paused then some (reject .taskIsPaused)
  else if proposal.val.baseRevision ≠ state.val.revision then
    some { outcome := .conflict, reasonCodes := [.staleBaseRevision] }
  else if (assuranceCeiling proposal.val.actorRole).rank < proposal.val.assurance.rank then
    some (reject .assuranceCeilingExceeded)
  else if knownEvidenceIds.any fun known =>
      proposal.val.evidence.any fun ref => ref.val.referenceId ∉ known then
    some (reject .unknownEvidence)
  else none

/-- The decision on operations that all passed. -/
def conclude (H : Hashing) (state : TaskState) (proposal : TaskStateProposal) (nowIso : String)
    (progressed : Bool) : Except String PolicyDecision := do
  let nextState ← applyOperations state proposal.val.operations (state.val.revision + 1) nowIso
    (some (if progressed then nowIso else state.val.lastProgressAt))
  if nextState.semanticDigest H = state.semanticDigest H then
    .ok
      { outcome := .noChange
        reasonCodes := [.stateAlreadyMatches]
        effectiveAssurance := proposal.val.assurance }
  else
    let guards ← completionGuards nextState
    .ok
      { outcome := .accepted
        reasonCodes := [.transitionAccepted]
        nextState := some nextState
        isProgress := progressed
        guards
        effectiveAssurance := proposal.val.assurance }

/-- `evaluate`: what one proposal does to one task. -/
def evaluate (H : Hashing) (state : TaskState) (profile : TaskProfile)
    (proposal : TaskStateProposal) (nowIso : String) (knownEvidenceIds : Option (List String))
    (allowPrivileged : Bool) : Except String PolicyDecision :=
  match preconditions state proposal knownEvidenceIds with
  | some refusal => .ok refusal
  | none => do
    match ← validateOperations profile proposal allowPrivileged state false
        proposal.val.operations with
    | .error failure => .ok (reject failure)
    | .ok progressed =>
      if proposal.val.operations = [] then .ok (reject .emptyDelta)
      else conclude H state proposal nowIso progressed

/-- `evaluate_completion`: may this task be completed right now, and if
not, what is blocking? -/
def evaluateCompletion (state : TaskState) (profile : TaskProfile) :
    Except String (Bool × List ReasonCode × Option GuardSignal) :=
  let blockers := completionBlockers state profile
  if blockers = [] then .ok (true, [], none)
  else do
    let guard ← GuardSignal.make
      { guardType := .completionNotAllowed
        taskId := state.val.taskId
        revision := state.val.revision
        message := "Completion is not allowed yet: " ++ toString blockers.length ++
          " requirement(s) are unsatisfied."
        blockingItemIds := blockers }
    .ok (false, [.requiredItemsIncomplete], some guard)

/-! ## The built-in profile -/

/-- The profile `general-v1`. -/
def generalV1Fields : TaskProfileFields where
  profileId := "general"
  version := "general-v1"
  phases := ["plan", "collect", "validate", "execute", "verify", "complete"]
  phaseTransitions :=
    [("plan", "collect"), ("plan", "execute"), ("collect", "validate"), ("collect", "collect"),
      ("validate", "collect"), ("validate", "execute"), ("execute", "verify"),
      ("execute", "execute"), ("verify", "execute"), ("verify", "complete")]
  optionalContextFields :=
    ["completed_sources", "sources_to_inspect", "item_content", "settled_items"]
  allowSchemaExtensionPhases := ["plan", "collect"]
  bindingLifetimeMs := some (12 * 60 * 60 * 1000)
  description := "General agent workflow: plan the work, collect what it needs, " ++
    "validate that, execute, verify the result, then complete."

/-- `GENERAL_V1`. -/
def generalV1 : TaskProfile := ⟨generalV1Fields, by decide +kernel⟩

/-- `BUILT_IN_PROFILES.get`. -/
def builtInProfile (version : String) : Option TaskProfile :=
  if version = "general-v1" then some generalV1 else none

/-! ## The governance matrix -/

/-- `GOVERNANCE_ACTIONS`. -/
inductive GovernanceAction
  | readState | proposeDelta | commitState | correctState | registerProfile | changeLifecycle
  | expireTask | deliverContext | deleteState
deriving DecidableEq

instance : Vocabulary GovernanceAction where
  all := [.readState, .proposeDelta, .commitState, .correctState, .registerProfile,
    .changeLifecycle, .expireTask, .deliverContext, .deleteState]
  value
    | .readState => "read_state"
    | .proposeDelta => "propose_delta"
    | .commitState => "commit_state"
    | .correctState => "correct_state"
    | .registerProfile => "register_profile"
    | .changeLifecycle => "change_lifecycle"
    | .expireTask => "expire_task"
    | .deliverContext => "deliver_context"
    | .deleteState => "delete_state"
  mem_all a := by cases a <;> decide
  nodup_value := by decide +kernel

/-- `GOVERNANCE_MATRIX`: the actions a role holds. -/
def capabilityFor : ActorRole → List GovernanceAction
  | .atmemAuthority => [.readState, .proposeDelta, .commitState, .correctState, .registerProfile,
      .changeLifecycle, .deliverContext, .deleteState]
  | .policyEvaluator => [.expireTask]
  | .atbotIntelligence => [.readState, .proposeDelta]
  | .hostAgent => [.readState, .proposeDelta]
  | .operator => [.readState, .proposeDelta, .correctState, .changeLifecycle]
  | .administrator => [.readState, .proposeDelta, .correctState, .registerProfile,
      .changeLifecycle, .deleteState]
  | .verifier => [.readState, .proposeDelta]
  | .auditor => [.readState]
  | .delegatedProvider => []

/-- `permits`. -/
def permits (actorRole : ActorRole) (action : GovernanceAction) : Bool :=
  action ∈ capabilityFor actorRole

end Atmem
