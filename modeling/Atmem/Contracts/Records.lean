import Atmem.Contracts.Json
import Atmem.Contracts.Vocabulary
/-!
# The contracts of governed task state

Each contract is the record of its fields and the check `__post_init__`
runs on them, in the source's order and with its messages. The contract
itself is the subtype of the fields that pass, so a value of it cannot be
built otherwise; `make` is its constructor, and raises what the check
raises. An integer field is a natural number where the check refuses the
negative ones.
-/

namespace Atmem

open Checked

/-- The longest goal and the longest text. -/
def maxGoalChars : ℕ := 2000

/-- `MAX_TEXT_CHARS`. -/
def maxTextChars : ℕ := 2000

/-- How many items, constraints and operations a contract holds. -/
def maxItems : ℕ := 500

/-- `MAX_CONSTRAINTS`. -/
def maxConstraints : ℕ := 100

/-- `MAX_OPERATIONS`. -/
def maxOperations : ℕ := 50

/-! ## Scope and evidence -/

/-- Whose data it is: a subject, an agent, a workspace. -/
structure AuthorityScopeFields where
  subjectId : String
  agentId : String
  workspaceId : String
deriving DecidableEq

/-- `AuthorityScope.__post_init__`. -/
def AuthorityScopeFields.postInit (f : AuthorityScopeFields) : Except String Unit := do
  identifier "subject_id" f.subjectId
  identifier "agent_id" f.agentId
  identifier "workspace_id" f.workspaceId

/-- Whose task it is. -/
abbrev AuthorityScope := {f : AuthorityScopeFields // f.postInit = .ok ()}

/-- `AuthorityScope(…)`. -/
def AuthorityScope.make : AuthorityScopeFields → Except String AuthorityScope :=
  Checked.make AuthorityScopeFields.postInit

/-- A reference to evidence, with or without its digest. -/
structure EvidenceRefFields where
  kind : String
  referenceId : String
  sha256 : Option String := none
deriving DecidableEq

/-- The kinds of evidence a reference may name. -/
def evidenceKinds : List String :=
  ["source", "record", "audit_event", "blackbox_event", "tool_call", "verifier_result",
    "operator_request", "policy_rule"]

/-- `_DIGEST`, matched in full: `sha256:` and 64 lowercase hex digits. -/
def isDigest (value : String) : Bool :=
  let cs := value.toList
  cs.take 7 == "sha256:".toList && (cs.drop 7).length == 64 &&
    (cs.drop 7).all fun c => c.isDigit || ('a' ≤ c && c ≤ 'f')

/-- `EvidenceRef.__post_init__`. -/
def EvidenceRefFields.postInit (f : EvidenceRefFields) : Except String Unit := do
  ensure (f.kind ∈ evidenceKinds) ("unsupported evidence kind: " ++ repr f.kind)
  identifier "reference_id" f.referenceId
  ensure (f.sha256.all isDigest = true) "evidence sha256 must use sha256:<64 lowercase hex>"

/-- A pointer to something already held that can be re-checked. -/
abbrev EvidenceRef := {f : EvidenceRefFields // f.postInit = .ok ()}

/-- `EvidenceRef(…)`. -/
def EvidenceRef.make : EvidenceRefFields → Except String EvidenceRef :=
  Checked.make EvidenceRefFields.postInit

/-! ## Rules -/

/-- The ages at which a task expires, in milliseconds. -/
structure ExpiryPolicyFields where
  maxAbsoluteAgeMs : Option ℕ := none
  maxNoProgressAgeMs : Option ℕ := none
deriving DecidableEq

/-- A bound that is there is positive. -/
def positiveMs (name : String) (value : Option ℕ) : Except String Unit :=
  ensure (value ≠ some 0) (name ++ " must be a positive number of milliseconds")

/-- `ExpiryPolicy.__post_init__`. -/
def ExpiryPolicyFields.postInit (f : ExpiryPolicyFields) : Except String Unit := do
  positiveMs "max_absolute_age_ms" f.maxAbsoluteAgeMs
  positiveMs "max_no_progress_age_ms" f.maxNoProgressAgeMs

/-- The immutable rule bound to a task when it starts. -/
abbrev ExpiryPolicy := {f : ExpiryPolicyFields // f.postInit = .ok ()}

/-- `ExpiryPolicy(…)`. -/
def ExpiryPolicy.make : ExpiryPolicyFields → Except String ExpiryPolicy :=
  Checked.make ExpiryPolicyFields.postInit

/-- What a kind of task permits, requires and exposes. -/
structure TaskProfileFields where
  profileId : String
  version : String
  phases : List String
  phaseTransitions : List (String × String)
  requiredItemKinds : List String := []
  optionalContextFields : List String := []
  permittedOperations : List OperationKind := Vocabulary.all
  noProgressActionThreshold : ℕ := 3
  expiry : ExpiryPolicy := ⟨{}, rfl⟩
  allowSchemaExtensionPhases : List String := []
  description : String := ""
  bindingLifetimeMs : Option ℕ := none
deriving DecidableEq

/-- `TaskProfile.__post_init__`. -/
def TaskProfileFields.postInit (f : TaskProfileFields) : Except String Unit := do
  identifier "profile_id" f.profileId
  identifier "version" f.version
  ensure (f.phases ≠ []) "a profile must declare at least one phase"
  ensure f.phases.Nodup "profile phases must be unique"
  let unknown := (f.phaseTransitions.flatMap fun edge => [edge.1, edge.2]).filter (· ∉ f.phases)
  ensure (unknown = []) ("phase transitions name unknown phases: " ++ reprSorted unknown)
  ensure (1 ≤ f.noProgressActionThreshold) "no_progress_action_threshold must be at least 1"
  ensureAll (fun phase => ensure (phase ∈ f.phases)
    ("unknown schema-extension phase: " ++ repr phase)) f.allowSchemaExtensionPhases
  positiveMs "binding_lifetime_ms" f.bindingLifetimeMs

/-- Versioned rules: phases, transitions, gates and thresholds. -/
abbrev TaskProfile := {f : TaskProfileFields // f.postInit = .ok ()}

namespace TaskProfile

/-- `TaskProfile(…)`. -/
def make : TaskProfileFields → Except String TaskProfile :=
  Checked.make TaskProfileFields.postInit

/-- `initial_phase`: the first one declared. -/
def initialPhase (profile : TaskProfile) : String := profile.val.phases.headD ""

/-- `terminal_phase`: the last one declared. -/
def terminalPhase (profile : TaskProfile) : String := profile.val.phases.getLastD ""

/-- `allows_phase_transition`. -/
def allowsPhaseTransition (profile : TaskProfile) (source target : String) : Bool :=
  (source, target) ∈ profile.val.phaseTransitions

/-- `allows_operation`. -/
def allowsOperation (profile : TaskProfile) (kind : OperationKind) : Bool :=
  kind ∈ profile.val.permittedOperations

end TaskProfile

/-! ## A task and its snapshots -/

/-- The fields of an item of a task. -/
structure TaskItemFields where
  itemId : String
  kind : String
  title : String
  status : ItemStatus := .pending
  content : List (String × Json) := []
  dependsOn : List String := []
  blockerReason : Option String := none
  skipReason : Option String := none
  assurance : Assurance := .asserted
  evidence : List EvidenceRef := []
  required : Bool := false
deriving DecidableEq

/-- `TaskItem.__post_init__`. -/
def TaskItemFields.postInit (f : TaskItemFields) : Except String Unit := do
  identifier "item_id" f.itemId
  text "kind" f.kind 100
  text "title" f.title maxTextChars
  ensure (f.status = .blocked → truthy f.blockerReason = true)
    "a blocked item must record why it is blocked"
  ensure (f.status = .skipped → truthy f.skipReason = true)
    "a skipped item must record why it was skipped"
  ensure (f.itemId ∉ f.dependsOn) "an item cannot depend on itself"

/-- One actionable unit with a stable identity and exactly one status. -/
abbrev TaskItem := {f : TaskItemFields // f.postInit = .ok ()}

/-- `TaskItem(…)`. -/
def TaskItem.make : TaskItemFields → Except String TaskItem := Checked.make TaskItemFields.postInit

/-- A constraint on a task, satisfied or not. -/
structure TaskConstraintFields where
  constraintId : String
  text : String
  satisfied : Bool := false
  requiredForCompletion : Bool := true
deriving DecidableEq

/-- `TaskConstraint.__post_init__`. -/
def TaskConstraintFields.postInit (f : TaskConstraintFields) : Except String Unit := do
  identifier "constraint_id" f.constraintId
  Atmem.text "text" f.text maxTextChars

/-- A rule of the task a completion may wait on. -/
abbrev TaskConstraint := {f : TaskConstraintFields // f.postInit = .ok ()}

/-- `TaskConstraint(…)`. -/
def TaskConstraint.make : TaskConstraintFields → Except String TaskConstraint :=
  Checked.make TaskConstraintFields.postInit

/-- The fields of a revision of a task. -/
structure TaskStateFields where
  taskId : String
  scope : AuthorityScope
  revision : ℕ
  lifecycle : TaskLifecycle
  phase : String
  goal : String
  profileId : String
  profileVersion : String
  items : List TaskItem := []
  constraints : List TaskConstraint := []
  sourcesToInspect : List String := []
  completedSources : List String := []
  schemaLocked : Bool := false
  createdAt : String := ""
  updatedAt : String := ""
  lastProgressAt : String := ""
  parentRevision : Option ℕ := none
  policyGeneration : ℕ := 1
deriving DecidableEq

/-- The identities of a list of items, in order. -/
def itemIds (items : List TaskItem) : List String := items.map fun item => item.val.itemId

/-- `TaskState.__post_init__`. -/
def TaskStateFields.postInit (f : TaskStateFields) : Except String Unit := do
  identifier "task_id" f.taskId
  ensure (1 ≤ f.revision) "revisions start at 1"
  ensure (f.items.length ≤ maxItems) "a task may hold at most 500 items"
  ensure (itemIds f.items).Nodup "task item identities must be unique"
  ensureAll (fun item =>
    let unknown := item.val.dependsOn.filter (· ∉ itemIds f.items)
    ensure (unknown = [])
      ("item " ++ item.val.itemId ++ " depends on unknown items: " ++ reprSorted unknown)) f.items

/-- One immutable canonical snapshot of a task at a revision. -/
abbrev TaskState := {f : TaskStateFields // f.postInit = .ok ()}

namespace TaskState

/-- `TaskState(…)`. -/
def make : TaskStateFields → Except String TaskState := Checked.make TaskStateFields.postInit

/-- `item`: the first with the identifier. -/
def item (state : TaskState) (itemId : String) : Option TaskItem :=
  state.val.items.find? fun item => item.val.itemId = itemId

/-- `constraint`: the first with the identifier. -/
def constraint (state : TaskState) (constraintId : String) : Option TaskConstraint :=
  state.val.constraints.find? fun row => row.val.constraintId = constraintId

end TaskState

/-! ## Requests -/

/-- The fields of a request to start a task. -/
structure TaskStartRequestFields where
  taskId : String
  scope : AuthorityScope
  profileId : String
  profileVersion : String
  goal : String
  actor : String
  actorRole : ActorRole
  idempotencyKey : String
  constraints : List String := []
  sourcesToInspect : List String := []
  evidence : List EvidenceRef := []
  continuesTaskId : Option String := none
deriving DecidableEq

/-- `TaskStartRequest.__post_init__`. -/
def TaskStartRequestFields.postInit (f : TaskStartRequestFields) : Except String Unit := do
  identifier "task_id" f.taskId
  identifier "profile_id" f.profileId
  text "goal" f.goal maxGoalChars
  text "actor" f.actor 200
  text "idempotency_key" f.idempotencyKey 256
  ensure (f.constraints.length ≤ maxConstraints) "a task may start with at most 100 constraints"

/-- An explicit request to begin governing one task. -/
abbrev TaskStartRequest := {f : TaskStartRequestFields // f.postInit = .ok ()}

/-- `TaskStartRequest(…)`. -/
def TaskStartRequest.make : TaskStartRequestFields → Except String TaskStartRequest :=
  Checked.make TaskStartRequestFields.postInit

/-- One operation of a proposal; which fields matter depends on its kind. -/
structure TaskOperationFields where
  kind : OperationKind
  itemId : Option String := none
  constraintId : Option String := none
  sourceId : Option String := none
  phase : Option String := none
  status : Option ItemStatus := none
  text : Option String := none
  content : Option (List (String × Json)) := none
  dependsOn : Option (List String) := none
  kindLabel : Option String := none
  required : Option Bool := none
  reason : Option String := none
  assurance : Assurance := .asserted
deriving DecidableEq

/-- The kinds that name an item. -/
def OperationKind.requiresItem : OperationKind → Bool
  | .setItemStatus | .addItem | .setItemContent | .setItemBlocker => true
  | _ => false

/-- `TaskOperation.__post_init__`. -/
def TaskOperationFields.postInit (f : TaskOperationFields) : Except String Unit := do
  ensure (f.kind.requiresItem = true → truthy f.itemId = true) (value f.kind ++ " requires item_id")
  ensure (f.kind = .setItemStatus → f.status ≠ none) "set_item_status requires status"
  ensure (f.kind = .setPhase → truthy f.phase = true) "set_phase requires phase"
  ensure (f.kind = .addConstraint → truthy f.constraintId = true ∧ truthy f.text = true)
    "add_constraint requires constraint_id and text"
  ensure (f.kind = .satisfyConstraint → truthy f.constraintId = true)
    "satisfy_constraint requires constraint_id"
  ensure (f.kind = .markSourceInspected → truthy f.sourceId = true)
    "mark_source_inspected requires source_id"
  ensure (f.kind = .addItem → truthy f.kindLabel = true ∧ truthy f.text = true)
    "add_item requires kind_label and text"

/-- One bounded change request inside a delta. -/
abbrev TaskOperation := {f : TaskOperationFields // f.postInit = .ok ()}

/-- `TaskOperation(…)`. -/
def TaskOperation.make : TaskOperationFields → Except String TaskOperation :=
  Checked.make TaskOperationFields.postInit

/-- The fields of a proposed change of a task. -/
structure TaskStateProposalFields where
  proposalId : String
  taskId : String
  scope : AuthorityScope
  baseRevision : ℕ
  idempotencyKey : String
  actor : String
  actorRole : ActorRole
  operations : List TaskOperation
  evidence : List EvidenceRef := []
  interpreter : Option String := none
  assurance : Assurance := .asserted
  reason : Option String := none
  actionFingerprint : Option String := none
deriving DecidableEq

/-- `TaskStateProposal.__post_init__`. -/
def TaskStateProposalFields.postInit (f : TaskStateProposalFields) : Except String Unit := do
  identifier "proposal_id" f.proposalId
  identifier "task_id" f.taskId
  text "actor" f.actor 200
  text "idempotency_key" f.idempotencyKey 256
  ensure (1 ≤ f.baseRevision) "base_revision starts at 1"
  ensure (f.operations ≠ []) "a proposal must request at least one operation"
  ensure (f.operations.length ≤ maxOperations) "a proposal may carry at most 50 operations"

/-- An untrusted typed delta against an exact base revision. -/
abbrev TaskStateProposal := {f : TaskStateProposalFields // f.postInit = .ok ()}

/-- `TaskStateProposal(…)`. -/
def TaskStateProposal.make : TaskStateProposalFields → Except String TaskStateProposal :=
  Checked.make TaskStateProposalFields.postInit

/-! ## Answers -/

/-- What a guard says of a task. -/
structure GuardSignalFields where
  guardType : GuardType
  taskId : String
  revision : ℕ
  message : String
  blockingItemIds : List String := []
  repeatedActionCount : ℕ := 0
  enforced : Bool := false
deriving DecidableEq

/-- `GuardSignal.__post_init__`. -/
def GuardSignalFields.postInit (f : GuardSignalFields) : Except String Unit :=
  text "message" f.message maxTextChars

/-- An explainable warning or denial, never an executed action. -/
abbrev GuardSignal := {f : GuardSignalFields // f.postInit = .ok ()}

/-- `GuardSignal(…)`. -/
def GuardSignal.make : GuardSignalFields → Except String GuardSignal :=
  Checked.make GuardSignalFields.postInit

/-- What was decided about a proposal. -/
structure TransitionDecisionFields where
  decisionId : String
  proposalId : String
  taskId : String
  scope : AuthorityScope
  outcome : StepOutcome
  reasonCodes : List ReasonCode
  baseRevision : ℕ
  resultingRevision : Option ℕ := none
  decidedAt : String := ""
  decidedBy : String := "atmem-authority"
  assurance : Assurance := .asserted
  evidence : List EvidenceRef := []
  guards : List GuardSignal := []
  replayed : Bool := false
deriving DecidableEq

/-- `TransitionDecision.__post_init__`. -/
def TransitionDecisionFields.postInit (f : TransitionDecisionFields) : Except String Unit := do
  ensure (f.reasonCodes ≠ []) "at least one reason code is required"
  ensure (f.outcome = .accepted → f.resultingRevision ≠ none)
    "an accepted transition must name its resulting revision"
  ensure (f.outcome ≠ .accepted →
      f.resultingRevision = none ∨ f.resultingRevision = some f.baseRevision)
    "only an accepted transition may advance the revision"

/-- The answer to one observed workflow step. -/
abbrev TransitionDecision := {f : TransitionDecisionFields // f.postInit = .ok ()}

/-- `TransitionDecision(…)`. -/
def TransitionDecision.make : TransitionDecisionFields → Except String TransitionDecision :=
  Checked.make TransitionDecisionFields.postInit

/-! ## The host boundary -/

/-- A session of a host, and its epoch. -/
structure HostSessionIdentityFields where
  hostType : String
  sessionKey : String
  sessionEpoch : String
deriving DecidableEq

/-- `HostSessionIdentity.__post_init__`. -/
def HostSessionIdentityFields.postInit (f : HostSessionIdentityFields) : Except String Unit := do
  identifier "host_type" f.hostType
  identifier "session_key" f.sessionKey
  identifier "session_epoch" f.sessionEpoch

/-- Which conversation a host submission belongs to. -/
abbrev HostSessionIdentity := {f : HostSessionIdentityFields // f.postInit = .ok ()}

/-- The fields of a proposal that comes from a host. -/
structure HostTaskProposalRequestFields where
  identity : HostSessionIdentity
  taskId : String
  baseRevision : ℕ
  idempotencyKey : String
  operations : List TaskOperation
  adapter : String
  adapterVersion : String := ""
  evidence : List EvidenceRef := []
  reason : String := ""
deriving DecidableEq

/-- `HostTaskProposalRequest.__post_init__`. -/
def HostTaskProposalRequestFields.postInit (f : HostTaskProposalRequestFields) :
    Except String Unit := do
  identifier "task_id" f.taskId
  text "idempotency_key" f.idempotencyKey 256
  text "adapter" f.adapter 200
  ensure (1 ≤ f.baseRevision) "base_revision starts at 1"
  ensure (f.operations ≠ []) "a proposal must request at least one operation"
  ensure (f.operations.length ≤ maxOperations) "a proposal may carry at most 50 operations"

/-- A typed bounded delta submitted at the host boundary, already in
delta form. -/
abbrev HostTaskProposalRequest := {f : HostTaskProposalRequestFields // f.postInit = .ok ()}

end Atmem
