import Mathlib.Data.List.Nodup
import Mathlib.Data.Nat.Notation
/-!
# The closed vocabularies

The string enumerations of the contracts, each with its members in the
order of the source and the text a member is written as. No two members
of one enumeration share a text, so what is written can be read back.
-/

namespace Atmem

/-- A string enumeration: its members, and the text of each. -/
class Vocabulary (α : Type) where
  all : List α
  value : α → String
  mem_all : ∀ a, a ∈ all
  nodup_value : (all.map value).Nodup

namespace Vocabulary

variable {α : Type} [Vocabulary α]

/-- Two members of one text are one member. -/
theorem value_injective {a b : α} (h : value a = value b) : a = b :=
  List.inj_on_of_nodup_map nodup_value (mem_all a) (mem_all b) h

/-- The member a text names, where there is one. -/
def ofValue? (text : String) : Option α := (all : List α).find? fun a => value a = text

/-- **What a member is written as reads back as the member.** -/
@[simp] theorem ofValue?_value (a : α) : ofValue? (value a) = some a := by
  rcases hf : (ofValue? (value a) : Option α) with - | b
  · have := List.find?_eq_none.mp hf a (mem_all a)
    simp at this
  · have hb : value b = value a := by simpa using List.find?_some hf
    rw [value_injective hb]

end Vocabulary

export Vocabulary (value ofValue? ofValue?_value)

/-! ## Lifecycle, items and steps -/

/-- Exactly five lifecycle values; the last three are terminal. -/
inductive TaskLifecycle
  | open | paused | completed | cancelled | expired
deriving DecidableEq

instance : Vocabulary TaskLifecycle where
  all := [.open, .paused, .completed, .cancelled, .expired]
  value
    | .open => "open"
    | .paused => "paused"
    | .completed => "completed"
    | .cancelled => "cancelled"
    | .expired => "expired"
  mem_all a := by cases a <;> decide
  nodup_value := by decide +kernel

/-- A lifecycle nothing leaves. -/
def TaskLifecycle.terminal : TaskLifecycle → Bool
  | .completed | .cancelled | .expired => true
  | .open | .paused => false

/-- The status of one item. -/
inductive ItemStatus
  | pending | ready | running | blocked | completed | skipped | failed
deriving DecidableEq

instance : Vocabulary ItemStatus where
  all := [.pending, .ready, .running, .blocked, .completed, .skipped, .failed]
  value
    | .pending => "pending"
    | .ready => "ready"
    | .running => "running"
    | .blocked => "blocked"
    | .completed => "completed"
    | .skipped => "skipped"
    | .failed => "failed"
  mem_all a := by cases a <;> decide
  nodup_value := by decide +kernel

/-- An item that needs no further work to satisfy a completion gate. -/
def ItemStatus.settled : ItemStatus → Bool
  | .completed | .skipped => true
  | _ => false

/-- The four outcomes every observed workflow step resolves to. -/
inductive StepOutcome
  | accepted | rejected | conflict | noChange
deriving DecidableEq

instance : Vocabulary StepOutcome where
  all := [.accepted, .rejected, .conflict, .noChange]
  value
    | .accepted => "accepted"
    | .rejected => "rejected"
    | .conflict => "conflict"
    | .noChange => "no_change"
  mem_all a := by cases a <;> decide
  nodup_value := by decide +kernel

/-! ## Claims and who makes them -/

/-- How strongly an outcome is evidenced, weakest first. -/
inductive Assurance
  | asserted | modelInterpreted | ruleExtracted | hostReported | operatorConfirmed
  | independentlyVerified
deriving DecidableEq

instance : Vocabulary Assurance where
  all := [.asserted, .modelInterpreted, .ruleExtracted, .hostReported, .operatorConfirmed,
    .independentlyVerified]
  value
    | .asserted => "asserted"
    | .modelInterpreted => "model_interpreted"
    | .ruleExtracted => "rule_extracted"
    | .hostReported => "host_reported"
    | .operatorConfirmed => "operator_confirmed"
    | .independentlyVerified => "independently_verified"
  mem_all a := by cases a <;> decide
  nodup_value := by decide +kernel

/-- `_ASSURANCE_ORDER.index`. -/
def Assurance.rank : Assurance → ℕ
  | .asserted => 0
  | .modelInterpreted => 1
  | .ruleExtracted => 2
  | .hostReported => 3
  | .operatorConfirmed => 4
  | .independentlyVerified => 5

/-- A trusted capability, never merely an actor-supplied string. -/
inductive ActorRole
  | atmemAuthority | policyEvaluator | atbotIntelligence | hostAgent | operator | administrator
  | verifier | auditor | delegatedProvider
deriving DecidableEq

instance : Vocabulary ActorRole where
  all := [.atmemAuthority, .policyEvaluator, .atbotIntelligence, .hostAgent, .operator,
    .administrator, .verifier, .auditor, .delegatedProvider]
  value
    | .atmemAuthority => "atmem_authority"
    | .policyEvaluator => "policy_evaluator"
    | .atbotIntelligence => "atbot_intelligence"
    | .hostAgent => "host_agent"
    | .operator => "operator"
    | .administrator => "administrator"
    | .verifier => "verifier"
    | .auditor => "auditor"
    | .delegatedProvider => "delegated_provider"
  mem_all a := by cases a <;> decide
  nodup_value := by decide +kernel

/-! ## Operations, guards and reasons -/

/-- What a guard warns of. -/
inductive GuardType
  | noProgress | dependencyUnsatisfied | outOfScope | completionNotAllowed
deriving DecidableEq

instance : Vocabulary GuardType where
  all := [.noProgress, .dependencyUnsatisfied, .outOfScope, .completionNotAllowed]
  value
    | .noProgress => "no_progress"
    | .dependencyUnsatisfied => "dependency_unsatisfied"
    | .outOfScope => "out_of_scope"
    | .completionNotAllowed => "completion_not_allowed"
  mem_all a := by cases a <;> decide
  nodup_value := by decide +kernel

/-- The bounded delta operations a proposal may request. -/
inductive OperationKind
  | setPhase | setItemStatus | addItem | setItemContent | setItemBlocker | addConstraint
  | satisfyConstraint | markSourceInspected | lockSchema
deriving DecidableEq

instance : Vocabulary OperationKind where
  all := [.setPhase, .setItemStatus, .addItem, .setItemContent, .setItemBlocker, .addConstraint,
    .satisfyConstraint, .markSourceInspected, .lockSchema]
  value
    | .setPhase => "set_phase"
    | .setItemStatus => "set_item_status"
    | .addItem => "add_item"
    | .setItemContent => "set_item_content"
    | .setItemBlocker => "set_item_blocker"
    | .addConstraint => "add_constraint"
    | .satisfyConstraint => "satisfy_constraint"
    | .markSourceInspected => "mark_source_inspected"
    | .lockSchema => "lock_schema"
  mem_all a := by cases a <;> decide
  nodup_value := by decide +kernel

/-- `REASON_CODES`: every decision cites one of these. -/
inductive ReasonCode
  -- accepted
  | transitionAccepted | operatorCorrectionAccepted | lifecycleChangeAccepted
  -- no_change
  | stateAlreadyMatches | duplicateIdempotencyKey
  -- conflict
  | staleBaseRevision | concurrentSuccessorCommitted
  -- rejected — authority and scope
  | scopeMismatch | capabilityDenied | taskNotEligible | taskIsTerminal | taskIsPaused
  -- rejected — structure
  | unknownItem | unknownConstraint | unknownSource | duplicateItemId | schemaIsLocked
  | fullReplacementRefused | operationNotPermittedByProfile | tooManyOperations | emptyDelta
  -- rejected — transitions
  | illegalPhaseTransition | illegalStatusTransition | dependencyUnsatisfied
  | requiredItemsIncomplete | constraintUnsatisfied
  -- rejected — evidence
  | unknownEvidence | evidenceRequired | assuranceCeilingExceeded | reasonRequired
  -- lifecycle and policy
  | expiredAbsoluteAge | expiredNoProgress | expiryNotOperatorInitiated
  -- context
  | taskContextSelectionRequired | taskContextNotEligible | taskContextBudgetExceeded
  -- availability
  | taskStateDisabled | taskStateShadowMode | capabilityUnavailable | integrityCheckFailed
  -- session binding (Amendment A)
  | bindingRegistered | bindingRevoked | bindingAlreadyActive | bindingNotFound
  | taskBindingConflict | taskBindingStaleSession | sessionIdentityRequired
  | hostTaskNotBoundToSession | ownerRequired | hostProposalAccepted
deriving DecidableEq

instance : Vocabulary ReasonCode where
  all := [.transitionAccepted, .operatorCorrectionAccepted, .lifecycleChangeAccepted,
    .stateAlreadyMatches, .duplicateIdempotencyKey, .staleBaseRevision,
    .concurrentSuccessorCommitted, .scopeMismatch, .capabilityDenied, .taskNotEligible,
    .taskIsTerminal, .taskIsPaused, .unknownItem, .unknownConstraint, .unknownSource,
    .duplicateItemId, .schemaIsLocked, .fullReplacementRefused, .operationNotPermittedByProfile,
    .tooManyOperations, .emptyDelta, .illegalPhaseTransition, .illegalStatusTransition,
    .dependencyUnsatisfied, .requiredItemsIncomplete, .constraintUnsatisfied, .unknownEvidence,
    .evidenceRequired, .assuranceCeilingExceeded, .reasonRequired, .expiredAbsoluteAge,
    .expiredNoProgress, .expiryNotOperatorInitiated, .taskContextSelectionRequired,
    .taskContextNotEligible, .taskContextBudgetExceeded, .taskStateDisabled, .taskStateShadowMode,
    .capabilityUnavailable, .integrityCheckFailed, .bindingRegistered, .bindingRevoked,
    .bindingAlreadyActive, .bindingNotFound, .taskBindingConflict, .taskBindingStaleSession,
    .sessionIdentityRequired, .hostTaskNotBoundToSession, .ownerRequired, .hostProposalAccepted]
  value
    | .transitionAccepted => "transition_accepted"
    | .operatorCorrectionAccepted => "operator_correction_accepted"
    | .lifecycleChangeAccepted => "lifecycle_change_accepted"
    | .stateAlreadyMatches => "state_already_matches"
    | .duplicateIdempotencyKey => "duplicate_idempotency_key"
    | .staleBaseRevision => "stale_base_revision"
    | .concurrentSuccessorCommitted => "concurrent_successor_committed"
    | .scopeMismatch => "scope_mismatch"
    | .capabilityDenied => "capability_denied"
    | .taskNotEligible => "task_not_eligible"
    | .taskIsTerminal => "task_is_terminal"
    | .taskIsPaused => "task_is_paused"
    | .unknownItem => "unknown_item"
    | .unknownConstraint => "unknown_constraint"
    | .unknownSource => "unknown_source"
    | .duplicateItemId => "duplicate_item_id"
    | .schemaIsLocked => "schema_is_locked"
    | .fullReplacementRefused => "full_replacement_refused"
    | .operationNotPermittedByProfile => "operation_not_permitted_by_profile"
    | .tooManyOperations => "too_many_operations"
    | .emptyDelta => "empty_delta"
    | .illegalPhaseTransition => "illegal_phase_transition"
    | .illegalStatusTransition => "illegal_status_transition"
    | .dependencyUnsatisfied => "dependency_unsatisfied"
    | .requiredItemsIncomplete => "required_items_incomplete"
    | .constraintUnsatisfied => "constraint_unsatisfied"
    | .unknownEvidence => "unknown_evidence"
    | .evidenceRequired => "evidence_required"
    | .assuranceCeilingExceeded => "assurance_ceiling_exceeded"
    | .reasonRequired => "reason_required"
    | .expiredAbsoluteAge => "expired_absolute_age"
    | .expiredNoProgress => "expired_no_progress"
    | .expiryNotOperatorInitiated => "expiry_not_operator_initiated"
    | .taskContextSelectionRequired => "task_context_selection_required"
    | .taskContextNotEligible => "task_context_not_eligible"
    | .taskContextBudgetExceeded => "task_context_budget_exceeded"
    | .taskStateDisabled => "task_state_disabled"
    | .taskStateShadowMode => "task_state_shadow_mode"
    | .capabilityUnavailable => "capability_unavailable"
    | .integrityCheckFailed => "integrity_check_failed"
    | .bindingRegistered => "binding_registered"
    | .bindingRevoked => "binding_revoked"
    | .bindingAlreadyActive => "binding_already_active"
    | .bindingNotFound => "binding_not_found"
    | .taskBindingConflict => "task_binding_conflict"
    | .taskBindingStaleSession => "task_binding_stale_session"
    | .sessionIdentityRequired => "session_identity_required"
    | .hostTaskNotBoundToSession => "host_task_not_bound_to_session"
    | .ownerRequired => "owner_required"
    | .hostProposalAccepted => "host_proposal_accepted"
  mem_all a := by cases a <;> decide
  nodup_value := by decide +kernel

end Atmem
