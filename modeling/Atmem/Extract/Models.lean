import Atmem.Contracts.CanonicalJson
import Atmem.Contracts.Codec
import Atmem.Core.Time
/-!
# Typed proposals

The contracts of governed memory extraction: exact evidence, the seven
kinds of typed payload, the unit that carries one, and the proposal. A
timestamp is the text together with the moment it names, so that a unit
holds only texts that parse.
-/

namespace Atmem

open Checked

/-! ## Vocabularies -/

/-- What kind of memory a proposal is about. -/
inductive MemoryClass
  | durableFact | temporaryState | episode | procedure | nonMemory
deriving DecidableEq

instance : Vocabulary MemoryClass where
  all := [.durableFact, .temporaryState, .episode, .procedure, .nonMemory]
  value
    | .durableFact => "durable_fact"
    | .temporaryState => "temporary_state"
    | .episode => "episode"
    | .procedure => "procedure"
    | .nonMemory => "non_memory"
  mem_all a := by cases a <;> decide
  nodup_value := by decide +kernel

/-- What a proposal would do to the memory. -/
inductive ProposalAction
  | add | update | supersede | reject | noop
deriving DecidableEq

instance : Vocabulary ProposalAction where
  all := [.add, .update, .supersede, .reject, .noop]
  value
    | .add => "ADD"
    | .update => "UPDATE"
    | .supersede => "SUPERSEDE"
    | .reject => "REJECT"
    | .noop => "NOOP"
  mem_all a := by cases a <;> decide
  nodup_value := by decide +kernel

/-- The actions that write memory. -/
def ProposalAction.mutates (action : ProposalAction) : Bool :=
  action ∈ [.add, .update, .supersede]

/-- The kinds of typed units. -/
inductive MemoryUnitKind
  | atomicFact | durableRule | environmentState | stateTransition | procedure | failureGotcha
  | premiseConstraint
deriving DecidableEq

instance : Vocabulary MemoryUnitKind where
  all := [.atomicFact, .durableRule, .environmentState, .stateTransition, .procedure,
    .failureGotcha, .premiseConstraint]
  value
    | .atomicFact => "atomic_fact"
    | .durableRule => "durable_rule"
    | .environmentState => "environment_state"
    | .stateTransition => "state_transition"
    | .procedure => "procedure"
    | .failureGotcha => "failure_gotcha"
    | .premiseConstraint => "premise_constraint"
  mem_all a := by cases a <;> decide
  nodup_value := by decide +kernel

/-- Whether a fact is stated or denied. -/
inductive Polarity
  | positive | negative
deriving DecidableEq

instance : Vocabulary Polarity where
  all := [.positive, .negative]
  value
    | .positive => "positive"
    | .negative => "negative"
  mem_all a := by cases a <;> decide
  nodup_value := by decide +kernel

/-- Whether a unit was observed or inferred. -/
inductive EvidenceStatus
  | observed | inferred
deriving DecidableEq

instance : Vocabulary EvidenceStatus where
  all := [.observed, .inferred]
  value
    | .observed => "observed"
    | .inferred => "inferred"
  mem_all a := by cases a <;> decide
  nodup_value := by decide +kernel

/-- The lifecycles a typed unit may have. -/
inductive UnitLifecycle
  | proposed | active | quarantined | superseded | revoked | deleted
deriving DecidableEq

instance : Vocabulary UnitLifecycle where
  all := [.proposed, .active, .quarantined, .superseded, .revoked, .deleted]
  value
    | .proposed => "proposed"
    | .active => "active"
    | .quarantined => "quarantined"
    | .superseded => "superseded"
    | .revoked => "revoked"
    | .deleted => "deleted"
  mem_all a := by cases a <;> decide
  nodup_value := by decide +kernel

/-! ## Fields -/

/-- A number between zero and one: its exact value, and what `repr` writes
of it. -/
structure Confidence where
  value : Rat
  text : String
deriving DecidableEq

/-- An ISO-8601 timestamp with an offset: the text, and the moment. An offset
may lead past the last year, and one that leads back before the first is left
out. -/
structure Timestamp where
  text : String
  moment : Instant
deriving DecidableEq

/-- `astimezone(timezone.utc)`, of a time that may be left out. -/
def utcOf : Option Timestamp → Except String (Option Instant)
  | none => .ok none
  | some t =>
    if t.moment < maxInstant then .ok (some t.moment)
    else .error "OverflowError: date value out of range"

/-- `MAX_TEXT_FIELD_CHARS`. -/
def maxTextFieldChars : ℕ := 2000

/-- `MAX_STRUCTURED_STATE_CHARS`. -/
def maxStructuredStateChars : ℕ := 8000

/-- `_require_text_fields`. -/
def requireTextFields (typeName : String) (fields : List (String × String)) (maximum : ℕ) :
    Except String Unit :=
  ensure (∀ f ∈ fields, strip f.2 ≠ [] ∧ f.2.length ≤ maximum)
    (typeName ++ " requires non-empty " ++ ", ".intercalate (fields.map (·.1)))

/-- The same of a field that may be left out. -/
def requireTextOption (typeName name : String) (value : Option String) : Except String Unit :=
  match value with
  | none => .ok ()
  | some value => requireTextFields typeName [(name, value)] maxTextFieldChars

/-- `_require_text_sequence`. -/
def requireTextSequence (name : String) (values : List String) : Except String Unit :=
  ensure (values.length ≤ 64 ∧ ∀ v ∈ values, strip v ≠ [] ∧ v.length ≤ 2000)
    (name ++ " must contain at most 64 bounded non-empty values")

/-- `_require_id`: the whole text, not stripped. -/
def requireId (name value : String) : Except String Unit :=
  ensure (isIdentifier value.toList) (name ++ " must be a bounded protocol identifier")

/-- `_require_digest`. -/
def requireDigest (name value : String) : Except String Unit :=
  ensure (isDigest value) (name ++ " must use sha256:<64 lowercase hex>")

/-! ## Payloads -/

/-- One step of a procedure. -/
structure ProcedureStep where
  ordinal : ℕ
  instruction : String
  condition : Option String := none
deriving DecidableEq

/-- `ProcedureStep.__post_init__`. -/
def ProcedureStep.postInit (step : ProcedureStep) : Except String Unit := do
  ensure (1 ≤ step.ordinal) "procedure steps require a positive ordinal and instruction"
  requireTextFields "ProcedureStep" [("instruction", step.instruction)] maxTextFieldChars
  requireTextOption "ProcedureStep" "condition" step.condition

/-- The typed payloads, one constructor each. -/
inductive UnitPayload
  | atomicFact (subject relation value : String) (polarity : Polarity)
  | durableRule (condition : String) (requiredAction prohibitedAction : Option String)
      (exceptions : List String)
  | environmentState (entity relation value : String) (polarity : Polarity)
  | stateTransition (entity relation before action after : String)
      (transitionBasis : EvidenceStatus)
  | procedure (goal : String) (steps : List ProcedureStep)
      (prerequisites completionEvidence failureConditions : List String)
  | failureGotcha (trigger failure : String) (requiredAction prohibitedAction : Option String)
  | premiseConstraint (proposition : String) (polarity : Polarity)
      (appliesWhen excludedWhen : Option String)
deriving DecidableEq

namespace UnitPayload

/-- The kind whose payload it is. -/
def kind : UnitPayload → MemoryUnitKind
  | .atomicFact .. => .atomicFact
  | .durableRule .. => .durableRule
  | .environmentState .. => .environmentState
  | .stateTransition .. => .stateTransition
  | .procedure .. => .procedure
  | .failureGotcha .. => .failureGotcha
  | .premiseConstraint .. => .premiseConstraint

/-- `__post_init__` of the payload of each kind. -/
def postInit : UnitPayload → Except String Unit
  | .atomicFact subject relation value _ =>
    requireTextFields "AtomicFactPayload"
      [("subject", subject), ("relation", relation), ("value", value)] maxTextFieldChars
  | .durableRule condition requiredAction prohibitedAction exceptions => do
    requireTextFields "DurableRulePayload" [("condition", condition)] maxTextFieldChars
    requireTextOption "DurableRulePayload" "required_action" requiredAction
    requireTextOption "DurableRulePayload" "prohibited_action" prohibitedAction
    ensure (truthy requiredAction ∨ truthy prohibitedAction)
      "durable rule requires a required or prohibited action"
    requireTextSequence "exceptions" exceptions
  | .environmentState entity relation value _ => do
    requireTextFields "EnvironmentStatePayload" [("entity", entity), ("relation", relation)]
      maxTextFieldChars
    requireTextFields "EnvironmentStatePayload" [("value", value)] maxStructuredStateChars
  | .stateTransition entity relation before action after _ =>
    requireTextFields "StateTransitionPayload" [("entity", entity), ("relation", relation),
      ("before", before), ("action", action), ("after", after)] maxTextFieldChars
  | .procedure goal steps prerequisites completionEvidence failureConditions => do
    ensureAll ProcedureStep.postInit steps
    ensure (strip goal ≠ [] ∧ steps ≠ []) "procedure requires a goal and at least one step"
    ensure (steps.map (·.ordinal) = List.range' 1 steps.length)
      "procedure step ordinals must be consecutive and ordered"
    ensure (steps.length ≤ 64) "procedure cannot exceed 64 steps"
    requireTextSequence "prerequisites" prerequisites
    requireTextSequence "completion_evidence" completionEvidence
    requireTextSequence "failure_conditions" failureConditions
  | .failureGotcha trigger failure requiredAction prohibitedAction => do
    ensure (strip trigger ≠ [] ∧ strip failure ≠ []) "failure gotcha requires trigger and failure"
    requireTextFields "FailureGotchaPayload" [("trigger", trigger), ("failure", failure)]
      maxTextFieldChars
    requireTextOption "FailureGotchaPayload" "required_action" requiredAction
    requireTextOption "FailureGotchaPayload" "prohibited_action" prohibitedAction
  | .premiseConstraint proposition _ appliesWhen excludedWhen => do
    requireTextFields "PremiseConstraintPayload" [("proposition", proposition)] maxTextFieldChars
    requireTextOption "PremiseConstraintPayload" "applies_when" appliesWhen
    requireTextOption "PremiseConstraintPayload" "excluded_when" excludedWhen

/-- `getattr(payload, "subject", None)`. -/
def subject : UnitPayload → Option String
  | .atomicFact subject .. => some subject
  | _ => none

/-- `getattr(payload, "entity", None)`. -/
def entity : UnitPayload → Option String
  | .environmentState entity .. | .stateTransition entity .. => some entity
  | _ => none

/-- `getattr(payload, "relation", None)`. -/
def relation : UnitPayload → Option String
  | .atomicFact _ relation .. | .environmentState _ relation .. | .stateTransition _ relation .. =>
    some relation
  | _ => none

/-- A text with what introduces it, where it is there. -/
def clause (introduction : String) (value : Option String) : List String :=
  if truthy value then [introduction ++ str value] else []

/-- `canonical_text` of the payload of each kind. -/
def canonicalText : UnitPayload → String
  | .atomicFact subject relation val polarity =>
    subject ++ " " ++ relation ++ ": " ++ val ++ " (" ++ value polarity ++ ")"
  | .environmentState entity relation val polarity =>
    entity ++ " " ++ relation ++ ": " ++ val ++ " (" ++ value polarity ++ ")"
  | .stateTransition entity relation before action after _ =>
    entity ++ " " ++ relation ++ ": " ++ before ++ " --" ++ action ++ "--> " ++ after
  | .durableRule condition requiredAction prohibitedAction exceptions =>
    "When " ++ condition ++ "; " ++
      "; ".intercalate
        (clause "required: " requiredAction ++ clause "prohibited: " prohibitedAction) ++
      (if exceptions = [] then "" else "; exceptions: " ++ ", ".intercalate exceptions)
  | .procedure goal steps prerequisites completionEvidence failureConditions =>
    let step (s : ProcedureStep) := toString s.ordinal ++ ". " ++ s.instruction ++
      String.join (clause " when " s.condition)
    let sequence (introduction : String) (values : List String) :=
      if values = [] then "" else introduction ++ ", ".intercalate values ++ "."
    String.ofList (strip ("Procedure: " ++ goal ++ "." ++
      sequence " Prerequisites: " prerequisites ++ " " ++ "; ".intercalate (steps.map step) ++ "." ++
      sequence " Completion evidence: " completionEvidence ++
      sequence " Failure conditions: " failureConditions))
  | .failureGotcha trigger failure requiredAction prohibitedAction =>
    "When " ++ trigger ++ ", risk: " ++ failure ++ "; " ++
      "; ".intercalate (clause "required action: " requiredAction ++
        clause "prohibited action: " prohibitedAction)
  | .premiseConstraint proposition polarity appliesWhen excludedWhen =>
    "Premise (" ++ value polarity ++ "): " ++ proposition ++
      String.join (clause "; applies when: " appliesWhen ++
        clause "; excluded when: " excludedWhen)

/-- `asdict`, the enumerations as their texts. -/
def asdict : UnitPayload → Json
  | .atomicFact subject relation val polarity =>
    .obj [("subject", .str subject), ("relation", .str relation), ("value", .str val),
      ("polarity", .str (value polarity))]
  | .durableRule condition requiredAction prohibitedAction exceptions =>
    .obj [("condition", .str condition), ("required_action", .ofOption .str requiredAction),
      ("prohibited_action", .ofOption .str prohibitedAction), ("exceptions", .strings exceptions)]
  | .environmentState entity relation val polarity =>
    .obj [("entity", .str entity), ("relation", .str relation), ("value", .str val),
      ("polarity", .str (value polarity))]
  | .stateTransition entity relation before action after transitionBasis =>
    .obj [("entity", .str entity), ("relation", .str relation), ("before", .str before),
      ("action", .str action), ("after", .str after),
      ("transition_basis", .str (value transitionBasis))]
  | .procedure goal steps prerequisites completionEvidence failureConditions =>
    .obj [("goal", .str goal), ("steps", .arr (steps.map fun s => .obj [("ordinal", .int s.ordinal),
        ("instruction", .str s.instruction), ("condition", .ofOption .str s.condition)])),
      ("prerequisites", .strings prerequisites),
      ("completion_evidence", .strings completionEvidence),
      ("failure_conditions", .strings failureConditions)]
  | .failureGotcha trigger failure requiredAction prohibitedAction =>
    .obj [("trigger", .str trigger), ("failure", .str failure),
      ("required_action", .ofOption .str requiredAction),
      ("prohibited_action", .ofOption .str prohibitedAction)]
  | .premiseConstraint proposition polarity appliesWhen excludedWhen =>
    .obj [("proposition", .str proposition), ("polarity", .str (value polarity)),
      ("applies_when", .ofOption .str appliesWhen), ("excluded_when", .ofOption .str excludedWhen)]

end UnitPayload

/-! ## Evidence and units -/

/-- A span of a source, and the digests it is checked by. -/
structure ProposalEvidenceFields where
  sourceId : String
  sourceSha256 : String
  startOffset : ℕ
  endOffset : ℕ
  excerptSha256 : String
deriving DecidableEq

/-- `ProposalEvidence.__post_init__`. -/
def ProposalEvidenceFields.postInit (f : ProposalEvidenceFields) : Except String Unit := do
  requireId "source_id" f.sourceId
  requireDigest "source_sha256" f.sourceSha256
  requireDigest "excerpt_sha256" f.excerptSha256
  ensure (f.startOffset < f.endOffset) "evidence offsets must identify a non-empty source span"

/-- An exact span of a source. -/
abbrev ProposalEvidence := {f : ProposalEvidenceFields // f.postInit = .ok ()}

instance lawfulBEqProposalEvidence : LawfulBEq ProposalEvidence := inferInstance

/-- `ProposalEvidence(…)`. -/
def ProposalEvidence.make : ProposalEvidenceFields → Except String ProposalEvidence :=
  Checked.make ProposalEvidenceFields.postInit

/-- `asdict`: the fields in their order. -/
def ProposalEvidence.asdict (e : ProposalEvidence) : Json :=
  .obj [("source_id", .str e.val.sourceId), ("source_sha256", .str e.val.sourceSha256),
    ("start_offset", .int e.val.startOffset), ("end_offset", .int e.val.endOffset),
    ("excerpt_sha256", .str e.val.excerptSha256)]

/-- A bound on the confidence. -/
def checkConfidence (confidence : Confidence) : Except String Unit :=
  ensure (0 ≤ confidence.value ∧ confidence.value ≤ 1) "confidence must be between 0 and 1"

/-- The fields of a typed unit of memory. -/
structure MemoryUnitFields where
  unitId : String
  formationId : String
  scope : AuthorityScope
  payload : UnitPayload
  evidence : List ProposalEvidence
  confidence : Confidence
  evidenceStatus : EvidenceStatus := .observed
  formationVersion : String := "typed-formation-v1"
  observedAt : Option Timestamp := none
  eventAt : Option Timestamp := none
  validFrom : Option Timestamp := none
  validUntil : Option Timestamp := none
  lifecycle : UnitLifecycle := .proposed
deriving DecidableEq

/-- `kind`, which the payload decides. -/
def MemoryUnitFields.kind (f : MemoryUnitFields) : MemoryUnitKind := f.payload.kind

/-- `MemoryUnit.__post_init__`. -/
def MemoryUnitFields.postInit (f : MemoryUnitFields) : Except String Unit := do
  f.payload.postInit
  requireId "unit_id" f.unitId
  requireId "formation_id" f.formationId
  ensure (f.evidence ≠ []) "typed memory requires exact source evidence"
  ensure f.evidence.Nodup "typed memory evidence must be unique"
  checkConfidence f.confidence
  ensure (strip f.formationVersion ≠ []) "formation_version is required"
  match f.payload with
  | .stateTransition _ _ _ _ _ transitionBasis =>
    ensure (transitionBasis = f.evidenceStatus)
      "state transition basis must match unit evidence_status"
  | _ => .ok ()
  match f.validFrom, f.validUntil with
  | some validFrom, some validUntil =>
    ensure (validFrom.moment ≤ validUntil.moment) "valid_until cannot precede valid_from"
  | _, _ => .ok ()

/-- A source-linked typed derivative. -/
abbrev MemoryUnit := {f : MemoryUnitFields // f.postInit = .ok ()}

/-- `MemoryUnit(…)`. -/
def MemoryUnit.make : MemoryUnitFields → Except String MemoryUnit :=
  Checked.make MemoryUnitFields.postInit

/-- `MemoryUnit.to_dict`. -/
def MemoryUnit.toDict (unit : MemoryUnit) : Json :=
  .obj [("unit_id", .str unit.val.unitId), ("formation_id", .str unit.val.formationId),
    ("kind", .str (value unit.val.kind)), ("scope", unit.val.scope.asdict),
    ("payload", unit.val.payload.asdict),
    ("evidence", .arr (unit.val.evidence.map ProposalEvidence.asdict)),
    ("confidence", .float unit.val.confidence.text),
    ("evidence_status", .str (value unit.val.evidenceStatus)),
    ("formation_version", .str unit.val.formationVersion),
    ("observed_at", .ofOption (fun t => .str t.text) unit.val.observedAt),
    ("event_at", .ofOption (fun t => .str t.text) unit.val.eventAt),
    ("valid_from", .ofOption (fun t => .str t.text) unit.val.validFrom),
    ("valid_until", .ofOption (fun t => .str t.text) unit.val.validUntil),
    ("lifecycle", .str (value unit.val.lifecycle)), ("format", .str "atmem-memory-unit-v2")]

/-- What both identities are taken over: the claim, its times as UTC
moments. -/
def MemoryUnit.claim (unit : MemoryUnit) : Except String Json := do
  let time (t : Option Instant) : Json := .ofOption (fun t => .str (toIso t)) t
  let stripped := unit.toDict.without
    ["unit_id", "formation_id", "confidence", "lifecycle", "formation_version", "evidence"]
  let observedAt ← utcOf unit.val.observedAt
  let eventAt ← utcOf unit.val.eventAt
  let validFrom ← utcOf unit.val.validFrom
  let validUntil ← utcOf unit.val.validUntil
  pure ((((stripped.set "observed_at" (time observedAt)).set "event_at" (time eventAt)).set
    "valid_from" (time validFrom)).set "valid_until" (time validUntil))

/-- An observation of a state is one occurrence, named by its spans. -/
def MemoryUnit.occurrence (unit : MemoryUnit) : Option Json :=
  if unit.val.kind ∈ [MemoryUnitKind.environmentState, .stateTransition] then
    some (.arr (unit.val.evidence.map fun row => .obj [("source_id", .str row.val.sourceId),
      ("source_sha256", .str row.val.sourceSha256), ("start_offset", .int row.val.startOffset),
      ("end_offset", .int row.val.endOffset)]))
  else none

/-- A claim with its occurrence, where there is one. -/
def withOccurrence (claim : Json) : Option Json → Json
  | some occurrence => claim.set "occurrence" occurrence
  | none => claim

/-- `semantic_identity`: of the claim and the occurrence. -/
def MemoryUnit.semanticIdentity (H : Hashing) (unit : MemoryUnit) : Except String String := do
  pure ("sha256:" ++ H.sha256Hex (withOccurrence (← unit.claim) unit.occurrence).canonicalJson)

/-- The identity a user's exclusion is kept under. -/
def MemoryUnit.exclusionIdentity (H : Hashing) (unit : MemoryUnit) : Except String String := do
  pure ("sha256:" ++ H.sha256Hex (← unit.claim).canonicalJson)

/-! ## Proposals -/

/-- What a record must still be for a proposal to hold. -/
structure ProposalPreconditionFields where
  recordId : String
  generation : ℕ
  status : String
  contentSha256 : String
deriving DecidableEq

/-- `ProposalPrecondition.__post_init__`. -/
def ProposalPreconditionFields.postInit (f : ProposalPreconditionFields) : Except String Unit := do
  ensure (f.recordId ≠ "" ∧ f.status ≠ "") "precondition record_id and status are required"
  requireDigest "content_sha256" f.contentSha256

/-- The state of a record a proposal was made against. -/
abbrev ProposalPrecondition := {f : ProposalPreconditionFields // f.postInit = .ok ()}

/-- `ProposalPrecondition(…)`. -/
def ProposalPrecondition.make : ProposalPreconditionFields → Except String ProposalPrecondition :=
  Checked.make ProposalPreconditionFields.postInit

/-- The fields of a proposed change of the memory. -/
structure ExtractionProposalFields where
  proposalId : String
  idempotencyKey : String
  scope : AuthorityScope
  action : ProposalAction
  memoryClass : MemoryClass
  confidence : Confidence
  reasonCodes : List String
  evidence : List ProposalEvidence
  fact : Option String := none
  factKey : Option String := none
  affectedRecordIds : List String := []
  preconditions : List ProposalPrecondition := []
  reviewRequired : Bool := false
  unit : Option MemoryUnit := none
deriving DecidableEq

/-- `ExtractionProposal.__post_init__`. -/
def ExtractionProposalFields.postInit (f : ExtractionProposalFields) : Except String Unit := do
  ensure (f.proposalId ≠ "" ∧ f.idempotencyKey ≠ "") "proposal_id and idempotency_key are required"
  checkConfidence f.confidence
  ensure (f.reasonCodes ≠ []) "at least one bounded reason code is required"
  ensure (f.evidence ≠ []) "at least one exact source evidence span is required"
  ensure f.evidence.Nodup "proposal evidence must be unique"
  ensure (f.action.mutates → truthy f.fact) "mutating proposals require a screened fact"
  let factLimit := if f.unit.any (·.val.kind = .environmentState) then maxStructuredStateChars
    else maxTextFieldChars
  ensure (f.fact.all (·.length ≤ factLimit)) ("proposal fact must contain at most " ++
    (if factLimit = maxTextFieldChars then "2,000" else "8,000") ++ " characters")
  match f.unit with
  | none => .ok ()
  | some unit => do
    ensure (unit.val.scope = f.scope) "typed unit scope must equal proposal scope"
    ensure (∀ e ∈ unit.val.evidence, e ∈ f.evidence)
      "typed unit evidence must be included in proposal evidence"
    ensure (unit.val.lifecycle = .proposed) "proposal units must have proposed lifecycle"
  ensure (f.action ∈ [ProposalAction.update, .supersede] →
      f.affectedRecordIds ≠ [] ∧ f.preconditions ≠ [])
    "updates require affected records and lifecycle preconditions"

/-- A single explicit extraction outcome; it never commits by itself. -/
abbrev ExtractionProposal := {f : ExtractionProposalFields // f.postInit = .ok ()}

/-- `ExtractionProposal(…)`. -/
def ExtractionProposal.make : ExtractionProposalFields → Except String ExtractionProposal :=
  Checked.make ExtractionProposalFields.postInit

/-- `ExtractionProposal.to_dict`. -/
def ExtractionProposal.toDict (p : ExtractionProposal) : Json :=
  .obj ([("proposal_id", .str p.val.proposalId), ("idempotency_key", .str p.val.idempotencyKey),
    ("scope", p.val.scope.asdict), ("action", .str (value p.val.action)),
    ("memory_class", .str (value p.val.memoryClass)),
    ("confidence", .float p.val.confidence.text), ("reason_codes", .strings p.val.reasonCodes),
    ("evidence", .arr (p.val.evidence.map ProposalEvidence.asdict)),
    ("fact", .ofOption .str p.val.fact), ("fact_key", .ofOption .str p.val.factKey),
    ("affected_record_ids", .strings p.val.affectedRecordIds),
    ("preconditions", .arr (p.val.preconditions.map fun c => .obj
      [("record_id", .str c.val.recordId), ("generation", .int c.val.generation),
        ("status", .str c.val.status), ("content_sha256", .str c.val.contentSha256)])),
    ("review_required", .bool p.val.reviewRequired),
    ("format", .str "atmem-memory-proposal-v2")] ++
    (match p.val.unit with
      | some unit => [("unit", unit.toDict)]
      | none => []))

/-- The digest of a proposal: that of its canonical text. -/
def ExtractionProposal.digest (H : Hashing) (p : ExtractionProposal) : String :=
  "sha256:" ++ H.sha256Hex p.toDict.canonicalJson

end Atmem
