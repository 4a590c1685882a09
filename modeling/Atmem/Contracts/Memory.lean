import Atmem.Contracts.CanonicalJson
import Atmem.Extract.Models
/-!
# The contracts of memory

A source a host captures, a proposal a model makes of it, and what the
policy admits.
-/

namespace Atmem

open Checked

/-- `_digest`: what is left of the text once it is stripped. -/
def digest (name value : String) : Except String Unit :=
  ensure (isDigest (String.ofList (strip value))) (name ++ " must use sha256:<64 lowercase hex>")

/-! ## Sources -/

/-- The fields of a request to capture a source. -/
structure SourceCaptureRequestFields where
  sourceId : String
  idempotencyKey : String
  scope : AuthorityScope
  message : String
  sourceType : String := "user_message"
  sessionId : Option String := none
  turnId : Option String := none
  hostMessageId : Option String := none
  bindingMethod : String := "host_authenticated_turn"
  bindingAssurance : String := "host_authenticated"
  retainBody : Bool := true
deriving DecidableEq

/-- `SourceCaptureRequest.__post_init__`. -/
def SourceCaptureRequestFields.postInit (f : SourceCaptureRequestFields) : Except String Unit := do
  identifier "source_id" f.sourceId
  ensure (strip f.idempotencyKey ≠ []) "idempotency_key is required"
  ensure (strip f.message ≠ []) "message is required"

/-- A source message a host hands over. -/
abbrev SourceCaptureRequest := {f : SourceCaptureRequestFields // f.postInit = .ok ()}

/-- `SourceCaptureRequest.to_dict`. -/
def SourceCaptureRequest.toDict (r : SourceCaptureRequest) : Json :=
  .obj [("source_id", .str r.val.sourceId), ("idempotency_key", .str r.val.idempotencyKey),
    ("scope", r.val.scope.asdict), ("message", .str r.val.message),
    ("source_type", .str r.val.sourceType), ("session_id", .ofOption .str r.val.sessionId),
    ("turn_id", .ofOption .str r.val.turnId),
    ("host_message_id", .ofOption .str r.val.hostMessageId),
    ("binding_method", .str r.val.bindingMethod),
    ("binding_assurance", .str r.val.bindingAssurance), ("retain_body", .bool r.val.retainBody),
    ("format", .str "atmem-source-capture-request-v1")]

/-- `source_sha256`: the digest of the message. -/
def SourceCaptureRequest.sourceSha256 (H : Hashing) (r : SourceCaptureRequest) : String :=
  "sha256:" ++ H.sha256Hex r.val.message

/-- What a capture answers. -/
structure SourceCaptureResult where
  sourceId : String
  episodeId : String
  sourceSha256 : String
  replayed : Bool
  retained : Bool
deriving DecidableEq

/-! ## Proposals -/

/-- How a source was bound to the message it is of. -/
structure SourceBindingFields where
  method : String
  sourceSha256 : String
  assurance : String := "caller_asserted"
deriving DecidableEq

/-- `SourceBinding.__post_init__`. -/
def SourceBindingFields.postInit (f : SourceBindingFields) : Except String Unit :=
  digest "source_sha256" f.sourceSha256

/-- A binding that passed its checks. -/
abbrev SourceBinding := {f : SourceBindingFields // f.postInit = .ok ()}

/-- What interpreted a source: a provider, a model and a prompt. -/
structure InterpreterIdentityFields where
  provider : String
  model : String
  promptVersion : String
  calibrationId : String := "uncalibrated"
  assurance : String := "model_interpreted"
  egressClass : String := "local"
deriving DecidableEq

/-- `InterpreterIdentity.__post_init__`. -/
def InterpreterIdentityFields.postInit (f : InterpreterIdentityFields) : Except String Unit := do
  identifier "provider" f.provider
  ensure (strip f.model ≠ []) "model is required"
  identifier "prompt_version" f.promptVersion

/-- An interpreter that passed its checks. -/
abbrev InterpreterIdentity := {f : InterpreterIdentityFields // f.postInit = .ok ()}

/-- How a proposal relates to what is there. -/
inductive Relationship
  | add | duplicate | supports | extends | contradicts | supersedes | uncertain
deriving DecidableEq

instance : Vocabulary Relationship where
  all := [.add, .duplicate, .supports, .extends, .contradicts, .supersedes, .uncertain]
  value
    | .add => "add"
    | .duplicate => "duplicate"
    | .supports => "supports"
    | .extends => "extends"
    | .contradicts => "contradicts"
    | .supersedes => "supersedes"
    | .uncertain => "uncertain"
  mem_all a := by cases a <;> decide
  nodup_value := by decide +kernel

/-- How sensitive a fact is. -/
inductive Sensitivity
  | publicData | internal | personal | sensitive | restricted
deriving DecidableEq

instance : Vocabulary Sensitivity where
  all := [.publicData, .internal, .personal, .sensitive, .restricted]
  value
    | .publicData => "public"
    | .internal => "internal"
    | .personal => "personal"
    | .sensitive => "sensitive"
    | .restricted => "restricted"
  mem_all a := by cases a <;> decide
  nodup_value := by decide +kernel

/-- The fields of a proposed fact. -/
structure MemoryProposalFields where
  proposalId : String
  idempotencyKey : String
  scope : AuthorityScope
  fact : String
  sourceIds : List String
  interpreter : InterpreterIdentity
  sourceBinding : SourceBinding
  factKey : Option String := none
  confidence : Confidence := ⟨0, "0.0"⟩
  entities : List (List (String × String)) := []
  suggestedAction : Relationship := .add
  relatedRecordIds : List String := []
  sensitivity : Sensitivity := .personal
  sessionId : Option String := none
  turnId : Option String := none
deriving DecidableEq

/-- `MemoryProposal.__post_init__`. -/
def MemoryProposalFields.postInit (f : MemoryProposalFields) : Except String Unit := do
  identifier "proposal_id" f.proposalId
  ensure (strip f.idempotencyKey ≠ []) "idempotency_key is required"
  ensure (strip f.fact ≠ [] ∧ f.fact.length ≤ 2000) "fact must contain 1 to 2,000 characters"
  ensure (f.sourceIds ≠ []) "at least one source_id is required"
  checkConfidence f.confidence

/-- What a model proposes to remember. -/
abbrev MemoryProposal := {f : MemoryProposalFields // f.postInit = .ok ()}

/-- `semantic_payload`: all but the idempotency key. -/
def MemoryProposal.semanticPayload (p : MemoryProposal) : Json :=
  .obj [("proposal_id", .str p.val.proposalId), ("scope", p.val.scope.asdict),
    ("fact", .str p.val.fact), ("source_ids", .strings p.val.sourceIds),
    ("interpreter", .obj [("provider", .str p.val.interpreter.val.provider),
      ("model", .str p.val.interpreter.val.model),
      ("prompt_version", .str p.val.interpreter.val.promptVersion),
      ("calibration_id", .str p.val.interpreter.val.calibrationId),
      ("assurance", .str p.val.interpreter.val.assurance),
      ("egress_class", .str p.val.interpreter.val.egressClass)]),
    ("source_binding", .obj [("method", .str p.val.sourceBinding.val.method),
      ("source_sha256", .str p.val.sourceBinding.val.sourceSha256),
      ("assurance", .str p.val.sourceBinding.val.assurance)]),
    ("fact_key", .ofOption .str p.val.factKey), ("confidence", .float p.val.confidence.text),
    ("entities", .arr (p.val.entities.map fun e => .obj (e.map fun kv => (kv.1, .str kv.2)))),
    ("suggested_action", .str (value p.val.suggestedAction)),
    ("related_record_ids", .strings p.val.relatedRecordIds),
    ("sensitivity", .str (value p.val.sensitivity)),
    ("session_id", .ofOption .str p.val.sessionId), ("turn_id", .ofOption .str p.val.turnId),
    ("format", .str "atmem-memory-proposal-v1")]

/-- `payload_digest`: of what the proposal means. -/
def MemoryProposal.payloadDigest (H : Hashing) (p : MemoryProposal) : String :=
  "sha256:" ++ H.sha256Hex p.semanticPayload.canonicalJson

/-- What became of a proposed fact. -/
inductive AdmissionDecision
  | active | quarantined | duplicate | conflict | rejected
deriving DecidableEq

/-- What the policy made of a proposal. -/
structure MemoryAdmission where
  proposalId : String
  decision : AdmissionDecision
  reasonCodes : List String
  recordIds : List String := []
  candidateIds : List String := []
  relatedRecordIds : List String := []
  reviewRequired : Bool := false
  replayed : Bool := false
deriving DecidableEq

end Atmem
