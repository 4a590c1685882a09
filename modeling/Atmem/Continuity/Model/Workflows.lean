import Atmem.Common.Leases
import Atmem.Contracts.CanonicalJson
import Atmem.Evidence.Model.Service
/-!
# Workflows

What the continuity service keeps in the evidence vault: a document for every
revision of a workflow, a document for every entry of its history, and a
tombstone for a workflow that was deleted. A time is what a clock read; the
arithmetic of floating-point numbers, the digest and the text of a number are
parameters.
-/

namespace Atmem.Continuity

open Evidence

/-- What the service is given by the interpreter. -/
structure Engine (α : Type) where
  /-- `hashlib.sha256(value.encode()).hexdigest()`. -/
  sha256 : String → String
  /-- Addition of two floats. -/
  plus : Reading α → Reading α → Reading α
  /-- An integer, as a float. -/
  seconds : ℕ → α
  /-- `float(value)`. -/
  float : Json → Except Raised (Reading α)
  /-- The text of a float. -/
  repr : Reading α → String
  /-- `len(json.dumps(value, allow_nan=False).encode())`. -/
  dumpedBytes : Json → Except Raised ℕ

/-- `capability`. -/
inductive Capability
  | none | query | idempotent
deriving DecidableEq

/-- The text of each capability. -/
def Capability.value : Capability → String
  | .none => "none"
  | .query => "query"
  | .idempotent => "idempotent"

/-- `status`. -/
inductive Status
  | pending | uncertain | completed | abandoned
deriving DecidableEq

/-- The text of each status. -/
def Status.value : Status → String
  | .pending => "pending"
  | .uncertain => "uncertain"
  | .completed => "completed"
  | .abandoned => "abandoned"

/-- `mode`: what an attempt may do. -/
inductive Mode
  | execute | query
deriving DecidableEq

/-- The text of each mode. -/
def Mode.value : Mode → String
  | .execute => "execute"
  | .query => "query"

/-- What a workflow was defined to do. -/
structure Definition (α : Type) where
  name : String
  tool : String
  arguments : Json
  capability : Capability
  timeoutSeconds : Reading α
  retentionSeconds : Reading α
deriving DecidableEq

/-- One attempt at an operation. -/
structure Attempt (α : Type) where
  attemptId : String
  runId : String
  mode : Mode
  started : Reading α
  renewals : Option ℕ := none
  ended : Option (Reading α) := none
  outcome : Option String := none
deriving DecidableEq

/-- A governed operation; a field that is `none` is not there. -/
structure Operation (α : Type) extends Definition α where
  operationId : String
  idempotencyKey : Option String
  status : Status
  attempts : List (Attempt α) := []
  receipt : Option Json := none
  firstDispatch : Option (Reading α) := none
  leaseHash : Option String := none
  leaseUntil : Option (Reading α) := none
  lateReceipts : Option ℕ := none
deriving DecidableEq

/-- What `_save` writes down as having happened. -/
inductive Happening
  | createdEnabled | createdDisabled | enabled | disabled | begun | completed
  | needsConfirmation | abandoned | leaseRenewed
deriving DecidableEq

/-- The text of each event. -/
def Happening.value : Happening → String
  | .createdEnabled => "created_enabled"
  | .createdDisabled => "created_disabled"
  | .enabled => "enabled"
  | .disabled => "disabled"
  | .begun => "begin:authorized_attempt"
  | .completed => "completed"
  | .needsConfirmation => "needs_confirmation"
  | .abandoned => "abandoned_not_completed"
  | .leaseRenewed => "lease_renewed"

/-- An entry of a history. -/
inductive Entry (α : Type)
  | saved (event : Happening) (actor : String) (time : Reading α)
  | receipt (document : Json) (attemptId runId operationId : String)
  | operatorAttestation (reason actor operationId : String)
  | lateReceipt (document : Json) (actor operationId runId attemptId : String) (time : Reading α)
deriving DecidableEq

/-- A revision of a workflow, as its document holds it. -/
structure Workflow (α : Type) where
  format : String := "atmem-workflow-v1"
  workflowId : String
  workflowKey : String
  scope : EvidenceScope
  enabled : Bool
  creatorId : Option String
  creatorRole : Option String
  definitions : List (Definition α)
  revision : ℕ := 0
  history : List (Entry α) := []
  operations : List (Operation α)
  clockHighWater : Option (Reading α) := none
deriving DecidableEq

/-- What is left of a deleted workflow. An old tombstone names no creator at
all; `creatorRole` is then `none`. -/
structure Tombstone where
  workflowId : String
  workflowKey : String
  scope : EvidenceScope
  creatorId : Option String
  creatorRole : Option (Option String)
deriving DecidableEq

/-- A document of the vault, as far as it is read here. -/
inductive Document (α : Type)
  | continuity (workflow : Workflow α)
  | event (workflowId : String) (entry : Entry α)
  | tombstone (tombstone : Tombstone)
  | settings (mode : CaptureMode)
  | evidence (runId : String)
  | access (operation principalId : String) (allowed : Bool)
deriving DecidableEq

/-- A document, with what the store puts beside it. -/
structure Stored (α : Type) where
  objectId : String
  sequence : ℕ
  recordedAt : String
  document : Document α
deriving DecidableEq

/-- The vault, its documents in sequence. -/
structure Vault (α : Type) where
  documents : List (Stored α) := []
  formatVersion : ℕ := 2
deriving DecidableEq

/-! ## As JSON -/

section Json

variable {α : Type} (E : Engine α)

/-- A field that is there. -/
def optional (name : String) : Option Json → List (String × Json)
  | some value => [(name, value)]
  | none => []

/-- A reading of the clock, as `repr` writes it. -/
def time (t : Reading α) : Json := .float (E.repr t)

/-- A lease that was given up lasts until `0`, which is no float. -/
def Operation.leaseTime (op : Operation α) (t : Reading α) : Json :=
  if op.leaseHash = some "" then .int 0 else time E t

/-- The fields of a definition, in their order. -/
def Definition.fields (d : Definition α) : List (String × Json) :=
  [("name", .str d.name), ("tool", .str d.tool), ("arguments", d.arguments),
    ("capability", .str d.capability.value), ("timeout_seconds", time E d.timeoutSeconds),
    ("retention_seconds", time E d.retentionSeconds)]

/-- An attempt, as it is stored. -/
def Attempt.toJson (a : Attempt α) : Json :=
  .obj ([("attempt_id", .str a.attemptId), ("run_id", .str a.runId), ("mode", .str a.mode.value),
    ("started", time E a.started)] ++ optional "renewals" (a.renewals.map fun n => .int n) ++
    optional "ended" (a.ended.map (time E)) ++ optional "outcome" (a.outcome.map .str))

/-- An operation, as it is stored. -/
def Operation.toJson (op : Operation α) : Json :=
  .obj (op.toDefinition.fields E ++ [("operation_id", .str op.operationId)] ++
    optional "idempotency_key" (op.idempotencyKey.map .str) ++
    [("status", .str op.status.value), ("attempts", .arr (op.attempts.map (Attempt.toJson E))),
      ("receipt", op.receipt.getD .null)] ++
    optional "first_dispatch" (op.firstDispatch.map (time E)) ++
    optional "lease_hash" (op.leaseHash.map .str) ++
    optional "lease_until" (op.leaseUntil.map (op.leaseTime E)) ++
    optional "late_receipts" (op.lateReceipts.map fun n => .int n))

/-- An entry of the history, as it is stored. -/
def Entry.toJson : Entry α → Json
  | .saved event actor t =>
    .obj [("event", .str event.value), ("actor", .str actor), ("time", time E t)]
  | .receipt document attemptId runId operationId =>
    .obj [("event", .str "receipt"), ("receipt", document), ("attempt_id", .str attemptId),
      ("run_id", .str runId), ("operation_id", .str operationId)]
  | .operatorAttestation reason actor operationId =>
    .obj [("event", .str "operator_attestation"), ("reason", .str reason), ("actor", .str actor),
      ("operation_id", .str operationId)]
  | .lateReceipt document actor operationId runId attemptId t =>
    .obj [("event", .str "late_receipt"), ("receipt", document), ("actor", .str actor),
      ("operation_id", .str operationId), ("run_id", .str runId), ("attempt_id", .str attemptId),
      ("time", time E t)]

/-- A workflow, as it is stored. -/
def Workflow.toJson (w : Workflow α) : Json :=
  .obj ([("format", .str w.format), ("workflow_id", .str w.workflowId),
    ("workflow_key", .str w.workflowKey), ("scope", w.scope.toDict), ("enabled", .bool w.enabled)] ++
    optional "creator_id" (w.creatorId.map .str) ++
    optional "creator_role" (w.creatorRole.map .str) ++
    [("definitions", .arr (w.definitions.map fun d => .obj (d.fields E))),
      ("revision", .int w.revision), ("history", .arr (w.history.map (Entry.toJson E))),
      ("operations", .arr (w.operations.map (Operation.toJson E)))] ++
    optional "clock_high_water" (w.clockHighWater.map (time E)))

/-- What is left of a deleted workflow. -/
def Tombstone.fields (t : Tombstone) : List (String × Json) :=
  [("record_type", .str "continuity_tombstone"), ("workflow_id", .str t.workflowId),
    ("workflow_key", .str t.workflowKey), ("scope", t.scope.toDict)] ++
    (match t.creatorRole with
      | some role =>
        [("creator_id", .ofOption .str t.creatorId), ("creator_role", .ofOption .str role)]
      | none => [])

/-- A document of a workflow, as it is retained; the others are not counted. -/
def Document.fields : Document α → List (String × Json)
  | .continuity w => [("record_type", .str "continuity"), ("workflow", w.toJson E)]
  | .event workflowId entry =>
    [("record_type", .str "continuity_event"), ("workflow_id", .str workflowId),
      ("entry", entry.toJson E)]
  | .tombstone t => t.fields
  | .settings _ | .evidence _ | .access _ _ _ => []

/-- `len(canonical_json(value).encode())`. -/
def canonicalBytes (value : Json) : ℕ := value.canonicalJson.utf8ByteSize

/-- What a stored document takes. -/
def Stored.bytes (s : Stored α) : ℕ :=
  canonicalBytes (.obj ([("format", .str "atmem-evidence-document-v1"),
    ("object_id", .str s.objectId), ("sequence", .int s.sequence),
    ("recorded_at", .str s.recordedAt)] ++ s.document.fields E))

end Json

end Atmem.Continuity
