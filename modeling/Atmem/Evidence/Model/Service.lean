import Atmem.Common.Occurrence
import Atmem.Contracts.Json
import Atmem.Evidence.Model.Vault
/-!
# The evidence store and its service

What a connection to the vault does, one action at a time: an append or a
deletion is one transaction; a capture first reads the mode and looks for a
replay; a rotation reads the slots and the objects of an old vault, and
begins its transaction with the first row it updates.

Over it, who may do what to protected evidence: a principal has a role and a
scope, an operation is authorised against a scope, and is recorded in the
vault. The accounts, the key of the vault, a key that is locked away and the
journal of a rotation are files of their own; every read and every write of
one is an action.
-/

namespace Atmem.Evidence

open Interleaving Relational
open Json (field)

variable {Cipher : Type} (E : Engine Cipher)

/-- Where a call touches the vault. -/
inductive Point (Cipher : Type)
  | mode | scan | append | delete | slots | legacy | object
  /-- The transaction of a rotation, on what it has read. -/
  | rotate (first : Option (Rewrap Cipher)) (slots : List (SlotRow Cipher))
      (legacy : List (ObjectRow Cipher))

/-- A computation over a vault. -/
abbrev Action (Cipher α : Type) : Type 1 := Eff Raised (Point Cipher) (World Cipher) α

/-- A read, which may raise. -/
def inspect {α : Type} (point : Point Cipher) (f : Vault Cipher → Except Raised α) :
    Action Cipher α :=
  .action point fun w => (f w.vault, w)

/-- A transaction: rolled back where it raises. -/
def transact {α : Type} (point : Point Cipher)
    (body : ℕ → Vault Cipher → Except Raised (α × Vault Cipher)) : Action Cipher α :=
  .action point fun w =>
    match body w.draws w.vault with
    | .ok (a, vault) => (.ok a, { w with vault, draws := w.draws + 1 })
    | .error e => (.error e, { w with draws := w.draws + 1 })

/-- What a call answers with. -/
inductive Answer
  | receipt (r : Option Receipt)
  | deleted (objects slots : ℕ)
  | rotated (slots legacy : ℕ)
deriving DecidableEq

/-- `append`. -/
def append (key : Key) (document : List (String × Json)) (partition : String) :
    Action Cipher Receipt :=
  transact .append fun draw v => v.append E key draw document partition

/-- `set_capture_mode`. -/
def setCaptureMode (key : Key) (mode : CaptureMode) (actor : String) : Action Cipher Receipt :=
  append E key [("record_type", .str "settings"), ("capture_mode", .str mode.value),
    ("actor", .str actor)] "settings"

/-- `access_event`. -/
def accessEvent (key : Key) (value : List (String × Json)) : Action Cipher Receipt := do
  let runId ← Eff.ofExcept id (nested (.obj value) "target_scope" "run_id")
  append E key (Vault.merge [("record_type", .str "access")] value)
    ("audit:" ++ textOr E runId "access")

/-- The evidence that is there of an event, where the event is named. -/
def lookForReplay (key : Key) (e : ProducerEvent) : Action Cipher (Option Receipt) :=
  if e.named then inspect .scan fun v => findReplay E e (v.documents E key) else pure none

/-- The replay, or the receipt of a new document. -/
def replayOrAppend (key : Key) (mode : CaptureMode) (envelope : Json) :
    Option Receipt → Action Cipher Receipt
  | some replay => pure replay
  | none => append E key (evidenceDocument E mode envelope) (runPartition E envelope)

/-- `capture`. -/
def capture (key : Key) (envelope : Json) : Action Cipher (Option Receipt) := do
  let mode ← inspect .mode fun v => captureMode E (v.documents E key)
  if mode = .off then pure none
  else do
    let replay ← lookForReplay E key (producerEvent E envelope)
    let receipt ← replayOrAppend E key mode envelope replay
    pure (some receipt)

/-- `delete_run`. -/
def deleteRun (key : Key) (runId : String) : Action Cipher (ℕ × ℕ) :=
  transact .delete fun draw v => v.deleteRun E key draw runId

/-- The slots up to the first that has an object: each is unwrapped, and its
first object opened, before any transaction. -/
def seekSlot (key : Key) :
    List (SlotRow Cipher) → Action Cipher (Option (Rewrap Cipher) × List (SlotRow Cipher))
  | [] => pure (none, [])
  | slot :: slots => do
    match ← inspect .object fun v => v.rewrapOf E key slot with
    | some r => pure (some r, slots)
    | none => seekSlot key slots

/-- The rotation, from what was read of the slots and the old objects. -/
def commitRotation (key newKey : Key) (slots : List (SlotRow Cipher))
    (legacy : List (ObjectRow Cipher)) : Action Cipher Unit := do
  let found ← seekSlot E key slots
  .action (.rotate found.1 found.2 legacy) fun w =>
    match w.vault.rotate E key newKey w.draws found.1 found.2 legacy with
    | .ok vault => (.ok (), { vault, latest := newKey, draws := w.draws + 2 })
    | .error e => (.error e, { w with draws := w.draws + 2 })

/-- `rotate_key`. -/
def rotateKey (key newKey : Key) : Action Cipher (ℕ × ℕ) := do
  let slots ← inspect .slots fun v =>
    .ok (v.slots.rows.insertionSort fun a b => a.slotId ≤ b.slotId)
  let legacy ← inspect .legacy fun v => .ok (v.objects.rows.filter (·.slotId = none))
  commitRotation E key newKey slots legacy
  pure (slots.length, legacy.length)

/-! ## Calls -/

/-- The operations on a vault. -/
inductive Operation
  | append (document : List (String × Json)) (partition : String)
  | setCaptureMode (mode : CaptureMode) (actor : String)
  | accessEvent (value : List (String × Json))
  | capture (envelope : Json)
  | deleteRun (runId : String)
  | rotateKey (newKey : Key)

/-- An operation, by a connection that holds a key. -/
structure VaultCall where
  key : Key
  operation : Operation

/-- What a call does. -/
def VaultCall.body (k : VaultCall) : Action Cipher Answer :=
  match k.operation with
  | .append document partition => (.receipt ∘ some) <$> append E k.key document partition
  | .setCaptureMode mode actor => (.receipt ∘ some) <$> setCaptureMode E k.key mode actor
  | .accessEvent value => (.receipt ∘ some) <$> accessEvent E k.key value
  | .capture envelope => .receipt <$> capture E k.key envelope
  | .deleteRun runId => (fun n => .deleted n.1 n.2) <$> deleteRun E k.key runId
  | .rotateKey newKey => (fun n => .rotated n.1 n.2) <$> rotateKey E k.key newKey

end Atmem.Evidence

namespace Atmem.Evidence

open Interleaving Relational
open Json (field)

/-! ## Scopes and roles -/

/-- `_identifier`: what is left of a value that is stripped. -/
def evidenceIdentifier (name value : String) : Except Raised String :=
  let clean := strip value
  if clean = [] ∨ 512 < clean.length ∨ clean.any (·.toNat < 32) then
    .error (.valueError (name ++ " must be a printable identifier of at most 512 characters"))
  else .ok (String.ofList clean)

/-- An optional identifier. -/
def optionalIdentifier (name : String) : Option String → Except Raised (Option String)
  | some value => some <$> evidenceIdentifier name value
  | none => .ok none

/-- A tenant and a subject, perhaps one workspace and one run of theirs. -/
structure EvidenceScope where
  tenantId : String
  subjectId : String
  workspaceId : Option String := none
  runId : Option String := none
deriving DecidableEq

namespace EvidenceScope

/-- The constructor. -/
def make (tenantId subjectId : String) (workspaceId runId : Option String) :
    Except Raised EvidenceScope := do
  pure
    { tenantId := ← evidenceIdentifier "tenant_id" tenantId
      subjectId := ← evidenceIdentifier "subject_id" subjectId
      workspaceId := ← optionalIdentifier "workspace_id" workspaceId
      runId := ← optionalIdentifier "run_id" runId }

/-- `permits`: the tenant and the subject are the same, and what the scope names besides. -/
def permits (scope target : EvidenceScope) : Bool :=
  scope.tenantId = target.tenantId && scope.subjectId = target.subjectId &&
    (scope.workspaceId = none || scope.workspaceId = target.workspaceId) &&
    (scope.runId = none || scope.runId = target.runId)

/-- `to_dict`. -/
def toDict (scope : EvidenceScope) : Json :=
  .obj [("tenant_id", .str scope.tenantId), ("subject_id", .str scope.subjectId),
    ("workspace_id", .ofOption .str scope.workspaceId), ("run_id", .ofOption .str scope.runId)]

end EvidenceScope

/-- The roles of those who ask. -/
inductive EvidenceRole
  | continuityHost | continuityCoordinator | viewer | investigator | evidenceCollector
  | administrator
deriving DecidableEq

/-- The text of each role. -/
def EvidenceRole.value : EvidenceRole → String
  | .continuityHost => "continuity_host"
  | .continuityCoordinator => "continuity_coordinator"
  | .viewer => "viewer"
  | .investigator => "investigator"
  | .evidenceCollector => "evidence_collector"
  | .administrator => "administrator"

/-- What a principal may ask for. -/
inductive EvidenceOperation
  | continuity | view | search | reconstruct | replayManifest | encryptedExport
  | plaintextExport | grant | retention | delete | rotate | lock | unlock
deriving DecidableEq

/-- The text of each operation. -/
def EvidenceOperation.value : EvidenceOperation → String
  | .continuity => "continuity"
  | .view => "view"
  | .search => "search"
  | .reconstruct => "reconstruct"
  | .replayManifest => "replay_manifest"
  | .encryptedExport => "encrypted_export"
  | .plaintextExport => "plaintext_export"
  | .grant => "grant"
  | .retention => "retention"
  | .delete => "delete"
  | .rotate => "rotate"
  | .lock => "lock"
  | .unlock => "unlock"

/-- `_ROLE_OPERATIONS`. -/
def EvidenceRole.allows : EvidenceRole → EvidenceOperation → Bool
  | .continuityHost, operation | .continuityCoordinator, operation => operation = .continuity
  | .viewer, _ => false
  | .investigator, operation =>
    operation ∈ [.view, .search, .reconstruct, .replayManifest, .encryptedExport]
  | .evidenceCollector, _ | .administrator, _ => true

/-- One who asks: a role, and the scope it holds in. -/
structure EvidencePrincipal where
  principalId : String
  role : EvidenceRole
  scope : EvidenceScope
deriving DecidableEq

/-- `authorize`. -/
def EvidencePrincipal.authorize (p : EvidencePrincipal) (operation : EvidenceOperation)
    (target : EvidenceScope) : Except Raised Unit :=
  if p.scope.permits target ∧ p.role.allows operation then .ok ()
  else .error (.permissionError "evidence operation is not authorized for this principal and scope")

/-! ## The files -/

/-- An account of the account file. -/
structure Account where
  principalId : String
  role : EvidenceRole
  scope : EvidenceScope
  salt : String
  tokenDigest : String
  revoked : Bool
deriving DecidableEq

/-- The journal of a rotation: the new key, sealed under the old one. -/
structure Journal where
  sealedUnder : Key
  newKey : Key
deriving DecidableEq

/-- What the service keeps: the vault, the accounts, the key file, the key
that is locked away, the journal of a rotation, and the key the container of
the control plane is encrypted under. -/
structure Root (Cipher : Type) where
  world : World Cipher
  accounts : List Account := []
  keyFile : Option Key
  lockedKey : Option Key := none
  journal : Option Journal := none
  control : Option Key := none

/-- Where a call touches the files. -/
inductive Place (Cipher : Type)
  | vault (point : Point Cipher)
  | accounts | keyFile | lockedKey | journal | control

/-- A method of the service. -/
abbrev Svc (Cipher α : Type) : Type 1 := Eff Raised (Place Cipher) (Root Cipher) α

variable {Cipher : Type} (E : Engine Cipher)

/-- A call of the store. -/
def onVault {α : Type} (x : Action Cipher α) : Svc Cipher α :=
  ExceptT.mk (Prog.zoom Root.world (fun r world => { r with world }) Place.vault x)

/-- A result of a computation that touches nothing. -/
def liftSvc {α : Type} (r : Except Raised α) : Svc Cipher α := Eff.ofExcept id r

/-- `_store`: the key an instance holds, where it is not locked. -/
def requireKey : Option Key → Svc Cipher Key
  | some key => pure key
  | none => throw
      (.permissionError "encrypted evidence is locked because its external key is unavailable")

/-- `_audit`. -/
def audit (p : EvidencePrincipal) (operation : String) (target : EvidenceScope) (allowed : Bool)
    (detail : List (String × Json)) : List (String × Json) :=
  [("principal_id", .str p.principalId), ("role", .str p.role.value),
    ("operation", .str operation), ("target_scope", target.toDict), ("allowed", .bool allowed),
    ("detail", .obj detail)]

/-- `_record_access`. -/
def recordAccess (held : Option Key) (p : EvidencePrincipal) (operation : String)
    (target : EvidenceScope) (allowed : Bool) (detail : List (String × Json)) :
    Svc Cipher Unit := do
  let key ← requireKey held
  discard (onVault (accessEvent E key (audit p operation target allowed detail)))

/-- `except PermissionError`: the denial is recorded, and raised again. -/
def recordDenial {α : Type} (held : Option Key) (p : EvidencePrincipal)
    (operation : EvidenceOperation) (target : EvidenceScope) (x : Svc Cipher α) : Svc Cipher α :=
  tryCatch x fun e =>
    match e with
    | .permissionError _ => do
      recordAccess E held p operation.value target false []
      throw e
    | _ => throw e

/-! ## Documents -/

/-- An optional text of an envelope. -/
def optionalText (value : Json) : Option String := if value.truthy then some (E.text value) else none

/-- `_scope_from_envelope`. -/
def scopeFromEnvelope (envelope : Json) : Except Raised EvidenceScope :=
  EvidenceScope.make (textOr E (field envelope "tenant_id") "local")
    (textOr E (field envelope "subject_id") "local-user")
    (optionalText E (field envelope "workspace_id")) (optionalText E (field envelope "run_id"))

/-- `dict(document.get("envelope") or {})`. -/
def envelopeOf (document : Json) : Except Raised Json :=
  let value := field document "envelope"
  if value.truthy then
    match value with
    | .obj _ => .ok value
    | .null | .bool _ | .int _ | .float _ | .str _ | .arr _ => .error .typeError
  else .ok (.obj [])

/-- `document[owner][name]`. -/
def nestedItem (document : Json) (owner name : String) : Except Raised Json :=
  match document.get? owner with
  | some (.obj kvs) =>
    match kvs.lookup name with
    | some value => .ok value
    | none => .error (.keyError name)
  | some _ => .error .typeError
  | none => .error (.keyError owner)

/-- A keyword of a scope that may be left out. -/
def scopeKeyword (scope : Json) (name : String) : Option String :=
  match field scope name with
  | .null => none
  | value => some (textOr E value "")

/-- `EvidenceScope(**scope)`. -/
def scopeOfKeywords (scope : Json) : Except Raised EvidenceScope :=
  match scope with
  | .obj kvs =>
    if (kvs.map (·.1)).all (· ∈ ["tenant_id", "subject_id", "workspace_id", "run_id"]) ∧
        "tenant_id" ∈ kvs.map (·.1) ∧ "subject_id" ∈ kvs.map (·.1) then
      EvidenceScope.make (textOr E (field scope "tenant_id") "")
        (textOr E (field scope "subject_id") "") (scopeKeyword E scope "workspace_id")
        (scopeKeyword E scope "run_id")
    else .error .typeError
  | _ => .error .typeError

/-- The scope of a workflow, of a run. -/
def scopeOfWorkflow (runId : String) (document : Json) : Except Raised EvidenceScope := do
  let actual ← scopeOfKeywords E (← nestedItem document "workflow" "scope")
  EvidenceScope.make actual.tenantId actual.subjectId actual.workspaceId (some runId)

/-- The scope a principal asks for a run in. -/
def runScope (p : EvidencePrincipal) (runId : String) : Except Raised EvidenceScope :=
  EvidenceScope.make p.scope.tenantId p.scope.subjectId p.scope.workspaceId (some runId)

/-- A read of all documents. -/
def readDocuments (key : Key) : Svc Cipher (List (Except Raised Json)) :=
  onVault (inspect .scan fun v => .ok (v.documents E key))

/-! ## Reading evidence -/

/-- The artifact vault, which puts binary parts away and brings them back,
`str.casefold`, and `json.dumps` with the keys sorted. -/
structure Surroundings where
  externalize : Json → Except Raised Json
  materialize : Json → Except Raised Json
  casefold : String → String
  dumps : Json → String

variable (S : Surroundings)

/-- The evidence documents that a test accepts, each made into what is
answered. -/
def selectEvidence (test : Json → Except Raised Bool) (answer : Json → Except Raised Json)
    (documents : List (Except Raised Json)) : Except Raised (List Json) :=
  documents.foldlM (fun values document => do
    let document ← document
    if field document "record_type" ≠ .str "evidence" then pure values
    else do
      let envelope ← envelopeOf document
      if ← test envelope then pure (values ++ [← answer document]) else pure values) []

/-- The envelope is of the run, and of a scope the principal's permits. -/
def visible (p : EvidencePrincipal) (runId : String) (envelope : Json) : Except Raised Bool := do
  let scope ← scopeFromEnvelope E envelope
  pure (p.scope.permits scope && textOr E (field envelope "run_id") "" = runId)

/-- `events`. -/
def events (held : Option Key) (p : EvidencePrincipal) (runId : String) :
    Svc Cipher (List Json) := do
  let target ← liftSvc (runScope p runId)
  recordDenial E held p .view target (liftSvc (p.authorize .view target))
  let key ← requireKey held
  let documents ← readDocuments E key
  let values ← liftSvc (selectEvidence (visible E p runId) S.materialize documents)
  recordAccess E held p "view" target true [("count", .int values.length)]
  pure values

/-- The document is evidence of the run and the session, of a scope the
principal's permits. -/
def isSession (p : EvidencePrincipal) (runId sessionId : String) (document : Json) :
    Except Raised Bool := do
  if field document "record_type" ≠ .str "evidence" then pure false
  else do
    let sameRun := textOr E (← nested document "envelope" "run_id") "" = runId
    let sameSession := textOr E (← nested document "envelope" "session_id") "" = sessionId
    if sameRun ∧ sameSession then
      pure (p.scope.permits (← scopeFromEnvelope E (field document "envelope")))
    else pure false

/-- Some document is, up to the first that is. -/
def hasSession (p : EvidencePrincipal) (runId sessionId : String) :
    List (Except Raised Json) → Except Raised Bool
  | [] => .ok false
  | document :: documents => do
    if ← isSession E p runId sessionId (← document) then pure true
    else hasSession p runId sessionId documents

/-- `has_run_session`. -/
def hasRunSession (held : Option Key) (p : EvidencePrincipal) (runId sessionId : String) :
    Svc Cipher Bool := do
  let target ← liftSvc (runScope p runId)
  recordDenial E held p .view target (liftSvc (p.authorize .view target))
  let key ← requireKey held
  let documents ← readDocuments E key
  let matched ← liftSvc (hasSession E p runId sessionId documents)
  recordAccess E held p "view" target true [("metadata_only", .bool true)]
  pure matched

/-- `reconstruct`: whether the run can be reconstructed, and its events. -/
def reconstruct (held : Option Key) (p : EvidencePrincipal) (runId : String) :
    Svc Cipher (Bool × List Json) := do
  let target ← liftSvc (runScope p runId)
  recordDenial E held p .reconstruct target (liftSvc (p.authorize .reconstruct target))
  let values ← events E S held p runId
  let reconstructable :=
    !values.isEmpty && values.all fun item => field item "reconstructable" = .bool true
  recordAccess E held p "reconstruct" target true
    [("event_count", .int values.length), ("reconstructable", .bool reconstructable)]
  pure (reconstructable, values)

/-- `search`. -/
def search (held : Option Key) (p : EvidencePrincipal) (query : String) :
    Svc Cipher (List Json) := do
  let clean := String.ofList (strip query)
  if clean = "" then throw (.valueError "evidence search query is required")
  recordDenial E held p .search p.scope (liftSvc (p.authorize .search p.scope))
  let key ← requireKey held
  let documents ← readDocuments E key
  let found ← liftSvc (selectEvidence (fun envelope => do
    let scope ← scopeFromEnvelope E envelope
    pure (p.scope.permits scope && (Occurrence.find (S.casefold clean).toList
      (S.casefold envelope.canonicalJson).toList).isSome)) pure documents)
  recordAccess E held p "search" p.scope true [("count", .int found.length)]
  pure found

/-- `replay_manifest`: how many events there are, and their digest. -/
def replayManifest (held : Option Key) (p : EvidencePrincipal) (runId : String) :
    Svc Cipher (ℕ × String) := do
  let target ← liftSvc (runScope p runId)
  recordDenial E held p .replayManifest target (liftSvc (p.authorize .replayManifest target))
  let values ← events E S held p runId
  recordAccess E held p "replay_manifest" target true []
  pure (values.length, E.sha256Hex (Json.arr values).canonicalJson)

/-- What is streamed of the events of a run. -/
def exportText (values : List Json) : String :=
  "[\n" ++ String.intercalate ",\n" (values.map S.dumps) ++ "\n]\n"

/-- The test of an export: of the run, and then of a scope the principal's
permits. -/
def exported (p : EvidencePrincipal) (runId : String) (envelope : Json) : Except Raised Bool := do
  if textOr E (field envelope "run_id") "" ≠ runId then pure false
  else pure (p.scope.permits (← scopeFromEnvelope E envelope))

/-- The stream of an export, or where it is interrupted. -/
def streamExport (held : Option Key) (p : EvidencePrincipal) (runId : String) :
    Svc Cipher (Except Raised String) :=
  tryCatch (do
    let key ← requireKey held
    let documents ← readDocuments E key
    let values ← liftSvc (selectEvidence (exported E p runId) S.materialize documents)
    pure (.ok (exportText S values))) fun e => pure (.error e)

/-- The record of a stream, complete or interrupted. -/
def recordExport (held : Option Key) (p : EvidencePrincipal) (target : EvidenceScope) :
    Except Raised String → Svc Cipher String
  | .ok text => do
    recordAccess E held p "plaintext_export" target true
      [("sha256", .str (E.sha256Hex text)), ("interrupted", .bool false)]
    pure text
  | .error e => do
    recordAccess E held p "plaintext_export" target false
      [("sha256", .null), ("interrupted", .bool true)]
    throw e

/-- `plaintext_export`. -/
def plaintextExport (held : Option Key) (p : EvidencePrincipal) (runId confirmation : String) :
    Svc Cipher String := do
  let target ← liftSvc (runScope p runId)
  recordDenial E held p .plaintextExport target do
    liftSvc (p.authorize .plaintextExport target)
    if confirmation ≠ "EXPORT " ++ runId then
      throw (.permissionError "plaintext export requires exact confirmation")
  recordExport E held p target (← streamExport E S held p runId)

/-- `recipient_export`, up to the encryption of what is exported. -/
def recipientExport (held : Option Key) (p : EvidencePrincipal) (runId : String) :
    Svc Cipher String := do
  let target ← liftSvc (runScope p runId)
  recordDenial E held p .encryptedExport target do
    liftSvc (p.authorize .encryptedExport target)
    let values ← events E S held p runId
    recordAccess E held p "encrypted_export" target true []
    pure (Json.arr values).canonicalJson

/-! ## Capturing -/

/-- `capture`: the mode and the receipt. -/
def serviceCapture (held : Option Key) (envelope : Json) :
    Svc Cipher (CaptureMode × Option Receipt) := do
  let _ ← liftSvc (scopeFromEnvelope E envelope)
  let key ← requireKey held
  let mode ← onVault (inspect .mode fun v => captureMode E (v.documents E key))
  let stored ← if mode = .full then liftSvc (S.externalize envelope) else pure envelope
  let receipt ← onVault (capture E key stored)
  pure (mode, receipt)

/-- `workflow[name]`, truthy. -/
def workflowFlag (workflow : Json) (name : String) : Except Raised Bool :=
  Json.truthy <$> workflowField workflow name

/-- An operation of a workflow that is uncertain. -/
def operationUncertain (operation : Json) : Except Raised Bool := do
  pure (decide ((← workflowField operation "status") = .str "uncertain"))

/-- A workflow that is enabled, or has uncertain work. -/
def workflowBusy (workflow : Json) : Except Raised Bool := do
  if ← workflowFlag workflow "enabled" then pure true
  else
    match ← workflowField workflow "operations" with
    | .arr operations => operations.anyM operationUncertain
    | .str "" | .obj [] => pure false
    | _ => throw .typeError

/-- The workflows that are left, by their identifiers. -/
def liveWorkflows (documents : List (Except Raised Json)) :
    Except Raised (List (Json × Json)) :=
  documents.foldlM (fun workflows document => do
    let document ← document
    if field document "record_type" = .str "continuity" then do
      let workflowId ← nestedItem document "workflow" "workflow_id"
      pure (workflows.filter (·.1 ≠ workflowId) ++ [(workflowId, field document "workflow")])
    else if field document "record_type" = .str "continuity_tombstone" then do
      let workflowId ← workflowField document "workflow_id"
      pure (workflows.filter (·.1 ≠ workflowId))
    else pure workflows) []

/-- `set_capture_mode`, the transaction. -/
def Vault.setCaptureMode (v : Vault Cipher) (key : Key) (draw : ℕ) (p : EvidencePrincipal)
    (target : EvidenceScope) (mode : CaptureMode) : Except Raised (Unit × Vault Cipher) := do
  if mode ≠ .full then
    let workflows ← liveWorkflows (v.documents E key)
    if ← workflows.anyM (workflowBusy ·.2) then
      throw (.valueError
        "disable continuity workflows and resolve or abandon uncertain work before reducing capture")
  let (_, v) ← v.append E key draw [("record_type", .str "settings"),
    ("capture_mode", .str mode.value), ("actor", .str p.principalId)] "settings"
  let value := audit p "capture_mode" target true [("mode", .str mode.value)]
  let (_, v) ← v.append E key (draw + 1) (Vault.merge [("record_type", .str "access")] value)
    ("audit:" ++ target.runId.getD "access")
  pure ((), v)

/-- `set_capture_mode`. -/
def serviceSetCaptureMode (held : Option Key) (p : EvidencePrincipal) (mode : CaptureMode) :
    Svc Cipher Unit := do
  let target ← liftSvc (EvidenceScope.make p.scope.tenantId p.scope.subjectId none none)
  liftSvc (p.authorize .retention target)
  let key ← requireKey held
  onVault (.action .append fun w =>
    match w.vault.setCaptureMode E key w.draws p target mode with
    | .ok (_, vault) => (.ok (), { w with vault, draws := w.draws + 2 })
    | .error e => (.error e, { w with draws := w.draws + 2 }))

/-! ## Deleting a run -/

/-- The check of one document before a run is deleted. -/
def checkWorkflow (p : EvidencePrincipal) (runId : String) (document : Json) :
    Except Raised Unit := do
  if field document "record_type" = .str "continuity" then
    if (← nestedItem document "workflow" "workflow_id") = .str runId then
      p.authorize .delete (← scopeOfWorkflow E runId document)

/-- The checks of all of them. -/
def checkWorkflows (p : EvidencePrincipal) (runId : String)
    (documents : List (Except Raised Json)) : Except Raised Unit :=
  documents.forM fun document => do checkWorkflow E p runId (← document)

/-- What is within `try`. -/
def deleteAuthorized (held : Option Key) (p : EvidencePrincipal) (runId confirmation : String)
    (target : EvidenceScope) : Svc Cipher (ℕ × ℕ) := do
  liftSvc (p.authorize .delete target)
  if confirmation ≠ "DELETE " ++ runId then
    throw (.permissionError "evidence deletion requires exact confirmation")
  let key ← requireKey held
  let documents ← readDocuments E key
  liftSvc (checkWorkflows E p runId documents)
  let result ← onVault (deleteRun E key runId)
  recordAccess E held p "delete" target true
    [("objects", .int result.1), ("key_slots", .int result.2)]
  pure result

/-- `delete_run`: how many objects and slots went. -/
def serviceDeleteRun (held : Option Key) (p : EvidencePrincipal) (runId confirmation : String) :
    Svc Cipher (ℕ × ℕ) := do
  let target ← liftSvc (runScope p runId)
  recordDenial E held p .delete target (deleteAuthorized E held p runId confirmation target)

/-! ## Accounts -/

/-- The accounts are read from their file. -/
def loadAccounts : Svc Cipher (List Account) := Eff.read .accounts Root.accounts

/-- The file of the accounts is written. -/
def writeAccounts (accounts : List Account) : Svc Cipher Unit :=
  .action .accounts fun r => (.ok (), { r with accounts })

/-- The account is a live one of that name. -/
def Account.liveOf (principalId : String) (row : Account) : Bool :=
  row.principalId = principalId && !row.revoked

/-- `EvidenceAccountStore.grant`, of a salt and a digest that are drawn. -/
def grantAccount (principalId : String) (role : EvidenceRole) (scope : EvidenceScope)
    (salt tokenDigest : String) : Svc Cipher Unit := do
  let accounts ← loadAccounts
  if accounts.any (Account.liveOf principalId) then
    throw (.valueError "an active evidence grant already exists for this principal")
  writeAccounts (accounts ++ [⟨principalId, role, scope, salt, tokenDigest, false⟩])

/-- The accounts, with those of a name revoked. -/
def revokeLive (principalId : String) (accounts : List Account) : List Account :=
  accounts.map fun row => if row.liveOf principalId then { row with revoked := true } else row

/-- `EvidenceAccountStore.revoke`. -/
def revokeAccount (principalId : String) : Svc Cipher Bool := do
  let accounts ← loadAccounts
  let changed := accounts.any (Account.liveOf principalId)
  if changed then writeAccounts (revokeLive principalId accounts)
  pure changed

/-- `grant`. -/
def grant (held : Option Key) (p : EvidencePrincipal) (principalId : String) (role : EvidenceRole)
    (scope : EvidenceScope) (salt tokenDigest : String) : Svc Cipher Unit := do
  liftSvc (p.authorize .grant scope)
  if role = .continuityHost ∧ scope.runId = none then
    throw (.valueError "continuity host grants require an explicit workflow run_id")
  if role = .continuityCoordinator ∧ (scope.workspaceId = none ∨ scope.runId ≠ none) then
    throw (.valueError
      "continuity coordinator requires an explicit workspace and no workflow binding")
  if !p.scope.permits scope then
    throw (.permissionError "cannot grant evidence access outside the collector scope")
  grantAccount principalId role scope salt tokenDigest
  recordAccess E held p "grant" scope true
    [("grantee", .str principalId), ("role", .str role.value)]

/-- `revoke`. -/
def revoke (held : Option Key) (p : EvidencePrincipal) (principalId : String) :
    Svc Cipher Bool := do
  liftSvc (p.authorize .grant p.scope)
  let changed ← revokeAccount principalId
  recordAccess E held p "revoke" p.scope true
    [("grantee", .str principalId), ("changed", .bool changed)]
  pure changed

end Atmem.Evidence
