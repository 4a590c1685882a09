import Atmem.Common.Interleaving
import Atmem.Common.Table
import Atmem.Contracts.CanonicalJson
import Atmem.Contracts.Codec
import Mathlib
/-!
# The evidence vault

Documents are sealed under data keys, one for each partition, and the data
keys are wrapped under the key of the vault. Any number of connections, each
with the key it was opened with, append to the vault, delete the documents of
a run and rotate its key. A transaction is one action; what is read outside
of any is an action of its own.
-/

namespace Atmem.Evidence

open Interleaving Relational
open Json (field)

/-! ## Keys -/

/-- A key of 256 bits. -/
structure Key where
  bytes : ByteArray
  size_eq : bytes.size = 32
deriving DecidableEq

/-- What is encrypted: a JSON object, or a data key. -/
inductive Plain
  | object (kvs : List (String × Json))
  | key (k : Key)
deriving DecidableEq

/-- The exceptions of the store, of the primitives and of the database. -/
inductive Raised
  | valueError (message : String)
  | typeError
  | attributeError
  | keyError (name : String)
  | invalidTag
  | integrityError
  | permissionError (message : String)
  | fileExistsError
  | fileNotFoundError
deriving DecidableEq

/-- AES-GCM, HMAC and SHA-256, what is drawn, the clock, and `str` of a value
that is no text. A draw has a number, and what it is for a place in it. -/
structure Engine (Cipher : Type) where
  encrypt : Key → ByteArray → Plain → Json → Cipher
  decrypt : Key → ByteArray → Cipher → Json → Option Plain
  hmac : Key → String → ByteArray
  sha256Hex : String → String
  uuid : ℕ → ℕ → String
  nonce : ℕ → ℕ → ByteArray
  freshKey : ℕ → Key
  utcNow : ℕ → String
  str : Json → String

variable {Cipher : Type} (E : Engine Cipher)

/-- Authenticated encryption: what is decrypted was encrypted under that
key, and nothing else is. -/
structure Engine.Authenticated : Prop where
  decrypt_encrypt : ∀ key nonce plain aad,
    E.decrypt key nonce (E.encrypt key nonce plain aad) aad = some plain
  decrypt_ne : ∀ key key' nonce nonce' plain aad aad', key ≠ key' →
    E.decrypt key' nonce' (E.encrypt key nonce plain aad) aad' = none

/-- `str`. -/
def Engine.text (value : Json) : String :=
  match value with
  | .str s => s
  | .null | .bool _ | .int _ | .float _ | .arr _ | .obj _ => E.str value

/-- What an object's ciphertext is bound to. -/
def containerAad (objectId : String) : Json :=
  .obj [("format", .str "atmem-encrypted-evidence-object-v1"), ("object_id", .str objectId)]

/-- What a wrapped data key is bound to. -/
def wrapAad (slotId : String) : Json :=
  .obj [("format", .str "atmem-evidence-data-key-wrap-v1"), ("slot_id", .str slotId)]

/-- `seal_json`, under a nonce. -/
def sealJson (key : Key) (objectId : String) (nonce : ByteArray) (value : List (String × Json)) :
    Cipher :=
  E.encrypt key nonce (.object value) (containerAad objectId)

/-- `open_json`. -/
def openJson (key : Key) (objectId : String) (nonce : ByteArray) (ciphertext : Cipher) :
    Except Raised Json :=
  match E.decrypt key nonce ciphertext (containerAad objectId) with
  | some (.object kvs) => .ok (.obj kvs)
  | some (.key _) => .error (.valueError "encrypted evidence object must contain a JSON object")
  | none => .error .invalidTag

/-- `wrap_data_key`, under a nonce. -/
def wrapDataKey (kek : Key) (slotId : String) (nonce : ByteArray) (dataKey : Key) : Cipher :=
  E.encrypt kek nonce (.key dataKey) (wrapAad slotId)

/-- `unwrap_data_key`. -/
def unwrapDataKey (kek : Key) (slotId : String) (nonce : ByteArray) (wrapped : Cipher) :
    Except Raised Key :=
  match E.decrypt kek nonce wrapped (wrapAad slotId) with
  | some (.key dataKey) => .ok dataKey
  | some (.object _) => .error (.valueError "wrapped evidence data key has invalid length")
  | none => .error .invalidTag

/-! ## Tables -/

/-- A row of `sealed_objects`; one of an old vault has no slot. -/
structure ObjectRow (Cipher : Type) where
  objectId : String
  sequence : ℕ
  nonce : ByteArray
  ciphertext : Cipher
  slotId : Option String
deriving DecidableEq

/-- The columns of the keys: the primary key, the sequence, and the nonce of
a slot. -/
def ObjectRow.key (r : ObjectRow Cipher) : String × ℕ × Option (String × ByteArray) :=
  (r.objectId, r.sequence, r.slotId.map fun slotId => (slotId, r.nonce))

/-- Two objects cannot both be stored. -/
def objectClash (a b : String × ℕ × Option (String × ByteArray)) : Bool :=
  a.1 = b.1 || a.2.1 = b.2.1 || (a.2.2.isSome && a.2.2 = b.2.2)

/-- A row of `key_slots`. -/
structure SlotRow (Cipher : Type) where
  slotId : String
  lookupTag : ByteArray
  wrapNonce : ByteArray
  wrappedKey : Cipher
deriving DecidableEq

/-- The columns that the unique constraints of the slots are about. -/
def SlotRow.key (r : SlotRow Cipher) : String × ByteArray × ByteArray :=
  (r.slotId, r.lookupTag, r.wrapNonce)

/-- A primary key, and two unique columns. -/
def slotClash (a b : String × ByteArray × ByteArray) : Bool :=
  a.1 = b.1 || a.2.1 = b.2.1 || a.2.2 = b.2.2

/-- The two tables of a vault. -/
structure Vault (Cipher : Type) where
  objects : Table (ObjectRow Cipher) ObjectRow.key objectClash := .empty
  slots : Table (SlotRow Cipher) SlotRow.key slotClash := .empty

/-- What the connections share; `latest` is the key of the last rotation. -/
structure World (Cipher : Type) where
  vault : Vault Cipher := {}
  latest : Key
  draws : ℕ := 0

/-- What an append answers with. -/
structure Receipt where
  objectId : String
  sequence : ℤ
  replayed : Bool := false
deriving DecidableEq

namespace Vault

variable (v : Vault Cipher)

/-- `COALESCE(MAX(sequence), 0)`. -/
def head : ℕ := v.objects.rows.foldl (fun n r => max n r.sequence) 0

/-- `ORDER BY sequence`. -/
def inSequence : List (ObjectRow Cipher) :=
  v.objects.rows.insertionSort fun a b => a.sequence ≤ b.sequence

/-- The slot with an identifier. -/
def slot? (slotId : String) : Option (SlotRow Cipher) := v.slots.rows.find? (·.slotId = slotId)

/-- The key an object is sealed under. -/
def objectKey (key : Key) (o : ObjectRow Cipher) : Except Raised Key :=
  match o.slotId with
  | none => .ok key
  | some slotId =>
    match v.slot? slotId with
    | some s => unwrapDataKey E key slotId s.wrapNonce s.wrappedKey
    | none => .error .typeError

/-- An object is opened by the data key of its slot, or by the key itself. -/
def openObject (key : Key) (o : ObjectRow Cipher) : Except Raised Json := do
  let dataKey ← v.objectKey E key o
  openJson E dataKey o.objectId o.nonce o.ciphertext

/-- `documents`, as far as each can be opened. -/
def documents (key : Key) : List (Except Raised Json) := v.inSequence.map (v.openObject E key)

/-! ## Appending -/

/-- `_lookup_tag`. -/
def lookupTag (key : Key) (partition : String) : ByteArray :=
  E.hmac key ("atmem-partition-v1\x00" ++ partition)

/-- A new slot. -/
def newSlot (key : Key) (draw : ℕ) (partition : String) : SlotRow Cipher :=
  let slotId := "slot_" ++ E.uuid draw 1
  ⟨slotId, lookupTag E key partition, E.nonce draw 0,
    wrapDataKey E key slotId (E.nonce draw 0) (E.freshKey draw)⟩

/-- `_data_key`: the slot of a partition, and its data key. -/
def dataKey (key : Key) (draw : ℕ) (partition : String) :
    Except Raised (String × Key × Vault Cipher) :=
  match v.slots.rows.find? (·.lookupTag = lookupTag E key partition) with
  | some s => do
    let dataKey ← unwrapDataKey E key s.slotId s.wrapNonce s.wrappedKey
    pure (s.slotId, dataKey, v)
  | none =>
    let s := newSlot E key draw partition
    match v.slots.insert s with
    | some slots => .ok (s.slotId, E.freshKey draw, { v with slots })
    | none => .error .integrityError

/-- `{**base, **document}`. -/
def merge (base document : List (String × Json)) : List (String × Json) :=
  base.filter (fun kv => kv.1 ∉ document.map (·.1)) ++ document

/-- What is sealed of a document. -/
def sealedDocument (objectId : String) (sequence : ℕ) (recordedAt : String)
    (document : List (String × Json)) : List (String × Json) :=
  merge [("format", .str "atmem-evidence-document-v1"), ("object_id", .str objectId),
    ("sequence", .int sequence), ("recorded_at", .str recordedAt)] document

/-- `append`, the transaction. -/
def append (key : Key) (draw : ℕ) (document : List (String × Json)) (partition : String) :
    Except Raised (Receipt × Vault Cipher) := do
  let objectId := "obj_" ++ E.uuid draw 0
  let sequence := v.head + 1
  let (slotId, dataKey, v) ← v.dataKey E key draw partition
  let row : ObjectRow Cipher :=
    { objectId, sequence, nonce := E.nonce draw 1, slotId := some slotId
      ciphertext := sealJson E dataKey objectId (E.nonce draw 1)
        (sealedDocument objectId sequence (E.utcNow draw) document) }
  match v.objects.insert row with
  | some objects => pure (⟨objectId, sequence, false⟩, { v with objects })
  | none => throw .integrityError

/-! ## Capture -/

end Vault

/-- `CaptureMode`. -/
inductive CaptureMode
  | full | metadata | off
deriving DecidableEq

/-- The text of each mode. -/
def CaptureMode.value : CaptureMode → String
  | .full => "full"
  | .metadata => "metadata"
  | .off => "off"

/-- `CaptureMode(...)`. -/
def CaptureMode.ofValue (s : String) : Except Raised CaptureMode :=
  if s = "full" then .ok .full
  else if s = "metadata" then .ok .metadata
  else if s = "off" then .ok .off
  else .error (.valueError (s ++ " is not a valid CaptureMode"))

/-- `str(document.get(name) or default)`. -/
def textOr (value : Json) (default : String) : String :=
  if value.truthy then E.text value else default

/-- `value.get(name)` of `document.get(owner) or {}`. -/
def nested (document : Json) (owner name : String) : Except Raised Json :=
  let value := field document owner
  if value.truthy then
    match value with
    | .obj _ => .ok (field value name)
    | .null | .bool _ | .int _ | .float _ | .str _ | .arr _ => .error .attributeError
  else .ok .null

/-- `capture_mode`, over the documents. -/
def captureMode (documents : List (Except Raised Json)) : Except Raised CaptureMode :=
  documents.foldlM (fun mode document => do
    let document ← document
    if field document "record_type" = .str "settings" then
      CaptureMode.ofValue (textOr E (field document "capture_mode") "full")
    else pure mode) .full

/-- The names of `_CONTENT_FIELDS`. -/
def contentFields : List String :=
  ["text", "content", "content_base64", "data", "data_base64", "bytes_base64", "prompt",
    "prompt_text", "system_prompt", "history_messages", "messages", "assistant_texts", "context",
    "params", "result", "error", "url", "path", "command"]

/-- `type(value).__name__`. -/
def typeName : Json → String
  | .null => "NoneType"
  | .bool _ => "bool"
  | .int _ => "int"
  | .float _ => "float"
  | .str _ => "str"
  | .arr _ => "list"
  | .obj _ => "dict"

/-- `_content_descriptor`. -/
def contentDescriptor (value : Json) : Json :=
  let encoded := value.canonicalJson
  .obj [("captured", .bool false), ("bytes", .int encoded.utf8ByteSize),
    ("sha256", .str (E.sha256Hex encoded)), ("value_type", .str (typeName value))]

/-- `metadata_projection`. -/
def metadataProjection : Json → Json
  | .obj kvs => .obj (fields kvs)
  | .arr xs => .arr (items xs)
  | .null => .null
  | .bool b => .bool b
  | .int n => .int n
  | .float repr => .float repr
  | .str s => .str s
where
  items : List Json → List Json
    | [] => []
    | x :: xs => metadataProjection x :: items xs
  fields : List (String × Json) → List (String × Json)
    | [] => []
    | (name, x) :: kvs =>
      (name, if name ∈ contentFields then contentDescriptor E x else metadataProjection x) ::
        fields kvs

/-- A producer's event. -/
structure ProducerEvent where
  eventId : String
  producerInstanceId : String
  producerEpoch : String
deriving DecidableEq

/-- Where in its producer's stream an envelope says it is. -/
def producerEvent (envelope : Json) : ProducerEvent :=
  ⟨textOr E (field envelope "event_id") "", textOr E (field envelope "producer_instance_id") "",
    textOr E (field envelope "producer_epoch") ""⟩

/-- The event is named in full. -/
def ProducerEvent.named (e : ProducerEvent) : Prop :=
  e.eventId ≠ "" ∧ e.producerInstanceId ≠ "" ∧ e.producerEpoch ≠ ""

instance instDecidableNamed (e : ProducerEvent) : Decidable e.named :=
  inferInstanceAs (Decidable (_ ∧ _ ∧ _))

/-- A document is the evidence of an event. -/
def isEvidenceOf (e : ProducerEvent) (document : Json) : Except Raised Bool := do
  if field document "record_type" ≠ .str "evidence" then pure false
  else
    pure ((← nested document "envelope" "event_id") = .str e.eventId &&
      (← nested document "envelope" "producer_instance_id") = .str e.producerInstanceId &&
      (← nested document "envelope" "producer_epoch") = .str e.producerEpoch)

/-- `document["object_id"]`, as a text. -/
def objectIdOf (document : Json) : Except Raised String :=
  match document.get? "object_id" with
  | some value => .ok (E.text value)
  | none => .error (.keyError "object_id")

/-- `int(document["sequence"])`. -/
def sequenceOf (document : Json) : Except Raised ℤ :=
  match document.get? "sequence" with
  | some (.int n) => .ok n
  | some _ => .error .typeError
  | none => .error (.keyError "sequence")

/-- The first document that is the evidence of an event. -/
def findReplay (e : ProducerEvent) : List (Except Raised Json) → Except Raised (Option Receipt)
  | [] => .ok none
  | document :: documents => do
    let document ← document
    if ← isEvidenceOf e document then
      pure (some ⟨← objectIdOf E document, ← sequenceOf document, true⟩)
    else findReplay e documents

/-- The evidence document of an envelope. -/
def evidenceDocument (mode : CaptureMode) (envelope : Json) : List (String × Json) :=
  [("record_type", .str "evidence"), ("capture_mode", .str mode.value),
    ("reconstructable", .bool (mode = .full)),
    ("envelope", if mode = .full then envelope else metadataProjection E envelope)]

/-- The partition of an envelope. -/
def runPartition (envelope : Json) : String :=
  let runId := field envelope "run_id"
  "run:" ++ if runId.truthy then E.text runId else textOr E (field envelope "event_id") "unscoped"

/-! ## Deletion -/

/-- What is deleted with a run, of one document, and the tombstone it
leaves. -/
structure Doomed where
  objectIds : List String := []
  tombstone : Option (List (String × Json)) := none

/-- `workflow[name]`. -/
def workflowField (workflow : Json) (name : String) : Except Raised Json :=
  match workflow.get? name with
  | some value => .ok value
  | none => .error (.keyError name)

/-- The tombstone of a workflow. -/
def tombstoneOf (runId : String) (workflow : Json) : Except Raised (List (String × Json)) := do
  pure [("record_type", .str "continuity_tombstone"), ("workflow_id", .str runId),
    ("workflow_key", ← workflowField workflow "workflow_key"),
    ("scope", ← workflowField workflow "scope"), ("creator_id", field workflow "creator_id"),
    ("creator_role", field workflow "creator_role")]

/-- `document.get("workflow") or {}`, of a workflow that is an object. -/
def workflowOf (document : Json) : Except Raised Json :=
  let value := field document "workflow"
  if value.truthy then
    match value with
    | .obj _ => .ok value
    | .null | .bool _ | .int _ | .float _ | .str _ | .arr _ => .error .attributeError
  else .ok (.obj [])

/-- The pass of `_delete_run` over one document. -/
def doom (runId : String) (doomed : Doomed) (document : Json) : Except Raised Doomed := do
  let recordType := field document "record_type"
  if recordType = .str "continuity_event" ∧ field document "workflow_id" = .str runId then
    pure { doomed with objectIds := doomed.objectIds ++ [← objectIdOf E document] }
  else if recordType = .str "continuity" then do
    let workflow ← workflowOf document
    if field workflow "workflow_id" = .str runId then
      pure { objectIds := doomed.objectIds ++ [← objectIdOf E document]
             tombstone := some (← tombstoneOf runId workflow) }
    else pure doomed
  else if recordType = .str "evidence" then do
    if textOr E (← nested document "envelope" "run_id") "" = runId then
      pure { doomed with objectIds := doomed.objectIds ++ [← objectIdOf E document] }
    else pure doomed
  else pure doomed

namespace Vault

variable (v : Vault Cipher)

/-- The pass over all of them. -/
def doomed (key : Key) (runId : String) : Except Raised Doomed :=
  (v.documents E key).foldlM (fun d document => do doom E runId d (← document)) {}

/-- The tombstone, where there is one. -/
def appendTombstone (key : Key) (draw : ℕ) (tombstone : Option (List (String × Json))) :
    Except Raised (Vault Cipher) :=
  match tombstone with
  | some document => do
    let (_, v) ← v.append E key draw document "continuity-tombstones"
    pure v
  | none => .ok v

/-- The objects go, and the slots nothing is sealed under. -/
def discard (objectIds : List String) : Vault Cipher :=
  let objects := v.objects.delete fun o => o.objectId ∈ objectIds
  { objects, slots := v.slots.delete fun s => objects.rows.all (·.slotId ≠ some s.slotId) }

/-- `_delete_run`: how many objects and slots went. -/
def deleteRun (key : Key) (draw : ℕ) (runId : String) :
    Except Raised ((ℕ × ℕ) × Vault Cipher) := do
  let doomed ← v.doomed E key runId
  let v ← v.appendTombstone E key draw doomed.tombstone
  let left := v.discard doomed.objectIds
  pure ((doomed.objectIds.length, v.slots.rows.length - left.slots.rows.length), left)

/-! ## Rotation -/

end Vault

/-- `_partition_for_document`. -/
def partitionForDocument (document : Json) : Except Raised String := do
  let recordType := textOr E (field document "record_type") ""
  if recordType = "evidence" then
    let runId ← nested document "envelope" "run_id"
    let eventId ← nested document "envelope" "event_id"
    pure ("run:" ++
      if runId.truthy then E.text runId else textOr E eventId "unscoped")
  else if recordType = "access" then
    pure ("audit:" ++ textOr E (← nested document "target_scope" "run_id") "access")
  else if recordType = "settings" then pure "settings"
  else pure "vault"

/-- A slot, the data key it wraps, and the partition it is for. -/
structure Rewrap (Cipher : Type) where
  slot : SlotRow Cipher
  dataKey : Key
  partition : String
deriving DecidableEq

namespace Vault

variable (v : Vault Cipher)

/-- The first object of a slot. -/
def firstObject (slotId : String) : Option (ObjectRow Cipher) :=
  v.inSequence.find? (·.slotId = some slotId)

/-- How a slot is to be wrapped anew, read off the first object of it. -/
def rewrapOf (key : Key) (slot : SlotRow Cipher) : Except Raised (Option (Rewrap Cipher)) := do
  let dataKey ← unwrapDataKey E key slot.slotId slot.wrapNonce slot.wrappedKey
  match v.firstObject slot.slotId with
  | none => pure none
  | some o =>
    let document ← openJson E dataKey o.objectId o.nonce o.ciphertext
    pure (some ⟨slot, dataKey, ← partitionForDocument E document⟩)

/-- `UPDATE key_slots`. -/
def rewrap (newKey : Key) (nonce : ByteArray) (r : Rewrap Cipher) :
    Except Raised (Vault Cipher) :=
  match v.slots.rewrite (·.slotId = r.slot.slotId) fun s =>
      { s with
        lookupTag := lookupTag E newKey r.partition, wrapNonce := nonce
        wrappedKey := wrapDataKey E newKey r.slot.slotId nonce r.dataKey } with
  | some slots => .ok { v with slots }
  | none => .error .integrityError

/-- The loop over the slots; a slot of no object is passed over. -/
def rewrapAll (key newKey : Key) (draw : ℕ) :
    List (SlotRow Cipher) → Vault Cipher → Except Raised (Vault Cipher)
  | [], v => .ok v
  | slot :: slots, v => do
    match ← v.rewrapOf E key slot with
    | none => rewrapAll key newKey draw slots v
    | some r => do
      rewrapAll key newKey draw slots (← v.rewrap E newKey (E.nonce draw slots.length) r)

/-- The loop over the objects of an old vault. -/
def reencryptAll (key newKey : Key) (draw : ℕ) :
    List (ObjectRow Cipher) → Vault Cipher → Except Raised (Vault Cipher)
  | [], v => .ok v
  | o :: legacy, v => do
    let document ← openJson E key o.objectId o.nonce o.ciphertext
    let nonce := E.nonce (draw + 1) legacy.length
    let kvs := match document with
      | .obj kvs => kvs
      | _ => []
    match v.objects.rewrite (·.objectId = o.objectId) fun row =>
        { row with nonce, ciphertext := sealJson E newKey o.objectId nonce kvs } with
    | some objects => reencryptAll key newKey draw legacy { v with objects }
    | none => .error .integrityError

/-- The slot the transaction begins with. -/
def rewrapFirst (newKey : Key) (nonce : ByteArray) :
    Option (Rewrap Cipher) → Except Raised (Vault Cipher)
  | some r => v.rewrap E newKey nonce r
  | none => .ok v

/-- `rotate_key`, the transaction: from the first slot that has an object,
found before, on. -/
def rotate (key newKey : Key) (draw : ℕ) (first : Option (Rewrap Cipher))
    (slots : List (SlotRow Cipher)) (legacy : List (ObjectRow Cipher)) :
    Except Raised (Vault Cipher) := do
  let v ← v.rewrapFirst E newKey (E.nonce draw slots.length) first
  let v ← rewrapAll E key newKey draw slots v
  reencryptAll E key newKey draw legacy v

end Vault

end Atmem.Evidence
