import Atmem.Contracts.CanonicalUnicode
import Atmem.Control.Model.Store
/-!
# Delegated results

A turn may be delegated: a provider the user has registered answers with an
envelope that either carries the context of the turn or withholds it. The
envelope is parsed with closed objects, checked against the contract, the
binding of the turn, the registration and the clock, and verified under the
registered key.
-/

namespace Atmem.Delegated

open Json

/-- An exception: the name of its type, and its text. -/
structure Raised where
  name : String
  text : String
deriving DecidableEq

/-- `ValueError(text)`. -/
def valueError (text : String) : Raised := ⟨"ValueError", text⟩

/-- What `json.loads` raises, with the hook `closed_pairs`: the text is no
JSON, a key of it comes twice, or the interpreter gives up. -/
inductive LoadsError
  | decode
  | duplicateKey (key : String)
  | other (exc : Raised)

/-- `json.loads` with that hook. -/
structure ClosedReader where
  loads : String → Except LoadsError Json
  proper : ∀ {text : String} {j : Json}, loads text = .ok j → j.Proper

/-- The hash of bytes, base64, `json.loads` with a hook that refuses a key
that comes twice, `fromisoformat`, Ed25519 and the texts of the exceptions
the interpreter raises. -/
structure Engine extends Control.Engine where
  sha256 : ByteArray → String
  b64decode : String → Option ByteArray
  b64encode : ByteArray → String
  loadsClosed : ClosedReader
  fromIso : String → Option Instant
  ed25519 : ByteArray → ByteArray → ByteArray → Bool
  message : String → Json → String

variable (E : Engine)

/-- An exception of the interpreter, at a value. -/
def Engine.raised (name : String) (value : Json) : Raised := ⟨name, E.message name value⟩

/-! ## Canonicalization -/

/-- `_validate_restricted`. -/
def validateRestricted : Json → Except Raised Unit
  | .null | .bool _ | .str _ => .ok ()
  | .int n =>
    if 9007199254740991 < n.natAbs then
      .error (valueError "integer exceeds the delegated canonical profile")
    else .ok ()
  | .float _ => .error (valueError "unsupported value in delegated canonical profile")
  | .arr xs => items xs
  | .obj kvs => fields kvs
where
  items : List Json → Except Raised Unit
    | [] => .ok ()
    | x :: xs => do
      validateRestricted x
      items xs
  fields : List (String × Json) → Except Raised Unit
    | [] => .ok ()
    | (_, x) :: kvs => do
      validateRestricted x
      fields kvs

/-- The texts a value is of, its keys among them. -/
def texts : Json → List String
  | .null | .bool _ | .int _ | .float _ => []
  | .str s => [s]
  | .arr xs => items xs
  | .obj kvs => fields kvs
where
  items : List Json → List String
    | [] => []
    | x :: xs => texts x ++ items xs
  fields : List (String × Json) → List String
    | [] => []
    | (key, x) :: kvs => key :: (texts x ++ fields kvs)

/-- `canonical_json_bytes`: half a surrogate pair has no UTF-8. -/
def canonicalJsonBytes (value : Json) : Except Raised ByteArray := do
  validateRestricted value
  if !(texts value).all E.encodes then throw (E.raised "UnicodeEncodeError" value)
  pure value.canonicalUnicode.toUTF8

/-- `SIGNATURE_DOMAIN`. -/
def signatureDomain : String := "ATMEM-DELEGATED-CONTEXT-V1\x00"

/-- `signing_bytes`. -/
def signingBytes (envelope : Json) : Except Raised ByteArray := do
  pure (signatureDomain.toUTF8 ++ (← canonicalJsonBytes E (envelope.without ["signature"])))

/-- `envelope_sha256`. -/
def envelopeSha256 (envelope : Json) : Except Raised String := do
  pure (E.sha256 (← canonicalJsonBytes E envelope))

/-- `signed_payload_sha256`. -/
def signedPayloadSha256 (envelope : Json) : Except Raised String := do
  pure (E.sha256 (← signingBytes E envelope))

/-- `expected_idempotency_key`. -/
def expectedIdempotencyKey (envelope : Json) : Except Raised String := do
  let identity : Json := .obj
    [("contract_id", field envelope "contract_id"), ("provider", field envelope "provider"),
      ("binding", field envelope "binding"), ("decision", field envelope "decision"),
      ("context_sha256", field (field envelope "context") "sha256"),
      ("receipt_id", field (field envelope "receipt") "id"),
      ("receipt_sha256", field (field envelope "receipt") "sha256"),
      ("source_refs", field envelope "source_refs"),
      ("withhold_reason", field envelope "withhold_reason")]
  pure ("dcp-" ++ E.sha256 (← canonicalJsonBytes E identity))

/-- `strict_base64`. -/
def strictBase64 (value : Json) (expectedLength : Option ℕ) : Except Raised ByteArray :=
  match value with
  | .str text =>
    match E.b64decode text with
    | some decoded =>
      if text = "" ∨ E.b64encode decoded ≠ text then
        .error (valueError "invalid canonical base64")
      else if expectedLength.any (· ≠ decoded.size) then
        .error (valueError "invalid decoded byte length")
      else .ok decoded
    | none => .error (valueError "invalid canonical base64")
  | _ => .error (valueError "invalid canonical base64")

/-- `public_key_fingerprint`. -/
def publicKeyFingerprint (publicKeyBase64 : String) : Except Raised String := do
  pure ("sha256:" ++ E.sha256 (← strictBase64 E (.str publicKeyBase64) (some 32)))

/-! ## The turn -/

/-- The turn a result is for, as the host has authenticated it. -/
structure DelegatedBinding where
  runId : String
  turnId : String
  sessionId : String
  agentId : String
  userId : String
  workspaceId : String
deriving DecidableEq

/-- The six texts of a binding, in their order. -/
def DelegatedBinding.toDict (b : DelegatedBinding) : Json :=
  .obj [("run_id", .str b.runId), ("turn_id", .str b.turnId), ("session_id", .str b.sessionId),
    ("agent_id", .str b.agentId), ("user_id", .str b.userId),
    ("workspace_id", .str b.workspaceId)]

/-- `set(value) == set(fields)`, of the keys of an object. -/
def sameFields (keys fields : List String) : Bool :=
  keys.all (· ∈ fields) && fields.all (· ∈ keys)

/-- The names a binding must have, and no other. -/
def bindingFields : List String :=
  ["run_id", "turn_id", "session_id", "agent_id", "user_id", "workspace_id"]

/-- A field of a binding: a text of no space around it. -/
def bindingField (value : Json) (name : String) : Except Raised String :=
  let given := field value name
  let item := if given.truthy then E.text given else ""
  if item = "" ∨ String.ofList (strip item) ≠ item ∨ 256 < item.length then
    .error (valueError ("delegated binding requires a valid " ++ name))
  else .ok item

/-- A value `set` takes as an element. -/
def isHashable : Json → Bool
  | .arr _ | .obj _ => false
  | .null | .bool _ | .int _ | .float _ | .str _ => true

/-- `DelegatedBinding.from_dict`. -/
def DelegatedBinding.fromDict (value : Json) : Except Raised DelegatedBinding := do
  let mismatch := valueError "delegated binding fields do not match the contract"
  match value with
  | .obj kvs => if !sameFields (kvs.map (·.1)) bindingFields then throw mismatch
  | .str _ => throw mismatch
  | .arr xs =>
    if !xs.all isHashable then throw (E.raised "TypeError" value)
    -- an array of the field names passes for an object until it is read
    if xs.all (· ∈ bindingFields.map Json.str) && bindingFields.all (.str · ∈ xs) then
      throw (E.raised "AttributeError" value)
    throw mismatch
  | .null | .bool _ | .int _ | .float _ => throw (E.raised "TypeError" value)
  pure
    { runId := ← bindingField E value "run_id", turnId := ← bindingField E value "turn_id"
      sessionId := ← bindingField E value "session_id"
      agentId := ← bindingField E value "agent_id", userId := ← bindingField E value "user_id"
      workspaceId := ← bindingField E value "workspace_id" }

/-- What a registration says of a provider. -/
structure DelegatedRegistration where
  providerId : String
  providerVersion : String
  providerInstanceId : String
  keyId : String
  publicKeyBase64 : String
  workspaceIds : List String
  agentIds : List String
  userIds : List String
  maxContextBytes : ℕ
  nativeFallbackOnFailure : Bool
deriving DecidableEq

/-! ## The shape of an envelope -/

/-- `_exact`. -/
def exact (value : Json) (fields : List String) (label : String) : Except Raised Unit :=
  match value with
  | .obj kvs =>
    if sameFields (kvs.map (·.1)) fields then .ok ()
    else .error (valueError ("delegated " ++ label ++ " fields do not match the contract"))
  | _ => .error (valueError ("delegated " ++ label ++ " fields do not match the contract"))

/-- `_identifier`. -/
def identifier (value : Json) (maximum : ℕ) : Except Raised Unit :=
  match value with
  | .str s =>
    if s = "" ∨ String.ofList (strip s) ≠ s ∨ maximum < s.length then
      .error (valueError "invalid delegated identifier")
    else .ok ()
  | _ => .error (valueError "invalid delegated identifier")

/-- A hexadecimal digit, not in upper case. -/
def isLowerHex (c : Char) : Bool := c.isDigit || ('a' ≤ c && c ≤ 'f')

/-- `_digest`. -/
def digest (value : Json) : Except Raised Unit :=
  match value with
  | .str s =>
    if s.length = 64 ∧ s.toList.all isLowerHex then .ok ()
    else .error (valueError "invalid delegated SHA-256 digest")
  | _ => .error (valueError "invalid delegated SHA-256 digest")

/-- `_timestamp`. -/
def timestamp (value : Json) : Except Raised Instant :=
  match value with
  | .str s =>
    if s.toList.getLast? ≠ some 'Z' then
      .error (valueError "delegated timestamps must be UTC Z values")
    else
      match E.fromIso (String.ofList s.toList.dropLast ++ "+00:00") with
      | some t => .ok t
      | none => .error (valueError "invalid delegated timestamp")
  | _ => .error (valueError "delegated timestamps must be UTC Z values")

/-- `_NONCE`. -/
def isNonce (value : Json) : Bool :=
  match value with
  | .str s => 22 ≤ s.length && s.length ≤ 128 &&
      s.toList.all fun c => c.isAlphanum || c = '_' || c = '-'
  | _ => false

/-- `dcp-[0-9a-f]{64}`. -/
def isIdempotencyKey (value : Json) : Bool :=
  match value with
  | .str s => s.toList.take 4 = "dcp-".toList && (s.toList.drop 4).length = 64 &&
      (s.toList.drop 4).all isLowerHex
  | _ => false

/-- `_WITHHOLD_CODE`. -/
def isWithholdCode (value : Json) : Bool :=
  match value with
  | .str s =>
    match s.toList with
    | c :: cs => c.isUpper && 2 ≤ cs.length && cs.length ≤ 63 &&
        cs.all fun d => d.isUpper || d.isDigit || d = '_'
    | [] => false
  | _ => false

/-- The source references: at most 32 distinct identifiers. -/
def checkSourceRefs (refs : Json) : Except Raised Unit := do
  let invalid := valueError "invalid delegated source references"
  match refs with
  | .arr xs =>
    if 32 < xs.length then throw invalid
    if !xs.all isHashable then throw (E.raised "TypeError" refs)
    if ¬ xs.Nodup then throw invalid
    xs.forM fun x => identifier x 512
  | _ => throw invalid

/-- The signature: Ed25519 under the one profile. -/
def checkSignature (signature : Json) : Except Raised Unit := do
  exact signature ["algorithm", "profile", "key_id", "signed_payload_sha256", "value_base64"]
    "signature"
  if field signature "algorithm" ≠ .str "ed25519" ∨
      field signature "profile" ≠ .str "ed25519-jcs-subset-v1" then
    throw (valueError "unsupported delegated signature profile")
  identifier (field signature "key_id") 256
  digest (field signature "signed_payload_sha256")
  discard (strictBase64 E (field signature "value_base64") (some 64))

/-- The context an envelope injects. -/
def checkContext (envelope : Json) (maxContextBytes : ℕ) : Except Raised Unit := do
  if field envelope "withhold_reason" ≠ .null then
    throw (valueError "inject result cannot contain a withholding reason")
  let context := field envelope "context"
  exact context ["encoding", "media_type", "bytes_base64", "byte_length", "sha256"] "context"
  if field context "encoding" ≠ .str "base64" ∨
      field context "media_type" ≠ .str "text/plain; charset=utf-8" then
    throw (valueError "unsupported delegated context encoding")
  let outside := valueError "delegated context size is outside policy"
  match field context "byte_length" with
  | .int length =>
    if length < 1 ∨ (min 262144 maxContextBytes : ℕ) < length then throw outside
  | _ => throw outside
  digest (field context "sha256")
  discard (strictBase64 E (field context "bytes_base64") none)

/-- The reason an envelope withholds for. -/
def checkWithheld (envelope : Json) : Except Raised Unit := do
  if field envelope "context" ≠ .null then
    throw (valueError "withhold result cannot contain context")
  let reason := field envelope "withhold_reason"
  exact reason ["code", "retryable"] "withhold reason"
  if !isWithholdCode (field reason "code") then
    throw (valueError "invalid delegated withholding code")
  match field reason "retryable" with
  | .bool _ => pure ()
  | _ => throw (valueError "invalid delegated withholding retry flag")

/-- `_validate_shape`. -/
def validateShape (envelope : Json) (maxContextBytes : ℕ) : Except Raised Unit := do
  exact envelope ["binding", "context", "contract_id", "created_at", "decision", "expires_at",
    "idempotency_key", "nonce", "provider", "receipt", "signature", "source_refs",
    "withhold_reason"] "result"
  if field envelope "contract_id" ≠ .str "atmem.delegated-context-provider.v1" then
    throw (valueError "unsupported delegated result contract")
  let provider := field envelope "provider"
  exact provider ["id", "version", "instance_id"] "provider"
  match provider with
  | .obj kvs => kvs.forM fun kv => identifier kv.2 256
  | _ => pure ()
  discard (DelegatedBinding.fromDict E (field envelope "binding"))
  let receipt := field envelope "receipt"
  exact receipt ["id", "contract_id", "sha256"] "receipt"
  identifier (field receipt "id") 512
  identifier (field receipt "contract_id") 256
  digest (field receipt "sha256")
  discard (timestamp E (field envelope "created_at"))
  discard (timestamp E (field envelope "expires_at"))
  if !isNonce (field envelope "nonce") then throw (valueError "invalid delegated nonce")
  if !isIdempotencyKey (field envelope "idempotency_key") then
    throw (valueError "invalid delegated idempotency key")
  checkSourceRefs E (field envelope "source_refs")
  checkSignature E (field envelope "signature")
  match field envelope "decision" with
  | .str "inject" => checkContext E envelope maxContextBytes
  | .str "withhold" => checkWithheld envelope
  | _ => throw (valueError "invalid delegated decision")

/-! ## Verification -/

/-- A text, as the shape check has found a field to be. -/
def textOf : Json → String
  | .str s => s
  | _ => ""

/-- `_verify_trust`. -/
def verifyTrust (envelope : Json) (binding : DelegatedBinding) (trust : DelegatedRegistration) :
    Except Raised Unit := do
  let provider := field envelope "provider"
  if (field provider "id", field provider "version", field provider "instance_id",
      field (field envelope "signature") "key_id") ≠
      (.str trust.providerId, .str trust.providerVersion, .str trust.providerInstanceId,
        .str trust.keyId) then
    throw (valueError "delegated provider is not locally trusted")
  let allow := fun (value : String) (allowed : List String) (label : String) =>
    if value ∈ allowed then Except.ok ()
    else Except.error (valueError ("delegated provider is not trusted for this " ++ label))
  allow binding.workspaceId trust.workspaceIds "workspace"
  allow binding.agentId trust.agentIds "agent"
  allow binding.userId trust.userIds "user"

/-- `_verify_time`, of microseconds. -/
def verifyTime (envelope : Json) (now : Instant) : Except Raised Unit := do
  let created ← timestamp E (field envelope "created_at")
  let expires ← timestamp E (field envelope "expires_at")
  if expires ≤ created then throw (valueError "delegated result has an invalid time order")
  if 300 * 1000000 < expires - created then
    throw (valueError "delegated result lifetime exceeds policy")
  if 30 * 1000000 < created - now then
    throw (valueError "delegated result was created too far in the future")
  if expires ≤ now then throw (valueError "delegated result has expired")

/-- What is injected: the text, its digest and its length. -/
structure Context where
  text : String
  sha256 : Option String
  byteLength : ℕ
deriving DecidableEq

/-- The context of an envelope, decoded; that of one that withholds is
empty. -/
def contextOf (envelope : Json) : Except Raised Context :=
  if field envelope "decision" = .str "inject" then do
    let context := field envelope "context"
    let bytes ← strictBase64 E (field context "bytes_base64") none
    if field context "byte_length" ≠ .int bytes.size then
      throw (valueError "delegated context byte length mismatch")
    if field context "sha256" ≠ .str (E.sha256 bytes) then
      throw (valueError "delegated context digest mismatch")
    match String.fromUTF8? bytes with
    | some text => pure ⟨text, some (textOf (field context "sha256")), bytes.size⟩
    | none => throw (valueError "delegated context is not valid UTF-8")
  else pure ⟨"", none, 0⟩

/-- `VerifiedDelegatedResult`. -/
structure VerifiedDelegatedResult where
  envelope : Json
  envelopeSha256 : String
  binding : DelegatedBinding
  providerId : String
  providerVersion : String
  providerInstanceId : String
  keyId : String
  decision : String
  context : Context
  receiptId : String
  receiptContractId : String
  receiptSha256 : String
  nonce : String
  idempotencyKey : String
  createdAt : String
  expiresAt : String
  withholdReason : Json
deriving DecidableEq

/-- `parse_json_strict`. -/
def parseJsonStrict (raw : ByteArray) : Except Raised Json :=
  match String.fromUTF8? raw with
  | none => .error (valueError "delegated result is not UTF-8")
  | some text =>
    match E.loadsClosed.loads text with
    | .error .decode => .error (valueError "delegated result is not valid JSON")
    | .error (.duplicateKey key) => .error (valueError ("duplicate JSON key: " ++ key))
    | .error (.other exc) => .error exc
    | .ok (.obj kvs) => .ok (.obj kvs)
    | .ok _ => .error (valueError "delegated result must be an object")

/-- The digests an envelope carries, and its signature. -/
def verifySignature (envelope : Json) (trust : DelegatedRegistration) : Except Raised Unit := do
  let signature := field envelope "signature"
  if .str (← expectedIdempotencyKey E envelope) ≠ field envelope "idempotency_key" then
    throw (valueError "delegated idempotency binding mismatch")
  if .str (← signedPayloadSha256 E envelope) ≠ field signature "signed_payload_sha256" then
    throw (valueError "delegated signed-payload digest mismatch")
  let publicKey ← strictBase64 E (.str trust.publicKeyBase64) (some 32)
  let value ← strictBase64 E (field signature "value_base64") (some 64)
  if !E.ed25519 publicKey value (← signingBytes E envelope) then
    throw (valueError "delegated signature verification failed")

/-- `parse_and_verify_envelope`. -/
def parseAndVerifyEnvelope (raw : ByteArray) (expectedBinding : DelegatedBinding)
    (trust : DelegatedRegistration) (now : Instant) : Except Raised VerifiedDelegatedResult := do
  let envelope ← parseJsonStrict E raw
  validateShape E envelope trust.maxContextBytes
  let binding ← DelegatedBinding.fromDict E (field envelope "binding")
  if binding ≠ expectedBinding then
    throw (valueError "delegated result does not match the authenticated turn binding")
  verifyTrust envelope binding trust
  verifyTime E envelope now
  let context ← contextOf E envelope
  verifySignature E envelope trust
  let sha256 ← envelopeSha256 E envelope
  let provider := field envelope "provider"
  let receipt := field envelope "receipt"
  pure
    { envelope, envelopeSha256 := sha256, binding
      providerId := textOf (field provider "id")
      providerVersion := textOf (field provider "version")
      providerInstanceId := textOf (field provider "instance_id")
      keyId := textOf (field (field envelope "signature") "key_id")
      decision := textOf (field envelope "decision"), context
      receiptId := textOf (field receipt "id")
      receiptContractId := textOf (field receipt "contract_id")
      receiptSha256 := textOf (field receipt "sha256")
      nonce := textOf (field envelope "nonce")
      idempotencyKey := textOf (field envelope "idempotency_key")
      createdAt := textOf (field envelope "created_at")
      expiresAt := textOf (field envelope "expires_at")
      withholdReason := field envelope "withhold_reason" }

end Atmem.Delegated
