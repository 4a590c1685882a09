import Atmem.Common.History
import Atmem.Common.Table
import Atmem.Contracts.CanonicalJson
import Mathlib.Logic.Function.Basic
/-!
# Signed requests

A request to a provider is signed under a key of a keyring, and reserves its
nonce in a ledger that any number of processes share. A verification reads
the clock three times: on arrival, under the lock of the keyring, and after
the reservation. The keyring is rotated, and its keys are revoked, under the
same lock. What a process does between two of these points no other sees, so
the service takes one step for each.
-/

namespace Atmem.Delegated.Transport

open Relational

/-- SHA-256 and HMAC-SHA256, in hexadecimal. -/
structure Mac where
  sha256 : ByteArray → String
  hmac : ByteArray → String → String

/-! ## Texts -/

/-- `PROFILE`. -/
def profile : String := "atmem-hmac-sha256-v1"

/-- `MAX_LIFETIME`. -/
def maxLifetime : ℕ := 30

/-- `MAX_SKEW`. -/
def maxSkew : ℕ := 5

/-- `MAX_OVERLAP`. -/
def maxOverlap : ℕ := 300

/-- `PREFIX`, before a name. -/
def header (name : String) : String := "X-AtMem-" ++ name

/-- `_ID`. -/
def isId (s : String) : Bool :=
  1 ≤ s.toList.length && s.toList.length ≤ 256 &&
    s.toList.all fun c => c.isAlphanum || c = '_' || c = '.' || c = ':' || c = '-'

/-- `_HEX`. -/
def isHex (s : String) : Bool :=
  s.toList.length = 64 && s.toList.all fun c => c.isDigit || ('a' ≤ c && c ≤ 'f')

/-- `[1-9][0-9]{0,11}`. -/
def isTime (s : String) : Bool :=
  match s.toList with
  | c :: cs => c.isDigit && c ≠ '0' && cs.length ≤ 11 && cs.all (·.isDigit)
  | [] => false

/-- `int` of digits. -/
def decimal (s : String) : ℕ := s.toList.foldl (fun n c => 10 * n + (c.toNat - 48)) 0

/-! ## Keyrings -/

/-- The file of a keyring: its directory, and its name there. -/
structure KeyringPath where
  dir : String
  file : String
deriving DecidableEq

/-- A key of the ring, and until when it signs. -/
structure RequestKey where
  keyId : String
  secretFile : String
  validUntil : Option ℤ
deriving DecidableEq

/-- The keys of an instance, one of them active. -/
structure Keyring where
  providerId : String
  instanceId : String
  activeKeyId : String
  keys : List RequestKey
deriving DecidableEq

/-- What `load_keyring` requires: one key or two, of different names, the
active one among them and never to lapse. -/
def Keyring.valid (r : Keyring) : Bool :=
  isId r.providerId && isId r.instanceId && isId r.activeKeyId &&
    1 ≤ r.keys.length && r.keys.length ≤ 2 && (r.keys.map (·.keyId)).Nodup &&
    (r.keys.all fun k => isId k.keyId && k.validUntil.all (0 < ·) &&
      (k.keyId ≠ r.activeKeyId || k.validUntil = none)) &&
    r.activeKeyId ∈ r.keys.map (·.keyId)

/-! ## The ledger -/

/-- A row of `nonces`. -/
structure NonceRow where
  scope : String
  nonce : String
  expires : ℤ
deriving DecidableEq

/-- The primary key of the nonces. -/
def NonceRow.key (r : NonceRow) : String × String := (r.scope, r.nonce)

/-- The primary key. -/
def nonceClash (a b : String × String) : Bool := a = b

/-- The replay ledger: the high-water mark of the clock, and the nonces. -/
structure Ledger where
  highwater : Option ℤ := none
  nonces : Table NonceRow NonceRow.key nonceClash := .empty

/-- `capacity`. -/
def capacity : ℕ := 100000

/-- `ReplayLedger.reserve`: one transaction, rolled back where it fails. -/
def Ledger.reserve (l : Ledger) (scope nonce : String) (expires now : ℤ) :
    Except String Ledger :=
  if l.highwater.any (now < ·) then .error "request clock moved backwards"
  else
    let live := l.nonces.delete fun r => r.expires ≤ now
    if capacity ≤ live.rows.length then .error "request replay capacity exhausted"
    else
      match live.insert ⟨scope, nonce, expires⟩ with
      | some nonces => .ok ⟨some now, nonces⟩
      | none => .error "request replay rejected"

/-! ## Requests -/

/-- A request: `headers` gives the values of a name, in order. -/
structure Request where
  method : String
  target : String
  headers : String → List String
  body : ByteArray

/-- What a request says of itself. -/
structure Fields where
  profile : String
  provider : String
  instanceId : String
  keyId : String
  issued : String
  expires : String
  nonce : String
  signature : String
  authority : String
deriving DecidableEq

/-- The time of issue, as it is compared. -/
def Fields.issuedAt (f : Fields) : ℤ := decimal f.issued

/-- The time of expiry, as it is compared. -/
def Fields.expiresAt (f : Fields) : ℤ := decimal f.expires

/-- `single`. -/
def single (q : Request) (name : String) : Except String String :=
  match q.headers name with
  | [value] => .ok value
  | _ => .error "request authentication required"

/-- The headers of a request. -/
def readFields (q : Request) : Except String Fields := do
  let fields : Fields :=
    { profile := ← single q (header "Profile"), provider := ← single q (header "Provider")
      instanceId := ← single q (header "Instance"), keyId := ← single q (header "Key-Id")
      issued := ← single q (header "Issued"), expires := ← single q (header "Expires")
      nonce := ← single q (header "Nonce"), signature := ← single q (header "Signature")
      authority := ← single q "Host" }
  if fields.profile ≠ profile || !isHex fields.signature || !isHex fields.nonce then
    throw "invalid request authentication"
  if !isId fields.provider || !isId fields.instanceId || !isId fields.keyId then
    throw "invalid request identity"
  if !isTime fields.issued || !isTime fields.expires then throw "invalid request time"
  pure fields

/-- `signing_input`. -/
def signingInput (M : Mac) (q : Request) (f : Fields) : Except String String :=
  let parts := [f.profile, q.method, f.authority, q.target, f.provider, f.instanceId, f.keyId,
    f.issued, f.expires, f.nonce, M.sha256 q.body]
  if parts.any fun part => part = "" || part.toList.any fun c => c.toNat < 33 || 126 < c.toNat then
    .error "invalid request authentication fields"
  else .ok ("\n".intercalate parts ++ "\n")

/-! ## The service -/

/-- A `RequestAuthenticator`: its keyring, and whom it speaks for. -/
structure Authenticator where
  keyring : KeyringPath
  providerId : String
  instanceId : String
deriving DecidableEq

/-- The scope of a nonce. -/
def Authenticator.scope (a : Authenticator) : String :=
  (Json.arr [.str a.providerId, .str a.instanceId]).canonicalJson

/-- How far a verification is. -/
inductive Stage
  /-- For the lock of the keyring. -/
  | waiting
  | holding
  /-- Under a key, at a reading of the clock. -/
  | authenticated (now : ℤ)
  | reserved (now : ℤ)
  | accepted (now : ℤ)
  | rejected (cause : String)
  /-- The process is gone. -/
  | dead
deriving DecidableEq

/-- A call of `verify`, past its arrival. -/
structure Call where
  authenticator : Authenticator
  request : Request
  fields : Fields
  stage : Stage

/-- What the processes share, and the calls. -/
structure Service where
  rings : KeyringPath → Option Keyring
  /-- The credential files that hold a secret. -/
  secrets : String → Option ByteArray
  locks : KeyringPath → Option ℕ := fun _ => none
  ledger : Ledger := {}
  calls : List Call := []

/-- `load_keyring`. -/
def Service.loadKeyring (s : Service) (path : KeyringPath) : Except String Keyring :=
  match s.rings path with
  | some ring =>
    if ring.valid then .ok ring
    else .error "request authentication setup required; use provider auth-init"
  | none => .error "request authentication setup required; use provider auth-init"

/-- `load_secret`. -/
def Service.loadSecret (s : Service) (file : String) : Except String ByteArray :=
  match s.secrets file with
  | some secret => .ok secret
  | none => .error "request credential must contain a base64-encoded 32-byte secret"

/-- The checks on arrival, at the first reading of the clock. -/
def arrive (q : Request) (now : ℤ) : Except String Fields := do
  let f ← readFields q
  if ¬(f.issuedAt < f.expiresAt ∧ f.expiresAt ≤ f.issuedAt + maxLifetime) ∨
      now + maxSkew < f.issuedAt ∨ f.expiresAt ≤ now then
    throw "request expired or outside time window"
  pure f

/-- The checks under the lock, at the second. -/
def authenticate (M : Mac) (s : Service) (p : Call) (now : ℤ) : Except String Unit := do
  let f := p.fields
  let a := p.authenticator
  if now + maxSkew < f.issuedAt ∨ f.expiresAt ≤ now then
    throw "request expired while awaiting authentication"
  let ring ← s.loadKeyring a.keyring
  if (f.provider, f.instanceId) ≠ (a.providerId, a.instanceId) ∨
      (ring.providerId, ring.instanceId) ≠ (a.providerId, a.instanceId) then
    throw "request identity mismatch"
  match ring.keys.find? (·.keyId = f.keyId) with
  | none => throw "request key unavailable"
  | some key =>
    if key.validUntil.any (· ≤ now) then throw "request key unavailable"
    let secret ← s.loadSecret key.secretFile
    let text ← signingInput M p.request f
    if f.signature ≠ M.hmac secret text then throw "request authentication failed"

/-! ## The keyring -/

/-- What a configuration is given: the reading of the clock, and the key that
is drawn. -/
structure Configuration where
  path : KeyringPath
  providerId : String
  instanceId : String
  rotate : Bool
  overlapSeconds : ℤ
  now : ℤ
  token : String
  secret : ByteArray

/-- The identifier of the key that is made. -/
def Configuration.keyId (c : Configuration) : String := "request-" ++ c.token

/-- The file its secret is written to. -/
def Configuration.secretFile (c : Configuration) : String :=
  c.path.dir ++ "/" ++ c.keyId ++ ".key"

/-- The keyring before: one to rotate, or none. -/
def Service.previousRing (s : Service) (c : Configuration) : Except String (Option Keyring) :=
  if c.rotate then do
    let old ← s.loadKeyring c.path
    if (old.providerId, old.instanceId) ≠ (c.providerId, c.instanceId) then
      throw "transport identity mismatch"
    pure (some old)
  else if (s.rings c.path).isSome then
    .error "request authentication already configured; use auth-rotate"
  else .ok none

/-- The key that was active, for the overlap. -/
def overlapping (c : Configuration) (old : Option Keyring) : List RequestKey :=
  if c.overlapSeconds = 0 then []
  else
    ((old.bind fun r => r.keys.find? (·.keyId = r.activeKeyId)).map fun k =>
      { k with validUntil := some (c.now + c.overlapSeconds) }).toList

/-- `configure_keyring`. -/
def Service.configureKeyring (s : Service) (c : Configuration) : Except String Service := do
  if !isId c.providerId || !isId c.instanceId then throw "invalid transport identity"
  if c.overlapSeconds < 0 ∨ maxOverlap < c.overlapSeconds then
    throw "rotation overlap must be between 0 and 300 seconds"
  let old ← s.previousRing c
  if (s.secrets c.secretFile).isSome then throw "file exists"
  let key : RequestKey := ⟨c.keyId, c.secretFile, none⟩
  let value : Keyring := ⟨c.providerId, c.instanceId, c.keyId, key :: overlapping c old⟩
  pure { s with
    rings := Function.update s.rings c.path (some value)
    secrets := Function.update s.secrets c.secretFile (some c.secret) }

/-- `revoke_key`. -/
def Service.revokeKey (s : Service) (path : KeyringPath) (keyId : String) :
    Except String Service := do
  let value ← s.loadKeyring path
  if keyId = value.activeKeyId then throw "rotate before revoking the active request key"
  if keyId ∉ value.keys.map (·.keyId) then throw "request key is not in the keyring"
  let value := { value with keys := value.keys.filter (·.keyId ≠ keyId) }
  pure { s with rings := Function.update s.rings path (some value) }

/-! ## Steps -/

/-- What happens next. -/
inductive Event
  | arrive (a : Authenticator) (q : Request) (now : ℤ)
  | lock (i : ℕ)
  | authenticate (i : ℕ) (now : ℤ)
  /-- A transaction, which the storage may fail. -/
  | reserve (i : ℕ) (fails : Bool)
  | conclude (i : ℕ) (now : ℤ)
  | crash (i : ℕ)
  | configure (c : Configuration)
  | revoke (path : KeyringPath) (keyId : String)

/-- The call an event is of. -/
def Event.call : Event → Option ℕ
  | .lock i | .authenticate i _ | .reserve i _ | .conclude i _ | .crash i => some i
  | .arrive .. | .configure _ | .revoke .. => none

/-- What comes of it. -/
inductive Answer
  /-- Nothing: the call is elsewhere, or the lock is another's. -/
  | idle
  | done
  | reserved
  | accepted
  | rejected (cause : String)
  /-- A change of the keyring is refused. -/
  | refused (reason : String)
deriving DecidableEq

namespace Service

/-- A call goes on to a stage. -/
def advance (s : Service) (i : ℕ) (p : Call) (stage : Stage) : Service :=
  { s with calls := s.calls.set i { p with stage } }

/-- A call comes to its end, and gives up the lock. -/
def finish (s : Service) (i : ℕ) (p : Call) (stage : Stage) : Service :=
  let s := s.advance i p stage
  if s.locks p.authenticator.keyring = some i then
    { s with locks := Function.update s.locks p.authenticator.keyring none }
  else s

/-- The request is rejected, for a cause, and the call is over. -/
def reject (s : Service) (i : ℕ) (p : Call) (cause : String) : Answer × Service :=
  (.rejected cause, s.finish i p (.rejected cause))

/-- A call takes the lock of its keyring, where nobody holds it. -/
def lock (s : Service) (i : ℕ) (p : Call) : Answer × Service :=
  if s.locks p.authenticator.keyring = none then
    (.done, { s.advance i p .holding with
      locks := Function.update s.locks p.authenticator.keyring (some i) })
  else (.idle, s)

/-- The reservation of a call. -/
def reserve (s : Service) (i : ℕ) (p : Call) (now : ℤ) (fails : Bool) : Answer × Service :=
  if fails then s.reject i p "request replay storage unavailable"
  else
    match s.ledger.reserve p.authenticator.scope p.fields.nonce p.fields.expiresAt now with
    | .error cause => s.reject i p cause
    | .ok ledger => (.reserved, { s.advance i p (.reserved now) with ledger })

/-- The end of a call, at the third reading of the clock. -/
def conclude (s : Service) (i : ℕ) (p : Call) (reservedAt now : ℤ) : Answer × Service :=
  if p.fields.expiresAt ≤ now then s.reject i p "request expired while reserving nonce"
  else (.accepted, s.finish i p (.accepted reservedAt))

/-- A change of a keyring, where nobody holds its lock. -/
def change (s : Service) (path : KeyringPath) (result : Except String Service) :
    Answer × Service :=
  if s.locks path = none then
    match result with
    | .ok s' => (.done, s')
    | .error reason => (.refused reason, s)
  else (.idle, s)

/-- What a call does in an event, from the stage it is at. -/
def act (M : Mac) (s : Service) (i : ℕ) (p : Call) : Event → Answer × Service
  | .lock _ => if p.stage = .waiting then s.lock i p else (.idle, s)
  | .authenticate _ now =>
    if p.stage = .holding then
      match authenticate M s p now with
      | .ok () => (.done, s.advance i p (.authenticated now))
      | .error cause => s.reject i p cause
    else (.idle, s)
  | .reserve _ fails =>
    match p.stage with
    | .authenticated now => s.reserve i p now fails
    | _ => (.idle, s)
  | .conclude _ now =>
    match p.stage with
    | .reserved reservedAt => s.conclude i p reservedAt now
    | _ => (.idle, s)
  | .crash _ =>
    match p.stage with
    | .accepted _ | .rejected _ | .dead => (.idle, s)
    | _ => (.done, s.finish i p .dead)
  | .arrive .. | .configure _ | .revoke .. => (.idle, s)

/-- One step of the service. -/
def step (M : Mac) (e : Event) (s : Service) : Answer × Service :=
  match e with
  | .arrive a q now =>
    match Transport.arrive q now with
    | .ok f => (.done, { s with calls := s.calls ++ [⟨a, q, f, .waiting⟩] })
    | .error cause => (.rejected cause, s)
  | .configure c => s.change c.path (s.configureKeyring c)
  | .revoke path keyId => s.change path (s.revokeKey path keyId)
  | .lock i | .authenticate i _ | .reserve i _ | .conclude i _ | .crash i =>
    match s.calls[i]? with
    | some p => s.act M i p e
    | none => (.idle, s)

end Service

end Atmem.Delegated.Transport
