import Atmem.Common.Interleaving
import Atmem.Common.Occurrence
import Atmem.Delegated.Model.Envelope
/-!
# Delegated turns

Who speaks for a turn is kept in two tables of the control store: the
acceptances, one for each envelope that was accepted, and the reservations,
one for each turn that is closed. An envelope is accepted in one
transaction that writes both; a failure is recorded by a look-up and an
insertion of its own. Any number of connections prepare turns at once, each
statement or transaction of theirs an atomic action.
-/

namespace Atmem.Delegated

open Interleaving Relational

/-! ## Tables -/

/-- A turn of a migration. -/
structure Turn where
  migrationId : String
  binding : DelegatedBinding
deriving DecidableEq

/-- The texts that tell a turn from the others. -/
def Turn.texts (turn : Turn) : List String :=
  [turn.migrationId, turn.binding.runId, turn.binding.turnId, turn.binding.sessionId,
    turn.binding.agentId, turn.binding.userId, turn.binding.workspaceId]

/-- A row of `delegated_context_acceptances`. -/
structure AcceptanceRow where
  id : String
  turn : Turn
  envelopeSha256 : String
  providerId : String
  providerVersion : String
  providerInstanceId : String
  keyId : String
  decision : String
  receiptId : String
  receiptContractId : String
  receiptSha256 : String
  contextSha256 : Option String
  contextByteLength : ℕ
  nonceSha256 : String
  idempotencyKey : String
  providerCreatedAt : String
  providerExpiresAt : String
  withholdReasonJson : Option String
  acceptedAt : Instant
deriving DecidableEq

/-- An instance of a provider. -/
def AcceptanceRow.providerInstance (r : AcceptanceRow) : String × String :=
  (r.providerId, r.providerInstanceId)

/-- The columns of the keys. -/
structure AcceptanceKey where
  id : String
  turn : Turn
  nonce : (String × String) × String
  idempotency : (String × String) × String
deriving DecidableEq

/-- The columns that the unique constraints of the acceptances are about. -/
def AcceptanceRow.key (r : AcceptanceRow) : AcceptanceKey :=
  ⟨r.id, r.turn, (r.providerInstance, r.nonceSha256), (r.providerInstance, r.idempotencyKey)⟩

/-- A primary key, one row a turn, and a nonce and an idempotency key used
once by an instance. -/
def acceptanceClash (a b : AcceptanceKey) : Bool :=
  a.id = b.id || a.turn = b.turn || a.nonce = b.nonce || a.idempotency = b.idempotency

/-- How a turn was closed. -/
inductive Disposition
  | accepted | providerFailure | nativeFallback
deriving DecidableEq

/-- A row of `delegated_turn_reservations`. -/
structure ReservationRow where
  id : String
  turn : Turn
  disposition : Disposition
  envelopeSha256 : Option String
  createdAt : Instant
deriving DecidableEq

/-- The columns that the unique constraints of the reservations are about. -/
def ReservationRow.key (r : ReservationRow) : String × Turn := (r.id, r.turn)

/-- A primary key, and one row a turn. -/
def reservationClash (a b : String × Turn) : Bool := eitherClash a b

/-- A row of `delegated_context_deliveries`. -/
structure DelegatedDeliveryRow where
  id : String
  migrationId : String
  acceptanceId : String
  contextSha256 : Option String
  contextByteLength : ℕ
  requestedAt : Instant
deriving DecidableEq

/-- The columns that the constraints of the deliveries are about. -/
def DelegatedDeliveryRow.key (r : DelegatedDeliveryRow) : String × String := (r.id, r.acceptanceId)

/-- A primary key, and one row an acceptance. -/
def delegatedDeliveryClash (a b : String × String) : Bool := eitherClash a b

/-- The control store, with the delegated tables. -/
structure DelegatedWorld where
  control : Control.ControlWorld
  acceptances : Table AcceptanceRow AcceptanceRow.key acceptanceClash := .empty
  reservations : Table ReservationRow ReservationRow.key reservationClash := .empty
  deliveries : Table DelegatedDeliveryRow DelegatedDeliveryRow.key delegatedDeliveryClash := .empty

/-! ## Transactions -/

/-- A statement or a transaction: fails with what it was, and is then
without effect on the tables. -/
abbrev Tx (α : Type) : Type := ExceptT Raised (StateM DelegatedWorld) α

/-- The acceptance of a turn, if it has one. -/
def lookupAcceptance (w : DelegatedWorld) (turn : Turn) : Option AcceptanceRow :=
  w.acceptances.rows.find? fun r => r.turn = turn

/-- The reservation of a turn, if it has one. -/
def lookupReservation (w : DelegatedWorld) (turn : Turn) : Option ReservationRow :=
  w.reservations.rows.find? fun r => r.turn = turn

variable (E : Engine)

/-- `sqlite3.IntegrityError`. -/
def Engine.integrityError : Raised := E.raised "IntegrityError" .null

/-- An exception of the control store. -/
def Engine.ofControl : Control.ControlError → Raised
  | .valueError message => valueError message
  | .typeError => E.raised "TypeError" .null
  | .attributeError => E.raised "AttributeError" .null
  | .bindingError => E.raised "ProgrammingError" .null
  | .overflowError => E.raised "OverflowError" .null
  | .unicodeEncodeError => E.raised "UnicodeEncodeError" .null
  | .integrityError => E.integrityError

/-- A part of the control store's own code. -/
def control {α : Type} (x : Control.Ctl α) : Tx α := do
  let w ← get
  match x.run.run w.control with
  | (.ok a, c) => set { w with control := c }; pure a
  | (.error e, c) => set { w with control := c }; throw (E.ofControl e)

/-- The texts a statement is given. -/
def bindTexts (given : List String) : Tx Unit :=
  control E (Control.bindAll E.toEngine (given.map .str))

/-- A row can be bound, and its migration is there. -/
def requireMigration (migrationId : String) (given : List String) : Tx Unit := do
  bindTexts E (migrationId :: given)
  if migrationId ∉ (← get).control.store.migrations then throw E.integrityError

/-- What an acceptance says of a verified result. -/
def acceptanceRow (migrationId id : String) (acceptedAt : Instant)
    (result : VerifiedDelegatedResult) : AcceptanceRow :=
  { id, turn := ⟨migrationId, result.binding⟩, envelopeSha256 := result.envelopeSha256
    providerId := result.providerId, providerVersion := result.providerVersion
    providerInstanceId := result.providerInstanceId, keyId := result.keyId
    decision := result.decision, receiptId := result.receiptId
    receiptContractId := result.receiptContractId, receiptSha256 := result.receiptSha256
    contextSha256 := result.context.sha256, contextByteLength := result.context.byteLength
    nonceSha256 := E.hashing.sha256Hex result.nonce, idempotencyKey := result.idempotencyKey
    providerCreatedAt := result.createdAt, providerExpiresAt := result.expiresAt
    withholdReasonJson := if result.withholdReason = .null then none
      else some result.withholdReason.canonicalJson
    acceptedAt }

/-- The texts of an acceptance that an envelope gives. -/
def VerifiedDelegatedResult.given (result : VerifiedDelegatedResult) : List String :=
  [result.providerId, result.providerVersion, result.providerInstanceId, result.keyId,
    result.decision, result.receiptId, result.receiptContractId, result.receiptSha256,
    result.idempotencyKey, result.createdAt, result.expiresAt]

/-- An acceptance, with whether it was there. -/
structure Acceptance where
  row : AcceptanceRow
  idempotent : Bool
deriving DecidableEq

/-- `INSERT INTO delegated_context_acceptances`. -/
def insertAcceptance (row : AcceptanceRow) (given : List String) : Tx Unit := do
  requireMigration E row.turn.migrationId (row.turn.texts ++ given)
  match (← get).acceptances.insert row with
  | none => throw E.integrityError
  | some acceptances => modify fun w => { w with acceptances }

/-- `INSERT INTO delegated_turn_reservations`. -/
def insertReservation (row : ReservationRow) : Tx Unit := do
  requireMigration E row.turn.migrationId row.turn.texts
  match (← get).reservations.insert row with
  | none => throw E.integrityError
  | some reservations => modify fun w => { w with reservations }

/-- An envelope for a turn that no acceptance and no reservation is there
for: its nonce and its key are not used. -/
def acceptNew (migrationId : String) (result : VerifiedDelegatedResult) : Tx Acceptance := do
  bindTexts E [result.providerId, result.providerInstanceId, result.idempotencyKey]
  let w ← get
  let ofInstance := fun r : AcceptanceRow =>
    r.providerId = result.providerId ∧ r.providerInstanceId = result.providerInstanceId
  if w.acceptances.rows.any fun r =>
      ofInstance r ∧ r.nonceSha256 = E.hashing.sha256Hex result.nonce then
    throw (valueError "delegated nonce was already used")
  if w.acceptances.rows.any fun r => ofInstance r ∧ r.idempotencyKey = result.idempotencyKey then
    throw (valueError "delegated idempotency key was already used")
  let acceptanceId ← control E (Control.drawId E.toEngine "dca_")
  let acceptedAt ← control E Control.utcNow
  let row := acceptanceRow E migrationId acceptanceId acceptedAt result
  insertAcceptance E row result.given
  let reservationId ← control E (Control.drawId E.toEngine "dtr_")
  insertReservation E
    { id := reservationId, turn := row.turn, disposition := .accepted
      envelopeSha256 := some result.envelopeSha256, createdAt := acceptedAt }
  pure ⟨row, false⟩

/-- `accept_delegated_context`, the transaction. -/
def acceptDelegatedContext (migrationId : String) (result : VerifiedDelegatedResult) :
    Tx Acceptance := do
  let turn : Turn := ⟨migrationId, result.binding⟩
  bindTexts E turn.texts
  let w ← get
  let taken := valueError "another delegated result already reserved this turn"
  match lookupAcceptance w turn, lookupReservation w turn with
  | some existing, _ =>
    if existing.envelopeSha256 ≠ result.envelopeSha256 then throw taken
    pure ⟨existing, true⟩
  | none, some reservation =>
    if reservation.disposition = .accepted then throw taken
    throw (valueError "delegated turn was already closed")
  | none, none => acceptNew E migrationId result

/-- The insertion of `reserve_delegated_failure`, a statement of its own. -/
def insertFailure (turn : Turn) (disposition : Disposition) : Tx ReservationRow := do
  let id ← control E (Control.drawId E.toEngine "dtr_")
  let createdAt ← control E Control.utcNow
  let row : ReservationRow := { id, turn, disposition, envelopeSha256 := none, createdAt }
  insertReservation E row
  pure row

/-- `request_delegated_delivery`: `INSERT OR IGNORE`, and the row that is
there. -/
def requestDelegatedDelivery (migrationId acceptanceId : String) (context : Context) :
    Tx DelegatedDeliveryRow := do
  let id ← control E (Control.drawId E.toEngine "dcd_")
  let requestedAt ← control E Control.utcNow
  let row : DelegatedDeliveryRow :=
    { id, migrationId, acceptanceId, contextSha256 := context.sha256
      contextByteLength := context.byteLength, requestedAt }
  requireMigration E migrationId []
  if (← get).acceptances.rows.all (·.id ≠ acceptanceId) then throw E.integrityError
  modify fun w => { w with deliveries := (w.deliveries.insert row).getD w.deliveries }
  match (← get).deliveries.rows.find? (·.acceptanceId = acceptanceId) with
  | some delivery => pure delivery
  | none => throw (E.raised "AssertionError" .null)

/-! ## Actions -/

/-- Where a call touches the store. -/
inductive Point
  | accept | look | reserve | append | deliver | report
deriving DecidableEq

/-- What a call is given: the turn, what the configuration and the provider
answer, the time its envelope is verified at, and where the store is locked
by another for too long. -/
structure PrepareCall where
  turn : Turn
  registration : Except Raised (Option DelegatedRegistration)
  response : Except Raised ByteArray
  verifiedAt : Instant
  locked : Point → Bool

/-- A transaction as an action: what fails leaves the tables as they were. -/
def transact {α : Type} (k : PrepareCall) (point : Point) (body : Tx α) :
    Eff Raised Point DelegatedWorld α :=
  .action point fun w =>
    if k.locked point then (.error (E.raised "OperationalError" .null), w)
    else
      match body.run.run w with
      | (.ok a, w') => (.ok a, w')
      | (.error e, w') => (.error e, { w with
          control := { w'.control with store := w.control.store } })

/-- `reserve_delegated_failure`: outside any transaction, a look-up and an
insertion. -/
def reserveDelegatedFailure (k : PrepareCall) (nativeFallback : Bool) :
    Eff Raised Point DelegatedWorld ReservationRow := do
  let disposition : Disposition := if nativeFallback then .nativeFallback else .providerFailure
  match ← transact E k .look (do
    bindTexts E k.turn.texts
    pure (lookupReservation (← get) k.turn))
  with
  | some existing =>
    if existing.disposition = disposition then pure existing
    else throw (valueError "delegated turn was already closed differently")
  | none => transact E k .reserve (insertFailure E k.turn disposition)

/-- `append_evidence`, and the identifier of the event. -/
def appendEvidence (k : PrepareCall) (point : Point) (kind : String)
    (body : List (String × Json)) : Eff Raised Point DelegatedWorld String :=
  transact E k point do
    let row ← control E (Control.appendEvidence E.toEngine k.turn.migrationId kind body)
    pure row.id

/-! ## Preparing a turn -/

/-- The provider an answer names. -/
structure ProviderName where
  id : String
  version : String
  instanceId : String
  keyId : Option String := none
  keyFingerprint : Option String := none
deriving DecidableEq

/-- The receipt an answer names. -/
structure ReceiptName where
  id : String
  contractId : String
  sha256 : String
deriving DecidableEq

/-- What `prepare` returns. -/
structure Prepared where
  authority : String
  decision : String
  inject : Bool
  context : Context
  nativeFallback : Bool
  acceptanceId : Option String := none
  exposureId : Option String := none
  authorizationEventId : Option String := none
  deliveryFailureEventId : Option String := none
  resultSha256 : Option String := none
  receipt : Option ReceiptName := none
  provider : Option ProviderName := none
  withholdReason : Json := .null
  idempotent : Option Bool := none
  failureCode : Option String := none
  failureReason : Option String := none
deriving DecidableEq

/-- `_safe_reason`. -/
def safeReason (exc : Raised) : String :=
  let reason := ((" ".toList.intercalate
    (Occurrence.words isSpace exc.text.toList)).take 300)
  if reason = [] then exc.name else String.ofList reason

/-- A provider: an identifier, a version, an instance. -/
def providerJson (id version instanceId : String) : Json :=
  .obj [("id", .str id), ("version", .str version), ("instance_id", .str instanceId)]

/-- What is kept of a failure before any acceptance. -/
def rejection (k : PrepareCall) (registration : Option (DelegatedRegistration × String))
    (reservation : ReservationRow) (exc : Raised) : List (String × Json) :=
  [("format", .str "atmem-delegated-context-authorization-v1"),
    ("provider", .ofOption (fun r : DelegatedRegistration × String =>
      providerJson r.1.providerId r.1.providerVersion r.1.providerInstanceId) registration),
    ("binding", k.turn.binding.toDict), ("decision", .str "rejected"),
    ("result_sha256", .null), ("receipt", .null), ("context_sha256", .null),
    ("context_byte_length", .int 0),
    ("key_id", .ofOption (fun r : DelegatedRegistration × String => .str r.1.keyId) registration),
    ("key_fingerprint", .ofOption (fun r : DelegatedRegistration × String => .str r.2)
      registration),
    ("acceptance_disposition", .str "rejected"), ("failure_code", .str exc.name),
    ("failure_reason", .str (safeReason exc)), ("reservation_id", .str reservation.id)]

/-- A registration, with the fingerprint of its key. -/
def withFingerprint : Option DelegatedRegistration →
    Except Raised (Option (DelegatedRegistration × String))
  | some r => do pure (some (r, ← publicKeyFingerprint E r.publicKeyBase64))
  | none => pure none

/-- A failure before any acceptance: the turn is closed, and it is said. -/
def fail (k : PrepareCall) (registration : Option DelegatedRegistration) (exc : Raised) :
    Eff Raised Point DelegatedWorld Prepared := do
  let nativeFallback := registration.any (·.nativeFallbackOnFailure)
  let reservation ← reserveDelegatedFailure E k nativeFallback
  let named ← Eff.ofExcept id (withFingerprint E registration)
  let event ← appendEvidence E k .append "delegated_context" (rejection k named reservation exc)
  pure
    { authority := if nativeFallback then "atmem_fallback" else "delegated"
      decision := "provider_failure", inject := false, context := ⟨"", none, 0⟩, nativeFallback
      authorizationEventId := some event, failureCode := some exc.name
      failureReason := some (safeReason exc)
      provider := registration.map fun r =>
        { id := r.providerId, version := r.providerVersion, instanceId := r.providerInstanceId } }

/-- What is kept of an acceptance. -/
def authorization (acceptance : Acceptance) (result : VerifiedDelegatedResult)
    (fingerprint : String) : List (String × Json) :=
  [("format", .str "atmem-delegated-context-authorization-v1"),
    ("provider", providerJson result.providerId result.providerVersion result.providerInstanceId),
    ("binding", result.binding.toDict), ("decision", .str result.decision),
    ("result_sha256", .str result.envelopeSha256),
    ("receipt", .obj [("id", .str result.receiptId), ("contract_id", .str result.receiptContractId),
      ("sha256", .str result.receiptSha256)]),
    ("context_sha256", .ofOption .str result.context.sha256),
    ("context_byte_length", .int result.context.byteLength), ("key_id", .str result.keyId),
    ("created_at", .str result.createdAt), ("expires_at", .str result.expiresAt),
    ("withhold_reason", result.withholdReason), ("acceptance_id", .str acceptance.row.id),
    ("acceptance_disposition",
      .str (if acceptance.idempotent then "idempotent_retry" else "accepted")),
    ("key_fingerprint", .str fingerprint)]

/-- What is kept of a failure after the acceptance. -/
def deliveryFailure (k : PrepareCall) (acceptance : Acceptance) (result : VerifiedDelegatedResult)
    (event : Option String) (exc : Raised) : List (String × Json) :=
  [("format", .str "atmem-delegated-context-delivery-failure-v1"),
    ("provider", providerJson result.providerId result.providerVersion result.providerInstanceId),
    ("binding", k.turn.binding.toDict), ("decision", .str "delivery_failure"),
    ("acceptance_id", .str acceptance.row.id),
    ("authorization_event_id", .ofOption .str event),
    ("result_sha256", .str result.envelopeSha256),
    ("context_sha256", .ofOption .str result.context.sha256),
    ("context_byte_length", .int result.context.byteLength), ("failure_code", .str exc.name),
    ("failure_reason", .str (safeReason exc))]

/-- The value, or the exception. -/
def attempt {α : Type} (x : Eff Raised Point DelegatedWorld α) :
    Eff Raised Point DelegatedWorld (Except Raised α) :=
  tryCatch (.ok <$> x) fun e => pure (.error e)

/-- The delivery of what is injected. -/
def deliver (k : PrepareCall) (acceptance : Acceptance) (result : VerifiedDelegatedResult) :
    Eff Raised Point DelegatedWorld (Option String) :=
  if result.decision = "inject" then do
    let delivery ← transact E k .deliver
      (requestDelegatedDelivery E k.turn.migrationId acceptance.row.id result.context)
    pure (some delivery.id)
  else pure none

/-- A failure after the acceptance, which owns the turn: nothing is
injected, and nothing falls back. -/
def failDelivery (k : PrepareCall) (acceptance : Acceptance) (result : VerifiedDelegatedResult)
    (event : Option String) (exc : Raised) : Eff Raised Point DelegatedWorld Prepared := do
  let failureEvent ← attempt (appendEvidence E k .report "delegated_context_delivery"
    (deliveryFailure k acceptance result event exc))
  pure
    { authority := "delegated", decision := "provider_failure", inject := false
      context := ⟨"", none, 0⟩, nativeFallback := false, acceptanceId := some acceptance.row.id
      authorizationEventId := event, deliveryFailureEventId := failureEvent.toOption
      resultSha256 := some result.envelopeSha256, failureCode := some exc.name
      failureReason := some (safeReason exc)
      provider := some { id := result.providerId, version := result.providerVersion
                         instanceId := result.providerInstanceId } }

/-- What an acceptance is answered with. -/
def authorized (acceptance : Acceptance) (result : VerifiedDelegatedResult)
    (fingerprint event : String) (exposure : Option String) : Prepared :=
  { authority := "delegated", decision := result.decision, inject := result.decision = "inject"
    context := result.context, nativeFallback := false, acceptanceId := some acceptance.row.id
    exposureId := exposure, authorizationEventId := some event
    resultSha256 := some result.envelopeSha256
    receipt := some ⟨result.receiptId, result.receiptContractId, result.receiptSha256⟩
    provider := some { id := result.providerId, version := result.providerVersion
                       instanceId := result.providerInstanceId, keyId := some result.keyId
                       keyFingerprint := some fingerprint }
    withholdReason := result.withholdReason, idempotent := some acceptance.idempotent }

/-- What follows an acceptance: it is said, and what is injected is
delivered. -/
def authorize (k : PrepareCall) (registration : DelegatedRegistration) (acceptance : Acceptance)
    (result : VerifiedDelegatedResult) : Eff Raised Point DelegatedWorld Prepared := do
  let fingerprint := publicKeyFingerprint E registration.publicKeyBase64
  match ← attempt (do
    let fingerprint ← Eff.ofExcept id fingerprint
    appendEvidence E k .append "delegated_context" (authorization acceptance result fingerprint))
  with
  | .error exc => failDelivery E k acceptance result none exc
  | .ok event =>
    match ← attempt (do
      let exposure ← deliver E k acceptance result
      let fingerprint ← Eff.ofExcept id fingerprint
      pure (authorized acceptance result fingerprint event exposure))
    with
    | .error exc => failDelivery E k acceptance result (some event) exc
    | .ok prepared => pure prepared

/-- The envelope of a response, verified and accepted. -/
def acceptResponse (k : PrepareCall) (registration : DelegatedRegistration) :
    Eff Raised Point DelegatedWorld (VerifiedDelegatedResult × Acceptance) := do
  let raw ← Eff.ofExcept id k.response
  let result ← Eff.ofExcept id
    (parseAndVerifyEnvelope E raw k.turn.binding registration k.verifiedAt)
  let acceptance ← transact E k .accept (acceptDelegatedContext E k.turn.migrationId result)
  pure (result, acceptance)

/-- `DelegatedContextService.prepare`. -/
def prepare (k : PrepareCall) : Eff Raised Point DelegatedWorld (Option Prepared) :=
  match k.registration with
  | .error exc => some <$> fail E k none exc
  | .ok none => pure none
  | .ok (some registration) => do
    match ← attempt (acceptResponse E k registration) with
    | .error exc => some <$> fail E k (some registration) exc
    | .ok (result, acceptance) => some <$> authorize E k registration acceptance result

end Atmem.Delegated
