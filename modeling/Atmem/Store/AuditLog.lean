import Atmem.Common.Program
import Atmem.Contracts.CanonicalJson
import Atmem.Contracts.Codec
import Mathlib.Data.Int.Order.Basic
/-!
# The audit log

`audit_log` with its appends and its two verifications, full and
incremental. Every statement a call runs is one atomic action; an append
reads the head and inserts within one transaction, so it is one action too.
The reader of JSON is a parameter, of which no more is assumed than what
kind of value it returns.
-/

namespace Atmem

open Interleaving

/-- `_load_json(text, {})`. -/
def loadJson (R : JsonReader) (text : String) : Json :=
  if text = "" then .obj [] else (R.loads text).getD (.obj [])

/-- A row of `audit_log`. -/
structure AuditLogRow where
  sequence : ℤ
  eventId : String
  subjectId : String
  eventType : String
  createdAt : String
  actor : String
  sessionId : Option String
  turnId : Option String
  recordId : Option String
  payload : String
  prevHash : Option String
  eventHash : String
deriving DecidableEq

/-- An event, as `list_audit_events` returns it. -/
structure AuditLogEvent where
  sequence : ℤ
  eventId : String
  subjectId : String
  eventType : String
  createdAt : String
  actor : String
  sessionId : Option String
  turnId : Option String
  recordId : Option String
  payload : Json
  prevHash : Option String
  eventHash : String
deriving DecidableEq

/-- `_audit_from_row`. -/
def auditFromRow (R : JsonReader) (row : AuditLogRow) : AuditLogEvent :=
  { sequence := row.sequence, eventId := row.eventId, subjectId := row.subjectId
    eventType := row.eventType, createdAt := row.createdAt, actor := row.actor
    sessionId := row.sessionId, turnId := row.turnId, recordId := row.recordId
    payload := loadJson R row.payload, prevHash := row.prevHash, eventHash := row.eventHash }

/-- The dict that is hashed: an event after a given hash. -/
def preimage (event : AuditLogEvent) (prevHash : Option String) : Json :=
  .obj [("event_id", .str event.eventId), ("subject_id", .str event.subjectId),
    ("event_type", .str event.eventType), ("created_at", .str event.createdAt),
    ("actor", .str event.actor), ("session_id", .ofOption .str event.sessionId),
    ("turn_id", .ofOption .str event.turnId), ("record_id", .ofOption .str event.recordId),
    ("payload", event.payload), ("prev_hash", .ofOption .str prevHash)]

/-- `_event_hash`. -/
def eventHash (H : Hashing) (event : AuditLogEvent) (prevHash : Option String) : String :=
  H.sha256Hex (preimage event prevHash).canonicalJson

/-- A row of `audit_verification_state`, without its key. -/
structure VerificationState where
  sequence : ℤ
  eventHash : String
deriving DecidableEq

/-- The log and the heads that were verified. `sequence` is the primary key
and counts up: it is never given twice. -/
structure AuditDb where
  rows : List AuditLogRow
  /-- `sqlite_sequence`. -/
  lastAssigned : ℤ
  states : String → Option VerificationState
  ordered : rows.Pairwise fun a b => a.sequence < b.sequence
  assigned : ∀ r ∈ rows, r.sequence ≤ lastAssigned

namespace AuditDb

/-- The rows of a subject, `ORDER BY sequence ASC`. -/
def rowsOf (db : AuditDb) (subjectId : String) : List AuditLogRow :=
  db.rows.filter fun r => r.subjectId = subjectId

/-- `list_audit_events`. -/
def listAuditEvents (R : JsonReader) (db : AuditDb) (subjectId : String) : List AuditLogEvent :=
  (db.rowsOf subjectId).map (auditFromRow R)

/-- `event_at_sequence`. -/
def eventAtSequence (R : JsonReader) (db : AuditDb) (subjectId : String) (sequence : ℤ) :
    Option AuditLogEvent :=
  (db.listAuditEvents R subjectId).find? fun e => e.sequence = sequence

/-- `WHERE subject_id = ? AND sequence > ? ORDER BY sequence ASC`. -/
def eventsAfter (R : JsonReader) (db : AuditDb) (subjectId : String) (sequence : ℤ) :
    List AuditLogEvent :=
  (db.listAuditEvents R subjectId).filter fun e => sequence < e.sequence

/-- The `event_hash` of the latest event of a subject. -/
def headHash (db : AuditDb) (subjectId : String) : Option String :=
  (db.rowsOf subjectId).getLast?.map (·.eventHash)

/-- `INSERT INTO audit_log`, with the next sequence; refused where the
`event_id` is there. -/
def insert (db : AuditDb) (row : AuditLogRow) : Option AuditDb :=
  if row.eventId ∈ db.rows.map (·.eventId) then none
  else some
    { db with
      rows := db.rows ++ [{ row with sequence := db.lastAssigned + 1 }]
      lastAssigned := db.lastAssigned + 1
      ordered := List.pairwise_append.mpr ⟨db.ordered, List.pairwise_singleton _ _,
        fun a ha b hb => by
          have hle := db.assigned a ha
          rw [List.mem_singleton.mp hb]
          exact Int.lt_add_one_of_le hle⟩
      assigned := fun r hr => by
        rcases List.mem_append.mp hr with hr | hr
        · have hle := db.assigned r hr
          exact Int.le_of_lt (Int.lt_add_one_of_le hle)
        · rw [List.mem_singleton.mp hr] }

/-- The verified head of a subject, set or deleted. -/
def setState (db : AuditDb) (subjectId : String) (state : Option VerificationState) : AuditDb :=
  { db with states := fun s => if s = subjectId then state else db.states s }

end AuditDb

/-! ## Appending -/

/-- What `append_audit_event` is given, with the id and the time it takes. -/
structure AppendArgs where
  eventId : String
  createdAt : String
  subjectId : String
  eventType : String
  payload : Option (List (String × Json)) := none
  actor : String := "system"
  sessionId : Option String := none
  turnId : Option String := none
  recordId : Option String := none

/-- `_json(payload or {})`. -/
def AppendArgs.payloadJson (args : AppendArgs) : String :=
  (Json.obj (args.payload.getD [])).canonicalJson

/-- The statements of the log's methods. -/
inductive AuditAction
  | append | listAuditEvents | deleteState | readState | eventAtSequence | eventsAfter | upsertState
deriving DecidableEq

/-- What a method of the log may raise. -/
inductive AuditError
  | integrityError | jsonDecodeError
deriving DecidableEq

section Methods

variable (H : Hashing) (R : JsonReader)

/-- The row an append inserts, but for its sequence. -/
def appendedRow (db : AuditDb) (args : AppendArgs) (payload : Json) : AuditLogRow :=
  let prevHash := db.headHash args.subjectId
  let event : AuditLogEvent :=
    { sequence := 0, eventId := args.eventId, subjectId := args.subjectId
      eventType := args.eventType, createdAt := args.createdAt, actor := args.actor
      sessionId := args.sessionId, turnId := args.turnId, recordId := args.recordId
      payload := payload, prevHash := prevHash, eventHash := "" }
  { sequence := 0, eventId := args.eventId, subjectId := args.subjectId
    eventType := args.eventType, createdAt := args.createdAt, actor := args.actor
    sessionId := args.sessionId, turnId := args.turnId, recordId := args.recordId
    payload := args.payloadJson, prevHash := prevHash, eventHash := eventHash H event prevHash }

/-- `append_audit_event`. -/
def appendAuditEvent (args : AppendArgs) : Eff AuditError AuditAction AuditDb String :=
  Eff.action .append fun db =>
    match R.loads args.payloadJson with
    | none => (.error .jsonDecodeError, db)
    | some payload =>
      match db.insert (appendedRow H db args payload) with
      | none => (.error .integrityError, db)
      | some db' => (.ok args.eventId, db')

/-! ## Verifying -/

/-- The loop of `verify_audit_chain`, from a given hash. -/
def verifyFrom (previousHash : Option String) : List AuditLogEvent → Bool
  | [] => true
  | event :: rest =>
    if event.prevHash ≠ previousHash ∨ event.eventHash ≠ eventHash H event previousHash then false
    else verifyFrom (some event.eventHash) rest

/-- `verify_audit_chain`, of the log as it stands. -/
def AuditDb.verifyAuditChain (db : AuditDb) (subjectId : String) : Bool :=
  verifyFrom H none (db.listAuditEvents R subjectId)

/-- `verify_audit_chain`. -/
def verifyAuditChain (subjectId : String) : Eff AuditError AuditAction AuditDb Bool := do
  let events ← Eff.read .listAuditEvents (·.listAuditEvents R subjectId)
  return verifyFrom H none events

/-- What `verify_audit_chain_incremental` returns. -/
structure IncrementalReport where
  valid : Bool
  cachedFromSequence : ℤ
  verifiedThroughSequence : Option ℤ := none
  verifiedEvents : ℕ
  failure : Option String
deriving DecidableEq

/-- The variables of the loop over the suffix. -/
structure Scan where
  previousHash : Option String
  lastSequence : ℤ
  verified : ℕ := 0

/-- The loop over the suffix; a mismatch stops it with the count so far and
the sequence. -/
def scan : Scan → List AuditLogEvent → Except (ℕ × ℤ) Scan
  | at_, [] => .ok at_
  | at_, event :: rest =>
    if event.prevHash ≠ at_.previousHash ∨
        event.eventHash ≠ eventHash H event at_.previousHash then
      .error (at_.verified, event.sequence)
    else scan ⟨some event.eventHash, event.sequence, at_.verified + 1⟩ rest

/-- The cached event is there, and hashes to what was cached. -/
def anchored (anchor : Option AuditLogEvent) (state : VerificationState) : Bool :=
  match anchor with
  | none => false
  | some anchor => anchor.eventHash = state.eventHash &&
      eventHash H anchor anchor.prevHash = anchor.eventHash

/-- The suffix after a head, and the new head. -/
def verifySuffix (subjectId : String) (startSequence : ℤ) (previousHash : Option String) :
    Eff AuditError AuditAction AuditDb IncrementalReport := do
  let rows ← Eff.read .eventsAfter (·.eventsAfter R subjectId startSequence)
  match scan H ⟨previousHash, startSequence, 0⟩ rows with
  | .error (verified, sequence) =>
    return { valid := false, cachedFromSequence := startSequence, verifiedEvents := verified
             failure := some ("audit mismatch at sequence " ++ toString sequence) }
  | .ok done =>
    if done.lastSequence ≠ 0 then
      Eff.action .upsertState fun db =>
        match done.previousHash with
        | none => (.error .integrityError, db)
        | some hash => (.ok (), db.setState subjectId (some ⟨done.lastSequence, hash⟩))
    return { valid := true, cachedFromSequence := startSequence
             verifiedThroughSequence := some done.lastSequence, verifiedEvents := done.verified
             failure := none }

/-- `verify_audit_chain_incremental`. -/
def verifyAuditChainIncremental (subjectId : String) (reset : Bool) :
    Eff AuditError AuditAction AuditDb IncrementalReport := do
  if reset then
    Eff.action .deleteState fun db => (.ok (), db.setState subjectId none)
  let state ← if reset then pure none else Eff.read .readState (·.states subjectId)
  match state with
  | none => verifySuffix H R subjectId 0 none
  | some state =>
    let anchor ← Eff.read .eventAtSequence (·.eventAtSequence R subjectId state.sequence)
    if anchored H anchor state then
      verifySuffix H R subjectId state.sequence (some state.eventHash)
    else
      return { valid := false, cachedFromSequence := state.sequence, verifiedEvents := 0
               failure := some "cached verification anchor is missing or changed" }

end Methods

/-! ## Calls -/

/-- A call of the log. -/
inductive AuditCall
  | append (args : AppendArgs)
  | verify (subjectId : String)
  | verifyIncremental (subjectId : String) (reset : Bool)

/-- What a call returns. -/
inductive AuditOutcome
  | appended (eventId : String)
  | verified (valid : Bool)
  | report (report : IncrementalReport)
deriving DecidableEq

/-- What each call does. -/
def AuditCall.body (H : Hashing) (R : JsonReader) :
    AuditCall → Eff AuditError AuditAction AuditDb AuditOutcome
  | .append args => .appended <$> appendAuditEvent H R args
  | .verify subjectId => .verified <$> verifyAuditChain H R subjectId
  | .verifyIncremental subjectId reset => .report <$> verifyAuditChainIncremental H R subjectId reset

end Atmem
