import Atmem.Common.History
import Atmem.Common.Table
import Atmem.Common.Transaction
import Atmem.Contracts.CanonicalJson
import Atmem.Contracts.Codec
import Atmem.Contracts.Json
import Atmem.Core.Time
import Mathlib.Algebra.Group.Int.Defs
import Mathlib.Data.List.Sort
/-!
# The control store

Evidence of what a memory did is kept in chains, one for each migration and
kind: an entry carries the digest of its body, the digest of the entry
before it and its own. Producers deliver their events to the chain of kind
`agent_blackbox`; what was delivered is kept in a table beside it, by the
producer's position and by the event's identifier, so that an event that is
sent again is known. Pruning deletes from that table and not from the chain.
-/

namespace Atmem.Control

open Checked Relational

/-! ## Tables -/

/-- A row of `evidence`. -/
structure EvidenceRow where
  id : String
  migrationId : String
  kind : String
  sequence : ℕ
  createdAt : Instant
  bodyJson : String
  bodySha256 : String
  prevSha256 : String
  entrySha256 : String
deriving DecidableEq

/-- The columns that the unique constraints of the entries are about. -/
def EvidenceRow.key (r : EvidenceRow) : String × String × String × ℕ :=
  (r.id, r.migrationId, r.kind, r.sequence)

/-- A primary key, and a key of the other columns. -/
def evidenceClash (a b : String × String × String × ℕ) : Bool := eitherClash a b

/-- A row of `execution_deliveries`. -/
structure DeliveryRow where
  id : String
  migrationId : String
  producerInstanceId : String
  producerEpoch : String
  producerSequence : ℤ
  eventId : String
  bodySha256 : String
  evidenceId : String
  receivedAt : Instant
  subjectId : Json
  executionId : Json
  runId : Json
deriving DecidableEq

/-- Where in a producer's stream an event stands. -/
structure Position where
  migrationId : String
  producerInstanceId : String
  producerEpoch : String
  producerSequence : ℤ
deriving DecidableEq

/-- Where in its producer's stream the delivery is. -/
def DeliveryRow.position (r : DeliveryRow) : Position :=
  ⟨r.migrationId, r.producerInstanceId, r.producerEpoch, r.producerSequence⟩

/-- The columns that the unique constraints of the deliveries are about. -/
def DeliveryRow.key (r : DeliveryRow) : String × Position × String :=
  (r.id, r.position, r.eventId)

/-- One primary key, one position, or one event of a migration. -/
def deliveryClash (a b : String × Position × String) : Bool :=
  a.1 = b.1 || a.2.1 = b.2.1 || (a.2.1.migrationId = b.2.1.migrationId && a.2.2 = b.2.2)

/-- A row of `execution_delivery_conflicts`. -/
structure ConflictRow where
  id : String
  position : Position
  eventId : String
  acceptedBodySha256 : String
  conflictingBodySha256 : String
  receivedAt : Instant
deriving DecidableEq

/-- The columns that the unique constraints of the conflicts are about. -/
def ConflictRow.key (r : ConflictRow) : String × Position × String :=
  (r.id, r.position, r.conflictingBodySha256)

/-- Two conflicts cannot both be stored. -/
def conflictClash (a b : String × Position × String) : Bool := eitherClash a b

/-- `CoverageGap`. -/
structure CoverageGap where
  reason : String
  producerInstanceId : String
  producerEpoch : String
  firstSequence : Json
  lastSequence : Json
  detail : Option String
deriving DecidableEq

/-- A row of `execution_coverage_gaps`. -/
structure GapRow where
  id : String
  migrationId : String
  gap : CoverageGap
  createdAt : Instant
deriving DecidableEq

/-- The tables. -/
structure ControlStore where
  migrations : List String := []
  evidence : Table EvidenceRow EvidenceRow.key evidenceClash := .empty
  deliveries : Table DeliveryRow DeliveryRow.key deliveryClash := .empty
  conflicts : Table ConflictRow ConflictRow.key conflictClash := .empty
  gaps : Table GapRow (·.id) (fun a b => decide (a = b)) := .empty

/-! ## The process -/

/-- Where no character stands for half of a pair, none in ASCII does. -/
theorem not_surrogate (c : Char) : (fun _ : Char => false) c = true → 128 ≤ c.toNat :=
  fun h => absurd h Bool.false_ne_true

/-- The hash, the identifiers that are drawn, `str` of a value that is no
text, and the order of numbers one of which is a float. A `str` may hold half
of a surrogate pair, which no text here does: some characters stand for one,
and no ASCII character. -/
structure Engine where
  hashing : Hashing
  uuid : ℕ → String
  str : Json → String
  floatLt : Json → Json → Bool
  surrogate : Char → Bool := fun _ => false
  surrogate_ascii : ∀ c : Char, surrogate c = true → 128 ≤ c.toNat := by exact Atmem.Control.not_surrogate

/-- `value.encode("utf-8")` succeeds. -/
def Engine.encodes (E : Engine) (text : String) : Bool := text.toList.all fun c => !E.surrogate c

/-- A database, a clock, and how often each source was read. -/
structure ControlWorld where
  store : ControlStore := {}
  clock : ℕ → Instant
  ticks : ℕ := 0
  draws : ℕ := 0

/-- The exceptions that the store's methods raise. -/
inductive ControlError
  | valueError (message : String)
  | typeError
  | attributeError
  | bindingError
  | overflowError
  | unicodeEncodeError
  | integrityError
deriving DecidableEq

/-- A computation over the database; what was written stays when it raises. -/
abbrev Ctl (α : Type) : Type := ExceptT ControlError (StateM ControlWorld) α

/-- `utc_now()`. -/
def utcNow : Ctl Instant :=
  Transactional.readOff (fun w => w.clock w.ticks) fun w => { w with ticks := w.ticks + 1 }

/-- `uuid.uuid4().hex` after a prefix. -/
def drawId (E : Engine) (label : String) : Ctl String :=
  Transactional.readOff (fun w => label ++ E.uuid w.draws) fun w => { w with draws := w.draws + 1 }

/-- A result of a computation that touches no database. -/
def liftCtl {α : Type} : Except ControlError α → Ctl α
  | .ok a => pure a
  | .error e => throw e

/-- `BEGIN IMMEDIATE`, and `COMMIT` or `ROLLBACK`. -/
def immediate {α : Type} (body : Ctl α) (w : ControlWorld) :
    Except ControlError α × ControlWorld :=
  match body.run.run w with
  | (.ok a, w') => (.ok a, w')
  | (.error e, w') => (.error e, { w' with store := w.store })

/-- What SQLite takes as a parameter: a text in UTF-8, an integer of 64 bits. -/
def bindable (E : Engine) : Json → Except ControlError Unit
  | .arr _ | .obj _ => .error .bindingError
  | .int n => if -2 ^ 63 ≤ n ∧ n < 2 ^ 63 then .ok () else .error .overflowError
  | .str text => if E.encodes text then .ok () else .error .unicodeEncodeError
  | _ => .ok ()

/-- The parameters of a statement, first to last. -/
def bindAll (E : Engine) (parameters : List Json) : Ctl Unit :=
  liftCtl (ensureAll (bindable E) parameters)

/-! ## Chains -/

/-- What the first entry of a chain cites. -/
def zeroSha256 : String := String.ofList (List.replicate 64 '0')

/-- What the digest of an entry is taken of. -/
def entryPreimage (previousSha256 migrationId kind : String) (sequence : ℕ)
    (bodySha256 : String) : Json :=
  .obj [("prev_sha256", .str previousSha256), ("migration_id", .str migrationId),
    ("kind", .str kind), ("sequence", .int sequence), ("body_sha256", .str bodySha256)]

/-- `evidence_entry_sha256`. -/
def evidenceEntrySha256 (H : Hashing) (previousSha256 migrationId kind : String) (sequence : ℕ)
    (bodySha256 : String) : String :=
  H.sha256Hex (entryPreimage previousSha256 migrationId kind sequence bodySha256).canonicalJson

/-- `WHERE migration_id = ? AND kind = ? ORDER BY sequence`. -/
def ControlStore.chain (s : ControlStore) (migrationId kind : String) : List EvidenceRow :=
  (s.evidence.rows.filter fun r => r.migrationId = migrationId ∧ r.kind = kind).insertionSort
    (·.sequence ≤ ·.sequence)

/-- The entry that comes next in a chain. -/
def ControlStore.nextEntry (s : ControlStore) (H : Hashing)
    (migrationId kind id bodyJson : String) (createdAt : Instant) : EvidenceRow :=
  let previous := (s.chain migrationId kind).getLast?
  let sequence := (previous.map (·.sequence + 1)).getD 1
  let prevSha256 := (previous.map (·.entrySha256)).getD zeroSha256
  let bodySha256 := H.sha256Hex bodyJson
  { id, migrationId, kind, sequence, createdAt, bodyJson, bodySha256, prevSha256
    entrySha256 := evidenceEntrySha256 H prevSha256 migrationId kind sequence bodySha256 }

/-- `INSERT INTO evidence`: the migration is there. -/
def insertEvidence (row : EvidenceRow) : Ctl Unit := do
  let s := (← get).store
  if row.migrationId ∉ s.migrations then throw .integrityError
  match s.evidence.insert row with
  | none => throw .integrityError
  | some evidence => modify fun w => { w with store := { w.store with evidence } }

/-- The body says what format it has. -/
def formatted (body : List (String × Json)) : Bool :=
  match body.lookup "format" with
  | some (.str format) => format ≠ ""
  | _ => false

/-- `append_evidence`. -/
def appendEvidence (E : Engine) (migrationId kind : String) (body : List (String × Json)) :
    Ctl EvidenceRow := do
  if strip kind = [] then throw (.valueError "evidence kind is required")
  if !formatted body then throw (.valueError "evidence body requires a format")
  let bodyJson := (Json.obj body).canonicalJson
  let id ← drawId E "ev_"
  let createdAt ← utcNow
  bindAll E [.str migrationId, .str kind]
  let row := (← get).store.nextEntry E.hashing migrationId kind id bodyJson createdAt
  insertEvidence row
  pure row

/-! ## Verification -/

/-- What `verify_evidence_chain` returns. -/
structure ChainReport where
  valid : Bool
  kind : String
  events : ℕ
  head : String
  errors : List String
deriving DecidableEq

/-- What is wrong with a row at a position, after a given digest. -/
def rowErrors (H : Hashing) (previous : String) (position : ℕ) (row : EvidenceRow) :
    List String :=
  let bodySha256 := H.sha256Hex row.bodyJson
  let expectedEntry :=
    evidenceEntrySha256 H previous row.migrationId row.kind row.sequence bodySha256
  (if row.sequence ≠ position then
    ["sequence " ++ toString row.sequence ++ ": expected position " ++ toString position]
    else []) ++
  (if row.bodySha256 ≠ bodySha256 then
    ["sequence " ++ toString row.sequence ++ ": body digest mismatch"] else []) ++
  (if row.prevSha256 ≠ previous then
    ["sequence " ++ toString row.sequence ++ ": previous digest mismatch"] else []) ++
  (if row.entrySha256 ≠ expectedEntry then
    ["sequence " ++ toString row.sequence ++ ": entry digest mismatch"] else [])

/-- The loop over the rows: the errors and the last digest, as recomputed. -/
def verifyRows (H : Hashing) (previous : String) (position : ℕ) :
    List EvidenceRow → List String × String
  | [] => ([], previous)
  | row :: rest =>
    let expectedEntry := evidenceEntrySha256 H previous row.migrationId row.kind row.sequence
      (H.sha256Hex row.bodyJson)
    let done := verifyRows H expectedEntry (position + 1) rest
    (rowErrors H previous position row ++ done.1, done.2)

/-- `verify_evidence_chain`. -/
def ControlStore.verifyEvidenceChain (s : ControlStore) (H : Hashing) (migrationId kind : String) :
    ChainReport :=
  let rows := s.chain migrationId kind
  let done := verifyRows H zeroSha256 1 rows
  { valid := done.1 = [], kind, events := rows.length, head := done.2, errors := done.1 }

/-! ## Gaps -/

/-- `isinstance(value, (int, float))`. -/
def isNumber : Json → Bool
  | .int _ | .bool _ | .float _ => true
  | _ => false

/-- `a < b` of two values, which only numbers have. -/
def less (E : Engine) : Json → Json → Except ControlError Bool
  | .int m, .int n => .ok (m < n)
  | .bool b, .int n => .ok ((if b then 1 else 0) < n)
  | .int m, .bool b => .ok (m < if b then 1 else 0)
  | .bool a, .bool b => .ok (!a && b)
  | a, b => if isNumber a && isNumber b then .ok (E.floatLt a b) else .error .typeError

/-- `str(value)`. -/
def Engine.text (E : Engine) : Json → String
  | .str s => s
  | j => E.str j

/-- `a or b`. -/
def orElse (a b : Json) : Json := if a.truthy then a else b

/-- A name of a gap: stripped, not empty and not too long. -/
def gapName (name value : String) : Except ControlError String :=
  let text := strip value
  if text = [] ∨ 512 < text.length then
    .error (.valueError (name ++ " is required and must be at most 512 characters"))
  else .ok (String.ofList text)

/-- A bound of a gap is no number below one. -/
def checkPositive (E : Engine) (name : String) (value : Json) : Except ControlError Unit := do
  if value ≠ .null then
    if ← less E value (.int 1) then throw (.valueError (name ++ " must be positive"))

/-- `CoverageGap(...)`. -/
def CoverageGap.make (E : Engine) (gap : CoverageGap) (detail : Json) :
    Except ControlError CoverageGap := do
  let reason ← gapName "reason" gap.reason
  let producerInstanceId ← gapName "producer_instance_id" gap.producerInstanceId
  let producerEpoch ← gapName "producer_epoch" gap.producerEpoch
  checkPositive E "first_sequence" gap.firstSequence
  checkPositive E "last_sequence" gap.lastSequence
  if gap.firstSequence ≠ .null ∧ gap.lastSequence ≠ .null then
    if ← less E gap.lastSequence gap.firstSequence then
      throw (.valueError "last_sequence must not precede first_sequence")
  let text := (strip (E.text detail)).take 512
  pure { gap with
    reason, producerInstanceId, producerEpoch
    detail := if detail = .null ∨ text = [] then none else some (String.ofList text) }

/-- What the `INSERT` of a gap binds, its identifier and time apart. -/
def CoverageGap.parameters (migrationId : String) (gap : CoverageGap) : List Json :=
  [.str migrationId, .str gap.producerInstanceId, .str gap.producerEpoch, .str gap.reason,
    gap.firstSequence, gap.lastSequence, .ofOption .str gap.detail]

/-- `_insert_execution_gap`; what the identifier is the digest of was bound
before. -/
def insertExecutionGap (E : Engine) (migrationId eventId : String) (gap : CoverageGap) :
    Ctl Unit := do
  let id := "gap_" ++ String.ofList
    ((E.hashing.sha256Hex (migrationId ++ ":" ++ eventId)).toList.take 32)
  let createdAt ← utcNow
  bindAll E (gap.parameters migrationId)
  modify fun w => { w with store := { w.store with
    gaps := (w.store.gaps.insert ⟨id, migrationId, gap, createdAt⟩).getD w.store.gaps } }

/-! ## Deliveries -/

/-- An event, as a producer delivers it. -/
structure Delivery where
  migrationId : String
  body : List (String × Json)
  producerInstanceId : String
  producerEpoch : String
  producerSequence : ℤ
  eventId : String
deriving DecidableEq

/-- Where in its producer's stream the delivery is. -/
def Delivery.position (d : Delivery) : Position :=
  ⟨d.migrationId, d.producerInstanceId, d.producerEpoch, d.producerSequence⟩

/-- The canonical text of the body. -/
def Delivery.bodyJson (d : Delivery) : String := (Json.obj d.body).canonicalJson

/-- The digest of what was delivered, whenever it was received. -/
def Delivery.bodySha256 (H : Hashing) (d : Delivery) : String :=
  H.sha256Hex ((Json.obj d.body).without ["received_at"]).canonicalJson

/-- What became of a delivery. -/
inductive Decision
  | accepted | replayed | conflict
deriving DecidableEq

/-- What a delivery is answered. -/
structure DeliveryAnswer where
  decision : Decision
  durablyAccepted : Bool
  eventId : String
  evidenceId : String
  producerSequence : ℤ
  sequence : Option ℕ := none
  entrySha256 : Option String := none
deriving DecidableEq

/-- The row a delivery is taken for: that of its position or its event, the
lowest in its stream where it is both. -/
def ControlStore.existing (s : ControlStore) (d : Delivery) : Option DeliveryRow :=
  ((s.deliveries.rows.filter fun r => r.migrationId = d.migrationId ∧
    (r.position = d.position ∨ r.eventId = d.eventId)).insertionSort
      (·.producerSequence ≤ ·.producerSequence)).head?

/-- An event that is known by its position or its identifier. -/
def classify (E : Engine) (d : Delivery) (existing : DeliveryRow) : Ctl DeliveryAnswer := do
  let decision : Decision :=
    if existing.position = d.position ∧ existing.bodySha256 = d.bodySha256 E.hashing then
      .replayed
    else .conflict
  if decision = .conflict then
    let id ← drawId E "conflict_"
    let receivedAt ← utcNow
    let row : ConflictRow :=
      ⟨id, d.position, d.eventId, existing.bodySha256, d.bodySha256 E.hashing, receivedAt⟩
    modify fun w => { w with store := { w.store with
      conflicts := (w.store.conflicts.insert row).getD w.store.conflicts } }
  pure
    { decision, durablyAccepted := decision = .replayed, eventId := existing.eventId
      evidenceId := existing.evidenceId, producerSequence := d.producerSequence }

/-- The gap a delivery reports, if it reports one. -/
def reportGap (E : Engine) (d : Delivery) : Ctl Unit := do
  if d.body.lookup "event_type" = some (.str "capture.gap") then
    match orElse ((d.body.lookup "payload").getD .null) (.obj []) with
    | .obj payload =>
      let field := fun name => (payload.lookup name).getD .null
      let gap ← liftCtl (CoverageGap.make E
        { reason := E.text (orElse (field "reason") (.str "capture_gap"))
          producerInstanceId := d.producerInstanceId, producerEpoch := d.producerEpoch
          firstSequence := field "first_sequence", lastSequence := field "last_sequence"
          detail := none }
        (orElse (field "error_reason") (field "reason")))
      insertExecutionGap E d.migrationId d.eventId gap
    | _ => throw .attributeError

/-- `INSERT INTO execution_deliveries`: of a positive sequence. -/
def insertDelivery (E : Engine) (row : DeliveryRow) : Ctl Unit := do
  bindAll E [row.subjectId, row.executionId, row.runId]
  if row.producerSequence ≤ 0 then throw .integrityError
  match (← get).store.deliveries.insert row with
  | none => throw .integrityError
  | some deliveries => modify fun w => { w with store := { w.store with deliveries } }

/-- An event that is not known. -/
def acceptNew (E : Engine) (d : Delivery) : Ctl DeliveryAnswer := do
  let evidenceId ← drawId E "ev_"
  let createdAt ← utcNow
  let row := (← get).store.nextEntry E.hashing d.migrationId "agent_blackbox" evidenceId
    d.bodyJson createdAt
  insertEvidence row
  let id ← drawId E "delivery_"
  let field := fun name => (d.body.lookup name).getD .null
  insertDelivery E
    { id, migrationId := d.migrationId, producerInstanceId := d.producerInstanceId
      producerEpoch := d.producerEpoch, producerSequence := d.producerSequence
      eventId := d.eventId, bodySha256 := d.bodySha256 E.hashing, evidenceId
      receivedAt := createdAt, subjectId := field "subject_id"
      executionId := field "execution_id", runId := field "run_id" }
  reportGap E d
  pure
    { decision := .accepted, durablyAccepted := true, eventId := d.eventId, evidenceId
      producerSequence := d.producerSequence, sequence := some row.sequence
      entrySha256 := some row.entrySha256 }

/-- What a delivery is looked up by. -/
def Delivery.parameters (d : Delivery) : List Json :=
  [.str d.migrationId, .str d.producerInstanceId, .str d.producerEpoch, .int d.producerSequence,
    .str d.eventId]

/-- `accept_execution_delivery`. -/
def acceptExecutionDelivery (E : Engine) (d : Delivery) : Ctl DeliveryAnswer := do
  bindAll E d.parameters
  match (← get).store.existing d with
  | some existing => classify E d existing
  | none => acceptNew E d

/-! ## Other calls -/

/-- `create_migration`. -/
def createMigration (E : Engine) (migrationId : String) : Ctl Unit := do
  bindAll E [.str migrationId]
  modify fun w => { w with store := { w.store with
    migrations := if migrationId ∈ w.store.migrations then w.store.migrations
      else w.store.migrations ++ [migrationId] } }

/-- What `prune_execution_projections` counts. -/
structure PruneCounts where
  deliveries : ℕ
  conflicts : ℕ
  gaps : ℕ
deriving DecidableEq

/-- `prune_execution_projections`. -/
def pruneExecutionProjections (E : Engine) (migrationId : String) (before : Instant) :
    Ctl PruneCounts := do
  bindAll E [.str migrationId]
  let s := (← get).store
  let conflicts := s.conflicts.delete fun r =>
    r.position.migrationId = migrationId ∧ r.receivedAt < before
  let gaps := s.gaps.delete fun r => r.migrationId = migrationId ∧ r.createdAt < before
  let deliveries := s.deliveries.delete fun r =>
    r.migrationId = migrationId ∧ r.receivedAt < before
  modify fun w => { w with store := { w.store with conflicts, gaps, deliveries } }
  pure
    { deliveries := s.deliveries.rows.length - deliveries.rows.length
      conflicts := s.conflicts.rows.length - conflicts.rows.length
      gaps := s.gaps.rows.length - gaps.rows.length }

/-- A call of some connection, each one transaction. -/
inductive ControlCall
  | migrate (migrationId : String)
  | append (migrationId kind : String) (body : List (String × Json))
  | accept (delivery : Delivery)
  | prune (migrationId : String) (before : Instant)
deriving DecidableEq

/-- What the store's calls return. -/
inductive ControlAnswer
  | done
  | appended (row : EvidenceRow)
  | delivered (answer : DeliveryAnswer)
  | pruned (counts : PruneCounts)
deriving DecidableEq

/-- Each call is one immediate transaction. -/
def ControlCall.body (E : Engine) :
    ControlCall → ControlWorld → Except ControlError ControlAnswer × ControlWorld
  | .migrate migrationId => immediate (do createMigration E migrationId; pure .done)
  | .append migrationId kind body => immediate (.appended <$> appendEvidence E migrationId kind body)
  | .accept delivery => immediate (.delivered <$> acceptExecutionDelivery E delivery)
  | .prune migrationId before =>
    immediate (.pruned <$> pruneExecutionProjections E migrationId before)

end Atmem.Control
