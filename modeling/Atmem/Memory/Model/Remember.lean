import Atmem.Memory.Model.Proposals
/-!
# Remembering, correcting and forgetting

The operations that are not proposals: a message is remembered through the
extraction rules, a record is corrected, promoted, rejected or forgotten,
duplicates are consolidated, an observation of media is set aside, and a
record is excluded from retrieval.
-/

namespace Atmem.Memory

open Relational

/-! ## Remembering -/

/-- What `remember` is given. -/
structure RememberRequest where
  subjectId : String
  text : String
  force : Bool := false
  sessionId : Option String := none
  turnId : Option String := none
  sourceType : Option String := none
  /-- The texts of `raw` that are screened. -/
  metadata : List String := []
  interpretedFact : Option String := none
  interpretedFactKey : Option String := none
deriving DecidableEq

/-- What `remember` answers. -/
structure Remembered where
  episodeId : Option String := none
  recordIds : List String := []
  duplicateIds : List String := []
  refused : List String := []
deriving DecidableEq

/-- The source type: that of the caller, or what the text looks like. -/
def RememberRequest.source (E : Engine) (q : RememberRequest) : String :=
  if truthy q.sourceType then str q.sourceType else E.classifySource q.text

/-- The reasons the message or what comes with it is refused for. -/
def RememberRequest.refusals (E : Engine) (q : RememberRequest) : List String :=
  (E.screen (decide (q.source E = "user_message")) q.text ++
    (q.interpretedFact.toList ++ q.interpretedFactKey.toList ++ q.metadata).flatMap
      (E.screen true)).eraseDups

/-- The fact the host's agent read in the message. -/
def RememberRequest.interpreted (E : Engine) (q : RememberRequest) (fact : String) :
    CandidateFact where
  content := E.explicitNote fact
  confidence := 1
  sourceType := q.source E
  trustTier := trustTierForSource (q.source E)
  factKey := if truthy q.interpretedFactKey then
    some (normalizeContent E.unicode (str q.interpretedFactKey)) else none
  scope := "host_agent_interpreted"

/-- The facts of a message; a note is kept as it is where the rules find
none and the caller insists. -/
def RememberRequest.candidates (E : Engine) (q : RememberRequest) : List CandidateFact :=
  match q.interpretedFact with
  | some fact => [q.interpreted E fact]
  | none =>
    let found := E.extractFacts q.text (q.source E)
    if q.force ∧ found = [] ∧ q.source E = "user_message" then
      [{ content := E.explicitNote q.text, confidence := 7 / 10, sourceType := q.source E
         trustTier := trustTierForSource (q.source E), factKey := none, scope := "user_note" }]
    else found

/-- A trusted fact is a duplicate of active records only. -/
def CandidateFact.duplicateStatuses (c : CandidateFact) : List RecordStatus :=
  if initialStatus c.trustTier = .active then [.active] else [.active, .quarantined]

/-- One fact of a message: the duplicate it is, or the record it becomes,
which supersedes the active records of its slot where it is active itself. -/
def rememberCandidate (E : Engine) (q : RememberRequest) (episodeId : String)
    (c : CandidateFact) : Mem (String ⊕ String) := do
  let status := initialStatus c.trustTier
  match ← readStore fun s =>
      s.findDuplicateRecord E.unicode q.subjectId c.content c.duplicateStatuses with
  | some duplicate => pure (.inl duplicate.id)
  | none =>
    let old ← readStore fun s =>
      if status = .active then s.activeRecordsForFactKey q.subjectId c.factKey else []
    let recordId ← insertRecord E
      { subjectId := q.subjectId, content := c.content, sourceType := c.sourceType
        trustTier := c.trustTier, sourceSessionId := q.sessionId, sourceTurnId := q.turnId
        episodeId := some episodeId, confidence := some c.confidence, scope := c.scope, status
        supersedesId := old.head?.map (·.id), factKey := c.factKey }
    supersedeRecords q.subjectId (old.map (·.id)) recordId
    pure (.inr recordId)

/-- The candidates in turn. -/
def rememberCandidates (E : Engine) (q : RememberRequest) (episodeId : String) :
    List CandidateFact → Mem Remembered
  | [] => pure { episodeId := some episodeId }
  | c :: cs => do
    let one ← rememberCandidate E q episodeId c
    let others ← rememberCandidates E q episodeId cs
    pure (match one with
      | .inl id => { others with duplicateIds := id :: others.duplicateIds }
      | .inr id => { others with recordIds := id :: others.recordIds })

/-- The active record an interpreted fact repeats. -/
def interpretedDuplicate (E : Engine) (q : RememberRequest) : Mem (Option RecordRow) :=
  match q.interpretedFact with
  | none => pure none
  | some fact => do
    let content := (q.interpreted E fact).content
    if 2000 < content.length then
      throw (.valueError "interpreted fact exceeds 2,000 characters")
    readStore fun s => s.findDuplicateRecord E.unicode q.subjectId content [.active]

/-- `remember`. -/
def remember (E : Engine) (q : RememberRequest) : Mem Remembered := do
  if q.interpretedFact.isSome ∧ q.source E ≠ "user_message" then
    throw (.valueError "interpreted facts require a trusted user message")
  if q.refusals E ≠ [] then pure { refused := q.refusals E }
  else
    match ← interpretedDuplicate E q with
    | some duplicate => pure { duplicateIds := [duplicate.id] }
    | none =>
      let episodeId ← insertEpisode E q.subjectId q.text (q.source E)
      rememberCandidates E q episodeId (q.candidates E)

/-! ## Correction -/

/-- What `correct_record` remembers in the record's place. -/
def correctionRequest (subjectId recordId corrected : String) (old : RecordRow) :
    RememberRequest where
  subjectId
  text := corrected
  sourceType := some "user_message"
  metadata := ["interpreter", "interpreter: human-correction", "interpretation_assurance",
    "interpretation_assurance: verified_by_user", "source_binding",
    "source_binding: dashboard-exact-record-correction"]
  interpretedFact := some corrected
  interpretedFactKey := if truthy old.factKey then old.factKey
    else some ("correction-" ++ recordId)

/-- `correct_record`. -/
def correctRecord (E : Engine) (subjectId recordId correctedText : String) : Mem String := do
  match ← readStore fun s => s.getRecord subjectId recordId with
  | none => throw (.valueError ("record " ++ recordId ++ " is not active for " ++ subjectId))
  | some old =>
    if old.status ≠ .active then
      throw (.valueError ("record " ++ recordId ++ " is not active for " ++ subjectId))
    let corrected := String.ofList (strip correctedText)
    if corrected = "" ∨ corrected = String.ofList (strip old.content) then
      throw (.valueError "corrected memory must be non-empty and different")
    let result ← remember E (correctionRequest subjectId recordId corrected old)
    match result.recordIds with
    | [] => throw (.valueError "correction did not create a replacement memory")
    | replacementId :: _ =>
      supersedeRecords subjectId [recordId] replacementId
      pure replacementId

/-! ## Forgetting -/

/-- `tombstone_media_observations_for_records`. -/
def tombstoneObservations (subjectId : String) (recordIds : List String) : Mem Unit :=
  writeStore fun s => { s with
    observations := s.observations.map fun o =>
      if o.subjectId = subjectId ∧ o.recordId ∈ recordIds then { o with status := .tombstoned }
      else o }

/-- `_purge_record_ids`. -/
def purgeRecordIds (subjectId : String) (recordIds : List String) : Mem (List String) := do
  let purged ← tombstoneRecords subjectId recordIds.eraseDups
  tombstoneObservations subjectId recordIds
  pure purged.1

/-- `forget_record`. -/
def forgetRecord (subjectId recordId : String) : Mem (List String) := do
  let record ← readStore fun s => s.getRecord subjectId recordId
  if record.all (·.status = .tombstoned) then
    throw (.valueError ("record " ++ recordId ++ " is not available for deletion"))
  purgeRecordIds subjectId [recordId]

/-- The records `forget` selects: their content holds the needle. -/
def MemoryStore.holding (s : MemoryStore) (U : UnicodeTables) (subjectId needle : String) :
    List String :=
  ((s.listRecords subjectId [.active, .quarantined, .superseded]).filter fun r =>
    (U.lower r.content).toList.tails.any (U.lower needle).toList.isPrefixOf).map (·.id)

/-- `forget`; an empty selector is refused, not read as everything. -/
def forget (E : Engine) (subjectId contains : String) : Mem (List String) := do
  if contains = "" then pure []
  else purgeRecordIds subjectId (← readStore fun s => s.holding E.unicode subjectId contains)

/-- `reject`. -/
def reject (subjectId recordId : String) : Mem (List String) := do
  let record ← readStore fun s => s.getRecord subjectId recordId
  if record.all (·.status ≠ .quarantined) then
    throw (.valueError ("record " ++ recordId ++ " is not quarantined for " ++ subjectId))
  purgeRecordIds subjectId [recordId]

/-! ## Promotion -/

/-- `active_media_records_for_lineage`. -/
def MemoryStore.activeMediaRecordsForLineage (s : MemoryStore) (subjectId lineageSha256 : String)
    (excludeRecordId : String) : List RecordRow :=
  (((s.observations.filter fun o => o.subjectId = subjectId ∧ o.lineageSha256 = lineageSha256)
    |>.filterMap fun o => s.getRecord o.subjectId o.recordId).filter fun r =>
      r.status = .active ∧ r.id ≠ excludeRecordId).insertionSort MemoryStore.older

/-- The active records a promoted one takes the place of. -/
def MemoryStore.displacedBy (s : MemoryStore) (record : RecordRow)
    (observation : Option MediaObservationRow) : List String :=
  (s.activeRecordsForFactKey record.subjectId record.factKey (some record.id) ++
    match observation with
    | none => []
    | some o => s.activeMediaRecordsForLineage record.subjectId o.lineageSha256 record.id).map
      (·.id) |>.eraseDups

/-- `promote`. -/
def promote (E : Engine) (subjectId recordId : String) : Mem (List String) := do
  let observation ← readStore fun s => s.observations.find? fun o =>
    o.subjectId = subjectId ∧ o.recordId = recordId
  match ← promoteRecord E subjectId recordId with
  | none => throw (.valueError ("record " ++ recordId ++ " is not quarantined for " ++ subjectId))
  | some record =>
    let old ← readStore fun s => s.displacedBy record observation
    supersedeRecords subjectId old recordId
    pure old

/-! ## Consolidation -/

/-- The rows of each key, the keys in the order they first occur. -/
def groupsBy {κ : Type} [BEq κ] (key : RecordRow → κ) (rows : List RecordRow) :
    List (List RecordRow) :=
  (rows.map key).eraseDups.map fun k =>
    (rows.filter fun r => key r == k).insertionSort MemoryStore.older

/-- The newest of a group supersedes the rest. -/
def consolidateGroup (subjectId : String) (group : List RecordRow) : Mem (List String) :=
  match group.getLast? with
  | none => pure []
  | some keeper => do
    let old := group.dropLast.map (·.id)
    supersedeRecords subjectId old keeper.id
    pure old

/-- The groups in turn; what is returned was superseded. -/
def consolidateGroups (subjectId : String) : List (List RecordRow) → Mem (List String)
  | [] => pure []
  | group :: groups => do
    let old ← consolidateGroup subjectId group
    let others ← consolidateGroups subjectId groups
    pure (old ++ others)

/-- `consolidate`. -/
def consolidate (E : Engine) (subjectId : String) : Mem (List String × List String) := do
  let active ← readStore fun s => s.listRecords subjectId [.active]
  let groups := groupsBy (fun r => normalizeContent E.unicode r.content) active
  let duplicates ← consolidateGroups subjectId groups
  let survivors := groups.filterMap List.getLast?
  let repaired ← consolidateGroups subjectId
    (groupsBy (·.factKey) (survivors.filter fun r => truthy r.factKey))
  pure (duplicates, repaired)

/-! ## Derived facts -/

/-- One fact a consolidation job proposes. -/
structure DerivedFact where
  content : String
  evidence : List String
  factKey : Option String := none
  confidence : Rat := 1 / 2
deriving DecidableEq

/-- One proposal of `propose_facts`; what is there is read once, before the
first. -/
def proposeFact (E : Engine) (subjectId : String) (sessionId : Option String)
    (known : List String) (visible : List RecordRow) (fact : DerivedFact) :
    Mem (Option RecordRow) := do
  let content := String.ofList (strip fact.content)
  let norm := normalizeContent E.unicode content
  if content = "" ∨ fact.evidence = [] ∨ ¬ (∀ e ∈ fact.evidence, e ∈ known) ∨
      (norm ≠ "" ∧ visible.any fun r => normalizeContent E.unicode r.content = norm) then
    pure none
  else
    let recordId ← insertRecord E
      { subjectId, content, sourceType := "derived", trustTier := .derived
        sourceSessionId := sessionId, confidence := some fact.confidence, scope := "user_private"
        status := .quarantined
        factKey := if truthy fact.factKey then
          some (String.ofList (strip (E.unicode.lower (str fact.factKey)))) else none }
    readStore fun s => s.getRecord subjectId recordId

/-- The facts in turn, each with the records made before it. -/
def proposeEach (E : Engine) (subjectId : String) (sessionId : Option String)
    (known : List String) : List RecordRow → List DerivedFact → Mem (List String)
  | _, [] => pure []
  | visible, fact :: facts => do
    let record ← proposeFact E subjectId sessionId known visible fact
    let others ← proposeEach E subjectId sessionId known (visible ++ record.toList) facts
    pure ((record.map (·.id)).toList ++ others)

/-- `propose_facts`. -/
def proposeFacts (E : Engine) (subjectId : String) (facts : List DerivedFact)
    (sessionId : Option String) : Mem (List String) := do
  let known ← readStore fun s =>
    (s.episodes.filter (·.subjectId = subjectId)).map (·.id) ++
      (s.records.rows.filter (·.subjectId = subjectId)).map (·.id)
  let visible ← readStore fun s => s.listRecords subjectId [.active, .quarantined]
  proposeEach E subjectId sessionId known visible facts

/-! ## Exclusion -/

/-- `set_retrieval_excluded`. -/
def setRetrievalExcluded (E : Engine) (subjectId recordId : String) (excluded : Bool) :
    Mem Unit := do
  match ← readStore fun s => s.getRecord subjectId recordId with
  | none => throw (.valueError ("record " ++ recordId ++ " is not active for " ++ subjectId))
  | some record =>
    if record.status ≠ .active then
      throw (.valueError ("record " ++ recordId ++ " is not active for " ++ subjectId))
    writeStore fun s => { s with
      exclusions := s.exclusions.filter (· ≠ (subjectId, recordId)) ++
        if excluded then [(subjectId, recordId)] else [] }
    match record.raw.typedUnit with
    | none => pure ()
    | some fields =>
      let unit ← liftMem (MemoryUnit.make fields)
      let row : ExclusionIdentityRow :=
        { subjectId, workspaceId := unit.val.scope.val.workspaceId, recordId
          exclusionIdentity := ← liftMem (unit.exclusionIdentity E.hashing) }
      writeStore fun s => { s with
        exclusionIdentities := (s.exclusionIdentities.filter fun r =>
          ¬ (r.subjectId = subjectId ∧ r.recordId = recordId)) ++ if excluded then [row] else [] }

/-! ## Media -/

/-- What is read of an observation's envelope. -/
structure MediaObservation where
  text : String
  lineageSha256 : String
  envelopeSha256 : String
deriving DecidableEq

/-- `insert_media_observation`: a record has one observation, a subject one
of an envelope. -/
def insertMediaObservation (E : Engine) (subjectId recordId : String)
    (observation : MediaObservation) : Mem String := do
  let id ← newId E "obs"
  let createdAt ← utcNow
  let row : MediaObservationRow :=
    { id, subjectId, recordId, lineageSha256 := observation.lineageSha256
      envelopeSha256 := observation.envelopeSha256, status := .current, createdAt }
  let clash : Bool ← readStore fun s => s.observations.any fun o => o.id = id ∨
    o.recordId = recordId ∨ (o.subjectId = subjectId ∧
      o.envelopeSha256 = observation.envelopeSha256)
  if clash then throw .integrityError
  writeStore fun s => { s with observations := s.observations ++ [row] }
  pure id

/-- `remember_observation`: a duplicate is answered, and what is new is set
aside in the place of the current observations of its lineage. -/
def rememberObservation (E : Engine) (subjectId : String) (observation : MediaObservation)
    (sessionId turnId : Option String) : Mem String := do
  match ← readStore fun s => s.observations.find? fun o =>
      o.subjectId = subjectId ∧ o.envelopeSha256 = observation.envelopeSha256 ∧
        o.status ≠ .tombstoned with
  | some duplicate => pure duplicate.recordId
  | none =>
    let previous ← readStore fun s => s.observations.filter fun o =>
      o.subjectId = subjectId ∧ o.lineageSha256 = observation.lineageSha256 ∧ o.status = .current
    let episodeId ← insertEpisode E subjectId observation.text "tool_output"
    let recordId ← insertRecord E
      { subjectId, content := observation.text, sourceType := "tool_output"
        trustTier := .untrustedContent, sourceSessionId := sessionId, sourceTurnId := turnId
        episodeId := some episodeId, scope := "media_observation", status := .quarantined }
    let observationId ← insertMediaObservation E subjectId recordId observation
    if previous ≠ [] then
      let now ← utcNow
      writeStore fun s => (previous.map (·.id)).foldl
        (fun s id => s.supersedeObservation subjectId observationId now id) s
    pure recordId

end Atmem.Memory
