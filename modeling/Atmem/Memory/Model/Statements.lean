import Mathlib.Data.List.Sort
import Atmem.Memory.Model.Schema
/-!
# The statements of the memory store

The queries, as functions of the store, and the changes an operation makes,
each with the indexes the source keeps beside it by hand. What a method of
the store does to one record is a function of the store here, and a method
over several records folds it.
-/

namespace Atmem.Memory

open Relational

namespace MemoryStore

variable (s : MemoryStore)

/-! ## Queries -/

/-- `ORDER BY created_at, id`. -/
def older (a b : RecordRow) : Prop :=
  a.createdAt < b.createdAt ∨ (a.createdAt = b.createdAt ∧ a.id ≤ b.id)

instance : DecidableRel older := fun a b =>
  inferInstanceAs (Decidable (a.createdAt < b.createdAt ∨ (a.createdAt = b.createdAt ∧ a.id ≤ b.id)))

/-- `ORDER BY created_at DESC, id DESC`. -/
def newer (a b : RecordRow) : Prop := older b a

instance : DecidableRel newer := fun a b => inferInstanceAs (Decidable (older b a))

/-- `get_record`. -/
def getRecord (subjectId recordId : String) : Option RecordRow :=
  s.records.rows.find? fun r => r.subjectId = subjectId ∧ r.id = recordId

/-- `list_records`, the oldest first. -/
def listRecords (subjectId : String) (statuses : List RecordStatus) : List RecordRow :=
  (s.records.rows.filter fun r => r.subjectId = subjectId ∧ r.status ∈ statuses).insertionSort older

/-- `find_duplicate_record`: by the normal form, if it is not empty. -/
def findDuplicateRecord (U : UnicodeTables) (subjectId content : String)
    (statuses : List RecordStatus) : Option RecordRow :=
  let normalized := normalizeContent U content
  if normalized = "" then none
  else
    ((s.records.rows.filter fun r => r.subjectId = subjectId ∧
      r.contentNormalized = some normalized ∧ r.status ∈ statuses).insertionSort older).head?

/-- `active_records_for_fact_key`. -/
def activeRecordsForFactKey (subjectId : String) (factKey : Option String)
    (excludeId : Option String := none) : List RecordRow :=
  if truthy factKey then
    (s.records.rows.filter fun r => r.subjectId = subjectId ∧ r.factKey = factKey ∧
      r.status = .active ∧ some r.id ≠ excludeId).insertionSort older
  else []

/-- `excluded_record_ids`. -/
def excludedRecordIds (subjectId : String) : List String :=
  (s.exclusions.filter (·.1 = subjectId)).map (·.2)

/-- `COALESCE` of the payload's subject and entity. -/
def slotSubject (unit : MemoryUnitFields) : Option String :=
  unit.payload.subject.or unit.payload.entity

/-- `active_records_for_typed_slot`. -/
def activeRecordsForTypedSlot (subjectId workspaceId subject relation : String) :
    List RecordRow :=
  let matched (value : Option String) (wanted : String) : Bool :=
    value.any fun v => v.toLower = wanted.toLower
  (s.records.rows.filter fun r => r.subjectId = subjectId ∧ r.status = .active ∧
    r.authorityWorkspaceId = some workspaceId ∧ r.authoritySubjectId = some subjectId ∧
    r.authorityMaterialized ∧
    matched (r.raw.typedUnit.bind slotSubject) subject ∧
    matched (r.raw.typedUnit.bind (·.payload.relation)) relation ∧
    (s.typedUnits.any fun u => u.recordId = r.id ∧ u.subjectId = r.subjectId ∧
      u.workspaceId = workspaceId ∧ u.lifecycle = .active) ∧
    (r.subjectId, r.id) ∉ s.exclusions).insertionSort older

/-- The records of `bounded_resolution_context`. -/
def boundedRecords (subjectId : String) (workspaceId : Option String) (limit : ℕ) :
    List RecordRow :=
  ((s.records.rows.filter fun r => r.subjectId = subjectId ∧ r.status = .active ∧
    (workspaceId.all fun w => r.authorityWorkspaceId = none ∨ r.authorityWorkspaceId = some w) ∧
    (r.subjectId, r.id) ∉ s.exclusions).insertionSort newer).take (min limit 100)

/-- `find_live_typed_identity`: by the identity the unit was stored with. The
legacy identities that a migration mapped to it (`typed_identity_mappings`) are
left out. -/
def findLiveTypedIdentity (subjectId workspaceId identity : String) : Option TypedUnitRow :=
  s.typedUnits.find? fun u => u.subjectId = subjectId ∧ u.workspaceId = workspaceId ∧ u.live ∧
    u.semanticIdentity = some identity

/-- `has_typed_exclusion_identity`. -/
def hasTypedExclusionIdentity (subjectId workspaceId identity : String) : Bool :=
  s.exclusionIdentities.any fun r => r.subjectId = subjectId ∧ r.workspaceId = workspaceId ∧
    r.exclusionIdentity = identity

/-- `get_protocol_source`. -/
def getProtocolSource (workspaceId agentId idempotencyKey : String) :
    Option ProtocolSourceRow :=
  s.sources.rows.find? fun r => r.workspaceId = workspaceId ∧ r.agentId = agentId ∧
    r.idempotencyKey = idempotencyKey

/-- `get_protocol_source_by_id`. -/
def getProtocolSourceById (sourceId : String) : Option ProtocolSourceRow :=
  s.sources.rows.find? fun r => r.sourceId = sourceId

/-- `get_episode`. -/
def getEpisode (subjectId episodeId : String) : Option EpisodeRow :=
  s.episodes.find? fun r => r.subjectId = subjectId ∧ r.id = episodeId

/-- `get_protocol_proposal`. -/
def getProtocolProposal (workspaceId agentId idempotencyKey : String) :
    Option ProtocolProposalRow :=
  s.protocolProposals.rows.find? fun r => r.workspaceId = workspaceId ∧ r.agentId = agentId ∧
    r.idempotencyKey = idempotencyKey

/-- `get_memory_proposal`. -/
def getMemoryProposal (proposalId : String) : Option MemoryProposalRow :=
  s.memoryProposals.rows.find? fun r => r.proposalId = proposalId

/-- `find_memory_proposal`. -/
def findMemoryProposal (subjectId agentId workspaceId idempotencyKey : String) :
    Option MemoryProposalRow :=
  s.memoryProposals.rows.find? fun r => r.subjectId = subjectId ∧ r.agentId = agentId ∧
    r.workspaceId = workspaceId ∧ r.idempotencyKey = idempotencyKey

/-! ## The indexes -/

/-- The row identifier the database assigns. -/
def nextRowid (rows : List FtsRow) : ℕ := (rows.map (·.rowid)).foldr max 0 + 1

/-- `_upsert_fts`. -/
def upsertFts (recordId subjectId content : String) : MemoryStore :=
  if ¬ s.ftsEnabled then s
  else
    match s.ftsMap.find? (·.recordId = recordId) with
    | none =>
      let rowid := nextRowid s.ftsRows
      { s with
        ftsRows := s.ftsRows ++ [{ rowid, recordId, subjectId, content }]
        ftsMap := s.ftsMap ++ [{ recordId, subjectId, ftsRowid := rowid }] }
    | some mapped =>
      { s with
        ftsRows := s.ftsRows.filter (·.rowid ≠ mapped.ftsRowid) ++
          [{ rowid := mapped.ftsRowid, recordId, subjectId, content }]
        ftsMap := s.ftsMap.map fun m =>
          if m.recordId = recordId then { m with subjectId } else m }

/-- `_delete_fts`. -/
def deleteFts (recordId : String) : MemoryStore :=
  if ¬ s.ftsEnabled then s
  else
    match s.ftsMap.find? (·.recordId = recordId) with
    | none => s
    | some mapped =>
      { s with
        ftsRows := s.ftsRows.filter (·.rowid ≠ mapped.ftsRowid)
        ftsMap := s.ftsMap.filter (·.recordId ≠ recordId) }

/-- `_delete_search_terms`. -/
def deleteSearchTerms (recordId : String) : MemoryStore :=
  { s with searchTerms := s.searchTerms.filter (·.recordId ≠ recordId) }

/-- The postings of a record: one row for each distinct term of its fact
key. -/
def postings (U : UnicodeTables) (recordId subjectId workspaceId : String)
    (factKey : Option String) : List SearchTermRow :=
  let terms := Atmem.searchTerms U (factKey.getD "")
  terms.eraseDups.map fun term =>
    { recordId, subjectId, workspaceId, field := "fact_key", term
      termFrequency := terms.count term }

/-- `_upsert_search_terms`; the content goes to the full text alone. -/
def upsertSearchTerms (U : UnicodeTables) (recordId subjectId workspaceId : String)
    (factKey : Option String) : MemoryStore :=
  { s with searchTerms := s.searchTerms.filter (·.recordId ≠ recordId) ++
      postings U recordId subjectId workspaceId factKey }

/-- `_rebuild_fts`. -/
def rebuildFts : MemoryStore :=
  let rows := (s.records.rows.filter (·.status = .active)).zipIdx.map fun r : RecordRow × ℕ =>
    { rowid := r.2 + 1, recordId := r.1.id, subjectId := r.1.subjectId, content := r.1.content :
      FtsRow }
  { s with
    ftsRows := rows
    ftsMap := rows.map fun f =>
      { recordId := f.recordId, subjectId := f.subjectId, ftsRowid := f.rowid } }

/-! ## One record -/

/-- The workspace a record's postings are kept under. -/
def postingsWorkspace (raw : RecordRaw) : String :=
  match raw.authorityScope with
  | some scope => scope.val.workspaceId
  | none => ""

/-- `UPDATE records` of the row of an identifier: the trigger advances its
generation. -/
def updateRecord (subjectId recordId : String) (f : RecordRow → RecordRow)
    (hf : ∀ r, (f r).id = r.id) : MemoryStore :=
  { s with
    records := s.records.update (fun r => r.subjectId = subjectId ∧ r.id = recordId)
      (fun r => { f r with generation := r.generation + 1 }) hf }

/-- `UPDATE typed_memory_units` of the unit of a record. -/
def updateUnit (recordId : String) (p : UnitLifecycle → Bool) (f : TypedUnitRow → TypedUnitRow) :
    MemoryStore :=
  { s with
    typedUnits := s.typedUnits.map fun u =>
      if u.recordId = recordId ∧ p u.lifecycle then { f u with generation := u.generation + 1 }
      else u }

/-- `raw["typed_unit"]["lifecycle"] = lifecycle`, where there is a unit. -/
def withUnitLifecycle (raw : RecordRaw) (lifecycle : UnitLifecycle) : RecordRaw :=
  { raw with typedUnit := raw.typedUnit.map fun u => { u with lifecycle } }

/-- One record of `supersede_records`. -/
def supersedeRecord (subjectId supersededById : String) (now : Instant) (recordId : String) :
    MemoryStore :=
  match s.getRecord subjectId recordId with
  | none => s
  | some row =>
    if row.status = .active then
      let s := s.updateRecord subjectId recordId (fun r => { r with
        status := .superseded
        updatedAt := some now
        raw := withUnitLifecycle { r.raw with supersededById := some supersededById } .superseded })
        fun _ => rfl
      ((s.deleteFts recordId).deleteSearchTerms recordId).updateUnit recordId
        (· ∈ [UnitLifecycle.active, .quarantined]) fun u => { u with lifecycle := .superseded }
    else s

/-- `promote_record`, of a row that is quarantined. -/
def promote (U : UnicodeTables) (row : RecordRow) (trustTier : TrustTier) (now : Instant) :
    MemoryStore :=
  let s := s.updateRecord row.subjectId row.id (fun r => { r with
    status := .active
    trustTier
    updatedAt := some now
    raw := withUnitLifecycle r.raw .active }) fun _ => rfl
  ((s.upsertFts row.id row.subjectId row.content).upsertSearchTerms U row.id row.subjectId
    (postingsWorkspace row.raw) row.factKey).updateUnit row.id
      (· = .quarantined) fun u => { u with lifecycle := .active }

/-- The proposal of a record is redacted with it. -/
def redactProposal (proposalId : String) : MemoryStore :=
  { s with
    memoryProposals := s.memoryProposals.update (·.proposalId = proposalId)
      (fun r => { r with proposal := none }) fun _ => rfl }

/-- The evidence rows of the unit of a record. -/
def evidenceOf (recordId : String) : List UnitEvidenceRow :=
  s.unitEvidence.filter fun e => s.typedUnits.any fun u => u.recordId = recordId ∧
    u.subjectId = e.subjectId ∧ u.workspaceId = e.workspaceId ∧ u.unitId = e.unitId

/-- One record of `tombstone_records`. -/
def tombstoneRecord (subjectId : String) (now : Instant) (recordId : String) : MemoryStore :=
  match s.getRecord subjectId recordId with
  | none => s
  | some row =>
    if row.status = .tombstoned then s
    else
      -- read before the unit goes
      let evidence := s.evidenceOf recordId
      let s := s.updateRecord subjectId recordId (fun r => { r with
        status := .tombstoned
        content := ""
        contentNormalized := none
        factKey := none
        updatedAt := some now
        deletedAt := some now
        raw := { purged := true } }) fun _ => rfl
      let s := ((s.deleteFts recordId).deleteSearchTerms recordId).updateUnit recordId
        (· ≠ .deleted) fun u => { u with lifecycle := .deleted, semanticIdentity := none }
      let s : MemoryStore := { s with
        unitEvidence := s.unitEvidence.filter fun e => ¬ evidence.any fun d =>
          d.subjectId = e.subjectId ∧ d.workspaceId = e.workspaceId ∧ d.unitId = e.unitId }
      match row.raw.proposalId with
      | some proposalId => s.redactProposal proposalId
      | none => s

/-! ## Purging sources -/

/-- `_source_in_use`. -/
def sourceInUse (sourceId : String) : Bool :=
  match s.getProtocolSourceById sourceId with
  | none => false
  | some source =>
    (s.unitEvidence.any fun e => e.sourceId = sourceId ∧ s.typedUnits.any fun u =>
      u.subjectId = e.subjectId ∧ u.workspaceId = e.workspaceId ∧ u.unitId = e.unitId ∧
        u.lifecycle ≠ .deleted) ||
    (s.records.rows.any fun r => r.episodeId = some source.episodeId ∧ r.status ≠ .tombstoned) ||
    (s.proposalSources.any fun ps => ps.sourceId = sourceId ∧
      s.memoryProposals.rows.any fun p => p.proposalId = ps.proposalId ∧
        p.reviewState = .pendingReview) ||
    s.records.rows.any fun r => r.subjectId = source.subjectId ∧ r.status ≠ .tombstoned ∧
      sourceId ∈ r.raw.sourceIds

/-- `_purge_protocol_source`, and the episode whose body goes with it. -/
def purgeProtocolSource (now : Instant) (sourceId : String) : MemoryStore × Option String :=
  match s.getProtocolSourceById sourceId with
  | none => (s, none)
  | some source =>
    if s.sourceInUse sourceId then (s, none)
    else
      let linked (proposalId : String) : Bool :=
        s.proposalSources.any fun ps => ps.sourceId = sourceId ∧ ps.proposalId = proposalId
      ({ s with
        memoryProposals := s.memoryProposals.update (fun p => linked p.proposalId)
          (fun p => { p with
            proposal := none
            factKey := none
            reviewState := if p.reviewState = .pendingReview then .stale else p.reviewState
            decidedAt := if p.reviewState = .pendingReview then some now else p.decidedAt })
          fun _ => rfl
        sources := s.sources.update (·.sourceId = sourceId)
          (fun r => { r with request := none, retained := false }) fun _ => rfl },
        some source.episodeId)

/-- Purge sources one after the other. -/
def purgeSources (now : Instant) : List String → MemoryStore → MemoryStore × List String
  | [], s => (s, [])
  | sourceId :: rest, s =>
    let purged := s.purgeProtocolSource now sourceId
    let others := purgeSources now rest purged.1
    (others.1, purged.2.toList ++ others.2)

/-- The bodies of episodes are overwritten. -/
def purgeEpisodes (subjectId : String) (episodeIds : List String) : MemoryStore :=
  { s with
    episodes := s.episodes.map fun e =>
      if e.subjectId = subjectId ∧ e.id ∈ episodeIds then { e with message := "[purged]" } else e }

/-- What `tombstone_records` purges of the episodes and sources, once the
records are tombstoned: the episodes only tombstoned records come from, but
those of typed records, and the sources no one uses any more. -/
def purgeOrigins (subjectId : String) (now : Instant) (changed : List String)
    (typedRecordIds typedSourceIds : List String) : MemoryStore × List String :=
  let episodesOf (ids : List String) : List String :=
    ((s.records.rows.filter fun r => r.id ∈ ids).filterMap (·.episodeId)).eraseDups
  let own := (episodesOf (changed.filter fun id => (s.getRecord subjectId id).isSome)).filter
    fun e => e ∉ episodesOf typedRecordIds ∧
      ¬ s.records.rows.any fun r => r.episodeId = some e ∧ r.status ≠ .tombstoned
  let (s, purged) := purgeSources now typedSourceIds s
  let episodeIds := (own ++ purged).eraseDups
  let sourcesOf := s.sources.rows.filter fun r => r.episodeId ∈ episodeIds
  let episodeIds := episodeIds.filter fun e =>
    ¬ sourcesOf.any fun r => r.episodeId = e ∧ s.sourceInUse r.sourceId
  let (s, _) := purgeSources now
    ((sourcesOf.filter fun r => r.episodeId ∈ episodeIds).map (·.sourceId)) s
  (s.purgeEpisodes subjectId episodeIds, episodeIds)

end MemoryStore

/-! ## Methods -/

/-- What `insert_record` is given. -/
structure NewRecord where
  subjectId : String
  content : String
  sourceType : String
  trustTier : TrustTier
  sourceSessionId : Option String := none
  sourceTurnId : Option String := none
  episodeId : Option String := none
  confidence : Option Rat := none
  scope : String
  status : RecordStatus := .active
  supersedesId : Option String := none
  factKey : Option String := none
  raw : RecordRaw := {}

/-- The row it stores. -/
def NewRecord.row (U : UnicodeTables) (r : NewRecord) (id : String) (createdAt : Instant) :
    RecordRow where
  id
  subjectId := r.subjectId
  content := r.content
  contentNormalized := some (normalizeContent U r.content)
  sourceType := r.sourceType
  trustTier := r.trustTier
  sourceSessionId := r.sourceSessionId
  sourceTurnId := r.sourceTurnId
  episodeId := r.episodeId
  createdAt
  confidence := r.confidence
  scope := r.scope
  status := r.status
  supersedesId := r.supersedesId
  factKey := r.factKey
  raw := r.raw
  authoritySubjectId := r.raw.authorityScope.map (·.val.subjectId)
  authorityWorkspaceId := r.raw.authorityScope.map (·.val.workspaceId)
  sensitivityClass := if truthy r.raw.sensitivity then str r.raw.sensitivity else "personal"

/-- `insert_record`. -/
def insertRecord (E : Engine) (r : NewRecord) : Mem String := do
  let id ← newId E "rec"
  let createdAt ← utcNow
  match (← get).store.records.insert (r.row E.unicode id createdAt) with
  | none => throw .integrityError
  | some records =>
    writeStore fun s => { s with records }
    if r.status = .active then
      writeStore fun s => (s.upsertFts id r.subjectId r.content).upsertSearchTerms E.unicode id
        r.subjectId (MemoryStore.postingsWorkspace r.raw) r.factKey
    pure id

/-- `insert_episode`. -/
def insertEpisode (E : Engine) (subjectId message sourceType : String) : Mem String := do
  let id ← newId E "ep"
  let _ ← utcNow
  writeStore fun s => { s with episodes := s.episodes ++ [{ id, subjectId, message, sourceType }] }
  pure id

/-- `supersede_records`. -/
def supersedeRecords (subjectId : String) (recordIds : List String) (supersededById : String) :
    Mem Unit := do
  if recordIds ≠ [] then
    let now ← utcNow
    writeStore fun s =>
      recordIds.foldl (fun s id => s.supersedeRecord subjectId supersededById now id) s

/-- `promote_record`: one in quarantine becomes active. -/
def promoteRecord (E : Engine) (subjectId recordId : String) : Mem (Option RecordRow) := do
  let now ← utcNow
  match (← get).store.getRecord subjectId recordId with
  | none => pure none
  | some row =>
    if row.status = .quarantined then
      writeStore fun s => s.promote E.unicode row .userConfirmed now
      readStore (·.getRecord subjectId recordId)
    else pure none

/-- The records of `tombstone_records` that are there and not tombstoned
yet, first to last. -/
def MemoryStore.tombstonable (s : MemoryStore) (subjectId : String) (recordIds : List String) :
    List String :=
  recordIds.eraseDups.filter fun id =>
    (s.getRecord subjectId id).any fun r => r.status ≠ .tombstoned

/-- `tombstone_records`. -/
def tombstoneRecords (subjectId : String) (recordIds : List String) :
    Mem (List String × List String) := do
  if recordIds = [] then pure ([], [])
  else
    let now ← utcNow
    let before ← readStore id
    let changed := before.tombstonable subjectId recordIds
    let evidence := changed.map fun id => (id, before.evidenceOf id)
    writeStore fun s => changed.foldl (fun s id => s.tombstoneRecord subjectId now id) s
    let purged := (← readStore id).purgeOrigins subjectId now changed
      ((evidence.filter (·.2 ≠ [])).map (·.1))
      ((evidence.flatMap (·.2)).map (·.sourceId)).eraseDups
    writeStore fun _ => purged.1
    pure (changed, purged.2)

/-- One observation of `supersede_media_observations`: a record it made that
is quarantined goes with it. -/
def MemoryStore.supersedeObservation (s : MemoryStore) (subjectId newObservationId : String)
    (now : Instant) (observationId : String) : MemoryStore :=
  match s.observations.find? fun o => o.subjectId = subjectId ∧ o.id = observationId ∧
      o.status = .current with
  | none => s
  | some observation =>
    let s : MemoryStore := { s with
      observations := s.observations.map fun o =>
        if o.subjectId = subjectId ∧ o.id = observationId then { o with status := .superseded }
        else o }
    match s.getRecord subjectId observation.recordId with
    | none => s
    | some record =>
      if record.status = .quarantined then
        s.updateRecord subjectId observation.recordId (fun r => { r with
          status := .superseded
          updatedAt := some now
          raw := { r.raw with supersededByObservationId := some newObservationId } }) fun _ => rfl
      else s

/-- `insert_typed_memory_unit`: the constraints of both tables. -/
def insertTypedMemoryUnit (unit : MemoryUnitFields) (recordId semanticIdentity : String) :
    Mem Unit := do
  let scope := unit.scope.val
  let linked : Bool ← readStore fun s => unit.evidence.all fun e => s.sources.rows.any fun r =>
    r.sourceId = e.val.sourceId ∧ r.subjectId = scope.subjectId ∧ r.agentId = scope.agentId ∧
      r.workspaceId = scope.workspaceId
  if ¬ linked then throw (.valueError "typed unit evidence source is not durably linked")
  let row : TypedUnitRow :=
    { unitId := unit.unitId, subjectId := scope.subjectId, agentId := scope.agentId
      workspaceId := scope.workspaceId, recordId, formationId := unit.formationId
      kind := unit.kind, semanticIdentity := some semanticIdentity, lifecycle := unit.lifecycle }
  let evidence : List UnitEvidenceRow := unit.evidence.map fun e =>
    { subjectId := scope.subjectId, workspaceId := scope.workspaceId, unitId := unit.unitId
      sourceId := e.val.sourceId, startOffset := e.val.startOffset, endOffset := e.val.endOffset
      excerptSha256 := e.val.excerptSha256 }
  -- the unique indexes: a record's unit, a unit's id, a live identity
  let clash : Bool ← readStore fun s => s.typedUnits.any fun u => u.recordId = recordId ∨
    (u.subjectId = row.subjectId ∧ u.workspaceId = row.workspaceId ∧
      (u.unitId = row.unitId ∨ (u.live ∧ row.live ∧ u.semanticIdentity = row.semanticIdentity)))
  let spans : List (String × ℕ × ℕ) := evidence.map fun e =>
    (e.sourceId, e.startOffset, e.endOffset)
  -- the CHECK of the lifecycle, and the key of the evidence
  if clash ∨ unit.lifecycle = .proposed ∨ ¬ spans.Nodup then throw .integrityError
  writeStore fun s => { s with
    typedUnits := s.typedUnits ++ [row]
    unitEvidence := s.unitEvidence ++ evidence }

/-- `insert_memory_lineage`: `INSERT OR IGNORE` skips a row that breaks a
constraint, `CHECK` included, and the identifier is answered all the same. -/
def insertMemoryLineage (E : Engine) (subjectId relation predecessorRecordId
    successorRecordId predecessorContentSha256 : String) (predecessorGeneration : ℕ)
    (proposalId : Option String) : Mem String := do
  let lineageId ← newId E "lin"
  let _ ← utcNow
  let row : LineageRow :=
    { lineageId, subjectId, relation, predecessorRecordId, successorRecordId
      predecessorContentSha256, predecessorGeneration, proposalId }
  writeStore fun s =>
    if relation ∈ lineageRelations ∧ ¬ s.lineage.any fun r => r.lineageId = lineageId ∨
        (r.predecessorRecordId = predecessorRecordId ∧ r.successorRecordId = successorRecordId ∧
          r.relation = relation) then
      { s with lineage := s.lineage ++ [row] }
    else s
  pure lineageId

end Atmem.Memory
