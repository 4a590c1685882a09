import Atmem.Graph.Model.Identity
/-!
# The index of the graph

`GraphIndex`: each record is at most one edge, between entities that are there
already or are made; a record about the user gives its entity an alias. What
becomes of a record becomes of its edge and aliases, and of the entities it
brought where no edge holds them.
-/

namespace Atmem.Graph

open Relational

/-- A record, as the index reads it. -/
structure GraphRecord where
  id : String
  subjectId : String
  content : String
  status : RecordStatus
  trustTier : TrustTier
  confidence : Option String := none
  supersedesId : Option String := none
  createdAt : String
  updatedAt : Option String := none
deriving DecidableEq

/-- A relation that a record's text states. -/
structure GraphFact where
  source : String
  relation : String
  relationLabel : String
  destination : String
  sourceKind : String := "person"
  destinationKind : String := "other"
deriving DecidableEq

/-- The texts: what a record says, the form names are compared in, and the
digests of lists of texts, of which an identifier keeps the first characters. -/
structure Engine where
  extractGraphFact : String → Option GraphFact
  normalize : String → String
  partsSha256 : List String → String
  sha256Hex : String → String

/-- `_stable_id`. -/
def Engine.stableId (E : Engine) (kind : String) (parts : List String) : String :=
  kind ++ "_" ++ String.ofList ((E.partsSha256 parts).toList.take 24)

/-- `GRAPH_EXTRACTOR_VERSION`. -/
def graphExtractorVersion : String := "graph-rules-v1"

/-- `_MULTI_VALUED`. -/
def multiValued : List String :=
  ["works_with", "manages", "likes", "dislikes", "avoids", "related_to"]

/-- What is reported of a call. -/
inductive GraphMutation
  | edgeSuperseded (objectId edge : String)
  | edgeSupersededByRecord (objectId record : String)
  | edgeAsserted (objectId recordId srcEntity dstEntity relation : String) (status : RecordStatus)
  | edgeStatusChanged (objectId : String) (status : RecordStatus)
  | edgeReextracted (objectId recordId fromVersion : String)
  | edgeTombstoned (objectId : String)
  | entityActivated (objectId : String)
  | entityRecreated (objectId : String) (status : EntityStatus)
  | entityCreated (objectId kind canonicalSha256 : String) (status : EntityStatus)
  | entityTombstoned (objectId : String)
  | aliasLearned (objectId entityId surfaceSha256 recordId : String) (status : RecordStatus)
  | aliasTombstoned (objectId : String)
  | mergeProposed (objectId leftEntity rightEntity : String)
  | mergeRejected (objectId leftEntity rightEntity : String)
  | merged (objectId winnerEntity mergedEntity : String)
  | mergeReverted (objectId winnerEntity restoredEntity : String)
deriving DecidableEq

/-- `value.strip()`. -/
def stripped (s : String) : String := String.ofList (strip s)

variable (E : Engine)

/-! ## Entities and aliases -/

/-- What an entity is ensured as. -/
structure EntityRequest where
  subjectId : String
  canonical : String
  kind : String
  status : EntityStatus
  sourceRecord : Option String
  createdAt : String

namespace EntityRequest

variable (q : EntityRequest)

/-- The row that has the name. -/
def named (t : Tables) : Option Entity :=
  t.entities.find? fun e => e.subjectId = q.subjectId && e.normalized = E.normalize q.canonical &&
    e.kind = q.kind

/-- The identifier, as it depends on what is asked for. -/
def stableId : String :=
  E.stableId "ent" [q.subjectId, E.normalize q.canonical, q.kind]

/-- The entity is active from now on. -/
def activate (id text : String) : Sql Unit := do
  execute fun t => t.updateEntities (·.id = id) fun e =>
    { e with status := .active, updatedAt := some q.createdAt }
  execute fun t => t.upsertFts ⟨.entity, id, q.subjectId, text⟩

/-- An entity of the name is there. -/
def found (e : Entity) : Sql (String × List GraphMutation) := do
  if e.status = .quarantined ∧ q.status = .active then
    q.activate e.id q.canonical
    return (e.id, [.entityActivated e.id])
  else
    return (e.id, [])

/-- The row that was purged is written again. -/
def recreate (id : String) : Sql (String × List GraphMutation) := do
  execute fun t => t.updateEntities (·.id = id) fun e =>
    { e with canonical := stripped q.canonical, normalized := E.normalize q.canonical,
             status := q.status, sourceRecord := q.sourceRecord, updatedAt := some q.createdAt }
  execute fun t =>
    if q.status = .active then t.upsertFts ⟨.entity, id, q.subjectId, q.canonical⟩ else t
  return (id, [.entityRecreated id q.status])

/-- A new row. -/
def create (id : String) : Sql (String × List GraphMutation) := do
  execute fun t => { t with entities := t.entities ++ [{
    id := id, subjectId := q.subjectId, canonical := stripped q.canonical,
    normalized := E.normalize q.canonical, kind := q.kind, status := q.status,
    sourceRecord := q.sourceRecord, createdAt := q.createdAt }] }
  execute fun t =>
    if q.status = .active then t.upsertFts ⟨.entity, id, q.subjectId, q.canonical⟩ else t
  return (id, [.entityCreated id q.kind (E.sha256Hex (stripped q.canonical)) q.status])

/-- `_ensure_entity`: the identifier, and what is reported. -/
def ensure : Sql (String × List GraphMutation) := do
  let named ← query (q.named E)
  match named with
  | some e => q.found e
  | none =>
    let tombstoned ← query fun t => t.entities.find? fun e =>
      e.id = q.stableId E && e.status = .tombstoned
    match tombstoned with
    | some _ => q.recreate E (q.stableId E)
    | none => q.create E (q.stableId E)

end EntityRequest

/-- What an alias is ensured as. -/
structure AliasRequest where
  subjectId : String
  entityId : String
  surface : String
  sourceRecord : Option String
  trustTier : TrustTier
  status : RecordStatus
  createdAt : String

namespace AliasRequest

variable (q : AliasRequest)

/-- The identifier, as it depends on what is asked for. -/
def stableId : String :=
  E.stableId "als" [q.subjectId, q.entityId, E.normalize q.surface,
    if truthy q.sourceRecord then q.sourceRecord.getD "" else "root"]

/-- The alias is there. -/
def found (a : Alias) : Sql (List GraphMutation) := do
  if a.status = .quarantined ∧ q.status = .active then
    execute fun t => t.updateAliases (·.id = a.id) fun a => { a with status := .active }
    execute fun t => t.upsertFts ⟨.alias, a.id, q.subjectId, q.surface⟩
  return []

/-- A new row. -/
def create (id : String) : Sql (List GraphMutation) := do
  execute fun t => { t with aliases := t.aliases ++ [{
    id := id, entityId := q.entityId, subjectId := q.subjectId, surface := stripped q.surface,
    normalized := E.normalize q.surface, sourceRecord := q.sourceRecord,
    trustTier := q.trustTier, status := q.status, createdAt := q.createdAt }] }
  execute fun t =>
    if q.status = .active then t.upsertFts ⟨.alias, id, q.subjectId, q.surface⟩ else t
  return match q.sourceRecord with
    | some record =>
      [.aliasLearned id q.entityId (E.sha256Hex (stripped q.surface)) record q.status]
    | none => []

/-- `_ensure_alias`. -/
def ensure : Sql (List GraphMutation) := do
  let there ← query fun t => t.alias? (q.stableId E)
  match there with
  | some a => q.found a
  | none => q.create E (q.stableId E)

end AliasRequest

/-! ## Edges -/

/-- `_upsert_edge_fts`: the text of an edge, where it is active. -/
def Tables.edgeText (t : Tables) (id : String) : Option FtsRow := do
  let edge ← t.edges.find? fun e => e.id = id && e.status = .active
  let src ← t.entity? edge.srcEntity
  let dst := ((edge.dstEntity.bind t.entity?).map (·.canonical)).getD ""
  let parts := [src.canonical, edge.relationLabel, dst].filter (· ≠ "")
  some ⟨.edge, id, edge.subjectId, " ".intercalate parts⟩

/-- The text of an edge is indexed, if it has one. -/
def Tables.upsertEdgeFts (t : Tables) (id : String) : Tables :=
  match t.edgeText id with
  | some row => t.upsertFts row
  | none => t

namespace GraphRecord

variable (r : GraphRecord)

/-- `_sync_existing_edge`, of an edge whose record is active again. -/
def activateEdge (edge : Edge) : Sql Unit := do
  (edge.srcEntity :: edge.dstEntity.toList).forM fun id => do
    let entity ← query fun t => t.entity? id
    match entity with
    | none => pure ()
    | some e =>
      if e.status = .quarantined then
        execute fun t => t.updateEntities (·.id = id) fun e =>
          { e with status := .active, updatedAt := r.updatedAt }
        execute fun t => t.upsertFts ⟨.entity, id, r.subjectId, e.canonical⟩
  let aliases ← query fun t => t.aliases.filter (·.sourceRecord = some r.id)
  aliases.forM fun a => do
    execute fun t => t.updateAliases (·.id = a.id) fun a => { a with status := .active }
    execute fun t => t.upsertFts ⟨.alias, a.id, r.subjectId, a.surface⟩
  execute fun t => t.upsertEdgeFts edge.id

/-- `_sync_existing_edge`, of an edge whose record is not. -/
def withdrawEdge (edge : Edge) : Sql Unit := do
  execute fun t => t.deleteFts .edge edge.id
  let aliases ← query fun t => t.aliases.filter (·.sourceRecord = some r.id)
  aliases.forM fun a => do
    execute fun t => t.updateAliases (·.id = a.id) fun a => { a with status := r.status }
    execute fun t => t.deleteFts .alias a.id

/-- `_sync_existing_edge`. -/
def syncExistingEdge (edge : Edge) : Sql (List GraphMutation) :=
  if edge.status = r.status ∧ edge.trustTier = r.trustTier then pure []
  else do
    execute fun t => t.updateEdges (·.id = edge.id) fun e =>
      { e with status := r.status, trustTier := r.trustTier, updatedAt := r.updatedAt }
    if r.status = .active then r.activateEdge edge else r.withdrawEdge edge
    return [.edgeStatusChanged edge.id r.status]

/-- The status of the entities a record brings. -/
def entityStatus : EntityStatus := if r.status = .quarantined then .quarantined else .active

/-- What the source of the fact is ensured as; the user has no record. -/
def sourceRequest (fact : GraphFact) : EntityRequest where
  subjectId := r.subjectId
  canonical := fact.source
  kind := fact.sourceKind
  status := r.entityStatus
  sourceRecord := if E.normalize fact.source = "you" then none else some r.id
  createdAt := r.createdAt

/-- The entity at the other end of a fact. -/
def destinationRequest (fact : GraphFact) : EntityRequest where
  subjectId := r.subjectId
  canonical := fact.destination
  kind := fact.destinationKind
  status := r.entityStatus
  sourceRecord := some r.id
  createdAt := r.createdAt

/-- What the user is called. -/
def rootAlias (src surface : String) : AliasRequest where
  subjectId := r.subjectId
  entityId := src
  surface := surface
  sourceRecord := none
  trustTier := .trustedUser
  status := .active
  createdAt := r.createdAt

/-- What the destination of a fact about the user is called. -/
def myAlias (fact : GraphFact) (dst : String) : AliasRequest where
  subjectId := r.subjectId
  entityId := dst
  surface := "my " ++ fact.relationLabel
  sourceRecord := some r.id
  trustTier := r.trustTier
  status := r.status
  createdAt := r.createdAt

/-- The aliases of a fact about the user. -/
def ensureAliases (fact : GraphFact) (src dst : String) : Sql (List GraphMutation) :=
  if E.normalize fact.source = "you" then do
    let user ← (r.rootAlias src "user").ensure E
    let me ← (r.rootAlias src "me").ensure E
    let myself ← (r.rootAlias src "myself").ensure E
    let my ← (r.myAlias fact dst).ensure E
    return user ++ me ++ myself ++ my
  else pure []

/-- The active edges that an edge of one value takes the place of, in order. -/
def replacedEdges (t : Tables) (fact : GraphFact) (src : String) : List Edge :=
  (t.edges.filter fun e => e.subjectId = r.subjectId && e.srcEntity = src &&
    e.relation = fact.relation && e.status = .active).insertionSort
      fun a b => a.createdAt < b.createdAt ∨ (a.createdAt = b.createdAt ∧ a.id ≤ b.id)

/-- An older edge gives way to another. -/
def supersedeEdge (edgeId : String) (old : Edge) : Sql (List GraphMutation) := do
  execute fun t => t.updateEdges (·.id = old.id) fun e =>
    { e with status := .superseded, updatedAt := some r.createdAt }
  execute fun t => t.deleteFts .edge old.id
  return [.edgeSuperseded old.id edgeId]

/-- The row of the edge. -/
def edge (fact : GraphFact) (edgeId src dst : String) (supersedesId : Option String) : Edge where
  id := edgeId
  subjectId := r.subjectId
  srcEntity := src
  relation := fact.relation
  relationLabel := fact.relationLabel
  dstEntity := some dst
  recordId := r.id
  trustTier := r.trustTier
  confidence := r.confidence
  status := r.status
  supersedesId := supersedesId
  extractorVersion := graphExtractorVersion
  createdAt := r.createdAt

/-- The edge of the record that is superseded by this one. -/
def priorEdge (t : Tables) : Option String :=
  if truthy r.supersedesId then
    (t.edges.find? fun e => e.subjectId = r.subjectId &&
      some e.recordId = r.supersedesId).map (·.id)
  else none

/-- The edge, and the edges it takes the place of. -/
def insertEdge (fact : GraphFact) (src dst : String) : Sql (List GraphMutation) := do
  let edgeId := E.stableId "edg" [r.subjectId, r.id, src, fact.relation, dst]
  let prior ← query r.priorEdge
  let replaced ← query fun t =>
    if r.status = .active ∧ fact.relation ∉ multiValued then r.replacedEdges t fact src else []
  let superseded := prior.toList ++
    (replaced.map (·.id)).filter fun id => !(id ∈ prior.toList)
  let reports ← replaced.mapM (r.supersedeEdge edgeId)
  execute fun t => { t with
    edges := t.edges ++ [r.edge fact edgeId src dst superseded.getLast?] }
  execute fun t => if r.status = .active then t.upsertEdgeFts edgeId else t
  return reports.flatten ++ [.edgeAsserted edgeId r.id src dst fact.relation r.status]

/-- `index_record`, of a record that has no edge. -/
def assertFact (fact : GraphFact) : Sql (List GraphMutation) := do
  let (src, ofSrc) ← (r.sourceRequest E fact).ensure E
  let (dst, ofDst) ← (r.destinationRequest fact).ensure E
  let ofAliases ← r.ensureAliases E fact src dst
  let ofEdge ← r.insertEdge E fact src dst
  return ofSrc ++ ofDst ++ ofAliases ++ ofEdge

/-- An entity of the old edge, which no edge holds any more. -/
def retireEntity (now entityId : String) : Sql Unit := do
  let referenced ← query fun t => t.edges.any fun e =>
    e.subjectId = r.subjectId && (e.srcEntity = entityId || e.dstEntity = some entityId)
  let entity ← query fun t => t.entity? entityId
  match entity with
  | none => pure ()
  | some e =>
    if referenced = false ∧ e.sourceRecord = some r.id ∧ e.normalized ≠ "you" then
      execute fun t => t.deleteFts .entity entityId
      execute fun t => t.updateEntities (·.id = entityId) fun e =>
        { e with status := .tombstoned, canonical := "", normalized := "stale:" ++ entityId,
                 updatedAt := some now }

/-- `_reindex_existing_edge`. -/
def reindexExistingEdge (fact : GraphFact) (now : String) (edge : Edge) :
    Sql (List GraphMutation) := do
  let aliases ← query fun t => t.aliases.filter fun a =>
    a.subjectId = r.subjectId && a.sourceRecord = some r.id
  aliases.forM fun a => execute fun t => t.deleteFts .alias a.id
  execute fun t => { t with aliases := t.aliases.filter fun a =>
    !(a.subjectId = r.subjectId && a.sourceRecord = some r.id) }
  execute fun t => t.updateEdges (·.supersedesId = some edge.id) fun e =>
    { e with supersedesId := none }
  execute fun t => t.deleteFts .edge edge.id
  execute fun t => { t with edges := t.edges.filter fun e => !(e.id = edge.id) }
  -- `index_record` once more: the record has no edge now
  let asserted ← r.assertFact E fact
  (edge.srcEntity :: edge.dstEntity.toList).forM (r.retireEntity now)
  return .edgeReextracted edge.id r.id edge.extractorVersion :: asserted

end GraphRecord

/-- The edge of a record. -/
def Tables.recordEdge (t : Tables) (subjectId recordId : String) : Option Edge :=
  t.edges.find? fun e => e.subjectId = subjectId && e.recordId = recordId

/-- `index_record`. -/
def indexRecord (r : GraphRecord) (now : String) : Sql (List GraphMutation) := do
  match E.extractGraphFact r.content with
  | none => return []
  | some fact =>
    if r.status = .tombstoned then return []
    else
      let existing ← query fun t => t.recordEdge r.subjectId r.id
      match existing with
      | some edge =>
        if edge.extractorVersion ≠ graphExtractorVersion then r.reindexExistingEdge E fact now edge
        else r.syncExistingEdge edge
      | none => r.assertFact E fact

/-! ## What becomes of records -/

/-- `supersede_records`, of one record. -/
def supersedeRecord (subjectId supersededByRecord now recordId : String) :
    Sql (Option (String × GraphMutation)) := do
  let row ← query fun t => t.edges.find? fun e =>
    e.subjectId = subjectId && e.recordId = recordId && e.status = .active
  match row with
  | none => return none
  | some edge =>
    execute fun t => t.updateEdges (·.id = edge.id) fun e =>
      { e with status := .superseded, updatedAt := some now }
    execute fun t => t.deleteFts .edge edge.id
    let aliases ← query fun t => t.aliases.filter fun a =>
      a.sourceRecord = some recordId && a.status = .active
    aliases.forM fun a => do
      execute fun t => t.updateAliases (·.id = a.id) fun a => { a with status := .superseded }
      execute fun t => t.deleteFts .alias a.id
    return some (edge.id, .edgeSupersededByRecord edge.id supersededByRecord)

/-- `supersede_records`. -/
def supersedeRecords (subjectId : String) (recordIds : List String)
    (supersededByRecord now : String) : Sql (List GraphMutation) := do
  let answers ← recordIds.mapM (supersedeRecord subjectId supersededByRecord now)
  let superseded := answers.filterMap id
  match superseded.getLast? with
  | none => return []
  | some (last, _) =>
    execute fun t => t.updateEdges
      (fun e => e.subjectId = subjectId && e.recordId = supersededByRecord)
      fun e => { e with supersedesId := some last }
    return superseded.map (·.2)

/-- `tombstone_records`, of the edges of one record. -/
def tombstoneEdge (now : String) (edge : Edge) : Sql (List GraphMutation) := do
  execute fun t => t.updateEdges (·.id = edge.id) fun e =>
    { e with status := .tombstoned, relation := "[purged]", relationLabel := "[purged]",
             dstEntity := none, updatedAt := some now }
  execute fun t => t.deleteFts .edge edge.id
  return [.edgeTombstoned edge.id]

/-- One alias is purged, and found no more. -/
def tombstoneAlias (a : Alias) : Sql (List GraphMutation) := do
  execute fun t => t.updateAliases (·.id = a.id) fun a =>
    { a with status := .tombstoned, surface := "", normalized := "purged:" ++ a.id }
  execute fun t => t.deleteFts .alias a.id
  return [.aliasTombstoned a.id]

/-- An entity is held by an edge that is not out of use. -/
def Tables.held (t : Tables) (subjectId entityId : String) : Bool :=
  t.edges.any fun e => e.subjectId = subjectId &&
    (e.status = .active || e.status = .quarantined) &&
    (e.srcEntity = entityId || e.dstEntity = some entityId)

/-- One entity is purged, unless something holds it still. -/
def tombstoneEntity (subjectId now : String) (e : Entity) : Sql (List GraphMutation) := do
  let referenced ← query fun t => t.held subjectId e.id
  if referenced then return []
  else
    execute fun t => t.updateEntities (·.id = e.id) fun e =>
      { e with status := .tombstoned, canonical := "", normalized := "purged:" ++ e.id,
               updatedAt := some now }
    execute fun t => t.deleteFts .entity e.id
    return [.entityTombstoned e.id]

/-- `tombstone_records`, of one record. -/
def tombstoneRecord (subjectId now recordId : String) : Sql (List GraphMutation) := do
  let edges ← query fun t => t.edges.filter fun e =>
    e.subjectId = subjectId && e.recordId = recordId
  let ofEdges ← edges.mapM (tombstoneEdge now)
  let aliases ← query fun t => t.aliases.filter fun a =>
    a.subjectId = subjectId && a.sourceRecord = some recordId
  let ofAliases ← aliases.mapM tombstoneAlias
  let entities ← query fun t => t.entities.filter fun e =>
    e.subjectId = subjectId && e.sourceRecord = some recordId
  let ofEntities ← entities.mapM (tombstoneEntity subjectId now)
  return ofEdges.flatten ++ ofAliases.flatten ++ ofEntities.flatten

/-- `tombstone_records`, up to the archives. -/
def tombstoneRecords (subjectId : String) (recordIds : List String) (now : String) :
    Sql (List GraphMutation) := do
  let reports ← recordIds.mapM (tombstoneRecord subjectId now)
  return reports.flatten

/-- `clear`. -/
def clear (subjectId : String) : Sql Unit := do
  execute fun t => { t with fts := t.fts.filter (·.subjectId ≠ subjectId) }
  execute fun t => { t with proposals := t.proposals.filter (·.subjectId ≠ subjectId) }
  execute fun t => { t with edges := t.edges.filter (·.subjectId ≠ subjectId) }
  execute fun t => { t with aliases := t.aliases.filter (·.subjectId ≠ subjectId) }
  execute fun t => { t with entities := t.entities.filter (·.subjectId ≠ subjectId) }

end Atmem.Graph
