import Atmem.Common.Constrained
import Atmem.Contracts.CanonicalJson
import Atmem.Core.Policy
/-!
# The tables of the graph

Entities, their aliases, the edges between them and the full-text rows of all
three; the proposals to merge entities and the mutations of their identities.
The constraints of the schema are those of the state: a statement that would
break one is refused.
-/

namespace Atmem.Graph

open Relational

/-! ## Rows -/

/-- The statuses of an entity. -/
inductive EntityStatus
  | active | quarantined | merged | tombstoned
deriving DecidableEq

/-- The text of each status. -/
def EntityStatus.value : EntityStatus → String
  | .active => "active"
  | .quarantined => "quarantined"
  | .merged => "merged"
  | .tombstoned => "tombstoned"

/-- A row of `entities`. -/
structure Entity where
  id : String
  subjectId : String
  canonical : String
  normalized : String
  kind : String
  status : EntityStatus
  mergedInto : Option String := none
  sourceRecord : Option String := none
  createdAt : String
  updatedAt : Option String := none
deriving DecidableEq

/-- A row of `entity_aliases`. -/
structure Alias where
  id : String
  entityId : String
  subjectId : String
  surface : String
  normalized : String
  sourceRecord : Option String
  trustTier : TrustTier
  status : RecordStatus
  createdAt : String
deriving DecidableEq

/-- A row of `edges`; `dst_value` is never set. -/
structure Edge where
  id : String
  subjectId : String
  srcEntity : String
  relation : String
  relationLabel : String
  dstEntity : Option String
  recordId : String
  trustTier : TrustTier
  /-- The text of the number. -/
  confidence : Option String
  status : RecordStatus
  supersedesId : Option String := none
  extractorVersion : String
  createdAt : String
  updatedAt : Option String := none
deriving DecidableEq

/-- What a row of the text index is about. -/
inductive ObjectType
  | entity | alias | edge
deriving DecidableEq

/-- A row of `graph_fts`, by its row of `graph_fts_map`. -/
structure FtsRow where
  objectType : ObjectType
  objectId : String
  subjectId : String
  text : String
deriving DecidableEq

/-- The statuses of a proposed merge. -/
inductive ProposalStatus
  | pending | approved | rejected | reverted
deriving DecidableEq

/-- A row of `graph_merge_proposals`. -/
structure MergeProposal where
  id : String
  subjectId : String
  leftEntity : String
  rightEntity : String
  status : ProposalStatus
  winnerEntity : Option String := none
  decidedAt : Option String := none
  decidedBy : Option String := none
deriving DecidableEq

/-- What a mutation keeps of the rows it is about. -/
structure Before where
  entities : List Entity
  aliases : List Alias
  edges : List Edge
deriving DecidableEq

/-- Whether a mutation stands or was rolled back. -/
inductive MutationStatus
  | committed | rolledBack
deriving DecidableEq

/-- A row of `graph_identity_mutations`. -/
structure Mutation where
  mutationId : String
  subjectId : String
  action : String
  previewSha256 : String
  before : Before
  createdEntityIds : List String
  actor : String
  reason : String
  status : MutationStatus
  createdAt : String
  rolledBackAt : Option String := none
deriving DecidableEq

/-- The statuses of a generation of the index. -/
inductive GenerationStatus
  | active | retired | repairRequired
deriving DecidableEq

/-- A row of `graph_generations`. -/
structure GraphGeneration where
  generationId : String
  subjectId : String
  status : GenerationStatus
deriving DecidableEq

/-- The tables of the graph. -/
structure Tables where
  entities : List Entity := []
  aliases : List Alias := []
  edges : List Edge := []
  fts : List FtsRow := []
  proposals : List MergeProposal := []
  mutations : List Mutation := []
  generations : List GraphGeneration := []
deriving DecidableEq

/-! ## Constraints -/

/-- What the unique columns of an alias are, where none is null. -/
def Alias.key (a : Alias) : Option (String × String × String × String) :=
  a.sourceRecord.map fun record => (a.subjectId, a.entityId, a.normalized, record)

/-- The keys, the unique columns and the references of the schema. -/
structure Tables.Sound (t : Tables) : Prop where
  entityIds : (t.entities.map (·.id)).Nodup
  entityNames : (t.entities.map fun e => (e.subjectId, e.normalized, e.kind)).Nodup
  mergedInto : ∀ e ∈ t.entities, ∀ x ∈ e.mergedInto, x ∈ t.entities.map (·.id)
  aliasIds : (t.aliases.map (·.id)).Nodup
  aliasKeys : (t.aliases.filterMap Alias.key).Nodup
  aliasEntities : ∀ a ∈ t.aliases, a.entityId ∈ t.entities.map (·.id)
  edgeIds : (t.edges.map (·.id)).Nodup
  edgeRecords : (t.edges.map fun e => (e.subjectId, e.recordId)).Nodup
  edgeSources : ∀ e ∈ t.edges, e.srcEntity ∈ t.entities.map (·.id)
  edgeDestinations : ∀ e ∈ t.edges, ∀ x ∈ e.dstEntity, x ∈ t.entities.map (·.id)
  edgeSupersedes : ∀ e ∈ t.edges, ∀ x ∈ e.supersedesId, x ∈ t.edges.map (·.id)
  proposalIds : (t.proposals.map (·.id)).Nodup
  proposalPairs : (t.proposals.map fun p => (p.subjectId, p.leftEntity, p.rightEntity)).Nodup
  proposalEntities : ∀ p ∈ t.proposals, p.leftEntity ∈ t.entities.map (·.id) ∧
    p.rightEntity ∈ t.entities.map (·.id) ∧ ∀ x ∈ p.winnerEntity, x ∈ t.entities.map (·.id)
  mutationIds : (t.mutations.map (·.mutationId)).Nodup

instance instDecidableSound : DecidablePred Tables.Sound := fun t =>
  decidable_of_iff
    ((t.entities.map (·.id)).Nodup ∧
      (t.entities.map fun e => (e.subjectId, e.normalized, e.kind)).Nodup ∧
      (∀ e ∈ t.entities, ∀ x ∈ e.mergedInto, x ∈ t.entities.map (·.id)) ∧
      (t.aliases.map (·.id)).Nodup ∧ (t.aliases.filterMap Alias.key).Nodup ∧
      (∀ a ∈ t.aliases, a.entityId ∈ t.entities.map (·.id)) ∧
      (t.edges.map (·.id)).Nodup ∧ (t.edges.map fun e => (e.subjectId, e.recordId)).Nodup ∧
      (∀ e ∈ t.edges, e.srcEntity ∈ t.entities.map (·.id)) ∧
      (∀ e ∈ t.edges, ∀ x ∈ e.dstEntity, x ∈ t.entities.map (·.id)) ∧
      (∀ e ∈ t.edges, ∀ x ∈ e.supersedesId, x ∈ t.edges.map (·.id)) ∧
      (t.proposals.map (·.id)).Nodup ∧
      (t.proposals.map fun p => (p.subjectId, p.leftEntity, p.rightEntity)).Nodup ∧
      (∀ p ∈ t.proposals, p.leftEntity ∈ t.entities.map (·.id) ∧
        p.rightEntity ∈ t.entities.map (·.id) ∧
        ∀ x ∈ p.winnerEntity, x ∈ t.entities.map (·.id)) ∧
      (t.mutations.map (·.mutationId)).Nodup)
    ⟨fun ⟨h₁, h₂, h₃, h₄, h₅, h₆, h₇, h₈, h₉, h₁₀, h₁₁, h₁₂, h₁₃, h₁₄, h₁₅⟩ =>
      ⟨h₁, h₂, h₃, h₄, h₅, h₆, h₇, h₈, h₉, h₁₀, h₁₁, h₁₂, h₁₃, h₁₄, h₁₅⟩,
    fun h => ⟨h.entityIds, h.entityNames, h.mergedInto, h.aliasIds, h.aliasKeys, h.aliasEntities,
      h.edgeIds, h.edgeRecords, h.edgeSources, h.edgeDestinations, h.edgeSupersedes,
      h.proposalIds, h.proposalPairs, h.proposalEntities, h.mutationIds⟩⟩

/-! ## Statements -/

/-- The exceptions of the graph's methods. -/
inductive Raised
  | valueError (message : String)
  | keyError (key : String)
  | indexError
  | stopIteration
  | integrityError
deriving DecidableEq

/-- The database of the graph. -/
abbrev Database : Type := Constrained Tables.Sound

/-- Statements on it. -/
abbrev Sql (α : Type) : Type := Statement Raised Tables.Sound α

/-- One statement. -/
def execute (f : Tables → Tables) : Sql Unit := Statement.execute .integrityError f

/-- A statement that only reads. -/
def query {α : Type} (f : Tables → α) : Sql α := Statement.query f

namespace Tables

variable (t : Tables)

/-- `UPDATE entities`. -/
def updateEntities (p : Entity → Bool) (f : Entity → Entity) : Tables :=
  { t with entities := t.entities.map fun e => if p e then f e else e }

/-- `UPDATE entity_aliases`. -/
def updateAliases (p : Alias → Bool) (f : Alias → Alias) : Tables :=
  { t with aliases := t.aliases.map fun a => if p a then f a else a }

/-- `UPDATE edges`. -/
def updateEdges (p : Edge → Bool) (f : Edge → Edge) : Tables :=
  { t with edges := t.edges.map fun e => if p e then f e else e }

/-- `UPDATE graph_merge_proposals`. -/
def updateProposals (p : MergeProposal → Bool) (f : MergeProposal → MergeProposal) : Tables :=
  { t with proposals := t.proposals.map fun r => if p r then f r else r }

/-- `_upsert_fts`. -/
def upsertFts (row : FtsRow) : Tables :=
  { t with fts := t.fts.filter (fun r => !(r.objectType = row.objectType &&
      r.objectId = row.objectId)) ++ [row] }

/-- `_delete_fts`. -/
def deleteFts (objectType : ObjectType) (objectId : String) : Tables :=
  { t with fts := t.fts.filter fun r => !(r.objectType = objectType && r.objectId = objectId) }

/-- The entity with an identifier, of any subject. -/
def entity? (id : String) : Option Entity := t.entities.find? (·.id = id)

/-- The alias with an identifier, of any subject. -/
def alias? (id : String) : Option Alias := t.aliases.find? (·.id = id)

end Tables

end Atmem.Graph
