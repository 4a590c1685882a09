import Atmem.Contracts.Codec
import Atmem.Graph.Model.Tables
/-!
# Repairs of identity

`IdentityService`: a repair is previewed, committed under the digest of its
preview, and may be rolled back. A commit keeps the rows the preview showed;
the rollback writes them back, row by row.
-/

namespace Atmem.Graph

open Relational

/-! ## Rows as they are hashed -/

/-- The text of each tier. -/
def trustTierValue : TrustTier → String
  | .trustedUser => "trusted_user"
  | .userConfirmed => "user_confirmed"
  | .untrustedContent => "untrusted_content"
  | .hostAssertedObservation => "host_asserted_observation"
  | .derived => "derived"

/-- The row of an entity, as a dictionary. -/
def Entity.asdict (e : Entity) : Json :=
  .obj [("id", .str e.id), ("subject_id", .str e.subjectId), ("canonical", .str e.canonical),
    ("normalized", .str e.normalized), ("kind", .str e.kind), ("status", .str e.status.value),
    ("merged_into", .ofOption .str e.mergedInto),
    ("source_record", .ofOption .str e.sourceRecord), ("created_at", .str e.createdAt),
    ("updated_at", .ofOption .str e.updatedAt)]

/-- The row of an alias, as a dictionary. -/
def Alias.asdict (a : Alias) : Json :=
  .obj [("id", .str a.id), ("entity_id", .str a.entityId), ("subject_id", .str a.subjectId),
    ("surface", .str a.surface), ("normalized", .str a.normalized),
    ("source_record", .ofOption .str a.sourceRecord),
    ("trust_tier", .str (trustTierValue a.trustTier)),
    ("status", .str (Vocabulary.value a.status)), ("created_at", .str a.createdAt)]

/-- The row of an edge, as a dictionary. -/
def Edge.asdict (e : Edge) : Json :=
  .obj [("id", .str e.id), ("subject_id", .str e.subjectId), ("src_entity", .str e.srcEntity),
    ("relation", .str e.relation), ("relation_label", .str e.relationLabel),
    ("dst_entity", .ofOption .str e.dstEntity), ("dst_value", .null),
    ("record_id", .str e.recordId), ("trust_tier", .str (trustTierValue e.trustTier)),
    ("confidence", .ofOption .float e.confidence), ("status", .str (Vocabulary.value e.status)),
    ("supersedes_id", .ofOption .str e.supersedesId),
    ("extractor_version", .str e.extractorVersion), ("created_at", .str e.createdAt),
    ("updated_at", .ofOption .str e.updatedAt)]

/-- The rows a preview saved, as a dictionary. -/
def Before.asdict (b : Before) : Json :=
  .obj [("entities", .arr (b.entities.map Entity.asdict)),
    ("aliases", .arr (b.aliases.map Alias.asdict)), ("edges", .arr (b.edges.map Edge.asdict))]

/-! ## Previews -/

/-- What `preview` answers, and `commit` is handed: a dict, of which nothing
is known but what it says. -/
structure Preview where
  subjectId : String
  action : String
  entityIds : List String
  newName : Option String := none
  aliasId : Option String := none
  before : Before
  previewSha256 : String
deriving DecidableEq

/-- What is hashed. -/
def Preview.body (p : Preview) : Json :=
  .obj [("subject_id", .str p.subjectId), ("action", .str p.action),
    ("entity_ids", .strings p.entityIds), ("new_name", .ofOption .str p.newName),
    ("alias_id", .ofOption .str p.aliasId), ("before", p.before.asdict)]

/-- `sha256_hex(canonical_json(body))`. -/
def Preview.digest (H : Hashing) (p : Preview) : String := H.sha256Hex p.body.canonicalJson

/-- `ORDER BY id`. -/
def orderById {ρ : Type} (id : ρ → String) (rows : List ρ) : List ρ :=
  rows.insertionSort fun a b => id a ≤ id b

/-- The rows of the entities named, as they stand. -/
def beforeOf (t : Tables) (subjectId : String) (entityIds : List String) : Before where
  entities := orderById (·.id) (t.entities.filter fun e =>
    e.subjectId = subjectId && e.id ∈ entityIds)
  aliases := orderById (·.id) (t.aliases.filter fun a =>
    a.subjectId = subjectId && a.entityId ∈ entityIds)
  edges := orderById (·.id) (t.edges.filter fun e =>
    e.subjectId = subjectId && (e.srcEntity ∈ entityIds || e.dstEntity.any (· ∈ entityIds)))

/-- `str(name).strip()` of `preview["new_name"]`. -/
def Preview.name (p : Preview) : String := String.ofList (strip (str p.newName))

/-- The first entity: `ids[0]`. -/
def firstOf (entityIds : List String) : Except Raised String :=
  match entityIds with
  | [] => .error .indexError
  | id :: _ => .ok id

/-- What a preview is asked for. -/
structure PreviewRequest where
  subjectId : String
  action : String
  entityIds : List String
  newName : Option String := none
  aliasId : Option String := none
deriving DecidableEq

variable (H : Hashing) (normalize : String → String)

/-- `preview`. -/
def preview (t : Tables) (q : PreviewRequest) : Except Raised Preview := do
  if q.action ∉ ["merge", "split", "rename", "delete", "supersede"] then
    throw (.valueError "unsupported identity mutation")
  -- `dict.fromkeys` keeps the first of each
  let unique := q.entityIds.reverse.dedup.reverse
  if unique = [] then throw (.valueError "at least one entity is required")
  let before := beforeOf t q.subjectId unique
  if before.entities.length ≠ unique.length then
    throw (.valueError "an entity is missing or outside scope")
  if q.action ∈ ["merge", "supersede"] ∧ unique.length < 2 then
    throw (.valueError "merge/supersede requires a target and source")
  if q.action ∈ ["rename", "split"] ∧ strip (q.newName.getD "") = [] then
    throw (.valueError "new_name is required")
  let shown : Preview := {
    subjectId := q.subjectId, action := q.action, entityIds := unique, newName := q.newName,
    aliasId := q.aliasId, before := before, previewSha256 := "" }
  return { shown with previewSha256 := shown.digest H }

/-! ## Commits -/

/-- A call of `commit`, with what it draws: two random numbers and the time. -/
structure Commit where
  preview : Preview
  confirmSha256 : String
  actor : String
  reason : String
  mutationHex : String
  newHex : String
  now : String
deriving DecidableEq

/-- What a commit or a rollback returns. -/
structure Receipt where
  mutationId : String
  subjectId : String
  action : String
  previewSha256 : String
  entityIds : List String
  redirects : List (String × String)
  status : String
deriving DecidableEq

namespace Commit

variable (c : Commit)

/-- The identifier of the mutation. -/
def mutationId : String := "gmut_" ++ c.mutationHex

/-- The identifier of the entity a split makes. -/
def newId : String := "ent_" ++ c.newHex

/-- An entity of the subject, by its identifier. -/
def names (id : String) (e : Entity) : Bool := e.subjectId = c.preview.subjectId && e.id = id

/-- `action == "rename"`. -/
def rename : Sql (List String) := do
  let id ← Statement.check (firstOf c.preview.entityIds)
  execute fun t => t.updateEntities (c.names id) fun e =>
    { e with canonical := c.preview.name, normalized := normalize c.preview.name,
             updatedAt := some c.now }
  return []

/-- `action == "delete"`. -/
def delete : Sql (List String) := do
  let id ← Statement.check (firstOf c.preview.entityIds)
  execute fun t => t.updateEntities (c.names id) fun e =>
    { e with status := .tombstoned, updatedAt := some c.now }
  execute fun t => t.updateAliases
    (fun a => a.subjectId = c.preview.subjectId && a.entityId = id)
    fun a => { a with status := .tombstoned }
  execute fun t => t.updateEdges
    (fun e => e.subjectId = c.preview.subjectId && (e.srcEntity = id || e.dstEntity = some id))
    fun e => { e with status := .tombstoned, updatedAt := some c.now }
  return []

/-- One source of a merge. -/
def mergeSource (target source : String) : Sql Unit := do
  execute fun t => t.updateEntities (c.names source) fun e =>
    { e with status := .merged, mergedInto := some target, updatedAt := some c.now }
  execute fun t => t.updateAliases
    (fun a => a.subjectId = c.preview.subjectId && a.entityId = source)
    fun a => { a with status := .superseded }

/-- `action in {"merge", "supersede"}`. -/
def merge : Sql (List String) := do
  let target ← Statement.check (firstOf c.preview.entityIds)
  c.preview.entityIds.tail.forM (c.mergeSource target)
  return []

/-- `action == "split"`. -/
def split : Sql (List String) := do
  let aliasId := c.preview.aliasId.getD ""
  let id ← Statement.check (firstOf c.preview.entityIds)
  let found ← query fun t => t.aliases.find? fun a =>
    a.subjectId = c.preview.subjectId && a.entityId = id && a.id = aliasId
  match found with
  | none => throw (.valueError "split requires an alias belonging to the entity")
  | some a =>
    execute fun t => { t with entities := t.entities ++ [{
      id := c.newId, subjectId := c.preview.subjectId, canonical := c.preview.name,
      normalized := normalize c.preview.name, kind := "other", status := .active,
      sourceRecord := a.sourceRecord, createdAt := c.now }] }
    execute fun t => t.updateAliases (·.id = aliasId) fun a => { a with entityId := c.newId }
    return [c.newId]

/-- What the action writes; it answers the entities created. -/
def act : Sql (List String) :=
  if c.preview.action = "rename" then c.rename normalize
  else if c.preview.action = "delete" then c.delete
  else if c.preview.action = "merge" ∨ c.preview.action = "supersede" then c.merge
  else if c.preview.action = "split" then c.split normalize
  else pure []

/-- The row of the mutation. -/
def mutation (created : List String) : Mutation where
  mutationId := c.mutationId
  subjectId := c.preview.subjectId
  action := c.preview.action
  previewSha256 := c.confirmSha256
  before := c.preview.before
  createdEntityIds := created
  actor := c.actor
  reason := c.reason
  status := .committed
  createdAt := c.now

/-- What every commit ends with: its row, and the generation it makes stale. -/
def record (created : List String) : Sql Unit := do
  execute fun t => { t with mutations := t.mutations ++ [c.mutation created] }
  execute fun t => { t with generations := t.generations.map fun g =>
    if g.subjectId = c.preview.subjectId ∧ g.status = .active
    then { g with status := .repairRequired } else g }

/-- The checks before the transaction. -/
def checks : Except Raised Unit := do
  if c.confirmSha256 ≠ c.preview.previewSha256 then
    throw (.valueError "identity preview confirmation does not match")
  if strip c.actor = [] ∨ strip c.reason = [] then
    throw (.valueError "actor and reason are required")

/-- The receipt of a commit, with the entities it created. -/
def receipt (created : List String) : Receipt where
  mutationId := c.mutationId
  subjectId := c.preview.subjectId
  action := c.preview.action
  previewSha256 := c.confirmSha256
  entityIds := c.preview.entityIds ++ created
  redirects := c.preview.entityIds.tail.map fun id => (id, c.preview.entityIds.headD "")
  status := "repair_required"

/-- `commit`. -/
def statements : Sql Receipt := do
  Statement.check c.checks
  let created ← c.act normalize
  c.record created
  return c.receipt created

end Commit

/-- `IdentityService.commit`. -/
def commit (c : Commit) (d : Database) : Except Raised Receipt × Database :=
  (c.statements normalize).transaction d

/-! ## Rollbacks -/

/-- The columns a rollback writes back. -/
def Entity.restore (saved e : Entity) : Entity :=
  { e with canonical := saved.canonical, normalized := saved.normalized, kind := saved.kind,
           status := saved.status, mergedInto := saved.mergedInto,
           sourceRecord := saved.sourceRecord, updatedAt := saved.updatedAt }

/-- An alias is again as it was saved. -/
def Alias.restore (saved a : Alias) : Alias :=
  { a with entityId := saved.entityId, status := saved.status }

/-- An edge is again as it was saved. -/
def Edge.restore (saved e : Edge) : Edge :=
  { e with status := saved.status, srcEntity := saved.srcEntity, dstEntity := saved.dstEntity,
           updatedAt := saved.updatedAt }

/-- The rows of a mutation are written back, the entities it created
deleted first. -/
def restoreRows (m : Mutation) : Sql Unit := do
  m.createdEntityIds.forM fun id =>
    execute fun t => { t with entities := t.entities.filter fun e => !(e.id = id) }
  m.before.entities.forM fun saved => execute fun t =>
    t.updateEntities (fun e => e.id = saved.id) (Entity.restore saved)
  m.before.aliases.forM fun saved => execute fun t =>
    t.updateAliases (fun a => a.id = saved.id) (Alias.restore saved)
  m.before.edges.forM fun saved => execute fun t =>
    t.updateEdges (fun e => e.id = saved.id) (Edge.restore saved)

/-- The receipt of a rollback. -/
def Mutation.rollbackReceipt (m : Mutation) (mutationId : String) : Receipt where
  mutationId := mutationId
  subjectId := m.subjectId
  action := m.action
  previewSha256 := m.previewSha256
  entityIds := m.before.entities.map (·.id)
  redirects := []
  status := "rolled_back"

/-- `IdentityService.rollback`. -/
def rollbackStatements (mutationId now : String) : Sql Receipt := do
  let found ← query fun t => t.mutations.find? fun m => m.mutationId = mutationId
  match found with
  | none => throw (.keyError mutationId)
  | some m =>
    if m.status ≠ .committed then throw (.valueError "identity mutation is not rollbackable")
    else
      restoreRows m
      execute fun t => { t with mutations := t.mutations.map fun r =>
        if r.mutationId = mutationId then { r with status := .rolledBack, rolledBackAt := some now }
        else r }
      return m.rollbackReceipt mutationId

/-- `rollback`: its statements, in one transaction. -/
def rollback (mutationId now : String) (d : Database) : Except Raised Receipt × Database :=
  (rollbackStatements mutationId now).transaction d

/-! ## Calls -/

/-- What is called of the service, and whatever else is done to the tables. -/
inductive IdentityCall
  | preview (request : PreviewRequest)
  | commit (c : Commit)
  | rollback (mutationId now : String)
  /-- Another operation of the graph: statements of one transaction. -/
  | other (statements : Sql Unit)

/-- The tables a call leaves. -/
def IdentityCall.leaves : IdentityCall → Database → Database
  | .preview _, d => d
  | .commit c, d => (Graph.commit normalize c d).2
  | .rollback mutationId now, d => (Graph.rollback mutationId now d).2
  | .other statements, d => (statements.transaction d).2

end Atmem.Graph
