import Atmem.Common.Pointers
import Atmem.Graph.Model.Index
/-!
# Merges of entities

`propose_entity_merges`, `decide_merge` and `revert_merge`: two entities of one
name are proposed, a reviewer decides which of them stays, and the other one
points at it. What is read of the pointers: the entity they lead to, and all
those that lead to it.
-/

namespace Atmem.Graph

open Relational

variable (E : Engine)

/-! ## Proposals -/

/-- A name or an alias an active entity goes by: the kind, the text, the
entity. -/
def Tables.surfaces (t : Tables) (subjectId : String) : List (String × String × String) :=
  let entities := t.entities.filter fun e => e.subjectId = subjectId && e.status = .active
  let names := (entities.filter (·.normalized ≠ "you")).map fun e => (e.kind, e.normalized, e.id)
  let aliases := (t.aliases.filter fun a => a.subjectId = subjectId &&
    (a.status = .active || a.status = .superseded) &&
    a.normalized ∉ ["user", "me", "myself"]).filterMap fun a =>
      (entities.find? (·.id = a.entityId)).map fun e => (e.kind, a.normalized, e.id)
  names ++ aliases

/-- The entities that go by one name, each before those after it. -/
def proposedPairs (t : Tables) (subjectId : String) : List (String × String) :=
  let surfaces := t.surfaces subjectId
  let keys := ((surfaces.map fun s => (s.1, s.2.1)).dedup).insertionSort
    fun a b => a.1 < b.1 ∨ (a.1 = b.1 ∧ a.2 ≤ b.2)
  keys.flatMap fun key =>
    let ids := (((surfaces.filter fun s => s.1 = key.1 && s.2.1 = key.2).map (·.2.2)).dedup)
      |>.insertionSort fun a b => a ≤ b
    ids.flatMap fun left => (ids.filter fun right => left < right).map fun right => (left, right)

/-- `INSERT OR IGNORE INTO graph_merge_proposals`. -/
def proposeMerge (subjectId : String) (pair : String × String) : Sql (List GraphMutation) := do
  let id := E.stableId "gmp" [subjectId, pair.1, pair.2]
  let there ← query fun t => t.proposals.any fun p => p.id = id ||
    (p.subjectId = subjectId && p.leftEntity = pair.1 && p.rightEntity = pair.2)
  if there then return []
  else
    execute fun t => { t with proposals := t.proposals ++ [{
      id := id, subjectId := subjectId, leftEntity := pair.1, rightEntity := pair.2,
      status := .pending }] }
    return [.mergeProposed id pair.1 pair.2]

/-- `propose_entity_merges`. -/
def proposeEntityMerges (subjectId : String) : Sql (List GraphMutation) := do
  let pairs ← query fun t => proposedPairs t subjectId
  let reports ← pairs.mapM (proposeMerge E subjectId)
  return reports.flatten

/-! ## Decisions -/

/-- A decision of a reviewer. -/
structure MergeDecision where
  subjectId : String
  proposalId : String
  approve : Bool
  actor : String
  winnerEntity : Option String := none
  now : String

namespace MergeDecision

variable (m : MergeDecision)

/-- The winner of an approval: the left one, unless another is named. -/
def winner (p : MergeProposal) : String :=
  if truthy m.winnerEntity then m.winnerEntity.getD "" else p.leftEntity

/-- The other one. -/
def loser (p : MergeProposal) : Option String :=
  [p.leftEntity, p.rightEntity].find? (· ≠ m.winner p)

/-- What an approval checks of the two entities. -/
def checkEntities (winner loser : Option Entity) : Except Raised Unit :=
  match winner, loser with
  | some w, some l =>
    if w.status ≠ .active ∨ l.status ≠ .active then
      .error (.valueError "both merge entities must still be active")
    else if w.kind ≠ l.kind then
      .error (.valueError "entities of different kinds cannot be merged")
    else if w.normalized = "you" ∨ l.normalized = "you" then
      .error (.valueError "the root user entity cannot be merged")
    else .ok ()
  | _, _ => .error (.valueError "both merge entities must still be active")

/-- A proposal is rejected. -/
def reject (p : MergeProposal) : Sql GraphMutation := do
  execute fun t => t.updateProposals (·.id = m.proposalId) fun p =>
    { p with status := .rejected, decidedAt := some m.now, decidedBy := some m.actor }
  return .mergeRejected m.proposalId p.leftEntity p.rightEntity

/-- The loser points at the winner. -/
def merge (winner loser : String) : Sql GraphMutation := do
  execute fun t => t.updateEntities (·.id = loser) fun e =>
    { e with status := .merged, mergedInto := some winner, updatedAt := some m.now }
  execute fun t => t.deleteFts .entity loser
  execute fun t => t.updateProposals (·.id = m.proposalId) fun p =>
    { p with status := .approved, winnerEntity := some winner, decidedAt := some m.now,
             decidedBy := some m.actor }
  return .merged m.proposalId winner loser

/-- An approval. -/
def accept (p : MergeProposal) : Sql GraphMutation := do
  if m.winner p ∉ [p.leftEntity, p.rightEntity] then
    throw (.valueError "winner_entity must be one of the proposed entities")
  else
    match m.loser p with
    | none => throw .stopIteration
    | some loser =>
      let w ← query fun t => t.entity? (m.winner p)
      let l ← query fun t => t.entity? loser
      Statement.check (checkEntities w l)
      m.merge (m.winner p) loser

/-- `decide_merge`. -/
def statements : Sql GraphMutation := do
  let row ← query fun t => t.proposals.find? fun p =>
    p.id = m.proposalId && p.subjectId = m.subjectId && p.status = .pending
  match row with
  | none => throw (.valueError ("merge proposal " ++ m.proposalId ++ " is not pending"))
  | some p => if m.approve then m.accept p else m.reject p

end MergeDecision

/-! ## Reversals -/

/-- The entity an approval merged. -/
def MergeProposal.merged (p : MergeProposal) : String :=
  if some p.leftEntity = p.winnerEntity then p.rightEntity else p.leftEntity

/-- A call of `revert_merge`. -/
structure MergeReversal where
  subjectId : String
  proposalId : String
  actor : String
  now : String

namespace MergeReversal

variable (m : MergeReversal)

/-- The merged entity still points at the winner. -/
def stillMerged (p : MergeProposal) (e : Entity) : Bool :=
  e.status = .merged && e.mergedInto = some (p.winnerEntity.getD "None") && e.canonical ≠ ""

/-- A merged entity is active again. -/
def restore (p : MergeProposal) (e : Entity) : Sql GraphMutation := do
  execute fun t => t.updateEntities (·.id = p.merged) fun e =>
    { e with status := .active, mergedInto := none, updatedAt := some m.now }
  execute fun t => t.upsertFts ⟨.entity, p.merged, m.subjectId, e.canonical⟩
  execute fun t => t.updateProposals (·.id = m.proposalId) fun p =>
    { p with status := .reverted, decidedAt := some m.now, decidedBy := some m.actor }
  return .mergeReverted m.proposalId (p.winnerEntity.getD "None") p.merged

/-- `revert_merge`. -/
def statements : Sql GraphMutation := do
  let row ← query fun t => t.proposals.find? fun p =>
    p.id = m.proposalId && p.subjectId = m.subjectId && p.status = .approved
  match row with
  | none => throw (.valueError ("merge proposal " ++ m.proposalId ++ " is not approved"))
  | some p =>
    let entity ← query fun t => t.entity? p.merged
    match entity.filter (stillMerged p) with
    | none => throw (.valueError "merged entity no longer points to the approved winner")
    | some e => m.restore p e

end MergeReversal

/-! ## Pointers -/

/-- Where an entity points, where it is merged. -/
def Entity.pointer (e : Entity) : Option String :=
  if e.status = .merged ∧ truthy e.mergedInto then e.mergedInto else none

/-- The row of an entity of the subject. -/
def Tables.entityOf (t : Tables) (subjectId id : String) : Option Entity :=
  t.entities.find? fun e => e.id = id && e.subjectId = subjectId

/-- What the entity with an identifier was merged into. -/
def Tables.pointerOf (t : Tables) (subjectId id : String) : Option String :=
  (t.entityOf subjectId id).bind Entity.pointer

/-- The entities that point at one. -/
def Tables.mergedUnder (t : Tables) (subjectId id : String) : List String :=
  (t.entities.filter fun e => e.subjectId = subjectId && e.status = .merged &&
    e.mergedInto = some id).map (·.id)

/-- `_canonical_entity`: at most every entity is passed once. -/
def canonicalEntity (t : Tables) (subjectId id : String) : String :=
  Pointers.chase (t.pointerOf subjectId) (t.entities.length + 1) [] id id

/-- `_entity_family`. -/
def entityFamily (t : Tables) (subjectId id : String) : List String :=
  let canonical := canonicalEntity t subjectId id
  (Pointers.reach (t.mergedUnder subjectId) (t.entities.length + 1) [canonical]
    [canonical]).insertionSort fun a b => a ≤ b

/-! ## Calls -/

/-- What is called of the graph and of its identity service. -/
inductive GraphCall
  | index (r : GraphRecord) (now : String)
  | supersede (subjectId : String) (recordIds : List String) (supersededBy now : String)
  | tombstone (subjectId : String) (recordIds : List String) (now : String)
  | propose (subjectId : String)
  | decide (m : MergeDecision)
  | revert (m : MergeReversal)
  | commit (c : Commit)
  | rollback (mutationId now : String)

/-- The tables a call leaves; one that raises leaves them as they were. -/
def GraphCall.leaves : GraphCall → Database → Database
  | .index r now, d => ((indexRecord E r now).transaction d).2
  | .supersede subjectId ids by_ now, d =>
    ((supersedeRecords subjectId ids by_ now).transaction d).2
  | .tombstone subjectId ids now, d => ((tombstoneRecords subjectId ids now).transaction d).2
  | .propose subjectId, d => ((proposeEntityMerges E subjectId).transaction d).2
  | .decide m, d => (m.statements.transaction d).2
  | .revert m, d => (m.statements.transaction d).2
  | .commit c, d => (Graph.commit E.normalize c d).2
  | .rollback mutationId now, d => (Graph.rollback mutationId now d).2

end Atmem.Graph
