import Atmem.Graph.Model.Tables
import Mathlib.Data.List.Nodup
/-!
# What keeps the constraints

Rows rewritten under their identifiers, one table at a time: what has to hold
of the new rows for the schema still to hold.
-/

namespace Atmem.Graph

open Relational

/-- The unique columns of an entity. -/
def Entity.name (e : Entity) : String × String × String := (e.subjectId, e.normalized, e.kind)

namespace Tables

variable {t : Tables}

/-- Two rows of one identifier are one row. -/
theorem Sound.entity_eq (ht : Sound t) {e e' : Entity} (he : e ∈ t.entities)
    (he' : e' ∈ t.entities) (h : e.id = e'.id) : e = e' :=
  List.inj_on_of_nodup_map ht.entityIds he he' h

theorem Sound.alias_eq (ht : Sound t) {a a' : Alias} (ha : a ∈ t.aliases)
    (ha' : a' ∈ t.aliases) (h : a.id = a'.id) : a = a' :=
  List.inj_on_of_nodup_map ht.aliasIds ha ha' h

theorem Sound.edge_eq (ht : Sound t) {e e' : Edge} (he : e ∈ t.edges)
    (he' : e' ∈ t.edges) (h : e.id = e'.id) : e = e' :=
  List.inj_on_of_nodup_map ht.edgeIds he he' h

/-- A column that the rewriting of the rows leaves alone. -/
theorem map_column {ρ β : Type} (column : ρ → β) {rows : List ρ} {g : ρ → ρ}
    (hkept : ∀ r ∈ rows, column (g r) = column r) :
    (rows.map g).map column = rows.map column := by
  rw [List.map_map]
  exact List.map_congr_left fun r hr => hkept r hr

/-- **Entities rewritten under their identifiers.** -/
theorem Sound.map_entities (ht : Sound t) {g : Entity → Entity}
    (hid : ∀ e ∈ t.entities, (g e).id = e.id)
    (hnames : ((t.entities.map g).map Entity.name).Nodup)
    (hmerged : ∀ e ∈ t.entities, ∀ x ∈ (g e).mergedInto, x ∈ t.entities.map (·.id)) :
    Sound { t with entities := t.entities.map g } := by
  have hids : (t.entities.map g).map (·.id) = t.entities.map (·.id) :=
    map_column Entity.id hid
  exact { ht with
    entityIds := by
      show ((t.entities.map g).map (·.id)).Nodup
      rw [hids]
      exact ht.entityIds
    entityNames := hnames
    mergedInto := by
      show ∀ e ∈ t.entities.map g, ∀ x ∈ e.mergedInto, x ∈ (t.entities.map g).map (·.id)
      rw [hids]
      intro e he
      obtain ⟨e₀, he₀, rfl⟩ := List.mem_map.mp he
      exact hmerged e₀ he₀
    aliasEntities := by
      show ∀ a ∈ t.aliases, a.entityId ∈ (t.entities.map g).map (·.id)
      rw [hids]
      exact ht.aliasEntities
    edgeSources := by
      show ∀ e ∈ t.edges, e.srcEntity ∈ (t.entities.map g).map (·.id)
      rw [hids]
      exact ht.edgeSources
    edgeDestinations := by
      show ∀ e ∈ t.edges, ∀ x ∈ e.dstEntity, x ∈ (t.entities.map g).map (·.id)
      rw [hids]
      exact ht.edgeDestinations
    proposalEntities := by
      show ∀ p ∈ t.proposals, p.leftEntity ∈ (t.entities.map g).map (·.id) ∧
        p.rightEntity ∈ (t.entities.map g).map (·.id) ∧
        ∀ x ∈ p.winnerEntity, x ∈ (t.entities.map g).map (·.id)
      rw [hids]
      exact ht.proposalEntities }

/-- Aliases rewritten under their identifiers. -/
theorem Sound.map_aliases (ht : Sound t) {g : Alias → Alias}
    (hid : ∀ a ∈ t.aliases, (g a).id = a.id)
    (hkeys : ((t.aliases.map g).filterMap Alias.key).Nodup)
    (hentities : ∀ a ∈ t.aliases, (g a).entityId ∈ t.entities.map (·.id)) :
    Sound { t with aliases := t.aliases.map g } :=
  { ht with
    aliasIds := by
      show ((t.aliases.map g).map (·.id)).Nodup
      have hids : (t.aliases.map g).map (·.id) = t.aliases.map (·.id) := map_column Alias.id hid
      rw [hids]
      exact ht.aliasIds
    aliasKeys := hkeys
    aliasEntities := by
      intro a ha
      obtain ⟨a₀, ha₀, rfl⟩ := List.mem_map.mp ha
      exact hentities a₀ ha₀ }

/-- Edges rewritten under their identifiers. -/
theorem Sound.map_edges (ht : Sound t) {g : Edge → Edge}
    (hid : ∀ e ∈ t.edges, (g e).id = e.id)
    (hrecord : ∀ e ∈ t.edges, ((g e).subjectId, (g e).recordId) = (e.subjectId, e.recordId))
    (hsource : ∀ e ∈ t.edges, (g e).srcEntity ∈ t.entities.map (·.id))
    (hdestination : ∀ e ∈ t.edges, ∀ x ∈ (g e).dstEntity, x ∈ t.entities.map (·.id))
    (hsupersedes : ∀ e ∈ t.edges, ∀ x ∈ (g e).supersedesId, x ∈ t.edges.map (·.id)) :
    Sound { t with edges := t.edges.map g } := by
  have hids : (t.edges.map g).map (·.id) = t.edges.map (·.id) :=
    map_column Edge.id hid
  exact { ht with
    edgeIds := by
      show ((t.edges.map g).map (·.id)).Nodup
      rw [hids]
      exact ht.edgeIds
    edgeRecords := by
      show ((t.edges.map g).map fun e => (e.subjectId, e.recordId)).Nodup
      have hrecords : (t.edges.map g).map (fun e => (e.subjectId, e.recordId)) =
          t.edges.map fun e => (e.subjectId, e.recordId) :=
        map_column (fun e : Edge => (e.subjectId, e.recordId)) hrecord
      rw [hrecords]
      exact ht.edgeRecords
    edgeSources := by
      intro e he
      obtain ⟨e₀, he₀, rfl⟩ := List.mem_map.mp he
      exact hsource e₀ he₀
    edgeDestinations := by
      intro e he
      obtain ⟨e₀, he₀, rfl⟩ := List.mem_map.mp he
      exact hdestination e₀ he₀
    edgeSupersedes := by
      show ∀ e ∈ t.edges.map g, ∀ x ∈ e.supersedesId, x ∈ (t.edges.map g).map (·.id)
      rw [hids]
      intro e he
      obtain ⟨e₀, he₀, rfl⟩ := List.mem_map.mp he
      exact hsupersedes e₀ he₀ }

/-- The mutations, under identifiers that stay distinct. -/
theorem Sound.with_mutations (ht : Sound t) (mutations : List Mutation)
    (h : (mutations.map (·.mutationId)).Nodup) : Sound { t with mutations := mutations } :=
  { ht with mutationIds := h }

/-- The generations are under no constraint. -/
theorem Sound.with_generations (ht : Sound t) (generations : List GraphGeneration) :
    Sound { t with generations := generations } :=
  { ht with }

/-- A new entity. -/
theorem Sound.insert_entity (ht : Sound t) {e : Entity} (hid : e.id ∉ t.entities.map (·.id))
    (hname : Entity.name e ∉ t.entities.map Entity.name)
    (hmerged : ∀ x ∈ e.mergedInto, x ∈ t.entities.map (·.id)) :
    Sound { t with entities := t.entities ++ [e] } := by
  have hsub : ∀ x ∈ t.entities.map (·.id), x ∈ (t.entities ++ [e]).map (·.id) := by
    intro x hx
    rw [List.map_append]
    exact List.mem_append_left _ hx
  exact { ht with
    entityIds := by
      show ((t.entities ++ [e]).map (·.id)).Nodup
      rw [List.map_append]
      exact List.nodup_append'.mpr ⟨ht.entityIds, List.nodup_singleton _, by simpa using hid⟩
    entityNames := by
      show ((t.entities ++ [e]).map Entity.name).Nodup
      rw [List.map_append]
      exact List.nodup_append'.mpr ⟨ht.entityNames, List.nodup_singleton _, by simpa using hname⟩
    mergedInto := by
      intro e' he' x hx
      rcases List.mem_append.mp he' with h | h
      · exact hsub x (ht.mergedInto e' h x hx)
      · rw [List.mem_singleton.mp h] at hx
        exact hsub x (hmerged x hx)
    aliasEntities := fun a ha => hsub _ (ht.aliasEntities a ha)
    edgeSources := fun e he => hsub _ (ht.edgeSources e he)
    edgeDestinations := fun e he x hx => hsub x (ht.edgeDestinations e he x hx)
    proposalEntities := fun p hp => ⟨hsub _ (ht.proposalEntities p hp).1,
      hsub _ (ht.proposalEntities p hp).2.1,
      fun x hx => hsub x ((ht.proposalEntities p hp).2.2 x hx)⟩ }

end Tables

end Atmem.Graph
