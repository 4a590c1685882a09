import Atmem.Graph.Helpers.Identity
/-!
# What a rollback writes back

The rows a commit changed, written back one by one: every state on the way
keeps the constraints, since each row of it is the row before the commit or
the row after.
-/

namespace Atmem.Graph

open Relational Statement

variable {c : Commit} {d d' : Database} {t : Tables} {m : Mutation}
variable {g : Entity → Entity} {ga : Alias → Alias} {gd : Edge → Edge}

@[simp] theorem mem_orderById {ρ : Type} {id : ρ → String} {rows : List ρ} {r : ρ} :
    r ∈ orderById id rows ↔ r ∈ rows := List.mem_insertionSort _

/-- The entities that a preview saves. -/
theorem mem_before_entities {subjectId : String} {ids : List String} {e : Entity} :
    e ∈ (beforeOf t subjectId ids).entities ↔
      e ∈ t.entities ∧ e.subjectId = subjectId ∧ e.id ∈ ids := by
  simp [beforeOf]

/-- Its aliases. -/
theorem mem_before_aliases {subjectId : String} {ids : List String} {a : Alias} :
    a ∈ (beforeOf t subjectId ids).aliases ↔
      a ∈ t.aliases ∧ a.subjectId = subjectId ∧ a.entityId ∈ ids := by
  simp [beforeOf]

/-- Its edges. -/
theorem mem_before_edges {subjectId : String} {ids : List String} {e : Edge} :
    e ∈ (beforeOf t subjectId ids).edges ↔
      e ∈ t.edges ∧ e.subjectId = subjectId ∧
        (e.srcEntity ∈ ids ∨ ∃ x ∈ e.dstEntity, x ∈ ids) := by
  simp [beforeOf, Option.any_eq_true]

/-! ## The loops -/

/-- Restoring the entities one by one writes them back. -/
theorem foldl_restoreEntities (saved : List Entity) (t : Tables) :
    saved.foldl (fun t s => t.updateEntities (fun e => e.id = s.id) (Entity.restore s)) t =
      { t with entities := t.entities.map (writtenBack Entity.id Entity.restore saved) } := by
  induction saved generalizing t with
  | nil =>
    show t = { t with entities := t.entities.map fun e => e }
    rw [List.map_id']
  | cons s saved ih =>
    rw [List.foldl_cons, ih]
    simp only [Tables.updateEntities, List.map_map]
    congr 1
    refine List.map_congr_left fun e _ => ?_
    simp only [Function.comp_apply, decide_eq_true_eq]
    rfl

/-- So with the aliases. -/
theorem foldl_restoreAliases (saved : List Alias) (t : Tables) :
    saved.foldl (fun t s => t.updateAliases (fun a => a.id = s.id) (Alias.restore s)) t =
      { t with aliases := t.aliases.map (writtenBack Alias.id Alias.restore saved) } := by
  induction saved generalizing t with
  | nil =>
    show t = { t with aliases := t.aliases.map fun a => a }
    rw [List.map_id']
  | cons s saved ih =>
    rw [List.foldl_cons, ih]
    simp only [Tables.updateAliases, List.map_map]
    congr 1
    refine List.map_congr_left fun e _ => ?_
    simp only [Function.comp_apply, decide_eq_true_eq]
    rfl

/-- So with the edges. -/
theorem foldl_restoreEdges (saved : List Edge) (t : Tables) :
    saved.foldl (fun t s => t.updateEdges (fun e => e.id = s.id) (Edge.restore s)) t =
      { t with edges := t.edges.map (writtenBack Edge.id Edge.restore saved) } := by
  induction saved generalizing t with
  | nil =>
    show t = { t with edges := t.edges.map fun e => e }
    rw [List.map_id']
  | cons s saved ih =>
    rw [List.foldl_cons, ih]
    simp only [Tables.updateEdges, List.map_map]
    congr 1
    refine List.map_congr_left fun e _ => ?_
    simp only [Function.comp_apply, decide_eq_true_eq]
    rfl

/-! ## The rows on the way -/

section Way

variable (hc : c.Changes g ga gd) (ht : Tables.Sound t)
include hc ht

/-- An entity on the way back is the row before the commit or the row after;
at the end, the row before. -/
theorem entity_writtenBack {saved : List Entity}
    (hsaved : ∀ s ∈ saved, s ∈ t.entities) {e : Entity} (he : e ∈ t.entities) :
    (e ∈ saved → writtenBack Entity.id Entity.restore saved (g e) = e) ∧
      (e ∉ saved → writtenBack Entity.id Entity.restore saved (g e) = g e) :=
  writtenBack_changed (fun _ _ => rfl) e.restore_self
    (fun s hs h => ht.entity_eq (hsaved s hs) he h) (hc.entity_back e)

/-- A saved alias is again what it was, the others stay changed. -/
theorem alias_writtenBack {saved : List Alias}
    (hsaved : ∀ s ∈ saved, s ∈ t.aliases) {a : Alias} (ha : a ∈ t.aliases) :
    (a ∈ saved → writtenBack Alias.id Alias.restore saved (ga a) = a) ∧
      (a ∉ saved → writtenBack Alias.id Alias.restore saved (ga a) = ga a) :=
  writtenBack_changed (fun _ _ => rfl) a.restore_self
    (fun s hs h => ht.alias_eq (hsaved s hs) ha h) (hc.alias_back a)

/-- So with an edge. -/
theorem edge_writtenBack {saved : List Edge}
    (hsaved : ∀ s ∈ saved, s ∈ t.edges) {e : Edge} (he : e ∈ t.edges) :
    (e ∈ saved → writtenBack Edge.id Edge.restore saved (gd e) = e) ∧
      (e ∉ saved → writtenBack Edge.id Edge.restore saved (gd e) = gd e) :=
  writtenBack_changed (fun _ _ => rfl) e.restore_self
    (fun s hs h => ht.edge_eq (hsaved s hs) he h) (hc.edge_back e)

/-- Names stay distinct on the way back: the one that changed is written
back at one statement. -/
theorem nodup_names_of_between {h : Entity → Entity}
    (hg : ((t.entities.map g).map Entity.name).Nodup)
    (hh : ∀ e ∈ t.entities, h e = e ∨ h e = g e) :
    ((t.entities.map h).map Entity.name).Nodup := by
  obtain ⟨x, hx⟩ := hc.entity_name
  by_cases hchanged : ∃ e ∈ t.entities, e.id = x ∧ h e = g e
  · obtain ⟨e₁, he₁, hid, heq⟩ := hchanged
    have hnames : (t.entities.map h).map Entity.name = (t.entities.map g).map Entity.name := by
      rw [List.map_map, List.map_map]
      refine List.map_congr_left fun e he => ?_
      show (h e).name = (g e).name
      by_cases hex : e.id = x
      · rw [ht.entity_eq he he₁ (hex.trans hid.symm), heq]
      · rcases hh e he with h' | h'
        · rw [h', hx e hex]
        · rw [h']
    rw [hnames]
    exact hg
  · have hnames : (t.entities.map h).map Entity.name = t.entities.map Entity.name := by
      refine Tables.map_column Entity.name fun e he => ?_
      rcases hh e he with h' | h'
      · rw [h']
      · by_cases hex : e.id = x
        · exact absurd ⟨e, he, hex, h'⟩ hchanged
        · rw [h', hx e hex]
    rw [hnames]
    exact ht.entityNames

end Way

/-! ## The rollback -/

/-- The columns of a row that is written back. -/
theorem Commit.Changes.entity_id (hc : c.Changes g ga gd) (e : Entity) : (g e).id = e.id := by
  have h := congrArg Entity.id (hc.entity_back e)
  exact h

theorem Commit.Changes.alias_id (hc : c.Changes g ga gd) (a : Alias) : (ga a).id = a.id := by
  have h := congrArg Alias.id (hc.alias_back a)
  exact h

/-- What no commit changes of an edge. -/
theorem Commit.Changes.edge_same (hc : c.Changes g ga gd) (e : Edge) :
    (gd e).id = e.id ∧ (gd e).subjectId = e.subjectId ∧ (gd e).recordId = e.recordId ∧
      (gd e).supersedesId = e.supersedesId := by
  have h := hc.edge_back e
  have hid := congrArg Edge.id h
  have hsubject := congrArg Edge.subjectId h
  have hrecord := congrArg Edge.recordId h
  have hsupersedes := congrArg Edge.supersedesId h
  exact ⟨hid, hsubject, hrecord, hsupersedes⟩

/-- The entities are written back. -/
theorem restoreEntities_ok (hc : c.Changes g ga gd) (ht : Tables.Sound t)
    (hentities : d.val.entities = t.entities.map g) :
    ∃ d', ((beforeOf t c.preview.subjectId c.preview.entityIds).entities.forM fun saved =>
        execute fun t => t.updateEntities (fun e => e.id = saved.id) (Entity.restore saved)) d =
          .ok ((), d') ∧ d'.val = { d.val with entities := t.entities } := by
  have hids : d.val.entities.map (·.id) = t.entities.map (·.id) := by
    rw [hentities]
    exact Tables.map_column Entity.id fun e _ => hc.entity_id e
  have hsaved : ∀ s ∈ (beforeOf t c.preview.subjectId c.preview.entityIds).entities,
      s ∈ t.entities := fun s hs => (mem_before_entities.mp hs).1
  -- on the way each entity is as it was or as it is
  have hway : ∀ pre, pre <+: (beforeOf t c.preview.subjectId c.preview.entityIds).entities →
      Tables.Sound (pre.foldl
        (fun t s => t.updateEntities (fun e => e.id = s.id) (Entity.restore s)) d.val) := by
    intro pre hpre
    have hmem : ∀ s ∈ pre, s ∈ t.entities := fun s hs => hsaved s (hpre.subset hs)
    have hbetween : ∀ e ∈ t.entities, writtenBack Entity.id Entity.restore pre (g e) = e ∨
        writtenBack Entity.id Entity.restore pre (g e) = g e := by
      intro e he
      have hboth := entity_writtenBack hc ht hmem he
      by_cases hin : e ∈ pre
      · exact .inl (hboth.1 hin)
      · exact .inr (hboth.2 hin)
    rw [foldl_restoreEntities]
    refine d.property.map_entities ?_ ?_ ?_
    · rw [hentities]
      intro e he
      obtain ⟨e₀, he₀, rfl⟩ := List.mem_map.mp he
      rcases hbetween e₀ he₀ with h | h
      · rw [h, hc.entity_id]
      · rw [h]
    · have hnames := d.property.entityNames
      rw [hentities] at hnames ⊢
      rw [List.map_map (g := writtenBack Entity.id Entity.restore pre)]
      exact nodup_names_of_between hc ht hnames hbetween
    · rw [hids, hentities]
      intro e he x hx
      obtain ⟨e₀, he₀, rfl⟩ := List.mem_map.mp he
      rcases hbetween e₀ he₀ with h | h
      · rw [h] at hx
        exact ht.mergedInto e₀ he₀ x hx
      · rw [h] at hx
        have hmerged := d.property.mergedInto (g e₀)
        rw [hids, hentities] at hmerged
        exact hmerged (List.mem_map_of_mem he₀) x hx
  have hback : d.val.entities.map (writtenBack Entity.id Entity.restore
      (beforeOf t c.preview.subjectId c.preview.entityIds).entities) = t.entities := by
    rw [hentities, List.map_map]
    refine (List.map_congr_left fun e he => ?_).trans (List.map_id' _)
    have hboth := entity_writtenBack hc ht hsaved he
    by_cases hin : e ∈ (beforeOf t c.preview.subjectId c.preview.entityIds).entities
    · exact hboth.1 hin
    · refine (hboth.2 hin).trans ?_
      by_contra hne
      exact hin (mem_before_entities.mpr ⟨he, hc.entity_shown e hne⟩)
  refine ⟨⟨_, hway _ (List.prefix_refl _)⟩, forM_execute_eq_ok.mpr ⟨hway, rfl⟩, ?_⟩
  show List.foldl _ _ _ = _
  rw [foldl_restoreEntities, hback]

/-- The aliases are written back. -/
theorem restoreAliases_ok (hc : c.Changes g ga gd) (ht : Tables.Sound t)
    (hentities : d.val.entities = t.entities) (haliases : d.val.aliases = t.aliases.map ga) :
    ∃ d', ((beforeOf t c.preview.subjectId c.preview.entityIds).aliases.forM fun saved =>
        execute fun t => t.updateAliases (fun a => a.id = saved.id) (Alias.restore saved)) d =
          .ok ((), d') ∧ d'.val = { d.val with aliases := t.aliases } := by
  have hsaved : ∀ s ∈ (beforeOf t c.preview.subjectId c.preview.entityIds).aliases,
      s ∈ t.aliases := fun s hs => (mem_before_aliases.mp hs).1
  -- each prefix of the statements leaves sound tables, so none is refused
  have hway : ∀ pre, pre <+: (beforeOf t c.preview.subjectId c.preview.entityIds).aliases →
      Tables.Sound (pre.foldl
        (fun t s => t.updateAliases (fun a => a.id = s.id) (Alias.restore s)) d.val) := by
    intro pre hpre
    have hmem : ∀ s ∈ pre, s ∈ t.aliases := fun s hs => hsaved s (hpre.subset hs)
    have hsame : ∀ a ∈ t.aliases, (writtenBack Alias.id Alias.restore pre (ga a)).id = a.id ∧
        (writtenBack Alias.id Alias.restore pre (ga a)).key = a.key ∧
        (writtenBack Alias.id Alias.restore pre (ga a)).entityId = a.entityId := by
      intro a ha
      have hboth := alias_writtenBack hc ht hmem ha
      by_cases hin : a ∈ pre
      · rw [hboth.1 hin]
        exact ⟨rfl, rfl, rfl⟩
      · rw [hboth.2 hin]
        exact ⟨hc.alias_id a, hc.alias_key a, hc.alias_entity a⟩
    rw [foldl_restoreAliases]
    refine d.property.map_aliases ?_ ?_ ?_
    · rw [haliases]
      intro a ha
      obtain ⟨a₀, ha₀, rfl⟩ := List.mem_map.mp ha
      rw [(hsame a₀ ha₀).1, hc.alias_id]
    · rw [haliases, List.map_map, List.filterMap_map]
      have hkeys : t.aliases.filterMap
          (Alias.key ∘ (writtenBack Alias.id Alias.restore pre ∘ ga)) =
            t.aliases.filterMap Alias.key :=
        List.filterMap_congr fun a ha => (hsame a ha).2.1
      rw [hkeys]
      exact ht.aliasKeys
    · rw [haliases, hentities]
      intro a ha
      obtain ⟨a₀, ha₀, rfl⟩ := List.mem_map.mp ha
      rw [(hsame a₀ ha₀).2.2]
      exact ht.aliasEntities a₀ ha₀
  have hback : d.val.aliases.map (writtenBack Alias.id Alias.restore
      (beforeOf t c.preview.subjectId c.preview.entityIds).aliases) = t.aliases := by
    rw [haliases, List.map_map]
    refine (List.map_congr_left fun a ha => ?_).trans (List.map_id' _)
    have hboth := alias_writtenBack hc ht hsaved ha
    by_cases hin : a ∈ (beforeOf t c.preview.subjectId c.preview.entityIds).aliases
    · exact hboth.1 hin
    · -- what was changed was shown, and so saved
      refine (hboth.2 hin).trans ?_
      by_contra hne
      exact hin (mem_before_aliases.mpr ⟨ha, hc.alias_shown a hne⟩)
  refine ⟨⟨_, hway _ (List.prefix_refl _)⟩, forM_execute_eq_ok.mpr ⟨hway, rfl⟩, ?_⟩
  show List.foldl _ _ _ = _
  rw [foldl_restoreAliases, hback]

/-- The edges are written back. -/
theorem restoreEdges_ok (hc : c.Changes g ga gd) (ht : Tables.Sound t)
    (hentities : d.val.entities = t.entities) (hedges : d.val.edges = t.edges.map gd) :
    ∃ d', ((beforeOf t c.preview.subjectId c.preview.entityIds).edges.forM fun saved =>
        execute fun t => t.updateEdges (fun e => e.id = saved.id) (Edge.restore saved)) d =
          .ok ((), d') ∧ d'.val = { d.val with edges := t.edges } := by
  have hsaved : ∀ s ∈ (beforeOf t c.preview.subjectId c.preview.entityIds).edges,
      s ∈ t.edges := fun s hs => (mem_before_edges.mp hs).1
  have hids : d.val.edges.map (·.id) = t.edges.map (·.id) := by
    rw [hedges]
    exact Tables.map_column Edge.id fun e _ => (hc.edge_same e).1
  -- each prefix of the statements leaves sound tables, so none is refused
  have hway : ∀ pre, pre <+: (beforeOf t c.preview.subjectId c.preview.entityIds).edges →
      Tables.Sound (pre.foldl
        (fun t s => t.updateEdges (fun e => e.id = s.id) (Edge.restore s)) d.val) := by
    intro pre hpre
    have hmem : ∀ s ∈ pre, s ∈ t.edges := fun s hs => hsaved s (hpre.subset hs)
    have hsame : ∀ e ∈ t.edges, ∃ s u, writtenBack Edge.id Edge.restore pre (gd e) =
        { e with status := s, updatedAt := u } := by
      intro e he
      have hboth := edge_writtenBack hc ht hmem he
      by_cases hin : e ∈ pre
      · exact ⟨e.status, e.updatedAt, hboth.1 hin⟩
      · -- an edge that was not saved yet has its new status, and its old ends
        refine ⟨(gd e).status, (gd e).updatedAt, (hboth.2 hin).trans ?_⟩
        have hback := hc.edge_back e
        have hends := hc.edge_ends e
        generalize gd e = e' at hback hends ⊢
        rw [← hback]
        simp only [Edge.restore, ← hends.1, ← hends.2]
    rw [foldl_restoreEdges]
    refine d.property.map_edges ?_ ?_ ?_ ?_ ?_
    all_goals
      rw [hedges]
      intro e he
      obtain ⟨e₀, he₀, rfl⟩ := List.mem_map.mp he
      obtain ⟨s, u, hrow⟩ := hsame e₀ he₀
      rw [hrow]
    · exact (hc.edge_same e₀).1.symm
    · rw [(hc.edge_same e₀).2.1, (hc.edge_same e₀).2.2.1]
    · rw [hentities]
      exact ht.edgeSources e₀ he₀
    · rw [hentities]
      exact ht.edgeDestinations e₀ he₀
    · rw [← hedges, hids]
      exact ht.edgeSupersedes e₀ he₀
  have hback : d.val.edges.map (writtenBack Edge.id Edge.restore
      (beforeOf t c.preview.subjectId c.preview.entityIds).edges) = t.edges := by
    rw [hedges, List.map_map]
    refine (List.map_congr_left fun e he => ?_).trans (List.map_id' _)
    have hboth := edge_writtenBack hc ht hsaved he
    by_cases hin : e ∈ (beforeOf t c.preview.subjectId c.preview.entityIds).edges
    · exact hboth.1 hin
    · -- what was changed was shown, and so saved
      refine (hboth.2 hin).trans ?_
      by_contra hne
      exact hin (mem_before_edges.mpr ⟨he, hc.edge_shown e hne⟩)
  refine ⟨⟨_, hway _ (List.prefix_refl _)⟩, forM_execute_eq_ok.mpr ⟨hway, rfl⟩, ?_⟩
  show List.foldl _ _ _ = _
  rw [foldl_restoreEdges, hback]

/-- **The rows a commit changed are written back**, and nothing refuses it. -/
theorem restoreRows_ok (hc : c.Changes g ga gd) (ht : Tables.Sound t)
    (hentities : d.val.entities = t.entities.map g) (haliases : d.val.aliases = t.aliases.map ga)
    (hedges : d.val.edges = t.edges.map gd) (hcreated : m.createdEntityIds = [])
    (hbefore : m.before = beforeOf t c.preview.subjectId c.preview.entityIds) :
    ∃ d', restoreRows m d = .ok ((), d') ∧ d'.val =
      { d.val with entities := t.entities, aliases := t.aliases, edges := t.edges } := by
  obtain ⟨d₁, h₁, hrows₁⟩ := restoreEntities_ok hc ht hentities
  obtain ⟨d₂, h₂, hrows₂⟩ := restoreAliases_ok (d := d₁) hc ht (by rw [hrows₁])
    (by rw [hrows₁]; exact haliases)
  obtain ⟨d₃, h₃, hrows₃⟩ := restoreEdges_ok (d := d₂) hc ht (by rw [hrows₂, hrows₁])
    (by rw [hrows₂, hrows₁]; exact hedges)
  refine ⟨d₃, ?_, by rw [hrows₃, hrows₂, hrows₁]⟩
  unfold restoreRows
  rw [hcreated, hbefore]
  simp only [bind_eq_ok]
  exact ⟨(), d, rfl, (), d₁, h₁, (), d₂, h₂, h₃⟩

/-- The row of the mutation, marked. -/
def markRolledBack (mutationId now : String) (mutations : List Mutation) : List Mutation :=
  mutations.map fun r => if r.mutationId = mutationId
    then { r with status := .rolledBack, rolledBackAt := some now } else r

/-- **A rollback, from its row**: it goes through where the rows are written
back. -/
theorem rollback_of_restored (now : String)
    (hfound : d.val.mutations.find? (fun r => r.mutationId = m.mutationId) = some m)
    (hstatus : m.status = .committed) {d₁ : Database} (hrows : restoreRows m d = .ok ((), d₁)) :
    ∃ r d', rollback m.mutationId now d = (.ok r, d') ∧
      d'.val = { d₁.val with mutations := markRolledBack m.mutationId now d₁.val.mutations } := by
  have hs := d₁.property.with_mutations (markRolledBack m.mutationId now d₁.val.mutations) (by
    have hids : (markRolledBack m.mutationId now d₁.val.mutations).map (·.mutationId) =
        d₁.val.mutations.map (·.mutationId) :=
      Tables.map_column Mutation.mutationId fun r _ => by split <;> rfl
    rw [hids]
    exact d₁.property.mutationIds)
  refine ⟨m.rollbackReceipt m.mutationId, ⟨_, hs⟩, transaction_eq_ok.mpr ?_, rfl⟩
  unfold rollbackStatements
  refine bind_eq_ok.mpr ⟨some m, d, query_eq_ok.mpr ⟨hfound, rfl⟩, ?_⟩
  dsimp only
  rw [if_neg (not_not.mpr hstatus)]
  refine bind_eq_ok.mpr ⟨(), d₁, hrows, bind_eq_ok.mpr ⟨(), ⟨_, hs⟩, execute_eq_ok.mpr ?_, ?_⟩⟩
  · rfl
  · exact pure_eq_ok.mpr ⟨rfl, rfl⟩

/-- What a rollback that goes through did. -/
theorem restored_of_rollback {mutationId now : String} {r : Receipt}
    (h : rollback mutationId now d = (.ok r, d')) :
    ∃ m d₁, d.val.mutations.find? (fun r => r.mutationId = mutationId) = some m ∧
      restoreRows m d = .ok ((), d₁) ∧
      d'.val = { d₁.val with mutations := markRolledBack mutationId now d₁.val.mutations } := by
  have h' := transaction_eq_ok.mp h
  unfold rollbackStatements at h'
  obtain ⟨found, d₁, hquery, h₁⟩ := bind_eq_ok.mp h'
  obtain ⟨hfound, rfl⟩ := query_eq_ok.mp hquery
  rcases found with - | m
  · exact absurd h₁ throw_ne_ok
  · dsimp only at h₁
    split at h₁
    · exact absurd h₁ throw_ne_ok
    · obtain ⟨u, d₂, hrows, h₂⟩ := bind_eq_ok.mp h₁
      obtain ⟨v, d₃, hmark, h₃⟩ := bind_eq_ok.mp h₂
      obtain ⟨-, rfl⟩ := pure_eq_ok.mp h₃
      exact ⟨m, d₂, hfound, hrows, execute_eq_ok.mp hmark⟩

/-- An entity an alias points at is not deleted. -/
theorem restoreRows_ne_ok (id : String) (hcreated : m.createdEntityIds = [id])
    (halias : ∃ a ∈ d.val.aliases, a.entityId = id) : restoreRows m d ≠ .ok ((), d') := by
  intro h
  unfold restoreRows at h
  rw [hcreated] at h
  obtain ⟨u, d₁, hdelete, -⟩ := bind_eq_ok.mp h
  have hdelete' : (do
      execute fun t => { t with entities := t.entities.filter fun e => !decide (e.id = id) }
      pure () : Sql Unit) d = .ok (u, d₁) := hdelete
  obtain ⟨v, d₂, h₂, h₃⟩ := bind_eq_ok.mp hdelete'
  have hrows := execute_eq_ok.mp h₂
  obtain ⟨a, ha, rfl⟩ := halias
  have hmem := d₂.property.aliasEntities a (by rw [hrows]; exact ha)
  rw [hrows] at hmem
  obtain ⟨e, he, heq⟩ := List.mem_map.mp hmem
  have hkept := (List.mem_filter.mp he).2
  simp [heq] at hkept

end Atmem.Graph
