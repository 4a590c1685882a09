import Atmem.Graph.Helpers.Constraints
import Atmem.Graph.Model.Identity
/-!
# What a repair of identity writes

What each action of a commit does to the rows, and when the constraints let
it; and what the rollback makes of the rows a commit changed.
-/

namespace Atmem.Graph

open Relational

variable {normalize : String → String} {c : Commit} {d d' : Database} {t : Tables}

/-- The first of the entities. -/
theorem firstOf_eq_ok {ids : List String} {id : String} :
    firstOf ids = .ok id ↔ ids.head? = some id := by
  unfold firstOf
  split <;> simp

/-! ## Rows that can be written back -/

/-- A row that can be written back is the row, but for the columns a
rollback writes. -/
theorem Entity.restore_self (e : Entity) : e.restore e = e := rfl

theorem Alias.restore_self (a : Alias) : a.restore a = a := rfl

theorem Edge.restore_self (e : Edge) : e.restore e = e := rfl

/-- What a commit may make of the rows: it changes rows the preview showed,
in columns that are written back, and at most one entity's name. -/
structure Commit.Changes (c : Commit) (g : Entity → Entity) (ga : Alias → Alias)
    (gd : Edge → Edge) : Prop where
  entity_shown : ∀ e, g e ≠ e →
    e.subjectId = c.preview.subjectId ∧ e.id ∈ c.preview.entityIds
  entity_back : ∀ e, Entity.restore e (g e) = e
  entity_name : ∃ x, ∀ e : Entity, e.id ≠ x → (g e).name = e.name
  alias_shown : ∀ a, ga a ≠ a →
    a.subjectId = c.preview.subjectId ∧ a.entityId ∈ c.preview.entityIds
  alias_back : ∀ a, Alias.restore a (ga a) = a
  alias_entity : ∀ a, (ga a).entityId = a.entityId
  edge_shown : ∀ e, gd e ≠ e → e.subjectId = c.preview.subjectId ∧
    (e.srcEntity ∈ c.preview.entityIds ∨ ∃ x ∈ e.dstEntity, x ∈ c.preview.entityIds)
  edge_back : ∀ e, Edge.restore e (gd e) = e
  edge_ends : ∀ e, (gd e).srcEntity = e.srcEntity ∧ (gd e).dstEntity = e.dstEntity

/-- The tables with every row rewritten. -/
def Tables.rewritten (t : Tables) (g : Entity → Entity) (ga : Alias → Alias)
    (gd : Edge → Edge) : Tables :=
  { t with entities := t.entities.map g, aliases := t.aliases.map ga, edges := t.edges.map gd }

/-- An alias keeps its unique columns. -/
theorem Commit.Changes.alias_key {g : Entity → Entity} {ga : Alias → Alias} {gd : Edge → Edge}
    (h : c.Changes g ga gd) (a : Alias) : (ga a).key = a.key := by
  have hback := h.alias_back a
  have hsubject := congrArg Alias.subjectId hback
  have hnormalized := congrArg Alias.normalized hback
  have hrecord := congrArg Alias.sourceRecord hback
  simp only [Alias.restore] at hsubject hnormalized hrecord
  unfold Alias.key
  rw [h.alias_entity a, hsubject, hnormalized, hrecord]

/-! ## What the actions write -/

namespace Commit

variable (c)

/-- The rename of an entity. -/
def renames (normalize : String → String) (id : String) (e : Entity) : Entity :=
  if c.names id e then
    { e with canonical := c.preview.name, normalized := normalize c.preview.name,
             updatedAt := some c.now }
  else e

/-- The deletion of an entity. -/
def deleting (id : String) (e : Entity) : Entity :=
  if c.names id e then { e with status := .tombstoned, updatedAt := some c.now } else e

/-- What deleting an entity makes of an alias. -/
def deletingAlias (id : String) (a : Alias) : Alias :=
  if a.subjectId = c.preview.subjectId && a.entityId = id
  then { a with status := .tombstoned } else a

/-- What deleting an entity makes of an edge. -/
def deletingEdge (id : String) (e : Edge) : Edge :=
  if e.subjectId = c.preview.subjectId && (e.srcEntity = id || e.dstEntity = some id)
  then { e with status := .tombstoned, updatedAt := some c.now } else e

/-- The merge of entities into one. -/
def merging (target : String) (sources : List String) (e : Entity) : Entity :=
  if e.subjectId = c.preview.subjectId ∧ e.id ∈ sources
  then { e with status := .merged, mergedInto := some target, updatedAt := some c.now } else e

/-- What merging entities makes of an alias. -/
def mergingAlias (sources : List String) (a : Alias) : Alias :=
  if a.subjectId = c.preview.subjectId ∧ a.entityId ∈ sources
  then { a with status := .superseded } else a

variable {c}

/-- The entity that is meant. -/
theorem names_iff {id : String} {e : Entity} :
    c.names id e = true ↔ e.subjectId = c.preview.subjectId ∧ e.id = id := by
  simp [names]

/-- What a renaming changes was previewed. -/
theorem changes_rename {id : String} (hid : id ∈ c.preview.entityIds) :
    c.Changes (c.renames normalize id) (fun a => a) (fun e => e) where
  entity_shown := by
    intro e hne
    unfold renames at hne
    split at hne
    · rename_i hnames
      obtain ⟨hsubject, rfl⟩ := names_iff.mp hnames
      exact ⟨hsubject, hid⟩
    · exact absurd rfl hne
  entity_back := by
    intro e
    unfold renames
    split <;> rfl
  entity_name := by
    refine ⟨id, fun e hne => ?_⟩
    unfold renames
    rw [if_neg fun h => hne (names_iff.mp h).2]
  alias_shown := fun _ h => absurd rfl h
  alias_back := Alias.restore_self
  alias_entity := fun _ => rfl
  edge_shown := fun _ h => absurd rfl h
  edge_back := Edge.restore_self
  edge_ends := fun _ => ⟨rfl, rfl⟩

/-- So with a deletion. -/
theorem changes_delete {id : String} (hid : id ∈ c.preview.entityIds) :
    c.Changes (c.deleting id) (c.deletingAlias id) (c.deletingEdge id) where
  entity_shown := by
    intro e hne
    unfold deleting at hne
    split at hne
    · rename_i hnames
      obtain ⟨hsubject, rfl⟩ := names_iff.mp hnames
      exact ⟨hsubject, hid⟩
    · exact absurd rfl hne
  entity_back := by
    intro e
    unfold deleting
    split <;> rfl
  entity_name := by
    refine ⟨id, fun e hne => ?_⟩
    unfold deleting
    rw [if_neg fun h => hne (names_iff.mp h).2]
  alias_shown := by
    intro a hne
    unfold deletingAlias at hne
    split at hne
    · rename_i hnames
      simp only [Bool.and_eq_true, decide_eq_true_eq] at hnames
      exact ⟨hnames.1, hnames.2 ▸ hid⟩
    · exact absurd rfl hne
  alias_back := by
    intro a
    unfold deletingAlias
    split <;> rfl
  alias_entity := by
    intro a
    unfold deletingAlias
    split <;> rfl
  edge_shown := by
    intro e hne
    unfold deletingEdge at hne
    split at hne
    · rename_i hnames
      simp only [Bool.and_eq_true, Bool.or_eq_true, decide_eq_true_eq] at hnames
      rcases hnames.2 with hsource | hdestination
      · exact ⟨hnames.1, .inl (hsource ▸ hid)⟩
      · exact ⟨hnames.1, .inr ⟨id, hdestination, hid⟩⟩
    · exact absurd rfl hne
  edge_back := by
    intro e
    unfold deletingEdge
    split <;> rfl
  edge_ends := by
    intro e
    unfold deletingEdge
    split <;> exact ⟨rfl, rfl⟩

/-- So with a merge. -/
theorem changes_merge {target : String} {sources : List String}
    (hids : ∀ id ∈ sources, id ∈ c.preview.entityIds) :
    c.Changes (c.merging target sources) (c.mergingAlias sources) (fun e => e) where
  entity_shown := by
    intro e hne
    unfold merging at hne
    split at hne
    · rename_i hnames
      exact ⟨hnames.1, hids _ hnames.2⟩
    · exact absurd rfl hne
  entity_back := by
    intro e
    unfold merging
    split <;> rfl
  entity_name := by
    refine ⟨"", fun e _ => ?_⟩
    unfold merging
    split <;> rfl
  alias_shown := by
    intro a hne
    unfold mergingAlias at hne
    split at hne
    · rename_i hnames
      exact ⟨hnames.1, hids _ hnames.2⟩
    · exact absurd rfl hne
  alias_back := by
    intro a
    unfold mergingAlias
    split <;> rfl
  alias_entity := by
    intro a
    unfold mergingAlias
    split <;> rfl
  edge_shown := fun _ h => absurd rfl h
  edge_back := Edge.restore_self
  edge_ends := fun _ => ⟨rfl, rfl⟩

/-- Nothing changes nothing else. -/
theorem changes_nothing : c.Changes (fun e => e) (fun a => a) (fun e => e) where
  entity_shown := fun _ h => absurd rfl h
  entity_back := Entity.restore_self
  entity_name := ⟨"", fun _ _ => rfl⟩
  alias_shown := fun _ h => absurd rfl h
  alias_back := Alias.restore_self
  alias_entity := fun _ => rfl
  edge_shown := fun _ h => absurd rfl h
  edge_back := Edge.restore_self
  edge_ends := fun _ => ⟨rfl, rfl⟩

/-! ## When the constraints let them -/

/-- The entity has its new name. -/
theorem name_renames {id : String} {e : Entity} (h : c.names id e = true) :
    (c.renames normalize id e).name =
      (c.preview.subjectId, normalize c.preview.name, e.kind) := by
  unfold renames
  rw [if_pos h]
  exact congrArg (fun s => (s, normalize c.preview.name, e.kind)) (names_iff.mp h).1

/-- The others keep theirs. -/
theorem renames_of_not {id : String} {e : Entity} (h : ¬ c.names id e = true) :
    c.renames normalize id e = e := if_neg h

/-- A rename is let through where no other entity has the name. -/
theorem sound_rename_iff (ht : Tables.Sound t) {id : String} :
    Tables.Sound { t with entities := t.entities.map (c.renames normalize id) } ↔
      ∀ e ∈ t.entities, c.names id e = true → ∀ e' ∈ t.entities,
        e'.name = (c.preview.subjectId, normalize c.preview.name, e.kind) → e' = e := by
  have hrow : t.entities.Nodup := List.Nodup.of_map _ ht.entityIds
  constructor
  · -- an entity with the new name that is not renamed would clash with this one
    intro hs e he hnames e' he' hname
    by_cases hn : c.names id e' = true
    · exact ht.entity_eq he' he ((names_iff.mp hn).2.trans (names_iff.mp hnames).2.symm)
    · have hinj := List.inj_on_of_nodup_map (List.map_map ▸ hs.entityNames) he' he
      apply hinj
      show (c.renames normalize id e').name = (c.renames normalize id e).name
      rw [name_renames hnames, renames_of_not hn, hname]
  · intro hfree
    have hnamed : ∀ e ∈ t.entities, ∀ e' ∈ t.entities,
        (c.renames normalize id e).name = (c.renames normalize id e').name → e = e' := by
      intro e he e' he' heq
      -- renamed or not, each: only one of the two can have the new name
      by_cases hn : c.names id e = true
      · by_cases hn' : c.names id e' = true
        · exact ht.entity_eq he he' ((names_iff.mp hn).2.trans (names_iff.mp hn').2.symm)
        · rw [name_renames hn, renames_of_not hn'] at heq
          exact (hfree e he hn e' he' heq.symm).symm
      · by_cases hn' : c.names id e' = true
        · rw [name_renames hn', renames_of_not hn] at heq
          exact hfree e' he' hn' e he heq
        · rw [renames_of_not hn, renames_of_not hn'] at heq
          exact List.inj_on_of_nodup_map ht.entityNames he he' heq
    refine ht.map_entities ?_ ?_ ?_
    · intro e _
      unfold renames
      split <;> rfl
    · rw [List.map_map]
      exact hrow.map_on hnamed
    · intro e he x hx
      refine ht.mergedInto e he x ?_
      unfold renames at hx
      split at hx <;> exact hx

/-- A deletion of rows is let through. -/
theorem sound_delete (ht : Tables.Sound t) (id : String) :
    Tables.Sound { t with entities := t.entities.map (c.deleting id) } := by
  refine ht.map_entities ?_ ?_ ?_
  · intro e _
    unfold deleting
    split <;> rfl
  · have hnames : (t.entities.map (c.deleting id)).map Entity.name =
        t.entities.map Entity.name := by
      refine Tables.map_column Entity.name fun e _ => ?_
      unfold deleting
      split <;> rfl
    rw [hnames]
    exact ht.entityNames
  · intro e he x hx
    refine ht.mergedInto e he x ?_
    unfold deleting at hx
    split at hx <;> exact hx

/-- Aliases may change but for their columns that are constrained. -/
theorem sound_aliases (ht : Tables.Sound t) {g : Alias → Alias} (hid : ∀ a, (g a).id = a.id)
    (hkey : ∀ a, (g a).key = a.key) (hentity : ∀ a, (g a).entityId = a.entityId) :
    Tables.Sound { t with aliases := t.aliases.map g } := by
  refine ht.map_aliases (fun a _ => hid a) ?_ ?_
  · rw [List.filterMap_map]
    have hfun : Alias.key ∘ g = Alias.key := funext hkey
    rw [hfun]
    exact ht.aliasKeys
  · intro a ha
    rw [hentity a]
    exact ht.aliasEntities a ha

/-- Deleting the edges breaks no constraint. -/
theorem sound_deleteEdges (ht : Tables.Sound t) (id : String) :
    Tables.Sound { t with edges := t.edges.map (c.deletingEdge id) } := by
  have hsame : ∀ e : Edge, ∃ s u, c.deletingEdge id e = { e with status := s, updatedAt := u } := by
    intro e
    unfold deletingEdge
    split
    · exact ⟨_, _, rfl⟩
    · exact ⟨e.status, e.updatedAt, rfl⟩
  refine ht.map_edges ?_ ?_ ?_ ?_ ?_
  all_goals
    intro e he
    obtain ⟨s, u, hs⟩ := hsame e
    rw [hs]
  · exact ht.edgeSources e he
  · exact ht.edgeDestinations e he
  · exact ht.edgeSupersedes e he

/-- A merge is let through where the target is there, or there is nothing to
point at it. -/
theorem sound_merge_iff (ht : Tables.Sound t) {target : String} {sources : List String} :
    Tables.Sound { t with entities := t.entities.map (c.merging target sources) } ↔
      ((∃ e ∈ t.entities, e.subjectId = c.preview.subjectId ∧ e.id ∈ sources) →
        target ∈ t.entities.map (·.id)) := by
  have hid : ∀ e ∈ t.entities, (c.merging target sources e).id = e.id := by
    intro e _
    unfold merging
    split <;> rfl
  constructor
  · rintro hs ⟨e, he, hnames⟩
    have hmerged := hs.mergedInto (c.merging target sources e) (List.mem_map_of_mem he) target (by
      unfold merging
      rw [if_pos hnames]
      rfl)
    rwa [Tables.map_column Entity.id hid] at hmerged
  · intro htarget
    refine ht.map_entities hid ?_ ?_
    · have hnames : (t.entities.map (c.merging target sources)).map Entity.name =
          t.entities.map Entity.name := by
        refine Tables.map_column Entity.name fun e _ => ?_
        unfold merging
        split <;> rfl
      rw [hnames]
      exact ht.entityNames
    · intro e he x hx
      unfold merging at hx
      split at hx
      · rename_i hnames
        cases hx
        exact htarget ⟨e, he, hnames⟩
      · exact ht.mergedInto e he x hx

/-! ## The actions, run -/

open Statement

variable {created : List String}

/-- What a renaming does. -/
theorem rename_eq_ok :
    c.rename normalize d = .ok (created, d') ↔ created = [] ∧ ∃ id,
      c.preview.entityIds.head? = some id ∧
        d'.val = d.val.rewritten (c.renames normalize id) (fun a => a) (fun e => e) := by
  unfold rename
  simp only [bind_eq_ok, check_eq_ok, firstOf_eq_ok, execute, execute_eq_ok, pure_eq_ok,
    Tables.rewritten, List.map_id']
  constructor
  · rintro ⟨id, d₁, ⟨hid, rfl⟩, u, d₂, hrows, rfl, rfl⟩
    exact ⟨rfl, id, hid, hrows⟩
  · rintro ⟨rfl, id, hid, hrows⟩
    exact ⟨id, d, ⟨hid, rfl⟩, (), d', hrows, rfl, rfl⟩

/-- Nor does deleting the aliases. -/
theorem sound_deleteAliases (ht : Tables.Sound t) (id : String) :
    Tables.Sound { t with aliases := t.aliases.map (c.deletingAlias id) } := by
  refine sound_aliases ht ?_ ?_ ?_
  all_goals
    intro a
    unfold deletingAlias
    split <;> rfl

/-- A deletion keeps the constraints. -/
theorem sound_deleted (ht : Tables.Sound t) (id : String) :
    Tables.Sound (t.rewritten (c.deleting id) (c.deletingAlias id) (c.deletingEdge id)) := by
  have h₁ := sound_delete (c := c) ht id
  have h₂ := sound_deleteAliases (c := c) h₁ id
  exact sound_deleteEdges (c := c) h₂ id

/-- What a deletion does. -/
theorem delete_eq_ok :
    c.delete d = .ok (created, d') ↔ created = [] ∧ ∃ id,
      c.preview.entityIds.head? = some id ∧
        d'.val = d.val.rewritten (c.deleting id) (c.deletingAlias id) (c.deletingEdge id) := by
  unfold delete
  simp only [bind_eq_ok, check_eq_ok, firstOf_eq_ok, execute, execute_eq_ok, pure_eq_ok]
  constructor
  · rintro ⟨id, d₁, ⟨hid, rfl⟩, u, d₂, h₂, u', d₃, h₃, u'', d₄, h₄, rfl, rfl⟩
    refine ⟨rfl, id, hid, ?_⟩
    rw [h₄, h₃, h₂]
    rfl
  · rintro ⟨rfl, id, hid, hrows⟩
    have h₂ := sound_delete (c := c) d.property id
    have h₃ := sound_deleteAliases (c := c) h₂ id
    exact ⟨id, d, ⟨hid, rfl⟩, (), ⟨_, h₂⟩, rfl, (), ⟨_, h₃⟩, rfl, (), d', hrows, rfl, rfl⟩

/-- Merging one after the other is merging them all. -/
theorem merging_cons (target source : String) (sources : List String) (e : Entity) :
    c.merging target sources (c.merging target [source] e) =
      c.merging target (source :: sources) e := by
  unfold merging
  by_cases hs : e.subjectId = c.preview.subjectId
  · by_cases hid : e.id = source
    · by_cases hrest : e.id ∈ sources <;> simp_all
    · simp [hs, hid]
  · simp [hs]

/-- So with the aliases. -/
theorem mergingAlias_cons (source : String) (sources : List String) (a : Alias) :
    c.mergingAlias sources (c.mergingAlias [source] a) =
      c.mergingAlias (source :: sources) a := by
  unfold mergingAlias
  by_cases hs : a.subjectId = c.preview.subjectId
  · by_cases hid : a.entityId = source
    · by_cases hrest : a.entityId ∈ sources <;> simp_all
    · simp [hs, hid]
  · simp [hs]

/-- A merge into a target that is there keeps the constraints. -/
theorem sound_merged (ht : Tables.Sound t) {target : String} {sources : List String}
    (htarget : (∃ e ∈ t.entities, e.subjectId = c.preview.subjectId ∧ e.id ∈ sources) →
      target ∈ t.entities.map (·.id)) :
    Tables.Sound (t.rewritten (c.merging target sources) (c.mergingAlias sources)
      (fun e => e)) := by
  have hs := sound_aliases ((sound_merge_iff ht).mpr htarget) (g := c.mergingAlias sources)
    (fun a => by unfold mergingAlias; split <;> rfl)
    (fun a => by unfold mergingAlias; split <;> rfl)
    (fun a => by unfold mergingAlias; split <;> rfl)
  unfold Tables.rewritten
  rw [List.map_id']
  exact hs

/-- The merge of one source. -/
theorem mergeSource_eq_ok {target source : String} {u : Unit} :
    c.mergeSource target source d = .ok (u, d') ↔
      ((∃ e ∈ d.val.entities, e.subjectId = c.preview.subjectId ∧ e.id ∈ [source]) →
        target ∈ d.val.entities.map (·.id)) ∧
      d'.val = d.val.rewritten (c.merging target [source]) (c.mergingAlias [source])
        (fun e => e) := by
  have hrow : ∀ e, (if c.names source e = true then { e with
      status := .merged, mergedInto := some target, updatedAt := some c.now } else e) =
        c.merging target [source] e := by
    intro e
    simp only [names, merging, Bool.and_eq_true, decide_eq_true_eq, List.mem_singleton]
  have halias : ∀ a : Alias, (if (decide (a.subjectId = c.preview.subjectId) &&
      decide (a.entityId = source)) = true then { a with status := .superseded } else a) =
        c.mergingAlias [source] a := by
    intro a
    simp only [mergingAlias, Bool.and_eq_true, decide_eq_true_eq, List.mem_singleton]
  unfold mergeSource
  simp only [bind_eq_ok, execute, execute_eq_ok, Tables.updateEntities, Tables.updateAliases,
    hrow, halias, Tables.rewritten, List.map_id']
  constructor
  · rintro ⟨u, d₁, h₁, h₂⟩
    refine ⟨(sound_merge_iff d.property).mp (h₁ ▸ d₁.property), ?_⟩
    rw [h₂, h₁]
  · rintro ⟨htarget, h⟩
    exact ⟨(), ⟨_, (sound_merge_iff d.property).mpr htarget⟩, rfl, h⟩

/-- **The merge of all the sources.** -/
theorem mergeSources_eq_ok {target : String} {sources : List String} {u : Unit} :
    (sources.forM (c.mergeSource target)) d = .ok (u, d') ↔
      ((∃ e ∈ d.val.entities, e.subjectId = c.preview.subjectId ∧ e.id ∈ sources) →
        target ∈ d.val.entities.map (·.id)) ∧
      d'.val = d.val.rewritten (c.merging target sources) (c.mergingAlias sources)
        (fun e => e) := by
  induction sources generalizing d with
  | nil =>
    have hnone : d.val.rewritten (c.merging target []) (c.mergingAlias []) (fun e => e) =
        d.val := by
      have hmerging : c.merging target [] = fun e => e := by
        funext e
        simp [merging]
      have halias : c.mergingAlias [] = fun a => a := by
        funext a
        simp [mergingAlias]
      rw [hmerging, halias]
      simp [Tables.rewritten]
    show (pure () : Sql Unit) d = .ok (u, d') ↔ _
    rw [pure_eq_ok, hnone]
    constructor
    · rintro ⟨-, rfl⟩
      exact ⟨fun ⟨e, _, _, h⟩ => absurd h List.not_mem_nil, rfl⟩
    · rintro ⟨-, h⟩
      exact ⟨rfl, Subtype.ext h.symm⟩
  | cons source sources ih =>
    have hwhole : (d.val.rewritten (c.merging target [source]) (c.mergingAlias [source])
        (fun e => e)).rewritten (c.merging target sources) (c.mergingAlias sources)
        (fun e => e) = d.val.rewritten (c.merging target (source :: sources))
          (c.mergingAlias (source :: sources)) (fun e => e) := by
      simp only [Tables.rewritten, List.map_map, List.map_id', Function.comp_def, merging_cons,
        mergingAlias_cons]
    -- a merge changes neither the entities there are nor whose they are
    have hnamed : ∀ p : String → String → Prop,
        (∃ e ∈ (d.val.entities.map (c.merging target [source])), p e.subjectId e.id) ↔
          ∃ e ∈ d.val.entities, p e.subjectId e.id := by
      intro p
      have hsame : ∀ e, (c.merging target [source] e).subjectId = e.subjectId ∧
          (c.merging target [source] e).id = e.id := by
        intro e
        unfold merging
        split <;> exact ⟨rfl, rfl⟩
      constructor
      · rintro ⟨e, he, hp⟩
        obtain ⟨e₀, he₀, rfl⟩ := List.mem_map.mp he
        rw [(hsame e₀).1, (hsame e₀).2] at hp
        exact ⟨e₀, he₀, hp⟩
      · rintro ⟨e, he, hp⟩
        refine ⟨_, List.mem_map_of_mem he, ?_⟩
        rw [(hsame e).1, (hsame e).2]
        exact hp
    have hids : (d.val.entities.map (c.merging target [source])).map (·.id) =
        d.val.entities.map (·.id) :=
      Tables.map_column Entity.id fun e _ => by unfold merging; split <;> rfl
    show (c.mergeSource target source >>= fun _ => sources.forM (c.mergeSource target)) d = _ ↔ _
    rw [bind_eq_ok]
    constructor
    · rintro ⟨v, d₁, h₁, h₂⟩
      obtain ⟨htarget₁, hrows₁⟩ := mergeSource_eq_ok.mp h₁
      obtain ⟨htarget₂, hrows₂⟩ := ih.mp h₂
      refine ⟨?_, by rw [hrows₂, hrows₁, hwhole]⟩
      rintro ⟨e, he, hsubject, hid⟩
      rcases List.mem_cons.mp hid with hid | hid
      · exact htarget₁ ⟨e, he, hsubject, List.mem_singleton.mpr hid⟩
      · rw [hrows₁] at htarget₂
        have := htarget₂ ((hnamed fun s i => s = c.preview.subjectId ∧ i ∈ sources).mpr
          ⟨e, he, hsubject, hid⟩)
        rwa [show (d.val.rewritten _ _ _).entities.map _ = _ from hids] at this
    · rintro ⟨htarget, hrows⟩
      have htarget₁ : (∃ e ∈ d.val.entities, e.subjectId = c.preview.subjectId ∧
          e.id ∈ [source]) → target ∈ d.val.entities.map (·.id) := by
        rintro ⟨e, he, hsubject, hid⟩
        exact htarget ⟨e, he, hsubject, by simp [List.mem_singleton.mp hid]⟩
      refine ⟨(), ⟨_, sound_merged d.property htarget₁⟩, mergeSource_eq_ok.mpr ⟨htarget₁, rfl⟩,
        ih.mpr ⟨?_, ?_⟩⟩
      · intro hex
        have hex' := (hnamed fun s i => s = c.preview.subjectId ∧ i ∈ sources).mp hex
        obtain ⟨e, he, hsubject, hid⟩ := hex'
        rw [show (d.val.rewritten _ _ _).entities.map _ = _ from hids]
        exact htarget ⟨e, he, hsubject, List.mem_cons_of_mem _ hid⟩
      · rw [hrows, hwhole]

/-- What a merge does. -/
theorem merge_eq_ok :
    c.merge d = .ok (created, d') ↔ created = [] ∧ ∃ target,
      c.preview.entityIds.head? = some target ∧
        ((∃ e ∈ d.val.entities, e.subjectId = c.preview.subjectId ∧
          e.id ∈ c.preview.entityIds.tail) → target ∈ d.val.entities.map (·.id)) ∧
        d'.val = d.val.rewritten (c.merging target c.preview.entityIds.tail)
          (c.mergingAlias c.preview.entityIds.tail) (fun e => e) := by
  unfold merge
  simp only [bind_eq_ok, check_eq_ok, firstOf_eq_ok, pure_eq_ok, mergeSources_eq_ok]
  constructor
  · rintro ⟨target, d₁, ⟨hid, rfl⟩, u, d₂, ⟨htarget, hrows⟩, rfl, rfl⟩
    exact ⟨rfl, target, hid, htarget, hrows⟩
  · rintro ⟨rfl, target, hid, htarget, hrows⟩
    exact ⟨target, d, ⟨hid, rfl⟩, (), d', ⟨htarget, hrows⟩, rfl, rfl⟩

/-- The entity a split makes. -/
def splitEntity (c : Commit) (normalize : String → String) (a : Alias) : Entity where
  id := c.newId
  subjectId := c.preview.subjectId
  canonical := c.preview.name
  normalized := normalize c.preview.name
  kind := "other"
  status := .active
  sourceRecord := a.sourceRecord
  createdAt := c.now

/-- The alias a split is about. -/
def splitAlias? (c : Commit) (t : Tables) (id : String) : Option Alias :=
  t.aliases.find? fun a => a.subjectId = c.preview.subjectId && a.entityId = id &&
    a.id = c.preview.aliasId.getD ""

/-- What a split leaves. -/
def splitTables (c : Commit) (normalize : String → String) (t : Tables) (a : Alias) : Tables :=
  { t with
    entities := t.entities ++ [c.splitEntity normalize a]
    aliases := t.aliases.map fun b =>
      if b.id = c.preview.aliasId.getD "" then { b with entityId := c.newId } else b }

/-- The alias that is split off is the one that was named. -/
theorem splitAlias?_eq_some {id : String} {a : Alias} (h : c.splitAlias? t id = some a) :
    a ∈ t.aliases ∧ a.id = c.preview.aliasId.getD "" := by
  have hp := List.find?_some h
  simp only [Bool.and_eq_true, decide_eq_true_eq] at hp
  exact ⟨List.mem_of_find?_eq_some h, hp.2⟩

/-- The alias moves to an entity no alias had. -/
theorem sound_split (ht : Tables.Sound t) {a : Alias} (hid : c.newId ∉ t.entities.map (·.id))
    (hname : (c.splitEntity normalize a).name ∉ t.entities.map Entity.name) :
    Tables.Sound (c.splitTables normalize t a) := by
  have hinsert := ht.insert_entity (e := c.splitEntity normalize a) hid hname (by
    intro x hx
    cases hx)
  have hnew : ∀ b ∈ t.aliases, b.entityId ≠ c.newId := by
    intro b hb heq
    exact hid (heq ▸ ht.aliasEntities b hb)
  have hids : t.aliases.Pairwise fun b b' => b.id ≠ b'.id :=
    List.pairwise_map.mp ht.aliasIds
  have hkeys : t.aliases.Pairwise fun b b' => ∀ k ∈ b.key, ∀ k' ∈ b'.key, k ≠ k' :=
    List.pairwise_filterMap.mp ht.aliasKeys
  refine Tables.Sound.map_aliases hinsert ?_ ?_ ?_
  · intro b _
    split <;> rfl
  · -- of two aliases at most one moves, and no alias had the entity it moves to
    refine List.pairwise_filterMap.mpr (List.pairwise_map.mpr ?_)
    refine (hids.and hkeys).imp_of_mem ?_
    intro b b' hb hb' hboth k hk k' hk'
    have hentity : ∀ {b : Alias} {k}, k ∈ b.key → k.2.1 = b.entityId := by
      intro b k hk
      obtain ⟨r, -, rfl⟩ := Option.map_eq_some_iff.mp hk
      rfl
    by_cases hc : b.id = c.preview.aliasId.getD ""
    · have hc' : ¬ b'.id = c.preview.aliasId.getD "" := fun h => hboth.1 (hc.trans h.symm)
      rw [if_pos hc] at hk
      rw [if_neg hc'] at hk'
      intro heq
      apply hnew b' hb'
      rw [← hentity hk', ← heq, hentity hk]
    · rw [if_neg hc] at hk
      split at hk'
      · intro heq
        apply hnew b hb
        rw [← hentity hk, heq, hentity hk']
      · exact hboth.2 k hk k' hk'
  · intro b hb
    show _ ∈ (t.entities ++ [c.splitEntity normalize a]).map (·.id)
    rw [List.map_append]
    split
    · exact List.mem_append_right _ (by simp [splitEntity])
    · exact List.mem_append_left _ (ht.aliasEntities b hb)

/-- What a split does. -/
theorem split_eq_ok :
    c.split normalize d = .ok (created, d') ↔ created = [c.newId] ∧ ∃ id a,
      c.preview.entityIds.head? = some id ∧ c.splitAlias? d.val id = some a ∧
        c.newId ∉ d.val.entities.map (·.id) ∧
        (c.splitEntity normalize a).name ∉ d.val.entities.map Entity.name ∧
        d'.val = c.splitTables normalize d.val a := by
  unfold split
  simp only [bind_eq_ok, check_eq_ok, firstOf_eq_ok, query, query_eq_ok]
  constructor
  · rintro ⟨id, d₁, ⟨hid, rfl⟩, found, d₂, ⟨hfound, rfl⟩, h⟩
    rcases found with - | a
    · exact absurd h throw_ne_ok
    · simp only [bind_eq_ok, execute, execute_eq_ok, pure_eq_ok] at h
      obtain ⟨u, d₃, h₃, u', d₄, h₄, rfl, rfl⟩ := h
      -- the new row was let in, so neither its identifier nor its name was there
      have hids := d₃.property.entityIds
      have hnames := d₃.property.entityNames
      rw [h₃] at hids hnames
      simp only [List.map_append, List.map_cons, List.map_nil, List.nodup_append,
        List.mem_singleton] at hids hnames
      refine ⟨rfl, id, a, hid, hfound, ?_, ?_, ?_⟩
      · intro hmem
        exact hids.2.2 _ hmem _ rfl rfl
      · intro hmem
        exact hnames.2.2 _ hmem _ rfl rfl
      · rw [h₄, h₃]
        simp only [splitTables, Tables.updateAliases, splitEntity, decide_eq_true_eq]
  · rintro ⟨rfl, id, a, hid, hfound, hnew, hname, hrows⟩
    refine ⟨id, d, ⟨hid, rfl⟩, some a, d, ⟨hfound, rfl⟩, ?_⟩
    have hinsert := d.property.insert_entity (e := c.splitEntity normalize a) hnew hname (by
      intro x hx
      cases hx)
    simp only [bind_eq_ok, execute, execute_eq_ok, pure_eq_ok]
    refine ⟨(), ⟨_, hinsert⟩, rfl, (), d', ?_, trivial, rfl⟩
    rw [hrows]
    simp only [splitTables, Tables.updateAliases, decide_eq_true_eq]

/-! ## Commits, run -/

/-- What a commit is checked for. -/
theorem checks_eq_ok {u : Unit} :
    c.checks = .ok u ↔ c.confirmSha256 = c.preview.previewSha256 ∧
      strip c.actor ≠ [] ∧ strip c.reason ≠ [] := by
  unfold checks
  by_cases hconfirm : c.confirmSha256 = c.preview.previewSha256
  · by_cases hwho : strip c.actor = [] ∨ strip c.reason = []
    · rw [if_neg (not_not.mpr hconfirm), if_pos hwho]
      constructor
      · intro h
        cases h
      · rintro ⟨-, ha, hr⟩
        exact (hwho.elim ha hr).elim
    · rw [if_neg (not_not.mpr hconfirm), if_neg hwho]
      exact ⟨fun _ => ⟨hconfirm, not_or.mp hwho⟩, fun _ => rfl⟩
  · rw [if_pos hconfirm]
    constructor
    · intro h
      cases h
    · rintro ⟨h, -⟩
      exact absurd h hconfirm

/-- A commit is recorded once. -/
theorem record_eq_ok {u : Unit} :
    c.record created d = .ok (u, d') ↔ c.mutationId ∉ d.val.mutations.map (·.mutationId) ∧
      d'.val = { d.val with
        mutations := d.val.mutations ++ [c.mutation created]
        generations := d.val.generations.map fun g =>
          if g.subjectId = c.preview.subjectId ∧ g.status = .active
          then { g with status := .repairRequired } else g } := by
  unfold record
  simp only [bind_eq_ok, execute, execute_eq_ok]
  constructor
  · rintro ⟨u, d₁, h₁, h₂⟩
    have hids := d₁.property.mutationIds
    rw [h₁] at hids
    simp only [List.map_append, List.map_cons, List.map_nil, List.nodup_append,
      List.mem_singleton] at hids
    refine ⟨fun hmem => hids.2.2 _ hmem _ rfl rfl, ?_⟩
    rw [h₂, h₁]
  · rintro ⟨hnew, h⟩
    have hs := d.property.with_mutations (d.val.mutations ++ [c.mutation created]) (by
      rw [List.map_append]
      exact List.nodup_append'.mpr ⟨d.property.mutationIds, List.nodup_singleton _,
        by simpa [mutation] using hnew⟩)
    exact ⟨(), ⟨_, hs⟩, rfl, h⟩

/-- The row of a commit is kept where its identifier is new. -/
theorem exists_record (created : List String)
    (h : c.mutationId ∉ d.val.mutations.map (·.mutationId)) :
    ∃ d', c.record created d = .ok ((), d') := by
  have hs := d.property.with_mutations (d.val.mutations ++ [c.mutation created]) (by
    rw [List.map_append]
    exact List.nodup_append'.mpr ⟨d.property.mutationIds, List.nodup_singleton _,
      by simpa [mutation] using h⟩)
  exact ⟨⟨_, hs.with_generations _⟩, record_eq_ok.mpr ⟨h, rfl⟩⟩

/-- A commit checks, acts and is recorded. -/
theorem statements_eq_ok {r : Receipt} :
    c.statements normalize d = .ok (r, d') ↔
      (c.confirmSha256 = c.preview.previewSha256 ∧ strip c.actor ≠ [] ∧ strip c.reason ≠ []) ∧
      ∃ created d₁, c.act normalize d = .ok (created, d₁) ∧
        c.record created d₁ = .ok ((), d') ∧ c.receipt created = r := by
  unfold statements
  simp only [bind_eq_ok, check_eq_ok, checks_eq_ok, pure_eq_ok]
  constructor
  · rintro ⟨u, d₁, ⟨hchecks, rfl⟩, created, d₂, hact, v, d₃, hrecord, hr, rfl⟩
    exact ⟨hchecks, created, d₂, hact, hrecord, hr⟩
  · rintro ⟨hchecks, created, d₂, hact, hrecord, hr⟩
    exact ⟨(), d, ⟨hchecks, rfl⟩, created, d₂, hact, (), d', hrecord, hr, rfl⟩

end Commit

end Atmem.Graph
