import Atmem.Graph.Helpers.Constraints
import Atmem.Graph.Model.Index
/-!
# What a tombstone leaves

The loops of `tombstone_records`, each as one rewriting of a table: the edges
and the aliases of the record, and the entities it brought that no edge in use
holds.
-/

namespace Atmem.Graph

open Relational Statement

variable {t : Tables} {d d' : Database} {subjectId now recordId : String}

/-! ## Rows that are purged -/

/-- An edge whose record was forgotten. -/
def Edge.purged (now : String) (e : Edge) : Edge :=
  { e with status := .tombstoned, relation := "[purged]", relationLabel := "[purged]",
           dstEntity := none, updatedAt := some now }

/-- An alias whose record was forgotten. -/
def Alias.purged (a : Alias) : Alias :=
  { a with status := .tombstoned, surface := "", normalized := "purged:" ++ a.id }

/-- An entity whose record was forgotten and that nothing else holds. -/
def Entity.purged (now : String) (e : Entity) : Entity :=
  { e with status := .tombstoned, canonical := "", normalized := "purged:" ++ e.id,
           updatedAt := some now }

/-- The rows of the search that go. -/
def withoutFts (o : ObjectType) (ids : List String) (rows : List FtsRow) : List FtsRow :=
  rows.filter fun r => !(r.objectType = o && r.objectId ∈ ids)

theorem withoutFts_nil (o : ObjectType) (rows : List FtsRow) : withoutFts o [] rows = rows := by
  simp [withoutFts]

/-- Deleting from the index one by one. -/
theorem withoutFts_cons (o : ObjectType) (id : String) (ids : List String) (rows : List FtsRow) :
    withoutFts o ids (rows.filter fun r => !(r.objectType = o && r.objectId = id)) =
      withoutFts o (id :: ids) rows := by
  unfold withoutFts
  rw [List.filter_filter]
  refine List.filter_congr fun r _ => ?_
  by_cases ho : r.objectType = o
  · by_cases hid : r.objectId = id
    · simp [ho, hid]
    · simp [ho, hid]
  · simp [ho]

/-- Rows rewritten one identifier after the other. -/
theorem map_rewritten_cons {ρ : Type} (id : ρ → String) {f : ρ → ρ} (hid : ∀ r, id (f r) = id r)
    (hf : ∀ r, f (f r) = f r) (x : String) (xs : List String) (rows : List ρ) :
    (rows.map fun r => if id r = x then f r else r).map (fun r => if id r ∈ xs then f r else r) =
      rows.map fun r => if id r ∈ x :: xs then f r else r := by
  rw [List.map_map]
  refine List.map_congr_left fun r _ => ?_
  show (if id (if id r = x then f r else r) ∈ xs then f (if id r = x then f r else r)
    else if id r = x then f r else r) = _
  by_cases hx : id r = x
  · by_cases hxs : id r ∈ xs
    · simp [hx, hid, hf]
    · simp [hx, hid, hf]
  · simp [hx]

/-! ## The loops -/

/-- What purging some edges does. -/
theorem tombstoneEdges_eq {edges : List Edge} {a : List (List GraphMutation)}
    (h : edges.mapM (tombstoneEdge now) d = .ok (a, d')) :
    d'.val = { d.val with
      edges := d.val.edges.map fun e => if e.id ∈ edges.map (·.id) then e.purged now else e
      fts := withoutFts .edge (edges.map (·.id)) d.val.fts } := by
  induction edges generalizing d a with
  | nil =>
    rw [List.mapM_nil] at h
    obtain ⟨-, rfl⟩ := pure_eq_ok.mp h
    simp [withoutFts_nil]
  | cons x edges ih =>
    rw [List.mapM_cons] at h
    obtain ⟨b, d₁, h₁, h₂⟩ := bind_eq_ok.mp h
    obtain ⟨bs, d₂, h₃, h₄⟩ := bind_eq_ok.mp h₂
    obtain ⟨-, rfl⟩ := pure_eq_ok.mp h₄
    unfold tombstoneEdge at h₁
    obtain ⟨u, d₃, h₅, h₆⟩ := bind_eq_ok.mp h₁
    obtain ⟨v, d₄, h₇, h₈⟩ := bind_eq_ok.mp h₆
    obtain ⟨-, rfl⟩ := pure_eq_ok.mp h₈
    have hrows := (execute_eq_ok.mp h₇).trans
      (congrArg (fun t => Tables.deleteFts t .edge x.id) (execute_eq_ok.mp h₅))
    have hmap := map_rewritten_cons Edge.id (f := Edge.purged now) (fun _ => rfl)
      (fun _ => rfl) x.id (edges.map (·.id)) d.val.edges
    rw [ih h₃, hrows]
    simp only [Tables.deleteFts, Tables.updateEdges, decide_eq_true_eq, List.map_cons]
    rw [withoutFts_cons]
    exact congrArg (fun rows => ({ d.val with edges := rows, fts := _ } : Tables)) hmap

/-- What purging some aliases does. -/
theorem tombstoneAliases_eq {aliases : List Alias} {a : List (List GraphMutation)}
    (h : aliases.mapM tombstoneAlias d = .ok (a, d')) :
    d'.val = { d.val with
      aliases := d.val.aliases.map fun a => if a.id ∈ aliases.map (·.id) then a.purged else a
      fts := withoutFts .alias (aliases.map (·.id)) d.val.fts } := by
  induction aliases generalizing d a with
  | nil =>
    rw [List.mapM_nil] at h
    obtain ⟨-, rfl⟩ := pure_eq_ok.mp h
    simp [withoutFts_nil]
  | cons x aliases ih =>
    rw [List.mapM_cons] at h
    obtain ⟨b, d₁, h₁, h₂⟩ := bind_eq_ok.mp h
    obtain ⟨bs, d₂, h₃, h₄⟩ := bind_eq_ok.mp h₂
    obtain ⟨-, rfl⟩ := pure_eq_ok.mp h₄
    unfold tombstoneAlias at h₁
    obtain ⟨u, d₃, h₅, h₆⟩ := bind_eq_ok.mp h₁
    obtain ⟨v, d₄, h₇, h₈⟩ := bind_eq_ok.mp h₆
    obtain ⟨-, rfl⟩ := pure_eq_ok.mp h₈
    have hrows := (execute_eq_ok.mp h₇).trans
      (congrArg (fun t => Tables.deleteFts t .alias x.id) (execute_eq_ok.mp h₅))
    have hmap := map_rewritten_cons Alias.id (f := Alias.purged) (fun _ => rfl)
      (fun _ => rfl) x.id (aliases.map (·.id)) d.val.aliases
    rw [ih h₃, hrows]
    simp only [Tables.deleteFts, Tables.updateAliases, decide_eq_true_eq, List.map_cons]
    rw [withoutFts_cons]
    exact congrArg (fun rows => ({ d.val with aliases := rows, fts := _ } : Tables)) hmap

/-- What purging some entities does. -/
theorem tombstoneEntities_eq {entities : List Entity} {a : List (List GraphMutation)}
    (h : entities.mapM (tombstoneEntity subjectId now) d = .ok (a, d')) :
    d'.val = { d.val with
      entities := d.val.entities.map fun e =>
        if e.id ∈ (entities.filter fun e => !d.val.held subjectId e.id).map (·.id)
        then e.purged now else e
      fts := withoutFts .entity
        ((entities.filter fun e => !d.val.held subjectId e.id).map (·.id)) d.val.fts } := by
  induction entities generalizing d a with
  | nil =>
    rw [List.mapM_nil] at h
    obtain ⟨-, rfl⟩ := pure_eq_ok.mp h
    simp [withoutFts_nil]
  | cons x entities ih =>
    rw [List.mapM_cons] at h
    obtain ⟨b, d₁, h₁, h₂⟩ := bind_eq_ok.mp h
    obtain ⟨bs, d₂, h₃, h₄⟩ := bind_eq_ok.mp h₂
    obtain ⟨-, rfl⟩ := pure_eq_ok.mp h₄
    unfold tombstoneEntity at h₁
    obtain ⟨referenced, d₃, hquery, h₅⟩ := bind_eq_ok.mp h₁
    obtain ⟨href, rfl⟩ := query_eq_ok.mp hquery
    split at h₅
    · -- an entity that edges still hold stays as it is
      rename_i htrue
      obtain ⟨-, rfl⟩ := pure_eq_ok.mp h₅
      rw [ih h₃, List.filter_cons_of_neg (by rw [href, htrue]; decide)]
    · rename_i hfalse
      obtain ⟨u, d₄, h₆, h₇⟩ := bind_eq_ok.mp h₅
      obtain ⟨v, d₅, h₈, h₉⟩ := bind_eq_ok.mp h₇
      obtain ⟨-, rfl⟩ := pure_eq_ok.mp h₉
      have hrows := (execute_eq_ok.mp h₈).trans
        (congrArg (fun t => Tables.deleteFts t .entity x.id) (execute_eq_ok.mp h₆))
      -- whether an edge holds an entity is not asked of the entities
      have hheld : ∀ id, d₅.val.held subjectId id = d.val.held subjectId id := by
        intro id
        unfold Tables.held
        rw [hrows]
        rfl
      have hmap := map_rewritten_cons Entity.id (f := Entity.purged now) (fun _ => rfl)
        (fun _ => rfl) x.id ((entities.filter fun e => !d.val.held subjectId e.id).map (·.id))
        d.val.entities
      rw [ih h₃, List.filter_cons_of_pos (by simp [href, hfalse])]
      simp only [hheld]
      rw [hrows]
      simp only [Tables.deleteFts, Tables.updateEntities, decide_eq_true_eq, List.map_cons]
      rw [withoutFts_cons]
      exact congrArg (fun rows => ({ d.val with entities := rows, fts := _ } : Tables)) hmap

/-! ## One record -/

/-- The edge of a record. -/
def Edge.isOf (subjectId recordId : String) (e : Edge) : Bool :=
  e.subjectId = subjectId && e.recordId = recordId

/-- An alias of a record. -/
def Alias.isOf (subjectId recordId : String) (a : Alias) : Bool :=
  a.subjectId = subjectId && a.sourceRecord = some recordId

/-- An entity that the record brought and no edge in use holds. -/
def Tables.lets (t : Tables) (subjectId recordId : String) (e : Entity) : Bool :=
  e.subjectId = subjectId && e.sourceRecord = some recordId && !t.held subjectId e.id

/-- The edges of a record are purged, and found no more. -/
def Tables.edgesTombstoned (t : Tables) (subjectId now recordId : String) : Tables :=
  { t with
    edges := t.edges.map fun e => if e.isOf subjectId recordId then e.purged now else e
    fts := withoutFts .edge ((t.edges.filter (Edge.isOf subjectId recordId)).map (·.id)) t.fts }

/-- The aliases of a record are purged, and found no more. -/
def Tables.aliasesTombstoned (t : Tables) (subjectId recordId : String) : Tables :=
  { t with
    aliases := t.aliases.map fun a => if a.isOf subjectId recordId then a.purged else a
    fts := withoutFts .alias ((t.aliases.filter (Alias.isOf subjectId recordId)).map (·.id))
      t.fts }

/-- The entities a record let go are purged, and found no more. -/
def Tables.entitiesTombstoned (t : Tables) (subjectId now recordId : String) : Tables :=
  { t with
    entities := t.entities.map fun e => if t.lets subjectId recordId e then e.purged now else e
    fts := withoutFts .entity ((t.entities.filter (t.lets subjectId recordId)).map (·.id)) t.fts }

/-- What the tombstone of a record leaves. -/
def Tables.tombstonedRecord (t : Tables) (subjectId now recordId : String) : Tables :=
  ((t.edgesTombstoned subjectId now recordId).aliasesTombstoned subjectId
    recordId).entitiesTombstoned subjectId now recordId

/-- The rows that a query found, told by their identifiers. -/
theorem map_of_selected {ρ : Type} (id : ρ → String) {rows : List ρ} (hids : (rows.map id).Nodup)
    (p : ρ → Bool) (f : ρ → ρ) :
    (rows.map fun r => if id r ∈ (rows.filter p).map id then f r else r) =
      rows.map fun r => if p r then f r else r := by
  refine List.map_congr_left fun r hr => ?_
  have hiff : id r ∈ (rows.filter p).map id ↔ p r = true := by
    constructor
    · intro hmem
      obtain ⟨r', hr', heq⟩ := List.mem_map.mp hmem
      obtain ⟨hr'', hp⟩ := List.mem_filter.mp hr'
      rwa [← List.inj_on_of_nodup_map hids hr'' hr heq]
    · exact fun hp => List.mem_map_of_mem (List.mem_filter.mpr ⟨hr, hp⟩)
  simp only [hiff]

/-- So the edges of a record are purged. -/
theorem edgesTombstoned_of_ok {a : List (List GraphMutation)}
    (h : (d.val.edges.filter (Edge.isOf subjectId recordId)).mapM (tombstoneEdge now) d =
      .ok (a, d')) : d'.val = d.val.edgesTombstoned subjectId now recordId := by
  rw [tombstoneEdges_eq h]
  exact congrArg (fun rows => ({ d.val with edges := rows, fts := _ } : Tables))
    (map_of_selected Edge.id d.property.edgeIds _ _)

/-- So are its aliases. -/
theorem aliasesTombstoned_of_ok {a : List (List GraphMutation)}
    (h : (d.val.aliases.filter (Alias.isOf subjectId recordId)).mapM tombstoneAlias d =
      .ok (a, d')) : d'.val = d.val.aliasesTombstoned subjectId recordId := by
  rw [tombstoneAliases_eq h]
  exact congrArg (fun rows => ({ d.val with aliases := rows, fts := _ } : Tables))
    (map_of_selected Alias.id d.property.aliasIds _ _)

/-- So are the entities it lets go. -/
theorem entitiesTombstoned_of_ok {a : List (List GraphMutation)}
    (h : (d.val.entities.filter fun e => e.subjectId = subjectId &&
      e.sourceRecord = some recordId).mapM (tombstoneEntity subjectId now) d = .ok (a, d')) :
    d'.val = d.val.entitiesTombstoned subjectId now recordId := by
  have hlets : ((d.val.entities.filter fun e => e.subjectId = subjectId &&
      e.sourceRecord = some recordId).filter fun e => !d.val.held subjectId e.id) =
        d.val.entities.filter (d.val.lets subjectId recordId) := by
    rw [List.filter_filter]
    exact List.filter_congr fun e _ => Bool.and_comm _ _
  rw [tombstoneEntities_eq h, hlets]
  exact congrArg (fun rows => ({ d.val with entities := rows, fts := _ } : Tables))
    (map_of_selected Entity.id d.property.entityIds _ _)

/-- **What the tombstone of a record leaves.** -/
theorem tombstoneRecord_eq {a : List GraphMutation}
    (h : tombstoneRecord subjectId now recordId d = .ok (a, d')) :
    d'.val = d.val.tombstonedRecord subjectId now recordId := by
  unfold tombstoneRecord at h
  obtain ⟨edges, d₀, hq, h₁⟩ := bind_eq_ok.mp h
  obtain ⟨rfl, rfl⟩ := query_eq_ok.mp hq
  obtain ⟨a₁, d₁, hedges, h₂⟩ := bind_eq_ok.mp h₁
  obtain ⟨aliases, d₁', hq, h₃⟩ := bind_eq_ok.mp h₂
  obtain ⟨rfl, rfl⟩ := query_eq_ok.mp hq
  obtain ⟨a₂, d₂, haliases, h₄⟩ := bind_eq_ok.mp h₃
  obtain ⟨entities, d₂', hq, h₅⟩ := bind_eq_ok.mp h₄
  obtain ⟨rfl, rfl⟩ := query_eq_ok.mp hq
  obtain ⟨a₃, d₃, hentities, h₆⟩ := bind_eq_ok.mp h₅
  obtain ⟨-, rfl⟩ := pure_eq_ok.mp h₆
  rw [entitiesTombstoned_of_ok hentities, aliasesTombstoned_of_ok haliases,
    edgesTombstoned_of_ok hedges]
  rfl

/-- **What the tombstones of records leave**, one after the other. -/
theorem tombstoneRecords_eq {recordIds : List String} {a : List GraphMutation}
    (h : tombstoneRecords subjectId recordIds now d = .ok (a, d')) :
    d'.val = recordIds.foldl (fun t r => t.tombstonedRecord subjectId now r) d.val := by
  unfold tombstoneRecords at h
  obtain ⟨reports, d₁, hloop, hpure⟩ := bind_eq_ok.mp h
  obtain ⟨-, rfl⟩ := pure_eq_ok.mp hpure
  clear h hpure
  induction recordIds generalizing d reports with
  | nil =>
    rw [List.mapM_nil] at hloop
    obtain ⟨-, rfl⟩ := pure_eq_ok.mp hloop
    rfl
  | cons r recordIds ih =>
    rw [List.mapM_cons] at hloop
    obtain ⟨b, d₂, h₁, h₂⟩ := bind_eq_ok.mp hloop
    obtain ⟨bs, d₃, h₃, h₄⟩ := bind_eq_ok.mp h₂
    obtain ⟨-, rfl⟩ := pure_eq_ok.mp h₄
    rw [ih bs h₃, tombstoneRecord_eq h₁]
    rfl

/-! ## The entities that go -/

/-- An edge in use, of a record that is not one of these, is from or to the
entity. -/
def Tables.HeldWithout (t : Tables) (subjectId : String) (recordIds : List String) (id : String) :
    Prop :=
  ∃ e ∈ t.edges, e.subjectId = subjectId ∧ (e.status = .active ∨ e.status = .quarantined) ∧
    e.recordId ∉ recordIds ∧ (e.srcEntity = id ∨ e.dstEntity = some id)

/-- The tombstones of the records take the entity along: one of them brought
it, and after that one's no edge in use holds it. -/
def Tables.Purges (t : Tables) (subjectId : String) (recordIds : List String) (e : Entity) :
    Prop :=
  e.subjectId = subjectId ∧ ∃ before r after, recordIds = before ++ r :: after ∧
    e.sourceRecord = some r ∧ ¬ t.HeldWithout subjectId (before ++ [r]) e.id

/-- An entity is held exactly if some row still holds it. -/
theorem held_iff {id : String} : t.held subjectId id = true ↔ t.HeldWithout subjectId [] id := by
  simp [Tables.held, Tables.HeldWithout, and_assoc]

/-- After a record is purged its rows hold nothing. -/
theorem heldWithout_tombstoned (now : String) {recordIds : List String} {id : String} :
    (t.tombstonedRecord subjectId now recordId).HeldWithout subjectId recordIds id ↔
      t.HeldWithout subjectId (recordId :: recordIds) id := by
  have hpurged : ∀ e : Edge, ¬ ((e.purged now).status = .active ∨
      (e.purged now).status = .quarantined) := fun e => by
    simp [Edge.purged]
  have hedges : (t.tombstonedRecord subjectId now recordId).edges =
      t.edges.map fun e => if e.isOf subjectId recordId then e.purged now else e := rfl
  unfold Tables.HeldWithout
  rw [hedges]
  constructor
  · rintro ⟨e, he, hsubject, hstatus, hrecord, hends⟩
    obtain ⟨e₀, he₀, rfl⟩ := List.mem_map.mp he
    by_cases hof : e₀.isOf subjectId recordId = true
    · rw [if_pos hof] at hstatus
      exact absurd hstatus (hpurged e₀)
    · rw [if_neg hof] at hsubject hstatus hrecord hends
      refine ⟨e₀, he₀, hsubject, hstatus, ?_, hends⟩
      intro hmem
      rcases List.mem_cons.mp hmem with h | h
      · exact hof (by simp [Edge.isOf, hsubject, h])
      · exact hrecord h
  · rintro ⟨e, he, hsubject, hstatus, hrecord, hends⟩
    have hof : ¬ e.isOf subjectId recordId = true := by
      intro h
      simp only [Edge.isOf, Bool.and_eq_true, decide_eq_true_eq] at h
      exact hrecord (h.2 ▸ List.mem_cons_self)
    refine ⟨e, List.mem_map.mpr ⟨e, he, if_neg hof⟩, hsubject, hstatus, ?_, hends⟩
    exact fun h => hrecord (List.mem_cons_of_mem _ h)

/-- The tombstone of one record takes an entity along. -/
theorem lets_iff {e : Entity} :
    ((t.edgesTombstoned subjectId now recordId).aliasesTombstoned subjectId recordId).lets
      subjectId recordId e = true ↔
    e.subjectId = subjectId ∧ e.sourceRecord = some recordId ∧
      ¬ t.HeldWithout subjectId [recordId] e.id := by
  have hheld : ((t.edgesTombstoned subjectId now recordId).aliasesTombstoned subjectId
      recordId).held subjectId e.id =
        (t.tombstonedRecord subjectId now recordId).held subjectId e.id := rfl
  unfold Tables.lets
  rw [hheld]
  simp only [Bool.and_eq_true, decide_eq_true_eq, Bool.not_eq_true', and_assoc]
  rw [← heldWithout_tombstoned now, ← held_iff, Bool.not_eq_true]

/-- Purging records one after the other. -/
theorem purges_cons (now : String) {recordIds : List String} {e : Entity} :
    t.Purges subjectId (recordId :: recordIds) e ↔
      (e.subjectId = subjectId ∧ e.sourceRecord = some recordId ∧
        ¬ t.HeldWithout subjectId [recordId] e.id) ∨
      (t.tombstonedRecord subjectId now recordId).Purges subjectId recordIds e := by
  unfold Tables.Purges
  constructor
  · rintro ⟨hsubject, before, r, after, hids, hsource, hheld⟩
    rcases before with - | ⟨b, before⟩
    · obtain ⟨rfl, -⟩ := List.cons.inj hids
      exact .inl ⟨hsubject, hsource, hheld⟩
    · obtain ⟨rfl, hrest⟩ := List.cons.inj hids
      refine .inr ⟨hsubject, before, r, after, hrest, hsource, ?_⟩
      rwa [heldWithout_tombstoned]
  · rintro (⟨hsubject, hsource, hheld⟩ | ⟨hsubject, before, r, after, hids, hsource, hheld⟩)
    · exact ⟨hsubject, [], recordId, recordIds, rfl, hsource, hheld⟩
    · refine ⟨hsubject, recordId :: before, r, after, by rw [hids]; rfl, hsource, ?_⟩
      rwa [heldWithout_tombstoned] at hheld

/-- **The entities after the tombstones**: those that go are purged, the others
are as they were. -/
theorem entities_tombstoned (subjectId now : String) (recordIds : List String) (t : Tables) :
    ∃ g : Entity → Entity,
      (recordIds.foldl (fun t r => t.tombstonedRecord subjectId now r) t).entities =
        t.entities.map g ∧
      ∀ e, (t.Purges subjectId recordIds e → g e = e.purged now) ∧
        (¬ t.Purges subjectId recordIds e → g e = e) := by
  induction recordIds generalizing t with
  | nil =>
    refine ⟨fun e => e, by simp, fun e => ⟨?_, fun _ => rfl⟩⟩
    rintro ⟨-, before, r, after, hids, -⟩
    simp at hids
  | cons recordId recordIds ih =>
    obtain ⟨g, hg, hrows⟩ := ih (t.tombstonedRecord subjectId now recordId)
    let own (e : Entity) : Bool :=
      ((t.edgesTombstoned subjectId now recordId).aliasesTombstoned subjectId recordId).lets
        subjectId recordId e
    refine ⟨fun e => g (if own e then e.purged now else e), ?_, fun e => ?_⟩
    · rw [List.foldl_cons, hg]
      exact List.map_map
    · dsimp only
      by_cases hown : own e = true
      · have hfirst := lets_iff.mp hown
        rw [if_pos hown]
        refine ⟨fun _ => ?_, fun h => absurd ((purges_cons now).mpr (.inl hfirst)) h⟩
        -- an entity that is purged twice is purged as it was the first time
        by_cases hlater : (t.tombstonedRecord subjectId now recordId).Purges subjectId
            recordIds (e.purged now)
        · exact (hrows _).1 hlater
        · exact (hrows _).2 hlater
      · rw [if_neg hown]
        constructor
        · intro h
          rcases (purges_cons now).mp h with hfirst | hlater
          · exact absurd (lets_iff.mpr hfirst) hown
          · exact (hrows e).1 hlater
        · intro h
          exact (hrows e).2 fun hlater => h ((purges_cons now).mpr (.inr hlater))

end Atmem.Graph
