import Atmem.Graph.Helpers.Rollback
import Atmem.Graph.Model.Merges
import Mathlib.Data.List.Find
/-!
# The forest of the merged entities

Every merged entity leads to an active one of its subject. What a change of
rows owes for that to stay so is one lemma, `Forest.of_rows`; what indexing may
do to the rows, it always does without breaking it.
-/

namespace Atmem.Graph

open Relational Statement

variable {E : Engine} {t t' : Tables} {s i : String} {e e' : Entity}

/-! ## Rows -/

theorem entityOf_eq_some (h : t.entityOf s i = some e) :
    e ∈ t.entities ∧ e.id = i ∧ e.subjectId = s := by
  have hp := List.find?_some h
  simp only [Bool.and_eq_true, decide_eq_true_eq] at hp
  exact ⟨List.mem_of_find?_eq_some h, hp⟩

theorem Tables.Sound.entityOf (ht : Tables.Sound t) (he : e ∈ t.entities) :
    t.entityOf e.subjectId e.id = some e := by
  rcases hf : t.entityOf e.subjectId e.id with - | e'
  · have := List.find?_eq_none.mp hf e he
    simp at this
  · obtain ⟨he', hid, -⟩ := entityOf_eq_some hf
    rw [ht.entity_eq he' he hid]

/-- Rows rewritten under their identifiers. -/
theorem entityOf_map {g : Entity → Entity} (hid : ∀ e ∈ t.entities, (g e).id = e.id)
    (hsubject : ∀ e ∈ t.entities, (g e).subjectId = e.subjectId) :
    ({ t with entities := t.entities.map g } : Tables).entityOf s i =
      (t.entityOf s i).map g := by
  unfold Tables.entityOf
  rw [List.find?_map]
  congr 1
  exact List.find?_congr fun e he => by simp [hid e he, hsubject e he]

theorem entityOf_updateEntities {x : String} {f : Entity → Entity} (hid : ∀ e, (f e).id = e.id)
    (hsubject : ∀ e, (f e).subjectId = e.subjectId) :
    (t.updateEntities (·.id = x) f).entityOf s i =
      if i = x then (t.entityOf s i).map f else t.entityOf s i := by
  unfold Tables.updateEntities
  rw [entityOf_map (fun e _ => by split <;> simp [hid])
    (fun e _ => by split <;> simp [hsubject])]
  rcases hf : t.entityOf s i with - | e
  · simp
  · obtain ⟨-, rfl, -⟩ := entityOf_eq_some hf
    by_cases hx : e.id = x
    · simp [hx]
    · simp [hx]

theorem entityOf_append : ({ t with entities := t.entities ++ [e] } : Tables).entityOf s i =
    (t.entityOf s i).or (if e.id = i ∧ e.subjectId = s then some e else none) := by
  unfold Tables.entityOf
  rw [List.find?_append]
  congr 1
  by_cases h : e.id = i ∧ e.subjectId = s
  · simp [h]
  · rw [if_neg h, List.find?_eq_none.mpr]
    simpa using h

/-- What is looked up of the entities is of their rows alone. -/
theorem entityOf_congr (h : t'.entities = t.entities) : t'.entityOf s i = t.entityOf s i := by
  unfold Tables.entityOf
  rw [h]

/-! ## The forest -/

/-- An active entity of the subject. -/
def Tables.IsActive (t : Tables) (s i : String) : Prop :=
  ∃ e, t.entityOf s i = some e ∧ e.status = .active

/-- The pointers lead to an active entity of the subject. -/
def Tables.Leads (t : Tables) (s i : String) : Prop :=
  Pointers.Leads (t.pointerOf s) (t.IsActive s) i

/-- Every merged entity leads to an active one. -/
def Tables.Forest (t : Tables) : Prop :=
  ∀ s i e, t.entityOf s i = some e → e.status = .merged → t.Leads s i

theorem pointer_eq_some {x : String} (h : e.pointer = some x) :
    e.status = .merged ∧ e.mergedInto = some x := by
  unfold Entity.pointer at h
  split at h
  · rename_i hm
    exact ⟨hm.1, h⟩
  · cases h

theorem pointerOf_eq_some {x : String} (h : t.pointerOf s i = some x) :
    ∃ e, t.entityOf s i = some e ∧ e.pointer = some x := Option.bind_eq_some_iff.mp h

/-- An active entity points nowhere. -/
theorem pointerOf_of_isActive (h : t.IsActive s i) : t.pointerOf s i = none := by
  obtain ⟨e, he, hactive⟩ := h
  unfold Tables.pointerOf
  rw [he]
  show e.pointer = none
  unfold Entity.pointer
  rw [if_neg fun hm => by rw [hactive] at hm; cases hm.1]

/-- What an entity that leads to an active one points at leads to one too. -/
theorem Tables.Leads.pointed {j : String} (h : t.Leads s i) (hi : t.pointerOf s i = some j) :
    t.Leads s j := by
  cases h with
  | root hx _ =>
    rw [pointerOf_of_isActive hx] at hi
    cases hi
  | next hx _ hy =>
    obtain rfl := Option.some.inj (hx.symm.trans hi)
    exact hy

/-- What leads to an active entity is active or merged. -/
theorem Tables.Leads.exists_row (h : t.Leads s i) :
    ∃ e, t.entityOf s i = some e ∧ (e.status = .active ∨ e.status = .merged) := by
  cases h with
  | root hx _ =>
    obtain ⟨e, he, hactive⟩ := hx
    exact ⟨e, he, .inl hactive⟩
  | next hx _ _ =>
    obtain ⟨e, he, hpointer⟩ := pointerOf_eq_some hx
    exact ⟨e, he, .inr (pointer_eq_some hpointer).1⟩

theorem Tables.Forest.pointed (h : t.Forest) {j : String} (hi : t.pointerOf s i = some j) :
    t.Leads s j := by
  obtain ⟨e, he, hpointer⟩ := pointerOf_eq_some hi
  exact (h s i e he (pointer_eq_some hpointer).1).pointed hi

/-- **What a change of rows owes**: a row outside `S` keeps its pointer and stays
active; none of them points at a changed row that leads nowhere; and the
changed rows that are merged lead to an active one. -/
theorem Tables.Forest.of_rows (h : t.Forest) (S : String → String → Prop)
    (hsame : ∀ s i e, ¬ S s i → t.entityOf s i = some e → ∃ e', t'.entityOf s i = some e' ∧
      e'.pointer = e.pointer ∧ (e.status = .active → e'.status = .active))
    (hmerged : ∀ s i e', ¬ S s i → t'.entityOf s i = some e' → e'.status = .merged →
      ∃ e, t.entityOf s i = some e ∧ e.status = .merged)
    (hpointed : ∀ s i j, ¬ S s i → t.pointerOf s i = some j → S s j → t'.Leads s j)
    (hchanged : ∀ s i e', S s i → t'.entityOf s i = some e' → e'.status = .merged →
      t'.Leads s i) : t'.Forest := by
  intro s i e' he' hmerged'
  by_cases hS : S s i
  · exact hchanged s i e' hS he' hmerged'
  · obtain ⟨e, he, hm⟩ := hmerged s i e' hS he' hmerged'
    refine Pointers.Leads.of_changed (S := S s) (h s i e he hm) ?_ ?_ ?_ hS
    · intro x y hx hxy
      obtain ⟨e₁, he₁, hpointer⟩ := pointerOf_eq_some hxy
      obtain ⟨e₂, he₂, hsame₂, -⟩ := hsame s x e₁ hx he₁
      unfold Tables.pointerOf
      rw [he₂]
      exact hsame₂.trans hpointer
    · rintro x hx ⟨e₁, he₁, hactive⟩
      obtain ⟨e₂, he₂, -, hactive₂⟩ := hsame s x e₁ hx he₁
      exact ⟨e₂, he₂, hactive₂ hactive⟩
    · exact fun x y hx hxy hy => hpointed s x y hx hxy hy

/-- Where no row is changed in its status and its pointer. -/
theorem Tables.Forest.of_same (h : t.Forest)
    (hrows : ∀ s i, (t'.entityOf s i).map (fun e => (e.status, e.mergedInto)) =
      (t.entityOf s i).map (fun e => (e.status, e.mergedInto))) : t'.Forest := by
  have hrow : ∀ s i e, t.entityOf s i = some e → ∃ e', t'.entityOf s i = some e' ∧
      e'.status = e.status ∧ e'.mergedInto = e.mergedInto := by
    intro s i e he
    have := hrows s i
    rw [he] at this
    obtain ⟨e', he', heq⟩ := Option.map_eq_some_iff.mp this
    exact ⟨e', he', congrArg Prod.fst heq, congrArg Prod.snd heq⟩
  refine h.of_rows (fun _ _ => False) ?_ ?_ ?_ ?_
  · intro s i e _ he
    obtain ⟨e', he', hstatus, hinto⟩ := hrow s i e he
    refine ⟨e', he', ?_, fun ha => hstatus.trans ha⟩
    unfold Entity.pointer
    rw [hstatus, hinto]
  · intro s i e' _ he' hm
    have := hrows s i
    rw [he'] at this
    obtain ⟨e, he, heq⟩ := Option.map_eq_some_iff.mp this.symm
    exact ⟨e, he, (congrArg Prod.fst heq).trans hm⟩
  · exact fun _ _ _ _ _ h => h.elim
  · exact fun _ _ _ h => h.elim

/-! ## What holds of the graph

The forest, and what it takes to keep it: an entity has an identifier that is
not empty, a proposal is between entities of its subject, and the edges are of
this version of the extraction. -/

/-- A forest, and what its operations need besides. -/
structure Tables.Rooted (t : Tables) : Prop where
  forest : t.Forest
  ids : ∀ s i e, t.entityOf s i = some e → i ≠ ""
  proposals : ∀ p ∈ t.proposals, (t.entityOf p.subjectId p.leftEntity).isSome ∧
    (t.entityOf p.subjectId p.rightEntity).isSome
  versions : ∀ e ∈ t.edges, e.extractorVersion = graphExtractorVersion

/-- The rest is kept where rows stay and no proposal is made. -/
theorem Tables.Rooted.of_forest (h : t.Rooted) (hforest : t'.Forest)
    (hrows : ∀ s i, (t.entityOf s i).isSome → (t'.entityOf s i).isSome)
    (hids : ∀ s i, (t'.entityOf s i).isSome → i ≠ "" ∨ (t.entityOf s i).isSome)
    (hproposals : ∀ p' ∈ t'.proposals, ∃ p ∈ t.proposals, p'.subjectId = p.subjectId ∧
      p'.leftEntity = p.leftEntity ∧ p'.rightEntity = p.rightEntity)
    (hversions : ∀ e' ∈ t'.edges, ∃ e ∈ t.edges, e'.extractorVersion = e.extractorVersion) :
    t'.Rooted where
  forest := hforest
  ids s i e he := by
    rcases hids s i (by rw [he]; rfl) with hi | hi
    · exact hi
    · obtain ⟨e₀, he₀⟩ := Option.isSome_iff_exists.mp hi
      exact h.ids s i e₀ he₀
  proposals p' hp' := by
    obtain ⟨p, hp, hs, hl, hr⟩ := hproposals p' hp'
    rw [hs, hl, hr]
    exact ⟨hrows _ _ (h.proposals p hp).1, hrows _ _ (h.proposals p hp).2⟩
  versions e' he' := by
    obtain ⟨e, he, hv⟩ := hversions e' he'
    exact hv.trans (h.versions e he)

/-! ## What indexing does to entities -/

/-- Rows out of use may be put to use, and new ones made; the others stay. -/
structure Tables.Revives (t t' : Tables) : Prop where
  rows : ∀ s i e, t.entityOf s i = some e → ∃ e', t'.entityOf s i = some e' ∧ (e' = e ∨
    (e.status = .quarantined ∨ e.status = .tombstoned) ∧
      (e'.status = .active ∨ e'.status = .quarantined))
  new : ∀ s i e', t.entityOf s i = none → t'.entityOf s i = some e' →
    (e'.status = .active ∨ e'.status = .quarantined) ∧ i ≠ ""
  proposals : t'.proposals = t.proposals
  versions : (∀ e ∈ t.edges, e.extractorVersion = graphExtractorVersion) →
    ∀ e ∈ t'.edges, e.extractorVersion = graphExtractorVersion

namespace Tables.Revives

theorem refl (t : Tables) : t.Revives t where
  rows s i e he := ⟨e, he, .inl rfl⟩
  new s i e' hnone he' := absurd he' (by rw [hnone]; exact nofun)
  proposals := rfl
  versions := id

theorem trans (a b c : Tables) (h : a.Revives b) (h' : b.Revives c) : a.Revives c where
  rows s i e he := by
    obtain ⟨e₁, he₁, hrow₁⟩ := h.rows s i e he
    obtain ⟨e₂, he₂, hrow₂⟩ := h'.rows s i e₁ he₁
    refine ⟨e₂, he₂, ?_⟩
    rcases hrow₂ with rfl | ⟨hold, hstatus₂⟩
    · exact hrow₁
    · rcases hrow₁ with rfl | ⟨hstatus, -⟩
      · exact .inr ⟨hold, hstatus₂⟩
      · exact .inr ⟨hstatus, hstatus₂⟩
  new s i e' hnone he' := by
    rcases hb : b.entityOf s i with - | e₁
    · exact h'.new s i e' hb he'
    · obtain ⟨e₂, he₂, hrow⟩ := h'.rows s i e₁ hb
      obtain rfl := Option.some.inj (he₂.symm.trans he')
      rcases hrow with rfl | ⟨-, hstatus⟩
      · exact h.new s i _ hnone hb
      · exact ⟨hstatus, (h.new s i e₁ hnone hb).2⟩
  proposals := h'.proposals.trans h.proposals
  versions hv := h'.versions (h.versions hv)

/-- Statements on the other tables. -/
theorem of_entities (hentities : t'.entities = t.entities) (hproposals : t'.proposals = t.proposals)
    (hedges : ∀ e ∈ t'.edges, e.extractorVersion = graphExtractorVersion ∨
      ∃ e₀ ∈ t.edges, e.extractorVersion = e₀.extractorVersion) : t.Revives t' where
  rows s i e he := ⟨e, (entityOf_congr hentities).trans he, .inl rfl⟩
  new s i e' hnone he' := by
    rw [entityOf_congr hentities, hnone] at he'
    cases he'
  proposals := hproposals
  versions hv e he := by
    rcases hedges e he with h | ⟨e₀, he₀, h⟩
    · exact h
    · exact h.trans (hv e₀ he₀)

theorem fts (t : Tables) (rows : List FtsRow) : t.Revives { t with fts := rows } :=
  of_entities rfl rfl fun e he => .inr ⟨e, he, rfl⟩

theorem aliases (t : Tables) (rows : List Alias) : t.Revives { t with aliases := rows } :=
  of_entities rfl rfl fun e he => .inr ⟨e, he, rfl⟩

theorem updateEdges (t : Tables) (p : Edge → Bool) {f : Edge → Edge}
    (hf : ∀ e, (f e).extractorVersion = e.extractorVersion) : t.Revives (t.updateEdges p f) := by
  refine of_entities rfl rfl fun e he => .inr ?_
  obtain ⟨e₀, he₀, rfl⟩ := List.mem_map.mp he
  refine ⟨e₀, he₀, ?_⟩
  split
  · exact hf e₀
  · rfl

theorem upsertEdgeFts (t : Tables) (id : String) : t.Revives (t.upsertEdgeFts id) := by
  unfold Tables.upsertEdgeFts
  split
  · exact fts t _
  · exact refl t

/-- A row out of use is put to use. -/
theorem updateEntity {x : String} {f : Entity → Entity} (hid : ∀ e, (f e).id = e.id)
    (hsubject : ∀ e, (f e).subjectId = e.subjectId)
    (hold : ∀ e ∈ t.entities, e.id = x → e.status = .quarantined ∨ e.status = .tombstoned)
    (hnew : ∀ e, (f e).status = .active ∨ (f e).status = .quarantined) :
    t.Revives (t.updateEntities (·.id = x) f) where
  rows s i e he := by
    rw [entityOf_updateEntities hid hsubject, he]
    obtain ⟨hmem, hi, -⟩ := entityOf_eq_some he
    by_cases hx : i = x
    · exact ⟨f e, by rw [if_pos hx]; rfl, .inr ⟨hold e hmem (hi.trans hx), hnew e⟩⟩
    · exact ⟨e, by rw [if_neg hx], .inl rfl⟩
  new s i e' hnone he' := by
    rw [entityOf_updateEntities hid hsubject, hnone] at he'
    split at he' <;> cases he'
  proposals := rfl
  versions hv := hv

/-- A new row. -/
theorem insertEntity (t : Tables) (hnew : e.status = .active ∨ e.status = .quarantined)
    (hid : e.id ≠ "") :
    t.Revives { t with entities := t.entities ++ [e] } where
  rows s i e' he' := ⟨e', by rw [entityOf_append, he']; rfl, .inl rfl⟩
  new s i e' hnone he' := by
    rw [entityOf_append, hnone] at he'
    split at he'
    · rename_i hkey
      cases he'
      exact ⟨hnew, hkey.1 ▸ hid⟩
    · cases he'
  proposals := rfl
  versions hv := hv

/-- **Indexing keeps the forest**: no merged entity leads through a row out of
use. -/
theorem forest (h : t.Revives t') (hf : t.Forest) : t'.Forest := by
  refine hf.of_rows (fun s i => t'.entityOf s i ≠ t.entityOf s i) ?_ ?_ ?_ ?_
  · intro s i e hsame he
    exact ⟨e, (not_not.mp hsame).trans he, rfl, id⟩
  · intro s i e' hsame he' hm
    exact ⟨e', (not_not.mp hsame).symm.trans he', hm⟩
  · intro s i j _ hij hchanged
    obtain ⟨e, he, hstatus⟩ := (hf.pointed hij).exists_row
    obtain ⟨e', he', rfl | ⟨hold, -⟩⟩ := h.rows s j e he
    · exact absurd (he'.trans he.symm) hchanged
    · rcases hstatus with hs | hs <;> rcases hold with ho | ho <;> rw [hs] at ho <;> cases ho
  · intro s i e' hchanged he' hm
    have hnot : ¬ (e'.status = .active ∨ e'.status = .quarantined) := by
      rw [hm]
      exact nofun
    rcases he : t.entityOf s i with - | e
    · exact absurd (h.new s i e' he he').1 hnot
    · obtain ⟨e₁, he₁, hrow⟩ := h.rows s i e he
      obtain rfl := Option.some.inj (he₁.symm.trans he')
      rcases hrow with rfl | ⟨-, hstatus⟩
      · exact absurd (he'.trans he.symm) hchanged
      · exact absurd hstatus hnot

theorem rooted (h : t.Revives t') (hr : t.Rooted) : t'.Rooted where
  forest := h.forest hr.forest
  ids s i e he := by
    rcases hi : t.entityOf s i with - | e₀
    · exact (h.new s i e hi he).2
    · exact hr.ids s i e₀ hi
  proposals p hp := by
    rw [h.proposals] at hp
    obtain ⟨hleft, hright⟩ := hr.proposals p hp
    obtain ⟨l, hl⟩ := Option.isSome_iff_exists.mp hleft
    obtain ⟨l', hl', -⟩ := h.rows _ _ l hl
    obtain ⟨r, hr'⟩ := Option.isSome_iff_exists.mp hright
    obtain ⟨r', hr'', -⟩ := h.rows _ _ r hr'
    exact ⟨by rw [hl']; rfl, by rw [hr'']; rfl⟩
  versions := h.versions hr.versions

end Tables.Revives

/-! ## The methods of the index -/

open Tables (Revives)

theorem revives_activate {q : EntityRequest} {id text : String} {d : Database}
    (h : ∀ e ∈ d.val.entities, e.id = id → e.status = .quarantined ∨ e.status = .tombstoned) :
    WithinAt Revives (q.activate id text) d := by
  unfold EntityRequest.activate
  refine WithinAt.bind Revives.trans (withinAt_execute ?_) fun _ d' _ => withinAt_execute ?_
  · exact Revives.updateEntity (fun _ => rfl) (fun _ => rfl) h fun _ => .inl rfl
  · exact Revives.fts _ _

theorem stableId_ne_empty (kind : String) (parts : List String) : E.stableId kind parts ≠ "" := by
  intro h
  have := congrArg String.length h
  simp [Engine.stableId] at this

/-- An entity that is ensured comes alive at most. -/
theorem revives_ensureEntity {q : EntityRequest}
    (hq : q.status = .active ∨ q.status = .quarantined) : Within Revives (q.ensure E) := by
  intro d
  have hfts : ∀ (t : Tables) id, t.Revives
      (if q.status = .active then t.upsertFts ⟨.entity, id, q.subjectId, q.canonical⟩ else t) := by
    intro t id
    split
    · exact Revives.fts _ _
    · exact Revives.refl _
  unfold EntityRequest.ensure
  refine withinAt_query ?_
  rcases hnamed : q.named E d.val with - | e
  · -- nothing has the name: its row comes back, or is new
    refine withinAt_query ?_
    split
    · rename_i e hrow
      unfold EntityRequest.recreate
      refine WithinAt.bind Revives.trans (withinAt_execute ?_) fun _ d₁ _ =>
        WithinAt.bind Revives.trans (withinAt_execute ?_) fun _ d₂ _ =>
          withinAt_pure Revives.refl
      · refine Revives.updateEntity (fun _ => rfl) (fun _ => rfl) ?_ fun _ => hq
        have hp := List.find?_some hrow
        simp only [Bool.and_eq_true, decide_eq_true_eq] at hp
        intro e' he' hid
        rw [d.property.entity_eq he' (List.mem_of_find?_eq_some hrow) (hid.trans hp.1.symm)]
        exact .inr hp.2
      · exact hfts _ _
    · unfold EntityRequest.create
      refine WithinAt.bind Revives.trans (withinAt_execute ?_) fun _ d₁ _ =>
        WithinAt.bind Revives.trans (withinAt_execute ?_) fun _ d₂ _ =>
          withinAt_pure Revives.refl
      · exact Revives.insertEntity _ hq (stableId_ne_empty _ _)
      · exact hfts _ _
  · -- something has the name
    dsimp only
    unfold EntityRequest.found
    split
    · rename_i hstatus
      refine WithinAt.bind Revives.trans (revives_activate ?_) fun _ d₁ _ =>
        withinAt_pure Revives.refl
      intro e' he' hid
      rw [d.property.entity_eq he' (List.mem_of_find?_eq_some hnamed) hid]
      exact .inl hstatus.1
    · exact withinAt_pure Revives.refl

theorem revives_ensureAlias {q : AliasRequest} : Within Revives (q.ensure E) := by
  intro d
  unfold AliasRequest.ensure
  refine withinAt_query ?_
  split
  · unfold AliasRequest.found
    split
    · exact (withinAt_execute (Revives.aliases _ _)).bind Revives.trans fun _ d₁ _ =>
        (withinAt_execute (Revives.fts _ _)).bind Revives.trans fun _ d₂ _ =>
          withinAt_pure Revives.refl
    · exact withinAt_pure Revives.refl
  · unfold AliasRequest.create
    refine (withinAt_execute (Revives.aliases _ _)).bind Revives.trans fun _ d₁ _ =>
      (withinAt_execute ?_).bind Revives.trans fun _ d₂ _ => withinAt_pure Revives.refl
    split
    · exact Revives.fts _ _
    · exact Revives.refl _

theorem revives_updateAliases {p : Alias → Bool} {f : Alias → Alias} {d : Database} :
    WithinAt Revives (execute fun t => t.updateAliases p f) d :=
  withinAt_execute (Revives.aliases _ _)

theorem revives_updateEdges {p : Edge → Bool} {f : Edge → Edge} {d : Database}
    (hf : ∀ e, (f e).extractorVersion = e.extractorVersion) :
    WithinAt Revives (execute fun t => t.updateEdges p f) d :=
  withinAt_execute (Revives.updateEdges _ _ hf)

theorem revives_upsertFts {row : FtsRow} {d : Database} :
    WithinAt Revives (execute fun t => t.upsertFts row) d :=
  withinAt_execute (Revives.fts _ _)

theorem revives_deleteFts {o : ObjectType} {id : String} {d : Database} :
    WithinAt Revives (execute fun t => t.deleteFts o id) d :=
  withinAt_execute (Revives.fts _ _)

variable {r : GraphRecord} {fact : GraphFact} {now : String}

theorem revives_activateEdge {edge : Edge} : Within Revives (r.activateEdge edge) := by
  intro d
  unfold GraphRecord.activateEdge
  refine WithinAt.bind Revives.trans ?_ fun _ d₁ _ => withinAt_query
    (WithinAt.bind Revives.trans ?_ fun _ d₂ _ => withinAt_execute (Revives.upsertEdgeFts _ _))
  · refine within_forM Revives.refl Revives.trans (fun id _ d₁ => ?_) d
    refine withinAt_query ?_
    rcases hrow : d₁.val.entity? id with - | e
    · exact withinAt_pure Revives.refl
    · dsimp only
      split
      · rename_i hstatus
        refine WithinAt.bind Revives.trans (withinAt_execute ?_) fun _ d₂ _ => revives_upsertFts
        refine Revives.updateEntity (fun _ => rfl) (fun _ => rfl) ?_ fun _ => .inl rfl
        intro e' he' hid
        have hp : e.id = id := by simpa using List.find?_some hrow
        rw [d₁.property.entity_eq he' (List.mem_of_find?_eq_some hrow) (hid.trans hp.symm)]
        exact .inl hstatus
      · exact withinAt_pure Revives.refl
  · refine within_forM Revives.refl Revives.trans (fun a _ d₂ => ?_) d₁
    exact revives_updateAliases.bind Revives.trans fun _ d₃ _ => revives_upsertFts

theorem revives_withdrawEdge {edge : Edge} : Within Revives (r.withdrawEdge edge) := by
  intro d
  unfold GraphRecord.withdrawEdge
  refine revives_deleteFts.bind Revives.trans fun _ d₁ _ => withinAt_query ?_
  refine within_forM Revives.refl Revives.trans (fun a _ d₂ => ?_) d₁
  exact revives_updateAliases.bind Revives.trans fun _ d₃ _ => revives_deleteFts

theorem revives_syncExistingEdge {edge : Edge} : Within Revives (r.syncExistingEdge edge) := by
  intro d
  unfold GraphRecord.syncExistingEdge
  split
  · exact withinAt_pure Revives.refl
  · refine WithinAt.bind Revives.trans (revives_updateEdges ?_) fun _ d₁ _ => ?_
    · exact fun _ => rfl
    split
    · exact (revives_activateEdge d₁).bind Revives.trans fun _ d₂ _ => withinAt_pure Revives.refl
    · exact (revives_withdrawEdge d₁).bind Revives.trans fun _ d₂ _ => withinAt_pure Revives.refl

theorem revives_ensureAliases {src dst : String} :
    Within Revives (r.ensureAliases E fact src dst) := by
  intro d
  unfold GraphRecord.ensureAliases
  split
  · exact (revives_ensureAlias d).bind Revives.trans fun _ d₁ _ =>
      (revives_ensureAlias d₁).bind Revives.trans fun _ d₂ _ =>
        (revives_ensureAlias d₂).bind Revives.trans fun _ d₃ _ =>
          (revives_ensureAlias d₃).bind Revives.trans fun _ d₄ _ => withinAt_pure Revives.refl
  · exact withinAt_pure Revives.refl

theorem revives_insertEdge {src dst : String} :
    Within Revives (r.insertEdge E fact src dst) := by
  intro d
  unfold GraphRecord.insertEdge
  refine withinAt_query (withinAt_query ?_)
  refine WithinAt.bind Revives.trans ?_ fun _ d₁ _ => ?_
  · refine within_mapM Revives.refl Revives.trans (fun old _ d₁ => ?_) d
    refine WithinAt.bind Revives.trans (revives_updateEdges ?_) fun _ d₂ _ =>
      revives_deleteFts.bind Revives.trans fun _ d₃ _ => withinAt_pure Revives.refl
    exact fun _ => rfl
  · refine (withinAt_execute ?_).bind Revives.trans fun _ d₂ _ =>
      (withinAt_execute ?_).bind Revives.trans fun _ d₃ _ => withinAt_pure Revives.refl
    · refine Revives.of_entities rfl rfl fun e he => ?_
      rcases List.mem_append.mp he with h | h
      · exact .inr ⟨e, h, rfl⟩
      · rw [List.mem_singleton.mp h]
        exact .inl rfl
    · split
      · exact Revives.upsertEdgeFts _ _
      · exact Revives.refl _

/-- A record's entities are active or in quarantine. -/
theorem entityStatus_cases : r.entityStatus = .active ∨ r.entityStatus = .quarantined := by
  unfold GraphRecord.entityStatus
  split
  · exact .inr rfl
  · exact .inl rfl

/-- So with all a fact asserts. -/
theorem revives_assertFact : Within Revives (r.assertFact E fact) := by
  intro d
  unfold GraphRecord.assertFact
  exact (revives_ensureEntity (q := r.sourceRequest E fact) entityStatus_cases d).bind
    Revives.trans fun _ d₁ _ =>
      (revives_ensureEntity (q := r.destinationRequest fact) entityStatus_cases d₁).bind
        Revives.trans fun _ d₂ _ => (revives_ensureAliases d₂).bind Revives.trans fun _ d₃ _ =>
          (revives_insertEdge d₃).bind Revives.trans fun _ d₄ _ => withinAt_pure Revives.refl

/-- **Indexing a record** puts rows to use and makes rows, where the edges are
of this version of the extraction. -/
theorem revives_indexRecord {d : Database}
    (hversions : ∀ e ∈ d.val.edges, e.extractorVersion = graphExtractorVersion) :
    WithinAt Revives (indexRecord E r now) d := by
  unfold indexRecord
  split
  · exact withinAt_pure Revives.refl
  · split
    · exact withinAt_pure Revives.refl
    · refine withinAt_query ?_
      rcases hedge : d.val.recordEdge r.subjectId r.id with - | edge
      · exact revives_assertFact d
      · dsimp only
        rw [if_neg (not_not.mpr (hversions edge (List.mem_of_find?_eq_some hedge)))]
        exact revives_syncExistingEdge d

theorem revives_supersedeRecords {subjectId by_ : String} {ids : List String} :
    Within Revives (supersedeRecords subjectId ids by_ now) := by
  intro d
  unfold supersedeRecords
  refine WithinAt.bind Revives.trans ?_ fun _ d₁ _ => ?_
  · refine within_mapM Revives.refl Revives.trans (fun id _ d₁ => ?_) d
    unfold supersedeRecord
    refine withinAt_query ?_
    split
    · exact withinAt_pure Revives.refl
    · refine WithinAt.bind Revives.trans (revives_updateEdges ?_) fun _ d₂ _ =>
        revives_deleteFts.bind Revives.trans fun _ d₃ _ => withinAt_query ?_
      · exact fun _ => rfl
      refine WithinAt.bind Revives.trans ?_ fun _ d₄ _ => withinAt_pure Revives.refl
      refine within_forM Revives.refl Revives.trans (fun a _ d₄ => ?_) d₃
      exact revives_updateAliases.bind Revives.trans fun _ d₅ _ => revives_deleteFts
  · dsimp only
    split
    · exact withinAt_pure Revives.refl
    · refine WithinAt.bind Revives.trans (revives_updateEdges ?_) fun _ d₂ _ =>
        withinAt_pure Revives.refl
      exact fun _ => rfl

end Atmem.Graph
