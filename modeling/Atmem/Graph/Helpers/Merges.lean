import Atmem.Graph.Helpers.Forest
import Atmem.Graph.Helpers.Tombstones
/-!
# What merges, repairs and tombstones leave of the forest

For each call that rewrites pointers or takes entities out of use: the rows it
rewrites, and what they owe.
-/

namespace Atmem.Graph

open Relational Statement

variable {E : Engine} {t t' : Tables} {d d' : Database} {s i : String} {e e' : Entity}

/-! ## One row -/

/-- The row of one entity is rewritten. -/
theorem Tables.Forest.of_row (h : t.Forest) (s₀ x : String)
    (hrows : ∀ s i, ¬ (s = s₀ ∧ i = x) → t'.entityOf s i = t.entityOf s i)
    (hpointed : ∀ i, i ≠ x → t.pointerOf s₀ i = some x → t'.Leads s₀ x)
    (hrow : ∀ e', t'.entityOf s₀ x = some e' → e'.status = .merged → t'.Leads s₀ x) :
    t'.Forest := by
  refine h.of_rows (fun s i => s = s₀ ∧ i = x) ?_ ?_ ?_ ?_
  · intro s i e hS he
    exact ⟨e, (hrows s i hS).trans he, rfl, id⟩
  · intro s i e' hS he' hm
    exact ⟨e', (hrows s i hS).symm.trans he', hm⟩
  · rintro s i j hS hij ⟨rfl, rfl⟩
    exact hpointed i (fun h => hS ⟨rfl, h⟩) hij
  · rintro s i e' ⟨rfl, rfl⟩ he' hm
    exact hrow e' he' hm

/-- An update of one identifier, at the row it is of. -/
theorem entityOf_updated {x s₀ : String} {f : Entity → Entity} (hid : ∀ e, (f e).id = e.id)
    (hsubject : ∀ e, (f e).subjectId = e.subjectId) (hx : (t.entityOf s₀ x).isSome)
    (ht : Tables.Sound t) :
    (∀ s i, ¬ (s = s₀ ∧ i = x) →
      (t.updateEntities (·.id = x) f).entityOf s i = t.entityOf s i) ∧
    (t.updateEntities (·.id = x) f).entityOf s₀ x = (t.entityOf s₀ x).map f ∧
    ∀ s i, ((t.updateEntities (·.id = x) f).entityOf s i).isSome = (t.entityOf s i).isSome := by
  refine ⟨fun s i hne => ?_, ?_, fun s i => ?_⟩
  · rw [entityOf_updateEntities hid hsubject]
    split
    · -- the identifier is that of a row of the other subject
      rename_i hi
      subst hi
      obtain ⟨e, he⟩ := Option.isSome_iff_exists.mp hx
      obtain ⟨hmem, hide, hsub⟩ := entityOf_eq_some he
      rcases hf : t.entityOf s i with - | e'
      · rfl
      · obtain ⟨hmem', hide', hsub'⟩ := entityOf_eq_some hf
        obtain rfl := ht.entity_eq hmem hmem' (hide.trans hide'.symm)
        exact absurd ⟨hsub'.symm.trans hsub, rfl⟩ hne
    · rfl
  · rw [entityOf_updateEntities hid hsubject, if_pos rfl]
  · rw [entityOf_updateEntities hid hsubject]
    split
    · rw [Option.isSome_map]
    · rfl

/-! ## Tombstones -/

/-- The rows of the tombstones, looked up. -/
theorem entityOf_tombstoned (subjectId now : String) (recordIds : List String)
    (t : Tables) :
    (∀ s i e, t.entityOf s i = some e → t.Purges subjectId recordIds e →
      (recordIds.foldl (fun t r => t.tombstonedRecord subjectId now r) t).entityOf s i =
        some (e.purged now)) ∧
    (∀ s i, (∀ e, t.entityOf s i = some e → ¬ t.Purges subjectId recordIds e) →
      (recordIds.foldl (fun t r => t.tombstonedRecord subjectId now r) t).entityOf s i =
        t.entityOf s i) := by
  obtain ⟨g, hg, hrows⟩ := entities_tombstoned subjectId now recordIds t
  have hkept : ∀ e, (g e).id = e.id ∧ (g e).subjectId = e.subjectId := by
    intro e
    by_cases hp : t.Purges subjectId recordIds e
    · rw [(hrows e).1 hp]
      exact ⟨rfl, rfl⟩
    · rw [(hrows e).2 hp]
      exact ⟨rfl, rfl⟩
  have hmap : ∀ s i, (recordIds.foldl (fun t r => t.tombstonedRecord subjectId now r) t).entityOf
      s i = (t.entityOf s i).map g := by
    intro s i
    rw [← entityOf_map (fun e _ => (hkept e).1) (fun e _ => (hkept e).2)]
    exact entityOf_congr hg
  refine ⟨fun s i e he hp => ?_, fun s i hnone => ?_⟩
  · rw [hmap, he, Option.map_some, (hrows e).1 hp]
  · rw [hmap]
    rcases he : t.entityOf s i with - | e
    · rfl
    · rw [Option.map_some, (hrows e).2 (hnone e he)]

/-- **Tombstones keep the forest** where what points at an entity that goes,
goes too. -/
theorem forest_tombstoned {subjectId now : String} {recordIds : List String} (h : t.Forest)
    (hclosed : ∀ i j e e', t.entityOf subjectId i = some e → e.pointer = some j →
      t.entityOf subjectId j = some e' → t.Purges subjectId recordIds e' →
        t.Purges subjectId recordIds e) :
    (recordIds.foldl (fun t r => t.tombstonedRecord subjectId now r) t).Forest := by
  obtain ⟨hpurged, hsame⟩ := entityOf_tombstoned subjectId now recordIds t
  have hout : ∀ {s i}, ¬ (∃ e, t.entityOf s i = some e ∧ t.Purges subjectId recordIds e) →
      (recordIds.foldl (fun t r => t.tombstonedRecord subjectId now r) t).entityOf s i =
        t.entityOf s i :=
    fun hS => hsame _ _ fun e he hp => hS ⟨e, he, hp⟩
  refine h.of_rows (fun s i => ∃ e, t.entityOf s i = some e ∧ t.Purges subjectId recordIds e)
    ?_ ?_ ?_ ?_
  · intro s i e hS he
    exact ⟨e, (hout hS).trans he, rfl, id⟩
  · intro s i e' hS he' hm
    exact ⟨e', (hout hS).symm.trans he', hm⟩
  · rintro s i j hS hij ⟨e', he', hp⟩
    obtain ⟨e, he, hpointer⟩ := pointerOf_eq_some hij
    obtain rfl : s = subjectId := (entityOf_eq_some he').2.2.symm.trans hp.1
    exact absurd ⟨e, he, hclosed i j e e' he hpointer he' hp⟩ hS
  · rintro s i e' ⟨e, he, hp⟩ he' hm
    rw [hpurged s i e he hp] at he'
    cases he'
    cases hm

/-- The proposals stay, and the versions of the edges. -/
theorem tombstoned_rest (subjectId now : String) (recordIds : List String)
    (t : Tables) :
    (recordIds.foldl (fun t r => t.tombstonedRecord subjectId now r) t).proposals =
      t.proposals ∧
    ∀ e' ∈ (recordIds.foldl (fun t r => t.tombstonedRecord subjectId now r) t).edges,
      ∃ e ∈ t.edges, e'.extractorVersion = e.extractorVersion := by
  induction recordIds generalizing t with
  | nil => exact ⟨rfl, fun e he => ⟨e, he, rfl⟩⟩
  | cons r recordIds ih =>
    obtain ⟨hproposals, hversions⟩ := ih (t.tombstonedRecord subjectId now r)
    refine ⟨hproposals, fun e' he' => ?_⟩
    obtain ⟨e, he, hv⟩ := hversions e' he'
    obtain ⟨e₀, he₀, rfl⟩ := List.mem_map.mp he
    refine ⟨e₀, he₀, hv.trans ?_⟩
    split <;> rfl

/-- Tombstones keep what holds of the graph. -/
theorem rooted_tombstone {subjectId now : String} {recordIds : List String}
    {a : List GraphMutation} (hr : d.val.Rooted)
    (h : tombstoneRecords subjectId recordIds now d = .ok (a, d'))
    (hclosed : ∀ i j e e', d.val.entityOf subjectId i = some e → e.pointer = some j →
      d.val.entityOf subjectId j = some e' → d.val.Purges subjectId recordIds e' →
        d.val.Purges subjectId recordIds e) : d'.val.Rooted := by
  rw [tombstoneRecords_eq h]
  obtain ⟨hpurged, hsame⟩ := entityOf_tombstoned subjectId now recordIds d.val
  have hrow : ∀ s i, ((recordIds.foldl (fun t r => t.tombstonedRecord subjectId now r)
      d.val).entityOf s i).isSome = (d.val.entityOf s i).isSome := by
    intro s i
    by_cases hS : ∃ e, d.val.entityOf s i = some e ∧ d.val.Purges subjectId recordIds e
    · obtain ⟨e, he, hp⟩ := hS
      rw [hpurged s i e he hp, he]
      rfl
    · rw [hsame s i fun e he hp => hS ⟨e, he, hp⟩]
  obtain ⟨hproposals, hversions⟩ := tombstoned_rest subjectId now recordIds d.val
  refine hr.of_forest (forest_tombstoned hr.forest hclosed) ?_ ?_ ?_ hversions
  · exact fun s i hi => by rwa [hrow]
  · exact fun s i hi => .inr (by rwa [hrow] at hi)
  · intro p hp
    rw [hproposals] at hp
    exact ⟨p, hp, rfl, rfl, rfl⟩

/-! ## Proposals -/

/-- What a subject's entities go by is of its entities. -/
theorem isSome_of_mem_surfaces (ht : Tables.Sound t) {subjectId : String}
    {x : String × String × String} (h : x ∈ t.surfaces subjectId) :
    (t.entityOf subjectId x.2.2).isSome := by
  have hrow : ∀ e ∈ t.entities.filter (fun e => e.subjectId = subjectId && e.status = .active),
      (t.entityOf subjectId e.id).isSome := by
    intro e he
    obtain ⟨hmem, hp⟩ := List.mem_filter.mp he
    simp only [Bool.and_eq_true, decide_eq_true_eq] at hp
    rw [← hp.1, ht.entityOf hmem]
    rfl
  unfold Tables.surfaces at h
  rcases List.mem_append.mp h with h | h
  · obtain ⟨e, he, rfl⟩ := List.mem_map.mp h
    exact hrow e (List.mem_filter.mp he).1
  · obtain ⟨a, -, ha⟩ := List.mem_filterMap.mp h
    obtain ⟨e, he, rfl⟩ := Option.map_eq_some_iff.mp ha
    exact hrow e (List.mem_of_find?_eq_some he)

/-- What is proposed is of entities that are there. -/
theorem isSome_of_mem_proposedPairs (ht : Tables.Sound t) {subjectId : String}
    {pair : String × String} (h : pair ∈ proposedPairs t subjectId) :
    (t.entityOf subjectId pair.1).isSome ∧ (t.entityOf subjectId pair.2).isSome := by
  unfold proposedPairs at h
  obtain ⟨key, -, h⟩ := List.mem_flatMap.mp h
  obtain ⟨left, hleft, h⟩ := List.mem_flatMap.mp h
  obtain ⟨right, hright, rfl⟩ := List.mem_map.mp h
  have hrow : ∀ id ∈ (((t.surfaces subjectId).filter fun s =>
      s.1 = key.1 && s.2.1 = key.2).map (·.2.2)).dedup.insertionSort (fun a b => a ≤ b),
      (t.entityOf subjectId id).isSome := by
    intro id hid
    obtain ⟨x, hx, rfl⟩ := List.mem_map.mp
      (List.mem_dedup.mp ((List.mem_insertionSort _).mp hid))
    exact isSome_of_mem_surfaces ht (List.mem_filter.mp hx).1
  exact ⟨hrow left hleft, hrow right (List.mem_filter.mp hright).1⟩

/-- Proposals are made of pairs, and nothing else is touched. -/
structure Tables.Proposes (subjectId : String) (pairs : List (String × String))
    (t t' : Tables) : Prop where
  entities : t'.entities = t.entities
  edges : t'.edges = t.edges
  proposals : ∀ p ∈ t'.proposals, p ∈ t.proposals ∨
    p.subjectId = subjectId ∧ (p.leftEntity, p.rightEntity) ∈ pairs

theorem Tables.Proposes.refl {subjectId : String} {pairs : List (String × String)} (t : Tables) :
    t.Proposes subjectId pairs t :=
  ⟨rfl, rfl, fun _ hp => .inl hp⟩

theorem Tables.Proposes.trans {subjectId : String} {pairs : List (String × String)}
    (a b c : Tables) (h : a.Proposes subjectId pairs b) (h' : b.Proposes subjectId pairs c) :
    a.Proposes subjectId pairs c :=
  ⟨h'.entities.trans h.entities, h'.edges.trans h.edges, fun p hp =>
    (h'.proposals p hp).elim (h.proposals p) .inr⟩

/-- Proposing adds proposals and no more. -/
theorem proposes_proposeEntityMerges {subjectId : String} :
    WithinAt (Tables.Proposes subjectId (proposedPairs d.val subjectId))
      (proposeEntityMerges E subjectId) d := by
  unfold proposeEntityMerges
  refine withinAt_query (WithinAt.bind Tables.Proposes.trans ?_ fun _ d₁ _ =>
    withinAt_pure Tables.Proposes.refl)
  refine within_mapM Tables.Proposes.refl Tables.Proposes.trans (fun pair hpair d₁ => ?_) d
  unfold proposeMerge
  refine withinAt_query ?_
  split
  · exact withinAt_pure Tables.Proposes.refl
  · refine WithinAt.bind Tables.Proposes.trans (withinAt_execute ⟨rfl, rfl, fun p hp => ?_⟩)
      fun _ d₂ _ => withinAt_pure Tables.Proposes.refl
    rcases List.mem_append.mp hp with h | h
    · exact .inl h
    · rw [List.mem_singleton.mp h]
      exact .inr ⟨rfl, hpair⟩

/-- **Proposals keep what holds of the graph**: they are between entities of
the subject. -/
theorem rooted_propose {subjectId : String} {a : List GraphMutation} (hr : d.val.Rooted)
    (h : proposeEntityMerges E subjectId d = .ok (a, d')) : d'.val.Rooted := by
  obtain ⟨hentities, hedges, hproposals⟩ := proposes_proposeEntityMerges a d' h
  have hrow : ∀ s i, d'.val.entityOf s i = d.val.entityOf s i := fun s i =>
    entityOf_congr hentities
  refine ⟨hr.forest.of_same fun s i => by rw [hrow], ?_, ?_, ?_⟩
  · exact fun s i e he => hr.ids s i e ((hrow s i).symm.trans he)
  · intro p hp
    rw [hrow, hrow]
    rcases hproposals p hp with h | ⟨hs, hpair⟩
    · exact hr.proposals p h
    · rw [hs]
      exact isSome_of_mem_proposedPairs d.property hpair
  · intro e he
    rw [hedges] at he
    exact hr.versions e he

/-! ## Decisions -/

/-- What an approval that goes through found and wrote. -/
theorem accept_eq_ok {m : MergeDecision} {p : MergeProposal} {a : GraphMutation}
    (h : m.accept p d = .ok (a, d')) :
    ∃ loser w l, m.winner p ∈ [p.leftEntity, p.rightEntity] ∧ m.loser p = some loser ∧
      d.val.entity? (m.winner p) = some w ∧ d.val.entity? loser = some l ∧
      w.status = .active ∧ l.status = .active ∧
      d'.val.entities = (d.val.updateEntities (·.id = loser) fun e =>
        { e with status := .merged, mergedInto := some (m.winner p),
                 updatedAt := some m.now }).entities ∧
      d'.val.proposals = (d.val.updateProposals (·.id = m.proposalId) fun p' =>
        { p' with status := .approved, winnerEntity := some (m.winner p),
                  decidedAt := some m.now, decidedBy := some m.actor }).proposals ∧
      d'.val.edges = d.val.edges := by
  unfold MergeDecision.accept at h
  split at h
  · exact absurd h throw_ne_ok
  · rename_i hwinner
    rcases hloser : m.loser p with - | loser
    · rw [hloser] at h
      exact absurd h throw_ne_ok
    · rw [hloser] at h
      obtain ⟨w, d₁, hw, h₁⟩ := bind_eq_ok.mp h
      obtain ⟨rfl, rfl⟩ := query_eq_ok.mp hw
      obtain ⟨l, d₂, hl, h₂⟩ := bind_eq_ok.mp h₁
      obtain ⟨rfl, rfl⟩ := query_eq_ok.mp hl
      obtain ⟨u, d₃, hcheck, h₃⟩ := bind_eq_ok.mp h₂
      obtain ⟨hcheck', rfl⟩ := check_eq_ok.mp hcheck
      unfold MergeDecision.merge at h₃
      obtain ⟨v₁, e₁, h₄, h₅⟩ := bind_eq_ok.mp h₃
      obtain ⟨v₂, e₂, h₆, h₇⟩ := bind_eq_ok.mp h₅
      obtain ⟨v₃, e₃, h₈, h₉⟩ := bind_eq_ok.mp h₇
      obtain ⟨-, rfl⟩ := pure_eq_ok.mp h₉
      -- what each statement wrote
      have hrows₁ := execute_eq_ok.mp h₄
      have hrows₂ := execute_eq_ok.mp h₆
      have hrows₃ := execute_eq_ok.mp h₈
      unfold MergeDecision.checkEntities at hcheck'
      split at hcheck'
      · rename_i w l hw' hl'
        split at hcheck'
        · cases hcheck'
        · rename_i hactive
          push Not at hactive
          refine ⟨loser, w, l, not_not.mp hwinner, rfl, hw', hl', hactive.1, hactive.2,
            ?_, ?_, ?_⟩
          · rw [hrows₃, hrows₂, hrows₁]
            rfl
          · rw [hrows₃, hrows₂, hrows₁]
            rfl
          · rw [hrows₃, hrows₂, hrows₁]
            rfl
      · cases hcheck'

/-- The loser is the other one. -/
theorem loser_spec {m : MergeDecision} {p : MergeProposal} {loser : String}
    (h : m.loser p = some loser) :
    loser ∈ [p.leftEntity, p.rightEntity] ∧ loser ≠ m.winner p :=
  ⟨List.mem_of_find?_eq_some h, by simpa using List.find?_some h⟩

theorem entity?_eq_some {id : String} (h : t.entity? id = some e) :
    e ∈ t.entities ∧ e.id = id :=
  ⟨List.mem_of_find?_eq_some h, by simpa using List.find?_some h⟩

/-- The row of an identifier is the row of the subject it is of. -/
theorem entityOf_of_entity? (ht : Tables.Sound t) {id : String} (hrow : (t.entityOf s id).isSome)
    (h : t.entity? id = some e) : t.entityOf s id = some e := by
  obtain ⟨e', he'⟩ := Option.isSome_iff_exists.mp hrow
  obtain ⟨hmem', hid', -⟩ := entityOf_eq_some he'
  obtain ⟨hmem, hid⟩ := entity?_eq_some h
  rw [he', ht.entity_eq hmem' hmem (hid'.trans hid.symm)]

/-- An update keeps what a proposal is about. -/
theorem mem_updateProposals {p : MergeProposal → Bool} {f : MergeProposal → MergeProposal}
    {r' : MergeProposal} (h : r' ∈ (t.updateProposals p f).proposals)
    (hf : ∀ r, (f r).subjectId = r.subjectId ∧ (f r).leftEntity = r.leftEntity ∧
      (f r).rightEntity = r.rightEntity) :
    ∃ r ∈ t.proposals, r'.subjectId = r.subjectId ∧ r'.leftEntity = r.leftEntity ∧
      r'.rightEntity = r.rightEntity := by
  obtain ⟨r, hr, rfl⟩ := List.mem_map.mp h
  refine ⟨r, hr, ?_⟩
  split
  · exact hf r
  · exact ⟨rfl, rfl, rfl⟩

/-- **An approval keeps the forest**: both are active, so the loser leads to the
winner, and what led to the loser leads there too. -/
theorem rooted_accept {m : MergeDecision} {p : MergeProposal} {a : GraphMutation}
    (hr : d.val.Rooted) (hp : p ∈ d.val.proposals) (h : m.accept p d = .ok (a, d')) :
    d'.val.Rooted := by
  obtain ⟨loser, w, l, hwinner, hloser, hw, -, hwactive, -, hentities, hproposals, hedges⟩ :=
    accept_eq_ok h
  obtain ⟨hloserMem, hne⟩ := loser_spec hloser
  have hown : ∀ x ∈ [p.leftEntity, p.rightEntity], (d.val.entityOf p.subjectId x).isSome := by
    intro x hx
    have := hr.proposals p hp
    rcases List.mem_cons.mp hx with rfl | hx
    · exact this.1
    · rw [List.mem_singleton.mp hx]
      exact this.2
  have hwrow := entityOf_of_entity? d.property (hown _ hwinner) hw
  obtain ⟨hout, hat, hsame⟩ := entityOf_updated (f := fun e => { e with
      status := .merged, mergedInto := some (m.winner p), updatedAt := some m.now })
    (fun _ => rfl) (fun _ => rfl) (hown _ hloserMem) d.property
  have hrow : ∀ s i, d'.val.entityOf s i = (d.val.updateEntities (·.id = loser) fun e => { e with
      status := .merged, mergedInto := some (m.winner p), updatedAt := some m.now }).entityOf s i :=
    fun s i => entityOf_congr hentities
  -- the winner is as it was, so the loser leads to it
  have hactive : d'.val.IsActive p.subjectId (m.winner p) :=
    ⟨w, by rw [hrow, hout _ _ fun h => hne h.2.symm, hwrow], hwactive⟩
  have hpointer : d'.val.pointerOf p.subjectId loser = some (m.winner p) := by
    obtain ⟨e, he⟩ := Option.isSome_iff_exists.mp (hown _ hloserMem)
    have hne' : m.winner p ≠ "" := hr.ids _ _ w hwrow
    unfold Tables.pointerOf
    rw [hrow, hat, he]
    simp [Entity.pointer, truthy, hne']
  have hleads : d'.val.Leads p.subjectId loser := .next_of hpointer (.root_of hactive)
  refine hr.of_forest ?_ ?_ ?_ ?_ ?_
  · exact hr.forest.of_row _ _ (fun s i hne => (hrow s i).trans (hout s i hne))
      (fun _ _ _ => hleads) fun _ _ _ => hleads
  · intro s i hsome
    rw [hrow, hsame]
    exact hsome
  · intro s i hsome
    rw [hrow, hsame] at hsome
    exact .inr hsome
  · intro p' hp'
    rw [hproposals] at hp'
    exact mem_updateProposals hp' fun _ => ⟨rfl, rfl, rfl⟩
  · intro e he
    rw [hedges] at he
    exact ⟨e, he, rfl⟩

/-- A decision keeps the forest. -/
theorem rooted_decide {m : MergeDecision} {a : GraphMutation} (hr : d.val.Rooted)
    (h : m.statements d = .ok (a, d')) : d'.val.Rooted := by
  unfold MergeDecision.statements at h
  obtain ⟨found, d₁, hq, h₁⟩ := bind_eq_ok.mp h
  obtain ⟨hfound, rfl⟩ := query_eq_ok.mp hq
  rcases found with - | p
  · exact absurd h₁ throw_ne_ok
  · dsimp only at h₁
    split at h₁
    · exact rooted_accept hr (List.mem_of_find?_eq_some hfound) h₁
    · unfold MergeDecision.reject at h₁
      obtain ⟨u, d₂, h₂, h₃⟩ := bind_eq_ok.mp h₁
      obtain ⟨-, rfl⟩ := pure_eq_ok.mp h₃
      have hrows := execute_eq_ok.mp h₂
      have hsame : ∀ s i, d₂.val.entityOf s i = d.val.entityOf s i := fun s i => by
        rw [hrows]
        rfl
      refine hr.of_forest (hr.forest.of_same fun s i => by rw [hsame]) ?_ ?_ ?_ ?_
      · exact fun s i hi => by rwa [hsame]
      · exact fun s i hi => .inr (by rwa [hsame] at hi)
      · intro p' hp'
        rw [hrows] at hp'
        exact mem_updateProposals hp' fun _ => ⟨rfl, rfl, rfl⟩
      · intro e he
        rw [hrows] at he
        exact ⟨e, he, rfl⟩

/-! ## Reversals -/

/-- What a reversal that goes through found and wrote. -/
theorem revert_eq_ok {m : MergeReversal} {a : GraphMutation}
    (h : m.statements d = .ok (a, d')) :
    ∃ p ∈ d.val.proposals, p.id = m.proposalId ∧ p.subjectId = m.subjectId ∧
      p.status = .approved ∧ ∃ e, d.val.entity? p.merged = some e ∧ e.status = .merged ∧
      e.mergedInto = some (p.winnerEntity.getD "None") ∧
      d'.val.entities = (d.val.updateEntities (·.id = p.merged) fun e =>
        { e with status := .active, mergedInto := none, updatedAt := some m.now }).entities ∧
      d'.val.proposals = (d.val.updateProposals (·.id = m.proposalId) fun p' =>
        { p' with status := .reverted, decidedAt := some m.now,
                  decidedBy := some m.actor }).proposals ∧
      d'.val.edges = d.val.edges := by
  unfold MergeReversal.statements at h
  obtain ⟨found, d₁, hq, h₁⟩ := bind_eq_ok.mp h
  obtain ⟨hfound, rfl⟩ := query_eq_ok.mp hq
  rcases found with - | p
  · exact absurd h₁ throw_ne_ok
  · obtain ⟨entity, d₂, hq', h₂⟩ := bind_eq_ok.mp h₁
    obtain ⟨hentity, rfl⟩ := query_eq_ok.mp hq'
    -- the merge must still stand as it was approved
    rcases hstill : entity.filter (MergeReversal.stillMerged p) with - | e
    · rw [hstill] at h₂
      exact absurd h₂ throw_ne_ok
    · rw [hstill] at h₂
      obtain ⟨he, hp'⟩ := Option.filter_eq_some_iff.mp hstill
      simp only [MergeReversal.stillMerged, Bool.and_eq_true, decide_eq_true_eq] at hp'
      have hp := List.find?_some hfound
      simp only [Bool.and_eq_true, decide_eq_true_eq] at hp
      unfold MergeReversal.restore at h₂
      obtain ⟨v₁, e₁, h₄, h₅⟩ := bind_eq_ok.mp h₂
      obtain ⟨v₂, e₂, h₆, h₇⟩ := bind_eq_ok.mp h₅
      obtain ⟨v₃, e₃, h₈, h₉⟩ := bind_eq_ok.mp h₇
      obtain ⟨-, rfl⟩ := pure_eq_ok.mp h₉
      -- three statements, each an update of one table
      have hrows₁ := execute_eq_ok.mp h₄
      have hrows₂ := execute_eq_ok.mp h₆
      have hrows₃ := execute_eq_ok.mp h₈
      refine ⟨p, List.mem_of_find?_eq_some hfound, hp.1.1, hp.1.2, hp.2, e, hentity.trans he,
        hp'.1.1, hp'.1.2, ?_, ?_, ?_⟩
      · rw [hrows₃, hrows₂, hrows₁]
        rfl
      · rw [hrows₃, hrows₂, hrows₁]
        rfl
      · rw [hrows₃, hrows₂, hrows₁]
        rfl

/-- **A reversal keeps the forest**: the entity is a root of its own again. -/
theorem rooted_revert {m : MergeReversal} {a : GraphMutation} (hr : d.val.Rooted)
    (h : m.statements d = .ok (a, d')) : d'.val.Rooted := by
  obtain ⟨p, hp, -, -, -, e, he, -, -, hentities, hproposals, hedges⟩ := revert_eq_ok h
  have hown : (d.val.entityOf p.subjectId p.merged).isSome := by
    have := hr.proposals p hp
    unfold MergeProposal.merged
    split
    · exact this.2
    · exact this.1
  obtain ⟨hout, hat, hsame⟩ := entityOf_updated (f := fun e => { e with
      status := .active, mergedInto := none, updatedAt := some m.now })
    (fun _ => rfl) (fun _ => rfl) hown d.property
  have hrow : ∀ s i, d'.val.entityOf s i = (d.val.updateEntities (·.id = p.merged) fun e =>
      { e with status := .active, mergedInto := none, updatedAt := some m.now }).entityOf s i :=
    fun s i => entityOf_congr hentities
  -- what the proposal merged is active again
  have hactive : d'.val.IsActive p.subjectId p.merged := by
    obtain ⟨e, he⟩ := Option.isSome_iff_exists.mp hown
    exact ⟨_, by rw [hrow, hat, he]; rfl, rfl⟩
  refine hr.of_forest ?_ ?_ ?_ ?_ ?_
  · exact hr.forest.of_row _ _ (fun s i hne => (hrow s i).trans (hout s i hne))
      (fun _ _ _ => .root_of hactive) fun _ _ _ => .root_of hactive
  · intro s i hsome
    rw [hrow, hsame]
    exact hsome
  · intro s i hsome
    rw [hrow, hsame] at hsome
    exact .inr hsome
  · intro p' hp'
    rw [hproposals] at hp'
    exact mem_updateProposals hp' fun _ => ⟨rfl, rfl, rfl⟩
  · intro e he
    rw [hedges] at he
    exact ⟨e, he, rfl⟩

/-! ## Repairs -/

variable {c : Commit} {g : Entity → Entity} {ga : Alias → Alias} {gd : Edge → Edge}

/-- No entity changes its subject. -/
theorem Commit.Changes.entity_subject (hc : c.Changes g ga gd) (e : Entity) :
    (g e).subjectId = e.subjectId := by
  have h := congrArg Entity.subjectId (hc.entity_back e)
  exact h

/-- No edge changes its version. -/
theorem Commit.Changes.edge_version (hc : c.Changes g ga gd) (e : Edge) :
    (gd e).extractorVersion = e.extractorVersion := by
  have h := congrArg Edge.extractorVersion (hc.edge_back e)
  exact h

/-- The rows of a repair that is no split. -/
theorem entityOf_rewritten (hc : c.Changes g ga gd) :
    (t.rewritten g ga gd).entityOf s i = (t.entityOf s i).map g := by
  rw [← entityOf_map (fun e _ => hc.entity_id e) (fun e _ => hc.entity_subject e)]
  exact entityOf_congr rfl

/-- A rewriting that keeps the forest keeps what it rests on. -/
theorem rooted_rewritten (hr : t.Rooted) (hc : c.Changes g ga gd)
    (hforest : (t.rewritten g ga gd).Forest) : (t.rewritten g ga gd).Rooted := by
  refine hr.of_forest hforest ?_ ?_ ?_ ?_
  · intro s i hsome
    rw [entityOf_rewritten hc, Option.isSome_map]
    exact hsome
  · intro s i hsome
    rw [entityOf_rewritten hc, Option.isSome_map] at hsome
    exact .inr hsome
  · exact fun p hp => ⟨p, hp, rfl, rfl, rfl⟩
  · intro e he
    obtain ⟨e₀, he₀, rfl⟩ := List.mem_map.mp he
    exact ⟨e₀, he₀, hc.edge_version e₀⟩

/-- A renaming keeps the forest. -/
theorem forest_renamed {normalize : String → String} {id : String} (hr : t.Rooted)
    (hid : id ∈ c.preview.entityIds) :
    (t.rewritten (c.renames normalize id) (fun a => a) fun e => e).Forest := by
  refine hr.forest.of_same fun s i => ?_
  rw [entityOf_rewritten (Commit.changes_rename hid), Option.map_map]
  congr 1
  funext e
  show (_, _) = _
  unfold Commit.renames
  split <;> rfl

/-- **A deletion keeps the forest** where nothing points at the entity. -/
theorem forest_deleted {id : String} (hr : t.Rooted) (hid : id ∈ c.preview.entityIds)
    (hpointed : ∀ i, t.pointerOf c.preview.subjectId i ≠ some id) :
    (t.rewritten (c.deleting id) (c.deletingAlias id) (c.deletingEdge id)).Forest := by
  refine Tables.Forest.of_row hr.forest c.preview.subjectId id ?_ ?_ ?_
  · intro s i hne
    rw [entityOf_rewritten (Commit.changes_delete hid)]
    rcases he : t.entityOf s i with - | e
    · rfl
    · obtain ⟨-, rfl, rfl⟩ := entityOf_eq_some he
      rw [Option.map_some]
      congr 1
      unfold Commit.deleting
      exact if_neg fun h => hne (Commit.names_iff.mp h)
  · exact fun i _ h => absurd h (hpointed i)
  · intro e' he' hm
    rw [entityOf_rewritten (Commit.changes_delete hid)] at he'
    obtain ⟨e, he, rfl⟩ := Option.map_eq_some_iff.mp he'
    obtain ⟨-, hi, hs⟩ := entityOf_eq_some he
    unfold Commit.deleting at hm
    rw [if_pos (Commit.names_iff.mpr ⟨hs, hi⟩)] at hm
    cases hm

/-- **A merge keeps the forest** where the target leads to an active entity past
none of the sources. -/
theorem forest_merged {target : String} {sources : List String} (hr : t.Rooted)
    (hsources : ∀ id ∈ sources, id ∈ c.preview.entityIds)
    (htarget : (∃ e ∈ t.entities, e.subjectId = c.preview.subjectId ∧ e.id ∈ sources) →
      Pointers.LeadsAround (t.pointerOf c.preview.subjectId) (t.IsActive c.preview.subjectId)
        (· ∈ sources) target) :
    (t.rewritten (c.merging target sources) (c.mergingAlias sources) fun e => e).Forest := by
  have hrow : ∀ s i, (t.rewritten (c.merging target sources) (c.mergingAlias sources)
      fun e => e).entityOf s i = (t.entityOf s i).map (c.merging target sources) :=
    fun s i => entityOf_rewritten (Commit.changes_merge hsources)
  have hout : ∀ s i, ¬ (s = c.preview.subjectId ∧ i ∈ sources) →
      (t.rewritten (c.merging target sources) (c.mergingAlias sources) fun e => e).entityOf s i =
        t.entityOf s i := by
    intro s i hne
    rw [hrow]
    rcases he : t.entityOf s i with - | e
    · rfl
    · obtain ⟨-, rfl, rfl⟩ := entityOf_eq_some he
      rw [Option.map_some]
      congr 1
      exact if_neg hne
  -- a source that is there leads to the target, and past the sources to its root
  have hsource : ∀ i, i ∈ sources → (t.entityOf c.preview.subjectId i).isSome →
      (t.rewritten (c.merging target sources) (c.mergingAlias sources) fun e => e).Leads
        c.preview.subjectId i := by
    intro i hi hsome
    obtain ⟨e, he⟩ := Option.isSome_iff_exists.mp hsome
    obtain ⟨hmem, rfl, hs⟩ := entityOf_eq_some he
    have hleads := htarget ⟨e, hmem, hs, hi⟩
    have hrowTarget : (t.entityOf c.preview.subjectId target).isSome := by
      cases hleads with
      | root hx _ =>
        obtain ⟨e', he', -⟩ := hx
        rw [he']
        rfl
      | next hx _ _ =>
        obtain ⟨e', he', -⟩ := pointerOf_eq_some hx
        rw [he']
        rfl
    obtain ⟨w, hw⟩ := Option.isSome_iff_exists.mp hrowTarget
    have hne : target ≠ "" := hr.ids _ _ w hw
    refine .next_of (y := target) ?_ (hleads.leads ?_ ?_)
    · unfold Tables.pointerOf
      rw [hrow, he, Option.map_some, Option.bind_some]
      unfold Commit.merging
      rw [if_pos ⟨hs, hi⟩]
      simp [Entity.pointer, truthy, hne]
    · intro x y hx hxy
      unfold Tables.pointerOf at hxy ⊢
      rw [hout _ _ fun h => hx h.2]
      exact hxy
    · rintro x hx ⟨e', he', hactive⟩
      exact ⟨e', (hout _ _ fun h => hx h.2).trans he', hactive⟩
  refine hr.forest.of_rows (fun s i => s = c.preview.subjectId ∧ i ∈ sources) ?_ ?_ ?_ ?_
  · intro s i e hS he
    exact ⟨e, (hout s i hS).trans he, rfl, id⟩
  · intro s i e' hS he' hm
    exact ⟨e', (hout s i hS).symm.trans he', hm⟩
  · rintro s i j _ hij ⟨rfl, hj⟩
    obtain ⟨e, he, -⟩ := (hr.forest.pointed hij).exists_row
    exact hsource j hj (by rw [he]; rfl)
  · rintro s i e' ⟨rfl, hi⟩ he' _
    rw [hrow] at he'
    obtain ⟨e, he, -⟩ := Option.map_eq_some_iff.mp he'
    exact hsource i hi (by rw [he]; rfl)

/-- The entity a split makes has an identifier. -/
theorem newId_ne_empty : c.newId ≠ "" := by
  intro h
  have := congrArg String.length h
  simp [Commit.newId] at this

/-- **A repair keeps the forest**, where what it points at leads to an active
entity, and nothing points at what it deletes. -/
theorem rooted_commit {normalize : String → String} {r : Receipt} (hr : d.val.Rooted)
    (h : commit normalize c d = (.ok r, d'))
    (hdelete : c.preview.action = "delete" → ∀ id ∈ c.preview.entityIds.head?,
      ∀ i, d.val.pointerOf c.preview.subjectId i ≠ some id)
    (hmerge : c.preview.action = "merge" ∨ c.preview.action = "supersede" →
      ∀ target ∈ c.preview.entityIds.head?, (∃ e ∈ d.val.entities,
        e.subjectId = c.preview.subjectId ∧ e.id ∈ c.preview.entityIds.tail) →
        Pointers.LeadsAround (d.val.pointerOf c.preview.subjectId)
          (d.val.IsActive c.preview.subjectId) (· ∈ c.preview.entityIds.tail) target) :
    d'.val.Rooted := by
  obtain ⟨-, created, d₁, hact, hrecord, -⟩ :=
    Commit.statements_eq_ok.mp (transaction_eq_ok.mp h)
  -- the action keeps the forest; the record of it touches no entity
  have hrooted : d₁.val.Rooted := by
    unfold Commit.act at hact
    split at hact
    · obtain ⟨-, id, hid, hrows⟩ := Commit.rename_eq_ok.mp hact
      rw [hrows]
      have hmem := List.mem_of_mem_head? hid
      exact rooted_rewritten hr (Commit.changes_rename hmem) (forest_renamed hr hmem)
    · split at hact
      · rename_i haction
        obtain ⟨-, id, hid, hrows⟩ := Commit.delete_eq_ok.mp hact
        rw [hrows]
        have hmem := List.mem_of_mem_head? hid
        exact rooted_rewritten hr (Commit.changes_delete hmem)
          (forest_deleted hr hmem (hdelete haction id hid))
      · split at hact
        · rename_i haction
          obtain ⟨-, target, hid, -, hrows⟩ := Commit.merge_eq_ok.mp hact
          rw [hrows]
          have hmem : ∀ id ∈ c.preview.entityIds.tail, id ∈ c.preview.entityIds :=
            fun id hid => List.mem_of_mem_tail hid
          exact rooted_rewritten hr (Commit.changes_merge hmem)
            (forest_merged hr hmem (hmerge haction target hid))
        · split at hact
          · obtain ⟨-, id, a, -, -, -, -, hrows⟩ := Commit.split_eq_ok.mp hact
            rw [hrows]
            have hinsert := Tables.Revives.insertEntity (e := c.splitEntity normalize a) d.val
              (.inl rfl) newId_ne_empty
            exact (hinsert.trans _ _ _ (Tables.Revives.aliases _ _)).rooted hr
          · obtain ⟨-, rfl⟩ := pure_eq_ok.mp hact
            exact hr
  obtain ⟨-, hrows⟩ := Commit.record_eq_ok.mp hrecord
  rw [hrows]
  refine Tables.Revives.rooted (t := d₁.val) ?_ hrooted
  exact Tables.Revives.of_entities rfl rfl fun e he => .inr ⟨e, he, rfl⟩

/-! ## Rollbacks -/

/-- The entities as a rollback leaves them. -/
def Mutation.entitiesBack (m : Mutation) (t : Tables) : List Entity :=
  (t.entities.filter fun e => e.id ∉ m.createdEntityIds).map
    (writtenBack Entity.id Entity.restore m.before.entities)

/-- The tables with the entities as a rollback leaves them. -/
def Mutation.back (m : Mutation) (t : Tables) : Tables := { t with entities := m.entitiesBack t }

/-- What the rollback of the rows leaves. -/
theorem restoreRows_eq {m : Mutation} {u : Unit} (h : restoreRows m d = .ok (u, d')) :
    d'.val.entities = m.entitiesBack d.val ∧ d'.val.proposals = d.val.proposals ∧
      d'.val.edges = d.val.edges.map (writtenBack Edge.id Edge.restore m.before.edges) := by
  unfold restoreRows at h
  obtain ⟨u₁, d₁, h₁, h₂⟩ := bind_eq_ok.mp h
  obtain ⟨u₂, d₂, h₃, h₄⟩ := bind_eq_ok.mp h₂
  obtain ⟨u₃, d₃, h₅, h₆⟩ := bind_eq_ok.mp h₄
  have hcreated := (forM_execute_eq_ok.mp h₁).2
  have hentities := (forM_execute_eq_ok.mp h₃).2
  have haliases := (forM_execute_eq_ok.mp h₅).2
  have hedges := (forM_execute_eq_ok.mp h₆).2
  rw [foldl_restoreEntities] at hentities
  rw [foldl_restoreAliases] at haliases
  rw [foldl_restoreEdges] at hedges
  -- one deletion after the other deletes all
  have hdeleted : ∀ (ids : List String) (t : Tables), ids.foldl (fun t id => { t with
      entities := t.entities.filter fun e => !decide (e.id = id) }) t =
        { t with entities := t.entities.filter fun e => e.id ∉ ids } := by
    intro ids
    induction ids with
    | nil => simp
    | cons id ids ih =>
      intro t
      rw [List.foldl_cons, ih]
      simp only [List.filter_filter]
      congr 1
      refine List.filter_congr fun e _ => ?_
      by_cases hid : e.id = id
      · simp [hid]
      · simp [hid]
  rw [hdeleted] at hcreated
  refine ⟨?_, ?_, ?_⟩
  · rw [hedges, haliases, hentities, hcreated]
    rfl
  · rw [hedges, haliases, hentities, hcreated]
  · rw [hedges, haliases, hentities, hcreated]

/-- Writing back keeps identifiers, and other rows. -/
theorem writtenBack_entity (saved : List Entity) (e : Entity) :
    (writtenBack Entity.id Entity.restore saved e).id = e.id ∧
      (writtenBack Entity.id Entity.restore saved e).subjectId = e.subjectId ∧
      (e.id ∉ saved.map (·.id) → writtenBack Entity.id Entity.restore saved e = e) := by
  induction saved generalizing e with
  | nil => exact ⟨rfl, rfl, fun _ => rfl⟩
  | cons x saved ih =>
    show (writtenBack Entity.id Entity.restore saved
      (if e.id = x.id then Entity.restore x e else e)).id = e.id ∧ _
    obtain ⟨hid, hsubject, hsame⟩ := ih (if e.id = x.id then Entity.restore x e else e)
    refine ⟨hid.trans (by split <;> rfl), hsubject.trans (by split <;> rfl), fun hnot => ?_⟩
    rw [List.map_cons, List.mem_cons, not_or] at hnot
    rw [if_neg hnot.1] at hsame
    show writtenBack Entity.id Entity.restore saved
      (if e.id = x.id then Entity.restore x e else e) = e
    rw [if_neg hnot.1]
    exact hsame hnot.2

/-- And the versions. -/
theorem writtenBack_edge_version (saved : List Edge) (e : Edge) :
    (writtenBack Edge.id Edge.restore saved e).extractorVersion = e.extractorVersion := by
  induction saved generalizing e with
  | nil => rfl
  | cons x saved ih =>
    refine (ih (if e.id = x.id then Edge.restore x e else e)).trans ?_
    split <;> rfl

/-- The rows after a rollback. -/
theorem entityOf_back {m : Mutation} :
    (m.back t).entityOf s i = if i ∈ m.createdEntityIds then none
      else (t.entityOf s i).map (writtenBack Entity.id Entity.restore m.before.entities) := by
  have hmap : (m.back t).entityOf s i = (({ t with
      entities := t.entities.filter fun e => e.id ∉ m.createdEntityIds } : Tables).entityOf
        s i).map (writtenBack Entity.id Entity.restore m.before.entities) := by
    rw [← entityOf_map (fun e _ => (writtenBack_entity _ e).1)
      fun e _ => (writtenBack_entity _ e).2.1]
    rfl
  rw [hmap]
  unfold Tables.entityOf
  rw [List.find?_filter]
  split
  · rename_i hi
    rw [List.find?_eq_none.mpr]
    · rfl
    · intro e _ h
      simp only [Bool.and_eq_true, decide_eq_true_eq] at h
      exact h.1 (h.2.1 ▸ hi)
  · rename_i hi
    congr 1
    refine List.find?_congr fun e _ => ?_
    by_cases hid : e.id = i
    · simp [hid, hi]
    · simp [hid]

/-- **A rollback keeps the forest** where the rows it restores as merged lead to
an active entity, and no other points at one it restores as out of use. -/
theorem rooted_rollback {mutationId now : String} {r : Receipt} (hr : d.val.Rooted)
    (h : rollback mutationId now d = (.ok r, d'))
    (hback : ∀ m, d.val.mutations.find? (fun r => r.mutationId = mutationId) = some m →
      (∀ s i e, i ∈ m.before.entities.map (·.id) → (m.back d.val).entityOf s i = some e →
        e.status = .merged → (m.back d.val).Leads s i) ∧
      ∀ s i j e, i ∉ m.before.entities.map (·.id) → d.val.pointerOf s i = some j →
        (m.back d.val).entityOf s j = some e → e.status = .active ∨ e.status = .merged) :
    d'.val.Rooted := by
  obtain ⟨m, d₁, hfound, hrestored, hrows⟩ := restored_of_rollback h
  obtain ⟨hmerged, hpointed⟩ := hback m hfound
  obtain ⟨hentities, hproposals, hedges⟩ := restoreRows_eq hrestored
  have hrow : ∀ s i, d'.val.entityOf s i = (m.back d.val).entityOf s i := fun s i =>
    entityOf_congr (by rw [hrows]; exact hentities)
  have hleads : ∀ s i, (m.back d.val).Leads s i → d'.val.Leads s i := by
    intro s i hi
    refine Pointers.LeadsAround.leads hi (fun x y _ hxy => ?_) fun x _ hx => ?_
    · unfold Tables.pointerOf at hxy ⊢
      rw [hrow]
      exact hxy
    · obtain ⟨e, he, hactive⟩ := hx
      exact ⟨e, (hrow s x).trans he, hactive⟩
  -- a row that something still refers to was not created by the mutation
  have hcreated : ∀ x ∈ d'.val.entities.map (·.id), x ∉ m.createdEntityIds := by
    intro x hx
    rw [hrows] at hx
    obtain ⟨e, he, rfl⟩ := List.mem_map.mp hx
    replace he : e ∈ d₁.val.entities := he
    rw [hentities] at he
    obtain ⟨e₀, he₀, rfl⟩ := List.mem_map.mp he
    rw [(writtenBack_entity _ e₀).1]
    simpa using (List.mem_filter.mp he₀).2
  have hkept : ∀ s i e, d.val.entityOf s i = some e → i ∉ m.createdEntityIds →
      d'.val.entityOf s i = some (writtenBack Entity.id Entity.restore m.before.entities e) := by
    intro s i e he hi
    rw [hrow, entityOf_back, if_neg hi, he]
    rfl
  have hsame : ∀ s i e, ¬ (i ∈ m.before.entities.map (·.id) ∨ i ∈ m.createdEntityIds) →
      d.val.entityOf s i = some e → d'.val.entityOf s i = some e := by
    intro s i e hS he
    rw [not_or] at hS
    rw [hkept s i e he hS.2]
    have hid := (entityOf_eq_some he).2.1
    rw [(writtenBack_entity _ e).2.2 (hid ▸ hS.1)]
  have hfrom : ∀ s i e', d'.val.entityOf s i = some e' → i ∉ m.createdEntityIds ∧
      ∃ e, d.val.entityOf s i = some e := by
    intro s i e' he'
    rw [hrow, entityOf_back] at he'
    split at he'
    · cases he'
    · rename_i hi
      obtain ⟨e, he, -⟩ := Option.map_eq_some_iff.mp he'
      exact ⟨hi, e, he⟩
  refine ⟨?_, ?_, ?_, ?_⟩
  · refine hr.forest.of_rows
      (fun _ i => i ∈ m.before.entities.map (·.id) ∨ i ∈ m.createdEntityIds) ?_ ?_ ?_ ?_
    · exact fun s i e hS he => ⟨e, hsame s i e hS he, rfl, id⟩
    · intro s i e' hS he' hm
      obtain ⟨-, e, he⟩ := hfrom s i e' he'
      obtain rfl := Option.some.inj ((hsame s i e hS he).symm.trans he')
      exact ⟨e, he, hm⟩
    · intro s i j hS hij hchanged
      obtain ⟨e, he, hpointer⟩ := pointerOf_eq_some hij
      have hmem := (entityOf_eq_some (hsame s i e hS he)).1
      have hj := hcreated j (d'.property.mergedInto e hmem j (pointer_eq_some hpointer).2)
      obtain ⟨e₁, he₁, -⟩ := (hr.forest.pointed hij).exists_row
      have he₂ := hkept s j e₁ he₁ hj
      have hsaved := hchanged.resolve_right hj
      rw [not_or] at hS
      rcases hpointed s i j _ hS.1 hij ((hrow s j).symm.trans he₂) with hactive | hmerged₂
      · exact .root_of ⟨_, he₂, hactive⟩
      · exact hleads s j (hmerged s j _ hsaved ((hrow s j).symm.trans he₂) hmerged₂)
    · intro s i e' hS he' hm
      rcases hS with hsaved | hnew
      · exact hleads s i (hmerged s i e' hsaved ((hrow s i).symm.trans he') hm)
      · exact absurd hnew (hfrom s i e' he').1
  · intro s i e' he'
    obtain ⟨-, e, he⟩ := hfrom s i e' he'
    exact hr.ids s i e he
  · intro p hp
    rw [hrows] at hp
    replace hp : p ∈ d₁.val.proposals := hp
    have hsome : ∀ x, (d.val.entityOf p.subjectId x).isSome →
        x ∈ d'.val.entities.map (·.id) → (d'.val.entityOf p.subjectId x).isSome := by
      intro x hx hmem
      obtain ⟨e, he⟩ := Option.isSome_iff_exists.mp hx
      rw [hkept _ _ e he (hcreated x hmem)]
      rfl
    have hids := d'.property.proposalEntities p (by rw [hrows]; exact hp)
    rw [hproposals] at hp
    exact ⟨hsome _ (hr.proposals p hp).1 hids.1, hsome _ (hr.proposals p hp).2 hids.2.1⟩
  · intro e he
    rw [hrows] at he
    replace he : e ∈ d₁.val.edges := he
    rw [hedges] at he
    obtain ⟨e₀, he₀, rfl⟩ := List.mem_map.mp he
    rw [writtenBack_edge_version]
    exact hr.versions e₀ he₀

end Atmem.Graph
