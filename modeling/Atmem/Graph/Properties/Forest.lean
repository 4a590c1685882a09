import Atmem.Graph.Helpers.Merges
import Atmem.Graph.Properties.Repairs
/-!
# Merged entities and their roots

A repair that deletes an entity, or merges one away, does not look at what
points at it; nor does a tombstone or a rollback look at what it takes out of
use. Where these are of entities that nothing else leads through, every merged
entity leads to an active one and the families are a partition.
-/

namespace Atmem.Graph

open Relational Statement

/-! ## What is said of the pointers -/

/-- An entity that is active or merged. -/
def Tables.InUse (t : Tables) (s i : String) : Prop :=
  ∃ e, t.entityOf s i = some e ∧ (e.status = .active ∨ e.status = .merged)

/-- The pointers form a forest, whose roots are active: from a merged entity
they reach one without repetition, and each family is that of its members. -/
structure Tables.LiveRoots (t : Tables) : Prop where
  reaches : ∀ s i e, t.entityOf s i = some e → e.status = .merged →
    ∃ (path : List String) (r : String), (path ++ [r]).head? = some i ∧ (path ++ [r]).Nodup ∧
      (path ++ [r]).IsChain (fun x y => t.pointerOf s x = some y) ∧ t.IsActive s r
  own : ∀ s i, t.InUse s i → i ∈ entityFamily t s i
  members : ∀ s i, t.InUse s i → ∀ j ∈ entityFamily t s i, t.InUse s j
  same : ∀ s i, t.InUse s i → ∀ j ∈ entityFamily t s i, entityFamily t s j = entityFamily t s i

/-! ## What is read of a forest -/

section Read

variable {t : Tables} {s i j r : String} {n : ℕ}

/-- The way from an entity to its root. -/
abbrev Tables.Way (t : Tables) (s i : String) (n : ℕ) (r : String) : Prop :=
  Pointers.Way (t.pointerOf s) (t.IsActive s) i n r

/-- From every entity in use there is a way to a root. -/
theorem Tables.Rooted.exists_way (hr : t.Rooted) (hi : t.InUse s i) : ∃ n r, t.Way s i n r := by
  obtain ⟨e, he, hactive | hmerged⟩ := hi
  · exact ⟨0, i, .here ⟨e, he, hactive⟩⟩
  · exact (hr.forest s i e he hmerged).exists_way

/-- **`_canonical_entity` finds the root.** -/
theorem canonicalEntity_eq (hway : t.Way s i n r) : canonicalEntity t s i = r := by
  have hend : ∀ x, t.IsActive s x → t.pointerOf s x = none := fun _ => pointerOf_of_isActive
  have hlength : n ≤ (t.entities.map (·.id)).length := by
    refine hway.length_le hend fun x hx => ?_
    obtain ⟨y, hy⟩ := Option.isSome_iff_exists.mp hx
    obtain ⟨e, he, -⟩ := pointerOf_eq_some hy
    obtain ⟨hmem, rfl, -⟩ := entityOf_eq_some he
    exact List.mem_map_of_mem hmem
  rw [List.length_map] at hlength
  exact Pointers.chase_eq hend hway (by omega) (by simp)

/-- What `_entity_family` reads as merged into an entity points at it. -/
theorem mem_mergedUnder (ht : Tables.Sound t) (hr : t.Rooted) :
    j ∈ t.mergedUnder s i ↔ t.pointerOf s j = some i := by
  unfold Tables.mergedUnder
  simp only [List.mem_map, List.mem_filter, Bool.and_eq_true, decide_eq_true_eq]
  constructor
  · rintro ⟨e, ⟨hmem, ⟨rfl, hmerged⟩, hinto⟩, rfl⟩
    have hrow := ht.entityOf hmem
    -- an identifier is not empty, so what is written there is followed
    have hne : i ≠ "" := by
      obtain ⟨x, hx, rfl⟩ := List.mem_map.mp (ht.mergedInto e hmem i hinto)
      exact hr.ids _ _ x (ht.entityOf hx)
    unfold Tables.pointerOf
    rw [hrow]
    simp [Entity.pointer, hmerged, hinto, truthy, hne]
  · intro h
    obtain ⟨e, he, hpointer⟩ := pointerOf_eq_some h
    obtain ⟨hmem, hid, hs⟩ := entityOf_eq_some he
    obtain ⟨hmerged, hinto⟩ := pointer_eq_some hpointer
    exact ⟨e, ⟨hmem, ⟨hs, hmerged⟩, hinto⟩, hid⟩

/-- **`_entity_family` is what leads to the root.** -/
theorem mem_entityFamily (ht : Tables.Sound t) (hr : t.Rooted) (hway : t.Way s i n r) :
    j ∈ entityFamily t s i ↔ ∃ m, t.Way s j m r := by
  have hchildren : ∀ y, ∀ z ∈ t.mergedUnder s y, z ∈ t.entities.map (·.id) := by
    intro y z hz
    obtain ⟨e, he, rfl⟩ := List.mem_map.mp hz
    exact List.mem_map_of_mem (List.mem_filter.mp he).1
  unfold entityFamily
  rw [canonicalEntity_eq hway, List.mem_insertionSort,
    Pointers.mem_reach (t.entities.map (·.id)) (x := r) _ _ _ (List.nodup_singleton r)
      List.mem_cons_self (List.Subset.refl _) (by simpa using Relation.ReflTransGen.refl)
      (fun y hy hnot => absurd hy hnot) hchildren (by simp) (by simp)]
  constructor
  · exact Pointers.way_of_reached (fun a b h => (mem_mergedUnder ht hr).mp h) hway.root_of
  · rintro ⟨m, hw⟩
    exact Pointers.reached_of_way (fun a b h => (mem_mergedUnder ht hr).mpr h) hw

/-- **What is read of a forest.** -/
theorem Tables.Rooted.liveRoots (ht : Tables.Sound t) (hr : t.Rooted) : t.LiveRoots where
  reaches s i e he hmerged := by
    obtain ⟨n, r, hway⟩ := hr.exists_way ⟨e, he, .inr hmerged⟩
    obtain ⟨path, -, hhead, hnodup, hchain, -⟩ :=
      hway.exists_path fun _ => pointerOf_of_isActive
    exact ⟨path, r, hhead, hnodup, hchain, hway.root_of⟩
  own s i hi := by
    obtain ⟨n, r, hway⟩ := hr.exists_way hi
    exact (mem_entityFamily ht hr hway).mpr ⟨n, hway⟩
  members s i hi j hj := by
    obtain ⟨n, r, hway⟩ := hr.exists_way hi
    obtain ⟨m, hw⟩ := (mem_entityFamily ht hr hway).mp hj
    exact Tables.Leads.exists_row hw.leads
  same s i hi j hj := by
    obtain ⟨n, r, hway⟩ := hr.exists_way hi
    obtain ⟨m, hw⟩ := (mem_entityFamily ht hr hway).mp hj
    unfold entityFamily
    rw [canonicalEntity_eq hway, canonicalEntity_eq hw]

end Read

/-! ## An approval and its reversal -/

section Restored

variable {d d₁ d₂ : Database} {m : MergeDecision} {m' : MergeReversal} {a a' : GraphMutation}

/-- The row of the entity that an approval merges. -/
def MergeDecision.loserRow (m : MergeDecision) (t : Tables) : Option Entity := do
  let p ← t.proposals.find? fun p =>
    p.id = m.proposalId && p.subjectId = m.subjectId && p.status = .pending
  let loser ← m.loser p
  t.entity? loser

/-- The entity that is restored is the one that was merged. -/
theorem merged_of_loser {p p' : MergeProposal} {loser : String} (hloser : m.loser p = some loser)
    (hwinner : m.winner p ∈ [p.leftEntity, p.rightEntity]) (hleft : p'.leftEntity = p.leftEntity)
    (hright : p'.rightEntity = p.rightEntity) (hp' : p'.winnerEntity = some (m.winner p)) :
    p'.merged = loser := by
  obtain ⟨hmem, hne⟩ := loser_spec hloser
  unfold MergeProposal.merged
  rw [hp', hleft, hright]
  by_cases h : p.leftEntity = m.winner p
  · rw [if_pos (by rw [h])]
    rcases List.mem_cons.mp hmem with h' | h'
    · exact absurd (h'.trans h) hne
    · exact (List.mem_singleton.mp h').symm
  · rw [if_neg fun h' => h (Option.some.inj h')]
    have hw := (List.mem_cons.mp hwinner).resolve_left fun h' => h h'.symm
    rcases List.mem_cons.mp hmem with h' | h'
    · exact h'.symm
    · exact absurd ((List.mem_singleton.mp h').trans (List.mem_singleton.mp hw).symm) hne

/-- **An approval and its reversal restore the entities exactly where** the one
that is merged had no pointer left and is stamped with the time it had. -/
theorem restored_iff (happrove : m.approve = true) (hid : m'.proposalId = m.proposalId)
    (h : m.statements d = .ok (a, d₁)) (h' : m'.statements d₁ = .ok (a', d₂)) :
    d₂.val.entities = d.val.entities ↔ ∀ e, m.loserRow d.val = some e →
      e.mergedInto = none ∧ e.updatedAt = some m'.now := by
  unfold MergeDecision.statements at h
  obtain ⟨found, d₀, hq, h₁⟩ := bind_eq_ok.mp h
  obtain ⟨hfound, rfl⟩ := query_eq_ok.mp hq
  rcases found with - | p
  · exact absurd h₁ throw_ne_ok
  · dsimp only at h₁
    rw [if_pos happrove] at h₁
    obtain ⟨loser, w, l, hwinner, hloser, -, hl, -, hactive, hentities, hproposals, -⟩ :=
      accept_eq_ok h₁
    obtain ⟨p', hp', hp'id, -, -, e', he', hmerged, -, hentities', -, -⟩ := revert_eq_ok h'
    have hpid : p.id = m.proposalId := by
      have := List.find?_some hfound
      simp only [Bool.and_eq_true, decide_eq_true_eq] at this
      exact this.1.1
    -- the proposal that is reverted is the one that was approved
    have hsame : p' = { p with status := .approved, winnerEntity := some (m.winner p),
                               decidedAt := some m.now, decidedBy := some m.actor } := by
      rw [hproposals] at hp'
      obtain ⟨r, hr, hrow⟩ := List.mem_map.mp hp'
      have hrid : r.id = m.proposalId := by
        rw [← hid, ← hp'id, ← hrow]
        split <;> rfl
      have hrp : r = p := List.inj_on_of_nodup_map d.property.proposalIds hr
        (List.mem_of_find?_eq_some hfound) (hrid.trans hpid.symm)
      rw [← hrow, hrp, if_pos (by simpa using hpid)]
    have hback : p'.merged = loser :=
      merged_of_loser hloser hwinner (by rw [hsame]) (by rw [hsame]) (by rw [hsame])
    have hloserRow : m.loserRow d.val = some l := by
      unfold MergeDecision.loserRow
      rw [hfound]
      show (m.loser p).bind _ = _
      rw [hloser]
      exact hl
    obtain ⟨hmem, hlid⟩ := entity?_eq_some hl
    have hrows : d₂.val.entities = d.val.entities.map fun e => if e.id = loser
        then { e with status := .active, mergedInto := none, updatedAt := some m'.now } else e := by
      rw [hentities', hback]
      show d₁.val.entities.map _ = _
      rw [hentities]
      show (d.val.entities.map _).map _ = _
      rw [List.map_map]
      refine List.map_congr_left fun e _ => ?_
      by_cases he : e.id = loser
      · simp [he]
      · simp [he]
    have hself : ∀ f : Entity → Entity,
        d.val.entities.map f = d.val.entities ↔ ∀ e ∈ d.val.entities, f e = e := fun f => by
      simpa using List.map_inj_left (l := d.val.entities) (f := f) (g := id)
    rw [hloserRow, hrows, hself]
    constructor
    · intro heq e he
      obtain rfl := Option.some.inj he
      have := heq l hmem
      rw [if_pos hlid] at this
      have hinto := congrArg Entity.mergedInto this
      have hupdated := congrArg Entity.updatedAt this
      exact ⟨hinto.symm, hupdated.symm⟩
    · intro hl
      obtain ⟨hinto, hupdated⟩ := hl l rfl
      intro e he
      split
      · rename_i heid
        obtain rfl := d.property.entity_eq he hmem (heid.trans hlid.symm)
        rw [← hactive, ← hinto, ← hupdated]
      · rfl

end Restored

/-! ## Runs -/

section Runs

variable (E : Engine)

/-- A call takes nothing out of use that another entity leads through, and
points no entity at one that leads back to it or to nothing. -/
def GraphCall.Orderly (d : Database) : GraphCall → Prop
  | .tombstone subjectId ids _ => ∀ i j e e', d.val.entityOf subjectId i = some e →
      e.pointer = some j → d.val.entityOf subjectId j = some e' →
        d.val.Purges subjectId ids e' → d.val.Purges subjectId ids e
  | .commit c => c.GoesThrough E.normalize d.val →
      (c.preview.action = "delete" → ∀ id ∈ c.preview.entityIds.head?,
        ∀ i, d.val.pointerOf c.preview.subjectId i ≠ some id) ∧
      (c.preview.action = "merge" ∨ c.preview.action = "supersede" →
        ∀ target ∈ c.preview.entityIds.head?, (∃ e ∈ d.val.entities,
          e.subjectId = c.preview.subjectId ∧ e.id ∈ c.preview.entityIds.tail) →
          Pointers.LeadsAround (d.val.pointerOf c.preview.subjectId)
            (d.val.IsActive c.preview.subjectId) (· ∈ c.preview.entityIds.tail) target)
  | .rollback mutationId _ =>
      ∀ m, d.val.mutations.find? (fun r => r.mutationId = mutationId) = some m →
        (∀ s i e, i ∈ m.before.entities.map (·.id) → (m.back d.val).entityOf s i = some e →
          e.status = .merged → (m.back d.val).Leads s i) ∧
        ∀ s i j e, i ∉ m.before.entities.map (·.id) → d.val.pointerOf s i = some j →
          (m.back d.val).entityOf s j = some e → e.status = .active ∨ e.status = .merged
  | _ => True

variable {E} {d : Database}

/-- A call that raises leaves the tables as they were. -/
theorem rooted_transaction {α : Type} {x : Sql α} (hr : d.val.Rooted)
    (h : ∀ a d', x d = .ok (a, d') → d'.val.Rooted) : (x.transaction d).2.val.Rooted := by
  rcases hx : x.transaction d with ⟨e | a, d'⟩
  · have hsame := transaction_error (x := x) (d := d) (e := e) (congrArg Prod.fst hx)
    rw [hx] at hsame
    rw [show d' = d from hsame]
    exact hr
  · exact h a d' (transaction_eq_ok.mp hx)

/-- **An orderly call keeps what holds of the graph.** -/
theorem rooted_leaves {call : GraphCall} (hr : d.val.Rooted) (h : call.Orderly E d) :
    (call.leaves E d).val.Rooted := by
  cases call with
  | index r now =>
    exact ((revives_indexRecord hr.versions).transaction Tables.Revives.refl).rooted hr
  | supersede subjectId ids by_ now =>
    exact ((revives_supersedeRecords d).transaction Tables.Revives.refl).rooted hr
  | tombstone subjectId ids now =>
    exact rooted_transaction hr fun a d' hx => rooted_tombstone hr hx h
  | propose subjectId => exact rooted_transaction hr fun a d' hx => rooted_propose hr hx
  | decide m => exact rooted_transaction hr fun a d' hx => rooted_decide hr hx
  | revert m => exact rooted_transaction hr fun a d' hx => rooted_revert hr hx
  | commit c =>
    refine rooted_transaction hr fun r d' hx => ?_
    have hcommit : commit E.normalize c d = (.ok r, d') := transaction_eq_ok.mpr hx
    obtain ⟨hdelete, hmerge⟩ := h (commit_ok_iff.mp ⟨r, d', hcommit⟩)
    exact rooted_commit hr hcommit hdelete hmerge
  | rollback mutationId now =>
    exact rooted_transaction hr fun r d' hx =>
      rooted_rollback hr (transaction_eq_ok.mpr hx : rollback mutationId now d = (.ok r, d')) h

/-- The tables after calls of the graph. -/
def afterGraphCalls (E : Engine) (calls : List GraphCall) (d : Database) : Database :=
  calls.foldl (fun d call => call.leaves E d) d

/-- What holds of the graph holds along a run of orderly calls. -/
theorem rooted_afterGraphCalls {calls : List GraphCall} (hr : d.val.Rooted)
    (horderly : ∀ before call after, calls = before ++ call :: after →
      call.Orderly E (afterGraphCalls E before d)) : (afterGraphCalls E calls d).val.Rooted := by
  induction calls generalizing d with
  | nil => exact hr
  | cons call calls ih =>
    refine ih (rooted_leaves hr (horderly [] call calls rfl)) ?_
    intro before call' after hcalls
    exact horderly (call :: before) call' after (by rw [hcalls]; rfl)

/-- An empty database is a forest. -/
theorem rooted_empty : (emptyDatabase.val).Rooted where
  forest := by
    intro s i e he
    cases he
  ids := by
    intro s i e he
    cases he
  proposals := by
    intro p hp
    cases hp
  versions := by
    intro e he
    cases he

/-- **Merged entities lead to active ones along every run** whose calls are
orderly; and an approval and its reversal restore the entities exactly where
the one that is merged had no pointer left and is stamped with the time it
had. -/
theorem merged_entities_lead_to_active_ones (calls : List GraphCall)
    (horderly : ∀ before call after, calls = before ++ call :: after →
      call.Orderly E (afterGraphCalls E before emptyDatabase)) :
    (afterGraphCalls E calls emptyDatabase).val.LiveRoots ∧
    ∀ (m : MergeDecision) (m' : MergeReversal) a a' d₁ d₂, m.approve = true →
      m'.proposalId = m.proposalId →
      m.statements.transaction (afterGraphCalls E calls emptyDatabase) = (.ok a, d₁) →
      m'.statements.transaction d₁ = (.ok a', d₂) →
      (d₂.val.entities = (afterGraphCalls E calls emptyDatabase).val.entities ↔
        ∀ e, m.loserRow (afterGraphCalls E calls emptyDatabase).val = some e →
          e.mergedInto = none ∧ e.updatedAt = some m'.now) := by
  refine ⟨(rooted_afterGraphCalls rooted_empty horderly).liveRoots (Subtype.property _), ?_⟩
  intro m m' a a' d₁ d₂ happrove hid h h'
  exact restored_iff happrove hid (transaction_eq_ok.mp h) (transaction_eq_ok.mp h')

/-- What is asked of each call, call by call. -/
theorem orderly_cons {call : GraphCall} {calls : List GraphCall} (h : call.Orderly E d)
    (hrest : ∀ before call' after, calls = before ++ call' :: after →
      call'.Orderly E (afterGraphCalls E before (call.leaves E d))) :
    ∀ before call' after, call :: calls = before ++ call' :: after →
      call'.Orderly E (afterGraphCalls E before d) := by
  intro before call' after hcalls
  rcases before with - | ⟨first, before⟩
  · obtain ⟨hcall, -⟩ := List.cons.inj hcalls
    rw [← hcall]
    exact h
  · obtain ⟨hcall, hcalls'⟩ := List.cons.inj hcalls
    have := hrest before call' after hcalls'
    rw [hcall] at this
    exact this

end Runs

section Examples

/-- Every record says that its author likes something. -/
def likesEngine : Engine where
  extractGraphFact content := some {
    source := "ada", relation := "likes", relationLabel := "likes", destination := content }
  normalize := id
  partsSha256 parts := "/".intercalate parts
  sha256Hex := id

/-- A record of what the user likes. -/
def likesRecord (id content : String) : GraphRecord where
  id := id
  subjectId := "u"
  content := content
  status := .active
  trustTier := .trustedUser
  createdAt := "2026-01-01T00:00:00Z"

/-- The commit of a repair whose preview saved nothing. -/
def likesCommit (action : String) (entityIds : List String) (mutationHex : String) : Commit where
  preview := {
    subjectId := "u", action := action, entityIds := entityIds,
    before := { entities := [], aliases := [], edges := [] }, previewSha256 := "" }
  confirmSha256 := ""
  actor := "owner"
  reason := "repair"
  mutationHex := mutationHex
  newHex := "1"
  now := "2026-01-02T00:00:00Z"

/-- Two entities are indexed, and one of them is merged into the other. -/
def likesCalls : List GraphCall :=
  [.index (likesRecord "r1" "pat") "", .index (likesRecord "r2" "sam") "",
    .commit (likesCommit "merge" ["ent_u/pat/other", "ent_u/sam/other"] "1")]

/-- The entity of the example is active. -/
theorem pat_isActive : ((GraphCall.index (likesRecord "r2" "sam") "").leaves likesEngine
    ((GraphCall.index (likesRecord "r1" "pat") "").leaves likesEngine
      emptyDatabase)).val.IsActive "u" "ent_u/pat/other" := by
  have hrow : (((GraphCall.index (likesRecord "r2" "sam") "").leaves likesEngine
      ((GraphCall.index (likesRecord "r1" "pat") "").leaves likesEngine
        emptyDatabase)).val.entityOf "u" "ent_u/pat/other").map (·.status) = some .active := by
    decide +kernel
  obtain ⟨e, he, hactive⟩ := Option.map_eq_some_iff.mp hrow
  exact ⟨e, he, hactive⟩

/-- The calls of the example are in order. -/
theorem likesCalls_orderly : ∀ before call after, likesCalls = before ++ call :: after →
    call.Orderly likesEngine (afterGraphCalls likesEngine before emptyDatabase) := by
  refine orderly_cons trivial (orderly_cons trivial (orderly_cons ?_ ?_))
  · intro _
    refine ⟨fun h => absurd h (by decide), fun _ target htarget _ => ?_⟩
    obtain rfl : target = "ent_u/pat/other" := by simpa [likesCommit] using htarget.symm
    exact .root pat_isActive (by decide)
  · intro before call after h
    simp at h

/-- After the merge the one leads to the other. -/
theorem merged_sam_leads_to_pat :
    (afterGraphCalls likesEngine likesCalls emptyDatabase).val.LiveRoots ∧
    ∀ (m : MergeDecision) (m' : MergeReversal) a a' d₁ d₂, m.approve = true →
      m'.proposalId = m.proposalId →
      m.statements.transaction (afterGraphCalls likesEngine likesCalls emptyDatabase) =
        (.ok a, d₁) →
      m'.statements.transaction d₁ = (.ok a', d₂) →
      (d₂.val.entities = (afterGraphCalls likesEngine likesCalls emptyDatabase).val.entities ↔
        ∀ e, m.loserRow (afterGraphCalls likesEngine likesCalls emptyDatabase).val = some e →
          e.mergedInto = none ∧ e.updatedAt = some m'.now) :=
  merged_entities_lead_to_active_ones likesCalls likesCalls_orderly

/-- The entity that the other was merged into is deleted: what is merged leads
to nothing. -/
theorem merged_sam_leads_nowhere : ¬ (afterGraphCalls likesEngine
    (likesCalls ++ [.commit (likesCommit "delete" ["ent_u/pat/other"] "2")])
      emptyDatabase).val.LiveRoots := by
  intro h
  have hsam : ((afterGraphCalls likesEngine
      (likesCalls ++ [.commit (likesCommit "delete" ["ent_u/pat/other"] "2")])
        emptyDatabase).val.entityOf "u" "ent_u/sam/other").map
          (fun e => (e.status, e.mergedInto)) = some (.merged, some "ent_u/pat/other") := by
    decide +kernel
  have hpat : ((afterGraphCalls likesEngine
      (likesCalls ++ [.commit (likesCommit "delete" ["ent_u/pat/other"] "2")])
        emptyDatabase).val.entityOf "u" "ent_u/pat/other").map (·.status) = some .tombstoned := by
    decide +kernel
  generalize (afterGraphCalls likesEngine
    (likesCalls ++ [.commit (likesCommit "delete" ["ent_u/pat/other"] "2")])
      emptyDatabase).val = t at h hsam hpat
  obtain ⟨e, he, heq⟩ := Option.map_eq_some_iff.mp hsam
  obtain ⟨w, hw, hdead⟩ := Option.map_eq_some_iff.mp hpat
  have hstatus : e.status = .merged := congrArg Prod.fst heq
  have hinto : e.mergedInto = some "ent_u/pat/other" := congrArg Prod.snd heq
  obtain ⟨path, r, hhead, -, hchain, x, hx, hactive⟩ := h.reaches _ _ e he hstatus
  have hnext : t.pointerOf "u" "ent_u/pat/other" = none := by
    unfold Tables.pointerOf
    rw [hw]
    simp [Entity.pointer, hdead]
  have hpointer : ∀ y, t.pointerOf "u" "ent_u/sam/other" = some y → y = "ent_u/pat/other" := by
    intro y hy
    obtain ⟨e', he', hp⟩ := pointerOf_eq_some hy
    obtain rfl := Option.some.inj (he.symm.trans he')
    exact Option.some.inj ((pointer_eq_some hp).2.symm.trans hinto)
  -- the only way from the merged entity ends at the deleted one
  rcases path with - | ⟨first, - | ⟨second, rest⟩⟩
  · obtain rfl : r = "ent_u/sam/other" := by simpa using hhead
    rw [he] at hx
    cases hx
    rw [hstatus] at hactive
    cases hactive
  · obtain rfl : first = "ent_u/sam/other" := by simpa using hhead
    obtain rfl := hpointer r (List.isChain_cons_cons.mp hchain).1
    rw [hw] at hx
    cases hx
    rw [hdead] at hactive
    cases hactive
  · obtain rfl : first = "ent_u/sam/other" := by simpa using hhead
    obtain rfl := hpointer second (List.isChain_cons_cons.mp hchain).1
    rcases rest with - | ⟨third, rest⟩
    · have := (List.isChain_cons_cons.mp (List.isChain_cons_cons.mp hchain).2).1
      rw [hnext] at this
      cases this
    · have := (List.isChain_cons_cons.mp (List.isChain_cons_cons.mp hchain).2).1
      rw [hnext] at this
      cases this

end Examples

end Atmem.Graph
