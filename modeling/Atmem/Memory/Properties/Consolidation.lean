import Atmem.Common.Grouping
import Atmem.Common.Table
import Atmem.Memory.Helpers.Consolidating
import Mathlib.Logic.Relation
/-!
# What a consolidation leaves

Each record a consolidation supersedes is linked to one that is still active,
by one step or two: to the newest record of the same content, and from there to
the newest one of the same fact key. A record may so come to be represented by
one that has neither its content nor its key (`consolidation_changes_both`), but
every step is between records alike, and a second run has nothing to do.
-/

namespace Atmem.Memory

open Relation Relational Transactional Grouping Rowwise

variable {E : Engine} {U : UnicodeTables} {s s' : MemoryStore} {w w' : MemoryWorld}
variable {subjectId : String} {active l : List RecordRow} {a b r r' : RecordRow}

/-! ## Two passes -/

/-- The newest of each content. -/
def survivors (U : UnicodeTables) (active : List RecordRow) : List RecordRow :=
  (groupsBy (fun r => normalizeContent U r.content) active).filterMap List.getLast?

/-- Those of a fact key. -/
def keyed (U : UnicodeTables) (active : List RecordRow) : List RecordRow :=
  (survivors U active).filter fun r => truthy r.factKey

/-- Of one content, the newest. -/
abbrev NewestContent (U : UnicodeTables) (active : List RecordRow) : RecordRow → Prop :=
  IsNewest (fun r => normalizeContent U r.content) active

/-- Of one fact key, the newest. -/
abbrev NewestKey (U : UnicodeTables) (active : List RecordRow) : RecordRow → Prop :=
  IsNewest (·.factKey) (keyed U active)

/-- The newest of each content survive. -/
theorem mem_survivors : r ∈ survivors U active ↔ r ∈ active ∧ NewestContent U active r := by
  unfold survivors
  rw [List.mem_filterMap]
  constructor
  · rintro ⟨g, hg, hlast⟩
    obtain ⟨hmem, hgroup⟩ := group_eq hg (List.mem_of_getLast? hlast)
    rw [hgroup] at hlast
    exact ⟨hmem, hlast⟩
  · rintro ⟨hmem, hnewest⟩
    exact ⟨_, mem_groupsBy.mpr ⟨r, hmem, rfl⟩, hnewest⟩

theorem nodup_survivors : (survivors U active).Nodup := by
  unfold survivors groupsBy
  rw [List.filterMap_map]
  refine (nodup_eraseDups _).filterMap fun k k' r hk hk' => ?_
  have hkey : ∀ {k : String}, r ∈ ((active.filter fun a =>
      normalizeContent U a.content == k).insertionSort MemoryStore.older).getLast? →
      normalizeContent U r.content = k := fun h => by
    have hmem := List.mem_of_getLast? h
    rw [List.mem_insertionSort, List.mem_filter, beq_iff_eq] at hmem
    exact hmem.2
  exact (hkey hk).symm.trans (hkey hk')

/-- Of these, those under a fact key. -/
theorem mem_keyed : r ∈ keyed U active ↔
    r ∈ active ∧ NewestContent U active r ∧ truthy r.factKey = true := by
  rw [keyed, List.mem_filter, mem_survivors, and_assoc]

/-- The active records of the subject. -/
theorem mem_active : r ∈ s.listRecords subjectId [.active] ↔
    r ∈ s.records.rows ∧ r.subjectId = subjectId ∧ r.status = .active := by
  rw [MemoryStore.listRecords, List.mem_insertionSort, List.mem_filter]
  simp

theorem nodup_active : (s.listRecords subjectId [.active]).Nodup := by
  have hrows : s.records.rows.Nodup := s.records.distinct.imp fun {a b} hclash heq => by
    simp [idClash, heq] at hclash
  exact (List.perm_insertionSort _ _).nodup_iff.mpr (hrows.filter _)

/-- An identifier names one of them. -/
theorem active_of_id (a : RecordRow) (ha : a ∈ s.listRecords subjectId [.active]) (b : RecordRow)
    (hb : b ∈ s.listRecords subjectId [.active]) (h : a.id = b.id) : a = b :=
  eq_of_record_id (mem_active.mp ha).1 (mem_active.mp hb).1 h

/-- **What becomes of a row** in both passes. -/
inductive Settled (U : UnicodeTables) (active : List RecordRow) (r : RecordRow) :
    RecordRow → Prop
  /-- It is not active, or another subject's. -/
  | idle : r ∉ active → Settled U active r r
  /-- It is the newest of its content, and of its fact key where it has one. -/
  | remains : r ∈ active → NewestContent U active r →
      (truthy r.factKey = true → NewestKey U active r) → Settled U active r r
  | duplicate {keeper : RecordRow} {now : Instant} : r ∈ active → keeper ∈ active →
      normalizeContent U keeper.content = normalizeContent U r.content →
      NewestContent U active keeper → ¬ NewestContent U active r → age r < age keeper →
      Settled U active r (supersededRow keeper.id now r)
  | repaired {keeper : RecordRow} {now : Instant} : r ∈ keyed U active →
      keeper ∈ keyed U active → keeper.factKey = r.factKey → NewestKey U active keeper →
      ¬ NewestKey U active r → age r < age keeper →
      Settled U active r (supersededRow keeper.id now r)

/-- And one of those under a key. -/
theorem keyed_of_id (a : RecordRow) (ha : a ∈ keyed U (s.listRecords subjectId [.active]))
    (b : RecordRow) (hb : b ∈ keyed U (s.listRecords subjectId [.active])) (h : a.id = b.id) :
    a = b :=
  active_of_id a (mem_keyed.mp ha).1 b (mem_keyed.mp hb).1 h

/-- The first pass, then the second. -/
theorem settled_of_collapses {r₁ : RecordRow} (hr : r ∈ s.records.rows)
    (h : Collapses subjectId (groupsBy (fun r => normalizeContent U r.content)
      (s.listRecords subjectId [.active])) r r₁)
    (h' : Collapses subjectId (groupsBy (·.factKey) (keyed U (s.listRecords subjectId [.active])))
      r₁ r') : Settled U (s.listRecords subjectId [.active]) r r' := by
  by_cases hactive : r.subjectId = subjectId ∧ r.status = .active
  · have hmem : r ∈ s.listRecords subjectId [.active] := mem_active.mpr ⟨hr, hactive⟩
    rcases h.cases_of_mem nodup_active active_of_id hmem hactive.1 hactive.2 with
      ⟨hnewest, rfl⟩ | ⟨keeper, now, hkeeper, hkey, hnewest, hnot, hage, rfl⟩
    · by_cases htruthy : truthy r₁.factKey = true
      · have hkeyed : r₁ ∈ keyed U (s.listRecords subjectId [.active]) :=
          mem_keyed.mpr ⟨hmem, hnewest, htruthy⟩
        rcases h'.cases_of_mem (nodup_survivors.filter _) keyed_of_id hkeyed hactive.1 hactive.2 with
          ⟨hnewestKey, rfl⟩ | ⟨keeper, now, hkeeper, hkey, hnewestKey, hnot, hage, rfl⟩
        · exact .remains hmem hnewest fun _ => hnewestKey
        · exact .repaired hkeyed hkeeper hkey hnewestKey hnot hage
      · obtain rfl := h'.eq_of_fresh fun a ha hid => by
          have hsame := active_of_id a (mem_keyed.mp ha).1 _ hmem hid
          exact htruthy (hsame ▸ (mem_keyed.mp ha).2.2)
        exact .remains hmem hnewest fun ht => absurd ht htruthy
    · obtain rfl := h'.eq_of_not_active fun ha => RecordStatus.noConfusion ha.2
      exact .duplicate hmem hkeeper hkey hnewest hnot hage
  · obtain rfl := h.eq_of_not_active hactive
    obtain rfl := h'.eq_of_not_active hactive
    exact .idle fun hmem => hactive (mem_active.mp hmem).2

/-- **A run of `consolidate`**: every row is settled; where no two active ones
are of one content or of one fact key, nothing happens. -/
theorem exec_consolidate (E : Engine) (subjectId : String) (w : MemoryWorld) :
    ∃ report w', exec (consolidate E subjectId) w = (.ok report, w') ∧
      List.Forall₂ (Settled E.unicode (w.store.listRecords subjectId [.active]))
        w.store.records.rows w'.store.records.rows ∧
      ((∀ a ∈ w.store.listRecords subjectId [.active],
          ∀ b ∈ w.store.listRecords subjectId [.active],
          normalizeContent E.unicode a.content = normalizeContent E.unicode b.content → a = b) →
        (∀ a ∈ w.store.listRecords subjectId [.active],
          ∀ b ∈ w.store.listRecords subjectId [.active], truthy a.factKey = true →
          a.factKey = b.factKey → a = b) →
        report = ([], []) ∧ w' = w) := by
  obtain ⟨duplicates, w₁, hfirst, hrows, hsingle⟩ := exec_consolidateGroups subjectId
    (groupsBy (fun r => normalizeContent E.unicode r.content)
      (w.store.listRecords subjectId [.active])) w
  obtain ⟨repaired, w', hsecond, hrows', hsingle'⟩ := exec_consolidateGroups subjectId
    (groupsBy (·.factKey) (keyed E.unicode (w.store.listRecords subjectId [.active]))) w₁
  refine ⟨(duplicates, repaired), w', ?_, ?_, fun hcontent hkey => ?_⟩
  · unfold consolidate
    rw [exec_bind_ok (exec_readStore _), exec_bind_ok hfirst]
    exact exec_bind_ok hsecond
  · have hmem := (List.forall₂_and_left _ _).mpr ⟨fun r (hr : r ∈ w.store.records.rows) => hr,
      forall₂_comp hrows hrows'⟩
    exact hmem.imp fun r r' ⟨hr, r₁, h, h'⟩ => settled_of_collapses hr h h'
  · obtain ⟨rfl, rfl⟩ := hsingle fun g hg => length_le_one_of_mem_groupsBy nodup_active hcontent hg
    obtain ⟨rfl, rfl⟩ := hsingle' fun g hg => length_le_one_of_mem_groupsBy
      (nodup_survivors.filter _) (fun a ha b hb => hkey a (mem_keyed.mp ha).1 b (mem_keyed.mp hb).1
        (mem_keyed.mp ha).2.2) hg
    exact ⟨rfl, rfl⟩

/-! ## What a settled row keeps -/

/-- Its identifier, its place in time, its content and its fact key. -/
structure SameFact (r r' : RecordRow) : Prop where
  id : r'.id = r.id
  subjectId : r'.subjectId = r.subjectId
  age : age r' = age r
  content : r'.content = r.content
  factKey : r'.factKey = r.factKey

/-- What is settled states the same fact. -/
theorem Settled.sameFact (h : Settled U active r r') : SameFact r r' := by
  cases h <;> exact ⟨rfl, rfl, rfl, rfl, rfl⟩

/-- What is the newest of its content, and of its fact key, stays. -/
theorem Settled.eq_of_newest (h : Settled U active r r') (hcontent : NewestContent U active r)
    (hkey : truthy r.factKey = true → NewestKey U active r) : r' = r := by
  cases h with
  | idle => rfl
  | remains => rfl
  | duplicate _ _ _ _ hnot => exact absurd hcontent hnot
  | repaired hr _ _ _ hnot => exact absurd (hkey (mem_keyed.mp hr).2.2) hnot

/-! ## What is left -/

/-- A record was active, and is superseded. -/
def NewlySuperseded (s s' : MemoryStore) (r' : RecordRow) : Prop :=
  r' ∈ s'.records.rows ∧ r'.status = .superseded ∧
    ∃ r ∈ s.records.rows, r.id = r'.id ∧ r.status = .active

/-- A record is superseded by another. -/
def SupersededBy (s : MemoryStore) (a b : RecordRow) : Prop :=
  a ∈ s.records.rows ∧ b ∈ s.records.rows ∧ a.status = .superseded ∧
    a.raw.supersededById = some b.id

/-- Two records of one content that is not empty, or of one fact key. -/
def Alike (U : UnicodeTables) (a b : RecordRow) : Prop :=
  (normalizeContent U a.content = normalizeContent U b.content ∧
      normalizeContent U a.content ≠ "") ∨
    (truthy a.factKey = true ∧ a.factKey = b.factKey)

/-- **What a consolidation leaves** of a store. -/
structure Consolidated (U : UnicodeTables) (s s' : MemoryStore) (subjectId : String) : Prop where
  /-- No fact is lost: every record keeps what it says. -/
  kept : List.Forall₂ SameFact s.records.rows s'.records.rows
  /-- The chain of a record that is superseded ends at an active one. -/
  ends : ∀ r', NewlySuperseded s s' r' →
    ∃ e ∈ s'.records.rows, e.status = .active ∧ TransGen (SupersededBy s') r' e
  /-- No chain comes back. -/
  acyclic : ∀ r', NewlySuperseded s s' r' → ¬ TransGen (SupersededBy s') r' r'
  /-- Each step of the chain is between records alike, where the record says
  anything. -/
  represented : ∀ r', NewlySuperseded s s' r' → normalizeContent U r'.content ≠ "" →
    ∃ e ∈ s'.records.rows, e.status = .active ∧
      TransGen (fun a b => SupersededBy s' a b ∧ Alike U a b) r' e
  onePerContent : ∀ a ∈ s'.listRecords subjectId [.active],
    ∀ b ∈ s'.listRecords subjectId [.active],
    normalizeContent U a.content = normalizeContent U b.content →
    normalizeContent U a.content ≠ "" → a = b
  onePerKey : ∀ a ∈ s'.listRecords subjectId [.active],
    ∀ b ∈ s'.listRecords subjectId [.active], truthy a.factKey = true →
    a.factKey = b.factKey → a = b

/-- A record is superseded by one other. -/
theorem SupersededBy.unique {b' : RecordRow} (h : SupersededBy s a b) (h' : SupersededBy s a b') :
    b = b' :=
  eq_of_record_id h.2.1 h'.2.1 (Option.some.inj (h.2.2.2.symm.trans h'.2.2.2))

section Chains

variable (hsettled : List.Forall₂ (Settled U (s.listRecords subjectId [.active]))
  s.records.rows s'.records.rows)

include hsettled

/-- An active record of the subject that is left. -/
theorem active_left (hr' : r' ∈ s'.listRecords subjectId [.active]) :
    NewestContent U (s.listRecords subjectId [.active]) r' ∧
      (truthy r'.factKey = true → NewestKey U (s.listRecords subjectId [.active]) r') := by
  obtain ⟨hmem, hsubject, hstatus⟩ := mem_active.mp hr'
  obtain ⟨r, hr, hs⟩ := exists_before hsettled hmem
  cases hs with
  | idle hnot => exact absurd (mem_active.mpr ⟨hr, hsubject, hstatus⟩) hnot
  | remains _ hcontent hkey => exact ⟨hcontent, hkey⟩
  | duplicate => cases hstatus
  | repaired => cases hstatus

/-- The newest of its content and of its fact key is still there. -/
theorem newest_left (hr : r ∈ s.listRecords subjectId [.active])
    (hcontent : NewestContent U (s.listRecords subjectId [.active]) r)
    (hkey : truthy r.factKey = true → NewestKey U (s.listRecords subjectId [.active]) r) :
    r ∈ s'.records.rows := by
  obtain ⟨r', hr', hs⟩ := exists_after hsettled (mem_active.mp hr).1
  exact hs.eq_of_newest hcontent hkey ▸ hr'

/-- The step of a record whose slot was repaired: to the newest of its fact
key, which is active. -/
theorem repaired_step {keeper : RecordRow} {now : Instant}
    (hrow : supersededRow keeper.id now r ∈ s'.records.rows)
    (hr : r ∈ keyed U (s.listRecords subjectId [.active]))
    (hkeeper : keeper ∈ keyed U (s.listRecords subjectId [.active]))
    (hkey : keeper.factKey = r.factKey)
    (hnewest : NewestKey U (s.listRecords subjectId [.active]) keeper) :
    SupersededBy s' (supersededRow keeper.id now r) keeper ∧ keeper.status = .active ∧
      Alike U (supersededRow keeper.id now r) keeper := by
  obtain ⟨hmem, hcontent, -⟩ := mem_keyed.mp hkeeper
  exact ⟨⟨hrow, newest_left hsettled hmem hcontent fun _ => hnewest, rfl, rfl⟩,
    (mem_active.mp hmem).2.2, .inr ⟨(mem_keyed.mp hr).2.2, hkey.symm⟩⟩

/-- **One step of a chain**: to a newer record, like it where it says anything,
that is active or one step from one that is. -/
theorem chain_step (ha : NewlySuperseded s s' a) :
    ∃ b, SupersededBy s' a b ∧ age a < age b ∧
      (normalizeContent U a.content ≠ "" → Alike U a b) ∧
      (b.status = .active ∨ NewlySuperseded s s' b ∧
        ∃ e, SupersededBy s' b e ∧ Alike U b e ∧ e.status = .active) := by
  obtain ⟨hrow, hsuperseded, r₀, hr₀, hid, hstatus⟩ := ha
  obtain ⟨r, hr, hs⟩ := exists_before hsettled hrow
  obtain rfl : r = r₀ := eq_of_record_id hr hr₀ (hs.sameFact.id.symm.trans hid.symm)
  cases hs with
  | idle => rw [hsuperseded] at hstatus; cases hstatus
  | remains => rw [hsuperseded] at hstatus; cases hstatus
  | repaired hrk hkeeper hkey hnewest _ hage =>
    obtain ⟨hby, hactive, halike⟩ := repaired_step hsettled hrow hrk hkeeper hkey hnewest
    exact ⟨_, hby, hage, fun _ => halike, .inl hactive⟩
  | @duplicate keeper now _ hkeeper hcontent hnewest _ hage =>
    obtain ⟨hkr, -, hka⟩ := mem_active.mp hkeeper
    obtain ⟨k, hk, hsk⟩ := exists_after hsettled hkr
    have hfact := hsk.sameFact
    refine ⟨k, ⟨hrow, hk, rfl, congrArg some hfact.id.symm⟩, ?_, fun hne => .inl ⟨?_, hne⟩, ?_⟩
    · rw [hfact.age]
      exact hage
    · rw [hfact.content]
      exact hcontent.symm
    · -- the newest of the content is active, or was superseded in its slot
      cases hsk with
      | idle hnot => exact absurd hkeeper hnot
      | remains => exact .inl hka
      | duplicate _ _ _ _ hnot => exact absurd hnewest hnot
      | repaired hrk hkeeper' hkey hnewest' _ _ =>
        obtain ⟨hby, hactive, halike⟩ := repaired_step hsettled hk hrk hkeeper' hkey hnewest'
        exact .inr ⟨⟨hk, rfl, keeper, hkr, rfl, hka⟩, _, hby, halike, hactive⟩

/-- A chain goes forward in time. -/
theorem age_lt_of_chain (ha : NewlySuperseded s s' a) (h : TransGen (SupersededBy s') a b) :
    age a < age b ∧ (b.status = .active ∨ NewlySuperseded s s' b) := by
  have hstep : ∀ {x y}, NewlySuperseded s s' x → SupersededBy s' x y →
      age x < age y ∧ (y.status = .active ∨ NewlySuperseded s s' y) := by
    intro x y hx hxy
    obtain ⟨z, hz, hage, -, hend⟩ := chain_step hsettled hx
    obtain rfl := hxy.unique hz
    exact ⟨hage, hend.imp_right And.left⟩
  induction h with
  | single hab => exact hstep ha hab
  | tail _ hbc ih =>
    rcases ih.2 with hactive | hnewly
    · rw [hbc.2.2.1] at hactive
      cases hactive
    · obtain ⟨hage, hend⟩ := hstep hnewly hbc
      exact ⟨ih.1.trans hage, hend⟩

/-- A pass that settles every record consolidates. -/
theorem consolidated_of_settled : Consolidated U s s' subjectId where
  kept := hsettled.imp fun _ _ h => h.sameFact
  ends r' hr' := by
    obtain ⟨b, hby, -, -, hactive | ⟨-, e, hbe, -, hactive⟩⟩ := chain_step hsettled hr'
    · exact ⟨b, hby.2.1, hactive, .single hby⟩
    · exact ⟨e, hbe.2.1, hactive, .tail (.single hby) hbe⟩
  acyclic r' hr' hcycle := lt_irrefl _ (age_lt_of_chain hsettled hr' hcycle).1
  represented r' hr' hne := by
    obtain ⟨b, hby, -, halike, hactive | ⟨-, e, hbe, halike', hactive⟩⟩ :=
      chain_step hsettled hr'
    · exact ⟨b, hby.2.1, hactive, .single ⟨hby, halike hne⟩⟩
    · exact ⟨e, hbe.2.1, hactive, .tail (.single ⟨hby, halike hne⟩) ⟨hbe, halike'⟩⟩
  onePerContent a ha b hb hcontent _ :=
    (active_left hsettled ha).1.unique (active_left hsettled hb).1 hcontent
  onePerKey a ha b hb hkey hsame :=
    ((active_left hsettled ha).2 hkey).unique ((active_left hsettled hb).2 (hsame ▸ hkey)) hsame

end Chains

/-- **Consolidation keeps a representative of every fact**, for any store and
subject, and a second one changes nothing. -/
theorem consolidation_keeps_representatives (E : Engine) (subjectId : String) (w : MemoryWorld) :
    ∃ report w', atomic (consolidate E subjectId) w = (.ok report, w') ∧
      Consolidated E.unicode w.store w'.store subjectId ∧
      atomic (consolidate E subjectId) w' = (.ok ([], []), w') := by
  obtain ⟨report, w', hexec, hsettled, -⟩ := exec_consolidate E subjectId w
  refine ⟨report, w', atomic_of_ok hexec, consolidated_of_settled hsettled, ?_⟩
  obtain ⟨report', w'', hexec', -, hnothing⟩ := exec_consolidate E subjectId w'
  obtain ⟨rfl, rfl⟩ := hnothing
    (fun a ha b hb => (active_left hsettled ha).1.unique (active_left hsettled hb).1)
    (consolidated_of_settled hsettled).onePerKey
  exact atomic_of_ok hexec'

/-! ## Three records -/

/-- A fact of a time, under a key or none. -/
def drinks (id content : String) (createdAt : Instant) (factKey : Option String) : RecordRow where
  id
  subjectId := "user-1"
  content
  contentNormalized := some content
  sourceType := "user_message"
  trustTier := .trustedUser
  createdAt
  scope := "user_note"
  status := .active
  factKey

/-- Tea twice, once under a key, and coffee under it later. -/
def teaAndCoffee : MemoryWorld where
  clock _ := 9
  store := { records := ⟨[drinks "rec_1" "tea" 1 none, drinks "rec_2" "tea" 2 (some "drink"),
    drinks "rec_3" "coffee" 3 (some "drink")], by decide +kernel⟩ }

/-- **The end of a chain may say something else under another key.** The first
tea is a duplicate of the second, whose slot coffee has taken. -/
theorem consolidation_changes_both :
    ¬ ∀ (E : Engine) (subjectId : String) (w w' : MemoryWorld)
      (report : List String × List String),
      atomic (consolidate E subjectId) w = (.ok report, w') →
      ∀ r' e, NewlySuperseded w.store w'.store r' → e ∈ w'.store.records.rows →
      e.status = .active → TransGen (SupersededBy w'.store) r' e → Alike E.unicode r' e := by
  intro hall
  let run := atomic (consolidate plainEngine "user-1") teaAndCoffee
  have hrun : run = (.ok (["rec_1"], ["rec_2"]), run.2) := Prod.ext (by decide +kernel) rfl
  have hrows : run.2.store.records.rows =
      [supersededRow "rec_2" 9 (drinks "rec_1" "tea" 1 none),
        supersededRow "rec_3" 9 (drinks "rec_2" "tea" 2 (some "drink")),
        drinks "rec_3" "coffee" 3 (some "drink")] := by decide +kernel
  have halike := hall plainEngine "user-1" teaAndCoffee run.2 _ hrun
    (supersededRow "rec_2" 9 (drinks "rec_1" "tea" 1 none)) (drinks "rec_3" "coffee" 3 (some "drink"))
    ⟨by rw [hrows]; decide, rfl, drinks "rec_1" "tea" 1 none, by decide +kernel, rfl, rfl⟩
    (by rw [hrows]; decide) rfl
    (.tail (.single (b := supersededRow "rec_3" 9 (drinks "rec_2" "tea" 2 (some "drink")))
      ⟨by rw [hrows]; decide, by rw [hrows]; decide, rfl, rfl⟩)
      ⟨by rw [hrows]; decide, by rw [hrows]; decide, rfl, rfl⟩)
  rcases halike with ⟨hcontent, -⟩ | ⟨htruthy, -⟩
  · exact absurd hcontent (by decide +kernel)
  · exact absurd htruthy (by decide)

end Atmem.Memory
