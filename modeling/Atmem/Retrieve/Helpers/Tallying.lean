import Mathlib.Data.List.Nodup
import Atmem.Retrieve.Model.Sufficiency
/-!
# What the loop over the rows gathers

Which rows can be read at all, and what the loop's variables hold after any
rows that can: each is a set of things the rows say one by one, whatever
their order. Only what contradicts what depends on it, and not whether
anything does.
-/

namespace Atmem.Sufficiency

open Checked

variable {L : Language} {H : Hashing} {now : Instant} {need : InformationNeed}
variable {rows done : List TypedRow} {row : TypedRow} {t t' : Tally}

/-! ## One row -/

namespace TypedRow

/-- The slots of the need that a row covers, where they can be read. -/
def slots (L : Language) (need : InformationNeed) (row : TypedRow) : Finset String :=
  (row.relevant L need).toOption.getD ∅

/-- A row that covers something bears on the need. -/
def Bears (L : Language) (need : InformationNeed) (row : TypedRow) : Prop :=
  (row.slots L need).Nonempty

/-- Its time is over. -/
def Past (now : Instant) (row : TypedRow) : Prop :=
  ∃ t ∈ row.unit.val.validUntil, t.moment < now

/-- A row names a subject and a relation. -/
def Named (L : Language) (row : TypedRow) : Prop := row.subject L ≠ "" ∧ row.relation L ≠ ""

/-- The subject and the relation of a row, folded. -/
def pair (L : Language) (row : TypedRow) : String × String :=
  (L.unicode.casefold (row.subject L), L.unicode.casefold (row.relation L))

/-- What a row is compared under. -/
def key (L : Language) (row : TypedRow) : MemoryUnitKind × String × String :=
  (row.unit.val.kind, row.pair L)

/-- A row is compared with others on the same subject and relation. -/
def Compared (L : Language) (need : InformationNeed) (row : TypedRow) : Prop :=
  row.Bears L need ∧ row.Named L ∧ row.isPartial L = false

/-- Two rows that are compared and disagree. -/
def Disagree (L : Language) (need : InformationNeed) (a b : TypedRow) : Prop :=
  a.Compared L need ∧ b.Compared L need ∧ a.key L = b.key L ∧ a.value ≠ b.value

/-- Nothing raises that a row is asked. -/
structure Readable (L : Language) (need : InformationNeed) (row : TypedRow) : Prop where
  slots_ok : ∃ slots, coveredSlots L row.unit = .ok slots
  until_ok : row.Bears L need → ∀ t ∈ row.unit.val.validUntil, t.moment < maxInstant

end TypedRow

open TypedRow

/-- The value of a state is there. -/
theorem present_value {entity relation value : String} {polarity : Polarity} {unit : MemoryUnit}
    (h : unit.val.payload = .environmentState entity relation value polarity) :
    present unit.val.payload.asdict "value" = true := by
  have hpost := unit.property
  rw [MemoryUnitFields.postInit, bind_eq_ok, h, UnitPayload.postInit, bind_eq_ok] at hpost
  have hvalue : strip value ≠ [] := by
    have hall := ensure_eq_ok.mp hpost.1.2
    exact (hall ("value", value) List.mem_cons_self).1
  have hne : value ≠ "" := by
    rintro rfl
    exact hvalue rfl
  rw [h]
  simp [UnitPayload.asdict, present, Json.get?, List.lookup_cons, hne]

/-- What covers no slot of a state has no fields that can be read. -/
theorem exists_matchesQuery (hslots : ∃ slots, coveredSlots L row.unit = .ok slots)
    (queryTerms : Finset String) :
    ∃ b, matchesQuery L need queryTerms row.unit = .ok b := by
  obtain ⟨slots, hslots⟩ := hslots
  unfold matchesQuery
  rw [coveredSlots] at hslots
  cases hkind : row.unit.val.kind <;> rw [hkind] at hslots <;> dsimp only at hslots ⊢ <;>
    try exact ⟨_, rfl⟩
  have hvalue : present row.unit.val.payload.asdict "value" = true := by
    cases hpayload : row.unit.val.payload <;>
      rw [MemoryUnitFields.kind, hpayload, UnitPayload.kind] at hkind <;> cases hkind
    rw [← hpayload]
    exact present_value hpayload
  rw [if_pos hvalue, bind_eq_ok_iff] at hslots
  obtain ⟨fields, hfields, -⟩ := hslots
  refine exists_bind_eq_ok ⟨fields, hfields⟩ fun fields => ?_
  cases fields <;> exact ⟨_, rfl⟩

/-- An obligation can be matched where the slots can be read. -/
theorem exists_matchesObligation (hslots : ∃ slots, coveredSlots L row.unit = .ok slots) :
    ∃ b, matchesObligation L need row.unit = .ok b := by
  unfold matchesObligation
  dsimp only
  split_ifs
  all_goals first | exact ⟨_, rfl⟩ | exact exists_matchesQuery hslots _

/-- What a row covers can be read exactly where its slots can. -/
theorem exists_relevant_iff :
    (∃ r, row.relevant L need = .ok r) ↔ ∃ slots, coveredSlots L row.unit = .ok slots := by
  constructor
  · rintro ⟨r, hr⟩
    obtain ⟨slots, hslots, -⟩ := bind_eq_ok_iff.mp hr
    exact ⟨slots, hslots⟩
  · rintro ⟨slots, hslots⟩
    obtain ⟨b, hb⟩ : ∃ b, matchesObligation L need row.unit = .ok b :=
      exists_matchesObligation ⟨slots, hslots⟩
    unfold TypedRow.relevant
    rw [hslots, hb]
    dsimp only [bind, Except.bind]
    split_ifs <;> exact ⟨_, rfl⟩

/-- The slots of a relevant row. -/
theorem slots_of_relevant {r : Finset String} (h : row.relevant L need = .ok r) :
    row.slots L need = r := by
  rw [TypedRow.slots, h]
  rfl

/-- What happens to the loop's variables where nothing raises. -/
def Tally.bear (L : Language) (need : InformationNeed) (t : Tally) (row : TypedRow)
    (past : Bool) : Tally :=
  let t₁ := if row.subject L ≠ "" ∧ row.relation L ≠ "" then
    { t with entityRelations := insert (row.pair L) t.entityRelations } else t
  let t₂ := if (row.subject L ≠ "" ∧ row.relation L ≠ "") ∧ !row.isPartial L then
    t₁.keep (row.key L) row.recordId row.value else t₁
  { t₂ with
    obligationMatches := t₂.obligationMatches ∪ matchingObligationIndexes L need row.unit
    covered := t₂.covered ∪ row.slots L need
    evidenceIds := t₂.evidenceIds ++ [row.recordId]
    staleIds := if past then t₂.staleIds ++ [row.recordId] else t₂.staleIds }

/-- Whether a row is past can be told, if its end has a UTC date. -/
theorem isPast_eq (now : Instant) (h : ∀ u ∈ row.unit.val.validUntil, u.moment < maxInstant) :
    ∃ past, row.isPast now = .ok past ∧ (past = true ↔ row.Past now) := by
  unfold TypedRow.isPast TypedRow.Past
  cases huntil : row.unit.val.validUntil with
  | none => exact ⟨false, rfl, by simp⟩
  | some u =>
    refine ⟨decide (u.moment < now), ?_, ?_⟩
    · dsimp only
      rw [if_pos (h u (by rw [huntil]; rfl))]
    · simp

/-- **One step of the loop**: a row that bears on nothing is passed over. -/
theorem add_of_readable (now : Instant) (h : row.Readable L need) (t : Tally) :
    (¬ row.Bears L need ∧ t.add L now need row = .ok t) ∨
      (row.Bears L need ∧ ∃ past : Bool, (past = true ↔ row.Past now) ∧
        t.add L now need row = .ok (t.bear L need row past)) := by
  obtain ⟨r, hr⟩ : ∃ r, row.relevant L need = .ok r := exists_relevant_iff.mpr h.slots_ok
  have hslots := slots_of_relevant hr
  have hbears : row.Bears L need ↔ r ≠ ∅ := by
    rw [TypedRow.Bears, hslots, Finset.nonempty_iff_ne_empty]
  by_cases hempty : r = ∅
  · refine .inl ⟨fun hb => hbears.mp hb hempty, ?_⟩
    unfold Tally.add
    rw [hr]
    exact if_pos hempty
  · obtain ⟨past, hpast, hiff⟩ :=
      isPast_eq now (h.until_ok (hbears.mpr hempty))
    refine .inr ⟨hbears.mpr hempty, past, hiff, ?_⟩
    unfold Tally.add
    rw [hr]
    refine (if_neg hempty).trans ?_
    dsimp only [bind, Except.bind]
    rw [hpast, Tally.bear, hslots]
    rfl

/-- A step that does not raise was of a row that can be read. -/
theorem readable_of_add (h : t.add L now need row = .ok t') : row.Readable L need := by
  obtain ⟨r, hr, hrest⟩ := bind_eq_ok_iff.mp h
  refine ⟨exists_relevant_iff.mp ⟨r, hr⟩, fun hbears u hu => ?_⟩
  rw [TypedRow.Bears, slots_of_relevant hr, Finset.nonempty_iff_ne_empty] at hbears
  rw [if_neg hbears] at hrest
  obtain ⟨past, hpast, -⟩ := bind_eq_ok_iff.mp hrest
  unfold TypedRow.isPast at hpast
  rw [Option.mem_def.mp hu] at hpast
  by_contra hlate
  dsimp only at hpast
  rw [if_neg hlate] at hpast
  cases hpast

/-- **The loop ends exactly where every row can be read.** -/
theorem exists_foldlM_iff (now : Instant) (t : Tally) :
    (∃ t', rows.foldlM (Tally.add L now need) t = .ok t') ↔
      ∀ row ∈ rows, row.Readable L need := by
  induction rows generalizing t with
  | nil => exact iff_of_true ⟨t, rfl⟩ (by simp)
  | cons row rows ih =>
    rw [List.forall_mem_cons]
    constructor
    · rintro ⟨t', h⟩
      rw [List.foldlM_cons] at h
      obtain ⟨t₁, hadd, hrest⟩ := bind_eq_ok_iff.mp h
      exact ⟨readable_of_add hadd, (ih t₁).mp ⟨t', hrest⟩⟩
    · rintro ⟨hrow, hrows⟩
      rw [List.foldlM_cons]
      rcases add_of_readable now hrow t with ⟨-, hadd⟩ | ⟨-, past, -, hadd⟩
      all_goals
        rw [hadd]
        exact (ih _).mpr hrows

/-! ## The loop -/

/-- What is kept to compare rows with, after some rows. -/
structure Keeping (L : Language) (need : InformationNeed) (done : List TypedRow) (t : Tally) :
    Prop where
  keepers : ∀ key id value, (key, id, value) ∈ t.identities →
    ∃ row ∈ done, row.Compared L need ∧ row.recordId = id ∧ row.key L = key ∧ row.value = value
  kept : ∀ row ∈ done, row.Compared L need → ∃ id value,
    t.identities.lookup (row.key L) = some (id, value) ∧
      (t.contradictions = [] → value = row.value)
  contradicted : ∀ id ∈ t.contradictions, ∃ row ∈ done, row.recordId = id ∧
    ∃ other ∈ done, Disagree L need row other
  unrefuted : (done.map (·.recordId)).Nodup → ∀ key id value, (key, id, value) ∈ t.identities →
    id ∉ t.contradictions

/-- Of rows with a record each, those before the last have other records. -/
theorem nodup_concat {row : TypedRow} (h : ((done ++ [row]).map (·.recordId)).Nodup) :
    (done.map (·.recordId)).Nodup ∧ ∀ r ∈ done, r.recordId ≠ row.recordId := by
  rw [List.map_append, List.nodup_append] at h
  refine ⟨h.1, fun r hr => h.2.2 _ (List.mem_map_of_mem hr) _ ?_⟩
  exact List.mem_singleton_self _

/-- A row that is compared with none is not kept. -/
theorem Keeping.skip (hk : Keeping L need done t) (h : ¬ row.Compared L need) :
    Keeping L need (done ++ [row]) t where
  keepers key id value hmem := by
    obtain ⟨r, hr, hrest⟩ := hk.keepers key id value hmem
    exact ⟨r, List.mem_append_left _ hr, hrest⟩
  kept r hr hcompared := by
    rcases List.mem_append.mp hr with hr | hr
    · exact hk.kept r hr hcompared
    · rw [List.mem_singleton.mp hr] at hcompared
      exact absurd hcompared h
  contradicted id hid := by
    obtain ⟨r, hr, heq, other, hother, hdis⟩ := hk.contradicted id hid
    exact ⟨r, List.mem_append_left _ hr, heq, other, List.mem_append_left _ hother, hdis⟩
  unrefuted hids := hk.unrefuted (nodup_concat hids).1

/-- **A row is kept, or contradicts the row that is.** -/
theorem Keeping.keep (hk : Keeping L need done t) (h : row.Compared L need) :
    Keeping L need (done ++ [row]) (t.keep (row.key L) row.recordId row.value) := by
  have hlast : row ∈ done ++ [row] := List.mem_append_right _ (List.mem_singleton_self row)
  unfold Tally.keep
  by_cases hother : (t.identities.lookup (row.key L)).any (·.2 ≠ row.value) = true
  · rw [if_pos hother]
    -- another value is under its key: its keeper contradicts the row
    obtain ⟨⟨id, value⟩, hlookup, hne⟩ := Option.any_eq_true .. |>.mp hother
    obtain ⟨other, hmem, hcompared, -, hkey, hvalue⟩ :=
      hk.keepers _ _ _ (mem_of_lookup hlookup)
    have hdis : Disagree L need row other := by
      refine ⟨h, hcompared, hkey.symm, fun heq => ?_⟩
      exact of_decide_eq_true hne (hvalue.symm.trans heq.symm)
    exact {
      keepers := fun key id value hentry => by
        obtain ⟨r, hr, hrest⟩ := hk.keepers key id value hentry
        exact ⟨r, List.mem_append_left _ hr, hrest⟩
      kept := fun r hr hr' => by
        have hnone : t.contradictions ++ [row.recordId] ≠ [] := by simp
        rcases List.mem_append.mp hr with hr | hr
        · obtain ⟨id', value', hfound, -⟩ := hk.kept r hr hr'
          exact ⟨id', value', hfound, fun hnil => absurd hnil hnone⟩
        · rw [List.mem_singleton.mp hr]
          exact ⟨id, value, hlookup, fun hnil => absurd hnil hnone⟩
      contradicted := fun id' hid => by
        rcases List.mem_append.mp hid with hid | hid
        · obtain ⟨r, hr, heq, other', hother', hdis'⟩ := hk.contradicted id' hid
          exact ⟨r, List.mem_append_left _ hr, heq, other', List.mem_append_left _ hother', hdis'⟩
        · exact ⟨row, hlast, (List.mem_singleton.mp hid).symm, other,
            List.mem_append_left _ hmem, hdis⟩
      unrefuted := fun hids key id' value' hentry hid => by
        obtain ⟨hnodup, hapart⟩ := nodup_concat hids
        rcases List.mem_append.mp hid with hid | hid
        · exact hk.unrefuted hnodup _ _ _ hentry hid
        · obtain ⟨r, hr, -, rfl, -⟩ := hk.keepers _ _ _ hentry
          exact hapart r hr (List.mem_singleton.mp hid) }
  · rw [if_neg hother]
    -- what is under its key, if anything, has its value
    have hsame : ∀ id value, t.identities.lookup (row.key L) = some (id, value) →
        value = row.value := by
      intro id value hlookup
      by_contra hne
      exact hother (Option.any_eq_true .. |>.mpr ⟨(id, value), hlookup, decide_eq_true hne⟩)
    exact {
      keepers := fun key id value hentry => by
        rcases List.mem_cons.mp hentry with hentry | hentry
        · obtain ⟨rfl, rfl, rfl⟩ : key = row.key L ∧ id = row.recordId ∧ value = row.value := by
            simpa using hentry
          exact ⟨row, hlast, h, rfl, rfl, rfl⟩
        · obtain ⟨r, hr, hrest⟩ := hk.keepers key id value hentry
          exact ⟨r, List.mem_append_left _ hr, hrest⟩
      kept := fun r hr hr' => by
        dsimp only
        rw [List.lookup_cons]
        cases hkey : r.key L == row.key L with
        | true =>
          refine ⟨row.recordId, row.value, rfl, fun hnil => ?_⟩
          rcases List.mem_append.mp hr with hr | hr
          · obtain ⟨id, value, hfound, hvalue⟩ := hk.kept r hr hr'
            rw [eq_of_beq hkey] at hfound
            rw [← hvalue hnil, hsame id value hfound]
          · rw [List.mem_singleton.mp hr]
        | false =>
          rcases List.mem_append.mp hr with hr | hr
          · exact hk.kept r hr hr'
          · rw [List.mem_singleton.mp hr, beq_self_eq_true] at hkey
            cases hkey
      contradicted := fun id hid => by
        obtain ⟨r, hr, heq, other, hother', hdis⟩ := hk.contradicted id hid
        exact ⟨r, List.mem_append_left _ hr, heq, other, List.mem_append_left _ hother', hdis⟩
      unrefuted := fun hids key id value hentry hid => by
        obtain ⟨hnodup, hapart⟩ := nodup_concat hids
        rcases List.mem_cons.mp hentry with hentry | hentry
        · obtain ⟨r, hr, heq, -⟩ := hk.contradicted id hid
          obtain rfl : id = row.recordId := (Prod.mk.inj (Prod.mk.inj hentry).2).1
          exact hapart r hr heq
        · exact hk.unrefuted hnodup _ _ _ hentry hid }

/-- What the loop's variables hold after some rows. -/
structure Tallied (L : Language) (now : Instant) (need : InformationNeed) (done : List TypedRow)
    (t : Tally) : Prop where
  covered : ∀ slot, slot ∈ t.covered ↔ ∃ row ∈ done, slot ∈ row.slots L need
  evidence : ∀ id, id ∈ t.evidenceIds ↔ ∃ row ∈ done, row.Bears L need ∧ row.recordId = id
  stale : ∀ id, id ∈ t.staleIds ↔
    ∃ row ∈ done, row.Bears L need ∧ row.recordId = id ∧ row.Past now
  pairs : ∀ p, p ∈ t.entityRelations ↔
    ∃ row ∈ done, row.Bears L need ∧ row.Named L ∧ row.pair L = p
  obligations : ∀ i, i ∈ t.obligationMatches ↔
    ∃ row ∈ done, row.Bears L need ∧ i ∈ matchingObligationIndexes L need row.unit
  keeping : Keeping L need done t

/-- Nothing is tallied of no rows. -/
theorem tallied_nil : Tallied L now need [] {} where
  covered slot := by simp
  evidence id := by simp
  stale id := by simp
  pairs p := by simp
  obligations i := by simp
  keeping := ⟨fun _ _ _ h => (nomatch h), fun _ h => (nomatch h), fun _ h => (nomatch h),
    fun _ _ _ _ h => (nomatch h)⟩

/-- What holds of a row more holds of the rows before, or of it. -/
theorem exists_mem_concat {p : TypedRow → Prop} :
    (∃ r ∈ done ++ [row], p r) ↔ (∃ r ∈ done, p r) ∨ p row := by
  simp only [List.mem_append, List.mem_singleton, or_and_right, exists_or, exists_eq_left]

/-- A row that bears on nothing leaves everything as it was. -/
theorem Tallied.skip (ht : Tallied L now need done t) (h : ¬ row.Bears L need) :
    Tallied L now need (done ++ [row]) t where
  covered slot := by
    rw [exists_mem_concat, ht.covered slot, or_iff_left fun hslot => h ⟨slot, hslot⟩]
  evidence id := by rw [exists_mem_concat, ht.evidence id, or_iff_left fun hrow => h hrow.1]
  stale id := by rw [exists_mem_concat, ht.stale id, or_iff_left fun hrow => h hrow.1]
  pairs p := by rw [exists_mem_concat, ht.pairs p, or_iff_left fun hrow => h hrow.1]
  obligations i := by
    rw [exists_mem_concat, ht.obligations i, or_iff_left fun hrow => h hrow.1]
  keeping := ht.keeping.skip fun hcompared => h hcompared.1

section Bearing

variable {past : Bool}

/-- Keeping a value changes the values only. -/
theorem keep_fields (key : MemoryUnitKind × String × String) (id value : String) :
    (t.keep key id value).covered = t.covered ∧ (t.keep key id value).evidenceIds = t.evidenceIds ∧
      (t.keep key id value).staleIds = t.staleIds ∧
      (t.keep key id value).entityRelations = t.entityRelations ∧
      (t.keep key id value).obligationMatches = t.obligationMatches := by
  unfold Tally.keep
  split <;> exact ⟨rfl, rfl, rfl, rfl, rfl⟩

/-- The variables after a row that bears on the need, one by one. -/
theorem bear_fields : (t.bear L need row past).covered = t.covered ∪ row.slots L need ∧
    (t.bear L need row past).evidenceIds = t.evidenceIds ++ [row.recordId] ∧
    (t.bear L need row past).staleIds =
      (if past then t.staleIds ++ [row.recordId] else t.staleIds) ∧
    (t.bear L need row past).entityRelations =
      (if row.subject L ≠ "" ∧ row.relation L ≠ "" then insert (row.pair L) t.entityRelations
        else t.entityRelations) ∧
    (t.bear L need row past).obligationMatches =
      t.obligationMatches ∪ matchingObligationIndexes L need row.unit := by
  unfold Tally.bear
  dsimp only
  split_ifs <;> simp [keep_fields]

/-- What is kept rests on what was. -/
theorem keep_congr {key : MemoryUnitKind × String × String} {id value : String}
    (hi : t'.identities = t.identities) (hc : t'.contradictions = t.contradictions) :
    (t'.keep key id value).identities = (t.keep key id value).identities ∧
      (t'.keep key id value).contradictions = (t.keep key id value).contradictions := by
  unfold Tally.keep
  rw [hi]
  split
  · exact ⟨rfl, congrArg (· ++ [id]) hc⟩
  · exact ⟨rfl, hc⟩

/-- What a row bears on the values. -/
theorem bear_keep (L : Language) (need : InformationNeed) (t : Tally) (row : TypedRow)
    (past : Bool) : (row.Named L ∧ row.isPartial L = false ∧
      (t.bear L need row past).identities = (t.keep (row.key L) row.recordId row.value).identities ∧
      (t.bear L need row past).contradictions =
        (t.keep (row.key L) row.recordId row.value).contradictions) ∨
    (¬ (row.Named L ∧ row.isPartial L = false) ∧
      (t.bear L need row past).identities = t.identities ∧
      (t.bear L need row past).contradictions = t.contradictions) := by
  unfold Tally.bear TypedRow.Named
  by_cases hnamed : row.subject L ≠ "" ∧ row.relation L ≠ ""
  · cases hpartial : row.isPartial L
    · refine .inl ⟨hnamed, rfl, ?_⟩
      have hboth : (row.subject L ≠ "" ∧ row.relation L ≠ "") ∧ (!false) = true := ⟨hnamed, rfl⟩
      rw [if_pos hnamed]
      dsimp only
      rw [if_pos hboth]
      exact keep_congr rfl rfl
    · refine .inr ⟨by simp, ?_⟩
      simp [hnamed]
  · refine .inr ⟨fun h => hnamed h.1, ?_⟩
    simp [hnamed]

/-- Only the values and the contradictions matter. -/
theorem Keeping.congr (hk : Keeping L need done t) (hi : t'.identities = t.identities)
    (hc : t'.contradictions = t.contradictions) : Keeping L need done t' :=
  ⟨hi ▸ hk.keepers, hi ▸ hc ▸ hk.kept, hc ▸ hk.contradicted, hi ▸ hc ▸ hk.unrefuted⟩

/-- **A row that bears on the need** adds what it says. -/
theorem Tallied.bear (ht : Tallied L now need done t) (h : row.Bears L need)
    (hpast : past = true ↔ row.Past now) :
    Tallied L now need (done ++ [row]) (t.bear L need row past) := by
  obtain ⟨hcovered, hevidence, hstale, hpairs, hobligations⟩ := bear_fields (L := L) (t := t)
  exact {
    covered := fun slot => by
      rw [exists_mem_concat, hcovered, Finset.mem_union, ht.covered slot]
    evidence := fun id => by
      rw [exists_mem_concat, hevidence, List.mem_append, List.mem_singleton, ht.evidence id]
      simp [h, eq_comm]
    stale := fun id => by
      rw [exists_mem_concat, hstale, ← ht.stale id]
      split_ifs with hover
      · simp [h, hpast.mp hover, eq_comm]
      · rw [or_iff_left]
        exact fun hrow => hover (hpast.mpr hrow.2.2)
    pairs := fun p => by
      rw [exists_mem_concat, hpairs, ← ht.pairs p]
      unfold TypedRow.Named
      split_ifs with hnamed
      · simp [h, hnamed, or_comm, eq_comm]
      · simp [hnamed]
    obligations := fun i => by
      rw [exists_mem_concat, hobligations, Finset.mem_union, ht.obligations i]
      simp [h]
    keeping := by
      rcases bear_keep L need t row past with ⟨hnamed, hpartial, hi, hc⟩ | ⟨hnot, hi, hc⟩
      · exact (ht.keeping.keep ⟨h, hnamed, hpartial⟩).congr hi hc
      · exact (ht.keeping.skip fun hcompared => hnot hcompared.2).congr hi hc }

end Bearing

/-- **After the loop**, the variables hold what the rows say. -/
theorem tallied_of_foldlM {rest : List TypedRow} (ht : Tallied L now need done t)
    (h : rest.foldlM (Tally.add L now need) t = .ok t') : Tallied L now need (done ++ rest) t' := by
  induction rest generalizing done t with
  | nil =>
    cases h
    rwa [List.append_nil]
  | cons row rest ih =>
    rw [List.foldlM_cons] at h
    obtain ⟨t₁, hadd, hrest⟩ := bind_eq_ok_iff.mp h
    have hstep : Tallied L now need (done ++ [row]) t₁ := by
      rcases add_of_readable now (readable_of_add hadd) t with
        ⟨hnot, heq⟩ | ⟨hbears, past, hpast, heq⟩
      · cases heq.symm.trans hadd
        exact ht.skip hnot
      · cases heq.symm.trans hadd
        exact ht.bear hbears hpast
    have hall := ih hstep hrest
    rwa [List.append_assoc, List.singleton_append] at hall

end Atmem.Sufficiency
