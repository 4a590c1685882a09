import Atmem.Retrieve.Helpers.Tallying
/-!
# What is decided of the evidence

A decision is made exactly where every row can be read. It is the same in
whatever order the rows were nominated; a row more leaves a sufficient one
sufficient, contradicted or expired. And what is sufficient rests on rows
that are about what is asked. The source reads the clock for each row that is
dated; here all rows are read at one moment.
-/

namespace Atmem.Sufficiency

open Checked TypedRow

variable {L : Language} {H : Hashing} {now : Instant} {need : InformationNeed}
variable {rows rows' : List TypedRow} {row : TypedRow} {t t' : Tally} {d : SufficiencyDecision}

/-! ## What is covered at last -/

/-- A need has slots, and each once. -/
theorem requiredSlots_ne_nil (need : InformationNeed) :
    need.val.requiredSlots ≠ [] ∧ need.val.requiredSlots.Nodup := by
  have hpost := need.property
  simp only [InformationNeedFields.postInit, bind_eq_ok, ensure_eq_ok] at hpost
  exact ⟨hpost.2.1, hpost.2.2.1⟩

/-- The slot that an unmet obligation keeps open. -/
def openSlot (need : InformationNeed) : String :=
  if "supporting_evidence" ∈ need.val.requiredSlots then "supporting_evidence"
  else need.val.requiredSlots.getLast?.getD ""

/-- The open slot is one of them. -/
theorem openSlot_mem (need : InformationNeed) : openSlot need ∈ need.val.requiredSlots := by
  unfold openSlot
  split
  · assumption
  · have hne := (requiredSlots_ne_nil need).1
    rw [List.getLast?_eq_some_getLast hne]
    exact List.getLast_mem hne

/-- It stays open while an obligation is unmatched. -/
theorem openSlot_notMem (h : t.obligationMatches ≠ Finset.range need.val.obligations.length) :
    openSlot need ∉ t.coveredFinally need := by
  unfold Tally.coveredFinally
  rw [if_neg h]
  exact Finset.notMem_erase _ _

/-- Where every required slot is covered, every obligation is met. -/
theorem obligations_met (h : ∀ slot ∈ need.val.requiredSlots, slot ∈ t.coveredFinally need) :
    t.obligationMatches = Finset.range need.val.obligations.length := by
  by_contra hne
  exact openSlot_notMem hne (h _ (openSlot_mem need))

/-- What is matched are obligations of the need. -/
theorem Tallied.obligations_subset (ht : Tallied L now need rows t) :
    t.obligationMatches ⊆ Finset.range need.val.obligations.length := by
  intro i hi
  obtain ⟨row, -, -, hmem⟩ := (ht.obligations i).mp hi
  exact (Finset.mem_filter.mp hmem).1

/-! ## Contradictions -/

/-- **Something contradicts exactly where two rows disagree.** -/
theorem Tallied.contradictions_ne_nil_iff (ht : Tallied L now need rows t) :
    t.contradictions ≠ [] ↔ ∃ a ∈ rows, ∃ b ∈ rows, Disagree L need a b := by
  constructor
  · intro hne
    obtain ⟨id, hid⟩ := List.exists_mem_of_ne_nil _ hne
    obtain ⟨a, ha, -, b, hb, hdis⟩ := ht.keeping.contradicted id hid
    exact ⟨a, ha, b, hb, hdis⟩
  · rintro ⟨a, ha, b, hb, hcompared, hcompared', hkey, hvalue⟩ hnil
    obtain ⟨id, value, hlookup, hsame⟩ := ht.keeping.kept a ha hcompared
    obtain ⟨id', value', hlookup', hsame'⟩ := ht.keeping.kept b hb hcompared'
    rw [hkey, hlookup'] at hlookup
    cases hlookup
    exact hvalue ((hsame hnil).symm.trans (hsame' hnil))

/-- **One side of a contradiction is left.** -/
theorem Tallied.exists_unrefuted (ht : Tallied L now need rows t)
    (hids : (rows.map (·.recordId)).Nodup) (hne : t.contradictions ≠ []) :
    ∃ id ∈ t.evidenceIds, id ∉ t.contradictions := by
  obtain ⟨a, ha, b, -, hdis⟩ := ht.contradictions_ne_nil_iff.mp hne
  obtain ⟨id, value, hlookup, -⟩ := ht.keeping.kept a ha hdis.1
  have hmem := mem_of_lookup hlookup
  obtain ⟨row, hrow, hcompared, heq, -⟩ := ht.keeping.keepers _ _ _ hmem
  exact ⟨id, (ht.evidence id).mpr ⟨row, hrow, hcompared.1, heq⟩,
    ht.keeping.unrefuted hids _ _ _ hmem⟩

/-! ## The record's own check -/

/-- The characters of a digest are those of an identifier. -/
theorem hex_of_isDigest {hex : String} (h : isDigest ("sha256:" ++ hex) = true) :
    ∀ c ∈ hex.toList, isIdentifierChar c = true ∧ isSpace c = false := by
  intro c hc
  unfold isDigest at h
  rw [String.toList_append] at h
  have hdrop : ("sha256:".toList ++ hex.toList).drop 7 = hex.toList := by
    rw [List.drop_append]
    rfl
  dsimp only at h
  rw [hdrop, Bool.and_eq_true] at h
  have hchar := List.all_eq_true.mp h.2 c hc
  simp only [Bool.or_eq_true, Bool.and_eq_true, decide_eq_true_eq] at hchar
  -- a digit or one of the letters a to f
  have hbounds : (48 ≤ c.toNat ∧ c.toNat ≤ 57) ∨ (97 ≤ c.toNat ∧ c.toNat ≤ 102) := by
    rcases hchar with hdigit | ⟨hlow, hhigh⟩
    · unfold Char.isDigit at hdigit
      rw [Bool.and_eq_true, decide_eq_true_eq, decide_eq_true_eq] at hdigit
      exact .inl hdigit
    · exact .inr ⟨hlow, hhigh⟩
  constructor
  · unfold isIdentifierChar Char.isAlphanum
    rcases hchar with hdigit | ⟨hlow, hhigh⟩
    · simp [hdigit]
    · have hlower : c.isLower = true := by
        unfold Char.isLower
        rw [Bool.and_eq_true, decide_eq_true_eq, decide_eq_true_eq]
        refine ⟨hlow, ?_⟩
        have : c.toNat ≤ 122 := by omega
        exact this
      have halpha : c.isAlpha = true := by
        change (c.isUpper || c.isLower) = true
        rw [hlower, Bool.or_true]
      simp [halpha]
  · unfold isSpace
    simp only [Bool.or_eq_false_iff, Bool.and_eq_false_iff, decide_eq_false_iff_not,
      beq_eq_false_iff_ne]
    omega

/-- A decision's id is one of the protocol's. -/
theorem identifier_decisionId {text : String}
    (hH : isDigest ("sha256:" ++ H.sha256Hex text) = true) :
    identifier "decision_id"
      ("sufficiency-" ++ String.ofList ((H.sha256Hex text).toList.take 24)) = .ok () := by
  have hhex := hex_of_isDigest hH
  have htake : ∀ c ∈ (H.sha256Hex text).toList.take 24,
      isIdentifierChar c = true ∧ isSpace c = false :=
    fun c hc => hhex c (List.mem_of_mem_take hc)
  have hlength : ((H.sha256Hex text).toList.take 24).length ≤ 24 := List.length_take_le _ _
  generalize (H.sha256Hex text).toList.take 24 = digits at htake hlength ⊢
  have hname : ("sufficiency-".toList).all fun c => isIdentifierChar c && !isSpace c := by decide
  rw [List.all_eq_true] at hname
  have htext : "sufficiency-" ++ String.ofList digits =
      String.ofList ("sufficiency-".toList ++ digits) := by
    rw [String.ofList_append, String.ofList_toList]
  rw [htext, identifier_eq_ok, strip_ofList]
  · have hall : ∀ c ∈ "ufficiency-".toList ++ digits, isIdentifierChar c = true := by
      intro c hc
      rcases List.mem_append.mp hc with hc | hc
      · have hmem : c ∈ "sufficiency-".toList := List.mem_cons_of_mem 's' hc
        exact (Bool.and_eq_true _ _ ▸ hname c hmem).1
      · exact (htake c hc).1
    have hshort : ("ufficiency-".toList ++ digits).length ≤ 127 := by
      rw [List.length_append]
      exact Nat.le_trans (Nat.add_le_add_left hlength _) (by decide)
    change ('s'.isAlpha && ("ufficiency-".toList ++ digits).all isIdentifierChar &&
      decide (("ufficiency-".toList ++ digits).length ≤ 127)) = true
    rw [List.all_eq_true.mpr hall, decide_eq_true hshort]
    rfl
  · intro c hc
    rcases List.mem_append.mp hc with hc | hc
    · have hboth := hname c hc
      rw [Bool.and_eq_true, Bool.not_eq_true'] at hboth
      exact hboth.2
    · exact (htake c hc).2

/-- When the status is one of contradiction. -/
theorem status_contradictory_iff : t.status need = .contradictory ↔ t.contradictions ≠ [] := by
  unfold Tally.status
  dsimp only
  split_ifs with h <;> simp [h]

/-- Everything that bears on the need has expired. -/
def Tally.Expired (t : Tally) : Prop := t.staleIds ≠ [] ∧ ∀ id ∈ t.evidenceIds, id ∈ t.staleIds

/-- When it is one of staleness. -/
theorem status_stale_iff : t.status need = .stale ↔ t.contradictions = [] ∧ t.Expired := by
  unfold Tally.status Tally.Expired
  dsimp only
  split_ifs with h h' hnone hsome
  · exact iff_of_false (by decide) fun hboth => h hboth.1
  · exact iff_of_true rfl ⟨not_not.mp h, h'⟩
  all_goals exact iff_of_false (by decide) fun hboth => h' hboth.2

/-- When it is sufficient. -/
theorem status_sufficient_iff : t.status need = .sufficient ↔ t.contradictions = [] ∧
    ¬ t.Expired ∧ ∀ slot ∈ need.val.requiredSlots, slot ∈ t.coveredFinally need := by
  obtain ⟨slot, hslot⟩ := List.exists_mem_of_ne_nil _ (requiredSlots_ne_nil need).1
  unfold Tally.status Tally.Expired
  dsimp only
  split_ifs with h h' hnone hsome
  · exact iff_of_false (by decide) fun hall => h hall.1
  · exact iff_of_false (by decide) fun hall => hall.2.1 h'
  · exact iff_of_false (by decide) fun hall => hnone slot hslot (hall.2.2 slot hslot)
  · obtain ⟨other, hother, hnot⟩ := hsome
    exact iff_of_false (by decide) fun hall => hnot (hall.2.2 other hother)
  · refine iff_of_true rfl ⟨not_not.mp h, h', fun slot hslot => ?_⟩
    by_contra hnot
    exact hsome ⟨slot, hslot, hnot⟩

/-- What it says that nothing supports. -/
theorem status_unsupported (h : t.status need = .unsupported) :
    ∀ slot ∈ need.val.requiredSlots, slot ∉ t.coveredFinally need := by
  unfold Tally.status at h
  dsimp only at h
  split_ifs at h with _ _ hnone
  exact hnone

/-- What it says that something is missing. -/
theorem status_partly (h : t.status need = .partly) :
    ∃ slot ∈ need.val.requiredSlots, slot ∉ t.coveredFinally need := by
  unfold Tally.status at h
  dsimp only at h
  split_ifs at h with _ _ _ hsome
  exact hsome

/-- What is covered was covered by a row. -/
theorem Tallied.exists_bears (ht : Tallied L now need rows t) {slot : String}
    (h : slot ∈ t.coveredFinally need) : t.evidenceIds ≠ [] := by
  have hrow : ∃ row ∈ rows, row.Bears L need := by
    have hcovered : slot ∈ t.covered ∪
        if need.val.type = .relationalSynthesis ∧ 2 ≤ t.entityRelations.card then
          {"entities", "relations", "supporting_evidence"}
        else ∅ := by
      unfold Tally.coveredFinally at h
      dsimp only at h
      split at h
      · exact h
      · exact Finset.mem_of_mem_erase h
    rcases Finset.mem_union.mp hcovered with hin | hin
    · obtain ⟨row, hrow, hslot⟩ := (ht.covered slot).mp hin
      exact ⟨row, hrow, slot, hslot⟩
    · split_ifs at hin with hpairs
      · obtain ⟨p, hp⟩ := Finset.card_pos.mp (Nat.lt_of_lt_of_le Nat.zero_lt_two hpairs.2)
        obtain ⟨row, hrow, hbears, -⟩ := (ht.pairs p).mp hp
        exact ⟨row, hrow, hbears⟩
      · cases hin
  obtain ⟨row, hrow, hbears⟩ := hrow
  exact List.ne_nil_of_mem ((ht.evidence _).mpr ⟨row, hrow, hbears, rfl⟩)

/-- **Whatever the loop gathers is a decision.** -/
theorem decision_ok (hH : ∀ text, isDigest ("sha256:" ++ H.sha256Hex text) = true)
    (ht : Tallied L now need rows t) (hids : (rows.map (·.recordId)).Nodup) :
    (t.decision H need).postInit = .ok () := by
  obtain ⟨hne, hnodup⟩ := requiredSlots_ne_nil need
  obtain ⟨first, hfirst⟩ := List.exists_mem_of_ne_nil _ hne
  -- where evidence is kept, some of it is not contradicted
  have hleft : t.status need = .contradictory ∨ t.status need = .stale ∨
      t.status need = .sufficient → ∃ id ∈ t.evidenceIds, id ∉ t.contradictions := by
    have hall : t.contradictions = [] → t.evidenceIds ≠ [] →
        ∃ id ∈ t.evidenceIds, id ∉ t.contradictions := by
      intro hnil hsome
      obtain ⟨id, hid⟩ := List.exists_mem_of_ne_nil _ hsome
      exact ⟨id, hid, hnil ▸ List.not_mem_nil⟩
    rintro (hstatus | hstatus | hstatus)
    · exact ht.exists_unrefuted hids (status_contradictory_iff.mp hstatus)
    · obtain ⟨hnil, hstale, -⟩ := status_stale_iff.mp hstatus
      obtain ⟨id, hid⟩ := List.exists_mem_of_ne_nil _ hstale
      obtain ⟨row, hrow, hbears, heq, -⟩ := (ht.stale id).mp hid
      exact hall hnil (List.ne_nil_of_mem ((ht.evidence id).mpr ⟨row, hrow, hbears, heq⟩))
    · obtain ⟨hnil, -, hcovered⟩ := status_sufficient_iff.mp hstatus
      exact hall hnil (ht.exists_bears (hcovered first hfirst))
  have hevidence : t.status need ≠ .unsupported → (∃ id ∈ t.evidenceIds, id ∉ t.contradictions) →
      (if t.status need = .unsupported then []
        else (t.evidenceIds.filter (· ∉ t.contradictions)).eraseDups) ≠ [] := by
    rintro hstatus ⟨id, hid, hnot⟩
    rw [if_neg hstatus]
    refine List.ne_nil_of_mem (List.mem_eraseDups.mpr (List.mem_filter.mpr ⟨hid, ?_⟩))
    exact decide_eq_true hnot
  unfold Tally.decision SufficiencyDecisionFields.postInit
  simp only [bind_eq_ok, ensure_eq_ok, identifier_decisionId (hH _), true_and]
  -- the checks of the constructor, in its order
  refine ⟨⟨hne, hnodup⟩, fun slot hslot => ?_, fun slot hcovered hmissing => ?_,
    fun slot hslot => ?_, fun hstatus => ?_, fun hstatus => ?_, fun hstatus => ?_,
    fun hstatus => ?_, fun hstatus => ?_, fun hstatus => ?_, fun id hid hcontra => ?_, fun hstatus => ?_, fun hstatus => ?_⟩
  · rcases List.mem_append.mp hslot with hslot | hslot
    all_goals exact (List.mem_filter.mp hslot).1
  · have hin := of_decide_eq_true (List.mem_filter.mp hcovered).2
    exact of_decide_eq_true (List.mem_filter.mp hmissing).2 hin
  · by_cases hin : slot ∈ t.coveredFinally need
    · exact .inl (List.mem_filter.mpr ⟨hslot, decide_eq_true hin⟩)
    · exact .inr (List.mem_filter.mpr ⟨hslot, decide_eq_true hin⟩)
  · refine List.filter_eq_nil_iff.mpr fun slot hslot hnot => ?_
    exact of_decide_eq_true hnot ((status_sufficient_iff.mp hstatus).2.2 slot hslot)
  · exact hevidence (by rw [hstatus]; decide) (hleft (.inr (.inr hstatus)))
  · rw [(status_sufficient_iff.mp hstatus).1]
    rfl
  · obtain ⟨slot, hslot, hnot⟩ := status_partly hstatus
    exact List.ne_nil_of_mem (List.mem_filter.mpr ⟨hslot, decide_eq_true hnot⟩)
  · obtain ⟨id, hid⟩ := List.exists_mem_of_ne_nil _ (status_contradictory_iff.mp hstatus)
    exact List.ne_nil_of_mem (List.mem_eraseDups.mpr hid)
  · rcases List.mem_cons.mp hstatus with hstatus | hstatus
    · exact hevidence (by rw [hstatus]; decide) (hleft (.inl hstatus))
    · have hstale := List.mem_singleton.mp hstatus
      exact hevidence (by rw [hstale]; decide) (hleft (.inr (.inl hstale)))
  · split_ifs at hid
    · cases hid
    · have hnot := (List.mem_filter.mp (List.mem_eraseDups.mp hid)).2
      exact of_decide_eq_true hnot (List.mem_eraseDups.mp hcontra)
  · rw [if_pos hstatus]
  · refine List.filter_eq_nil_iff.mpr fun slot hslot hin => ?_
    exact status_unsupported hstatus slot hslot (of_decide_eq_true hin)

/-! ## When a decision is made -/

/-- A decision is made of a tally. -/
theorem decideSufficiency_eq_ok (h : decideSufficiency L H now need rows = .ok d) :
    ∃ t, Tallied L now need rows t ∧ d.val = t.decision H need := by
  obtain ⟨t, ht, hmake⟩ := bind_eq_ok_iff.mp h
  refine ⟨t, tallied_of_foldlM tallied_nil ht, ?_⟩
  cases hd : Checked.make SufficiencyDecisionFields.postInit (t.decision H need) with
  | error e =>
    rw [hd] at hmake
    cases hmake
  | ok d' =>
    rw [hd] at hmake
    cases hmake
    exact make_eq_ok.mp hd

/-- **A decision is made exactly where every row can be read.** -/
theorem exists_decision_iff (hH : ∀ text, isDigest ("sha256:" ++ H.sha256Hex text) = true)
    (hids : (rows.map (·.recordId)).Nodup) :
    (∃ d, decideSufficiency L H now need rows = .ok d) ↔ ∀ row ∈ rows, row.Readable L need := by
  rw [← exists_foldlM_iff now {}]
  constructor
  · rintro ⟨d, hd⟩
    obtain ⟨t, ht, -⟩ := bind_eq_ok_iff.mp hd
    exact ⟨t, ht⟩
  · rintro ⟨t, ht⟩
    have hok := decision_ok hH (tallied_of_foldlM tallied_nil ht) hids
    refine ⟨⟨_, hok⟩, bind_of_eq_ok ht ?_⟩
    rw [make_of_ok hok]
    rfl

/-! ## The order of the rows -/

/-- **What the same rows say is the same**, in whatever order. -/
theorem Tallied.congr (ht : Tallied L now need rows t) (ht' : Tallied L now need rows' t')
    (hsame : ∀ row, row ∈ rows ↔ row ∈ rows') :
    t.coveredFinally need = t'.coveredFinally need ∧ t.status need = t'.status need := by
  have hexists : ∀ p : TypedRow → Prop, (∃ row ∈ rows, p row) ↔ ∃ row ∈ rows', p row :=
    fun p => exists_congr fun row => and_congr_left' (hsame row)
  have hcovered : t.covered = t'.covered := Finset.ext fun slot => by
    rw [ht.covered, ht'.covered, hexists]
  have hpairs : t.entityRelations = t'.entityRelations := Finset.ext fun p => by
    rw [ht.pairs, ht'.pairs, hexists]
  have hobligations : t.obligationMatches = t'.obligationMatches := Finset.ext fun i => by
    rw [ht.obligations, ht'.obligations, hexists]
  have hfinally : t.coveredFinally need = t'.coveredFinally need := by
    unfold Tally.coveredFinally
    rw [hcovered, hpairs, hobligations]
  have hcontra : t.contradictions ≠ [] ↔ t'.contradictions ≠ [] := by
    rw [ht.contradictions_ne_nil_iff, ht'.contradictions_ne_nil_iff, hexists]
    exact exists_congr fun a => and_congr_right fun _ => hexists _
  have hevidence : ∀ id, id ∈ t.evidenceIds ↔ id ∈ t'.evidenceIds := fun id => by
    rw [ht.evidence, ht'.evidence, hexists]
  have hstale : ∀ id, id ∈ t.staleIds ↔ id ∈ t'.staleIds := fun id => by
    rw [ht.stale, ht'.stale, hexists]
  have hnil : t.staleIds ≠ [] ↔ t'.staleIds ≠ [] := by
    constructor <;> intro hsome <;> obtain ⟨id, hid⟩ := List.exists_mem_of_ne_nil _ hsome
    · exact List.ne_nil_of_mem ((hstale id).mp hid)
    · exact List.ne_nil_of_mem ((hstale id).mpr hid)
  refine ⟨hfinally, ?_⟩
  unfold Tally.status
  simp only [hfinally, hcontra, hnil, hevidence, hstale]

/-- **A row more covers no less.** -/
theorem Tallied.sufficient_mono (ht : Tallied L now need rows t)
    (ht' : Tallied L now need rows' t') (hmore : ∀ row ∈ rows, row ∈ rows')
    (h : ∀ slot ∈ need.val.requiredSlots, slot ∈ t.coveredFinally need) :
    ∀ slot ∈ need.val.requiredSlots, slot ∈ t'.coveredFinally need := by
  intro slot hslot
  have hmet := obligations_met h
  have hmet' : t'.obligationMatches = Finset.range need.val.obligations.length := by
    refine ht'.obligations_subset.antisymm fun i hi => ?_
    obtain ⟨row, hrow, hrest⟩ := (ht.obligations i).mp (hmet ▸ hi)
    exact (ht'.obligations i).mpr ⟨row, hmore row hrow, hrest⟩
  have hpairs : t.entityRelations ⊆ t'.entityRelations := fun p hp => by
    obtain ⟨row, hrow, hrest⟩ := (ht.pairs p).mp hp
    exact (ht'.pairs p).mpr ⟨row, hmore row hrow, hrest⟩
  have hin := h slot hslot
  unfold Tally.coveredFinally at hin ⊢
  rw [if_pos hmet] at hin
  rw [if_pos hmet']
  rcases Finset.mem_union.mp hin with hin | hin
  · obtain ⟨row, hrow, hrest⟩ := (ht.covered slot).mp hin
    exact Finset.mem_union_left _ ((ht'.covered slot).mpr ⟨row, hmore row hrow, hrest⟩)
  · refine Finset.mem_union_right _ ?_
    split_ifs at hin with htwo
    · rw [if_pos ⟨htwo.1, htwo.2.trans (Finset.card_le_card hpairs)⟩]
      exact hin
    · cases hin

/-- What a maintainer relies on of a decision on some rows. -/
structure Steady (L : Language) (H : Hashing) (now : Instant) (need : InformationNeed)
    (rows : List TypedRow) (d : SufficiencyDecision) : Prop where
  /-- The order of the rows makes no difference. -/
  permuted : ∀ rows', rows.Perm rows' → ∃ d', decideSufficiency L H now need rows' = .ok d' ∧
    d'.val.status = d.val.status ∧ d'.val.coveredSlots = d.val.coveredSlots ∧
      d'.val.missingSlots = d.val.missingSlots
  /-- One row more makes nothing partial that was sufficient. -/
  extended : ∀ row d', d.val.status = .sufficient →
    decideSufficiency L H now need (rows ++ [row]) = .ok d' →
      d'.val.status ∈ [SufficiencyStatus.sufficient, .contradictory, .stale]

/-- **A decision is made exactly where the rows can be read**, and every one
that is made is steady. -/
theorem steady_iff (hH : ∀ text, isDigest ("sha256:" ++ H.sha256Hex text) = true)
    (hids : (rows.map (·.recordId)).Nodup) :
    ((∃ d, decideSufficiency L H now need rows = .ok d) ↔ ∀ row ∈ rows, row.Readable L need) ∧
      ∀ d, decideSufficiency L H now need rows = .ok d → Steady L H now need rows d := by
  refine ⟨exists_decision_iff hH hids, fun d hd => ?_⟩
  have hall := (exists_decision_iff hH hids).mp ⟨d, hd⟩
  refine ⟨fun rows' hperm => ?_, fun row d' hstatus hd' => ?_⟩
  · have hall' : ∀ row ∈ rows', row.Readable L need :=
      fun row hrow => hall row (hperm.mem_iff.mpr hrow)
    obtain ⟨d', hd'⟩ : ∃ d', decideSufficiency L H now need rows' = .ok d' :=
      (exists_decision_iff hH ((hperm.map _).nodup_iff.mp hids)).mpr hall'
    obtain ⟨t, ht, hval⟩ := decideSufficiency_eq_ok hd
    obtain ⟨t', ht', hval'⟩ := decideSufficiency_eq_ok hd'
    obtain ⟨hcovered, hsame⟩ := ht.congr ht' fun row => hperm.mem_iff
    refine ⟨d', hd', ?_⟩
    rw [hval, hval']
    unfold Tally.decision
    rw [hcovered, hsame]
    exact ⟨rfl, rfl, rfl⟩
  · obtain ⟨t, ht, hval⟩ := decideSufficiency_eq_ok hd
    obtain ⟨t', ht', hval'⟩ := decideSufficiency_eq_ok hd'
    rw [hval] at hstatus
    obtain ⟨-, -, hcovered⟩ := status_sufficient_iff.mp hstatus
    have hcovered' := ht.sufficient_mono ht' (fun r hr => List.mem_append_left _ hr) hcovered
    rw [hval']
    change t'.status need ∈ _
    cases hs : t'.status need with
    | sufficient | contradictory | stale => decide
    | unsupported =>
      obtain ⟨slot, hslot⟩ := List.exists_mem_of_ne_nil _ (requiredSlots_ne_nil need).1
      exact absurd (hcovered' slot hslot) (status_unsupported hs slot hslot)
    | partly =>
      obtain ⟨slot, hslot, hnot⟩ := status_partly hs
      exact absurd (hcovered' slot hslot) hnot

/-! ## What is sufficient -/

/-- A row shows a slot: it is about what is asked, and exposes the slot or, of
rows that are put together, is named. -/
def TypedRow.Shows (L : Language) (need : InformationNeed) (row : TypedRow) (slot : String) :
    Prop :=
  matchesObligation L need row.unit = .ok true ∧
    ((∃ slots, coveredSlots L row.unit = .ok slots ∧ slot ∈ slots) ∨
      (need.val.type = .relationalSynthesis ∧ slot = "supporting_evidence" ∧ row.Named L))

/-- A slot of a row is shown by it. -/
theorem shows_of_mem {slot : String} (h : slot ∈ row.slots L need) : row.Shows L need slot := by
  unfold TypedRow.slots at h
  cases hrelevant : row.relevant L need with
  | error e =>
    rw [hrelevant] at h
    cases h
  | ok r =>
    rw [hrelevant] at h
    have hslot : slot ∈ r := h
    obtain ⟨slots, hslots, hrest⟩ := bind_eq_ok_iff.mp hrelevant
    dsimp only at hrest
    split_ifs at hrest with hsome htype htype <;>
      obtain ⟨matching, hmatching, hrest⟩ := bind_eq_ok_iff.mp hrest
    · obtain ⟨matched, hmatched, hr⟩ := bind_eq_ok_iff.mp hrest
      cases hr
      cases matched with
      | false => cases hslot
      | true => exact ⟨hmatched, .inr ⟨htype.1, Finset.mem_singleton.mp hslot, htype.2⟩⟩
    · cases hrest
      cases matching with
      | false => cases hslot
      | true => exact ⟨hmatching, .inl ⟨slots, hslots, (Finset.mem_inter.mp hslot).2⟩⟩
    · obtain ⟨matched, hmatched, hr⟩ := bind_eq_ok_iff.mp hrest
      cases hr
      cases matched with
      | false => cases hslot
      | true => exact ⟨hmatched, .inr ⟨htype.1, Finset.mem_singleton.mp hslot, htype.2⟩⟩
    · cases hmatching
      cases hrest
      cases hslot

/-- What is sufficient rests on this much. -/
structure Supported (L : Language) (now : Instant) (need : InformationNeed)
    (rows : List TypedRow) (d : SufficiencyDecision) : Prop where
  /-- Every slot is shown by a row, or by two that are about different things. -/
  slots : ∀ slot ∈ need.val.requiredSlots,
    (∃ row ∈ rows, row.recordId ∈ d.val.evidenceIds ∧ row.Shows L need slot) ∨
      (need.val.type = .relationalSynthesis ∧
        slot ∈ ["entities", "relations", "supporting_evidence"] ∧
        ∃ a ∈ rows, ∃ b ∈ rows, a.recordId ∈ d.val.evidenceIds ∧ b.recordId ∈ d.val.evidenceIds ∧
          a.Named L ∧ b.Named L ∧ a.pair L ≠ b.pair L)
  /-- Every obligation is met by a row. -/
  obligations : ∀ i, (hi : i < need.val.obligations.length) →
    ∃ row ∈ rows, row.recordId ∈ d.val.evidenceIds ∧
      matchesSingleObligation L need.val.obligations[i] row.unit = true
  /-- A row has not expired. -/
  fresh : ∃ row ∈ rows, row.recordId ∈ d.val.evidenceIds ∧ ¬ row.Past now
  /-- No two rows disagree. -/
  agreed : ∀ a ∈ rows, ∀ b ∈ rows, ¬ Disagree L need a b

/-- **What is sufficient is supported.** -/
theorem sufficient_supported (h : decideSufficiency L H now need rows = .ok d)
    (hstatus : d.val.status = .sufficient) : Supported L now need rows d := by
  obtain ⟨t, ht, hval⟩ := decideSufficiency_eq_ok h
  rw [hval] at hstatus
  obtain ⟨hnil, hfresh, hcovered⟩ := status_sufficient_iff.mp hstatus
  have hmet := obligations_met hcovered
  -- nothing is contradicted, so no evidence is withheld
  have hids : ∀ id, id ∈ d.val.evidenceIds ↔ id ∈ t.evidenceIds := by
    intro id
    rw [hval]
    change id ∈ (if t.status need = .unsupported then [] else _) ↔ _
    rw [if_neg (by rw [show t.status need = .sufficient from hstatus]; decide),
      List.mem_eraseDups, List.mem_filter, hnil]
    simp
  have hbears : ∀ row ∈ rows, row.Bears L need → row.recordId ∈ d.val.evidenceIds :=
    fun row hrow hb => (hids _).mpr ((ht.evidence _).mpr ⟨row, hrow, hb, rfl⟩)
  refine ⟨fun slot hslot => ?_, fun i hi => ?_, ?_, fun a ha b hb hdis => ?_⟩
  · have hin := hcovered slot hslot
    unfold Tally.coveredFinally at hin
    rw [if_pos hmet] at hin
    rcases Finset.mem_union.mp hin with hin | hin
    · obtain ⟨row, hrow, hmem⟩ := (ht.covered slot).mp hin
      exact .inl ⟨row, hrow, hbears row hrow ⟨slot, hmem⟩, shows_of_mem hmem⟩
    · -- what no row covers is covered by two rows that differ
      split_ifs at hin with htwo
      · obtain ⟨p, hp, q, hq, hpq⟩ := Finset.one_lt_card.mp htwo.2
        obtain ⟨a, ha, haB, haN, rfl⟩ := (ht.pairs p).mp hp
        obtain ⟨b, hb, hbB, hbN, rfl⟩ := (ht.pairs q).mp hq
        exact .inr ⟨htwo.1, by simpa using hin, a, ha, b, hb, hbears a ha haB, hbears b hb hbB,
          haN, hbN, hpq⟩
      · cases hin
  · obtain ⟨row, hrow, hb, hmem⟩ := (ht.obligations i).mp (hmet ▸ Finset.mem_range.mpr hi)
    have hmatch := (Finset.mem_filter.mp hmem).2
    rw [List.getElem?_eq_getElem hi, Option.any_some] at hmatch
    exact ⟨row, hrow, hbears row hrow hb, hmatch⟩
  · obtain ⟨slot, hslot⟩ := List.exists_mem_of_ne_nil _ (requiredSlots_ne_nil need).1
    -- not all of the evidence is stale
    obtain ⟨id, hid, hnot⟩ : ∃ id ∈ t.evidenceIds, id ∉ t.staleIds := by
      by_cases hstale : t.staleIds = []
      · obtain ⟨id, hid⟩ := List.exists_mem_of_ne_nil _ (ht.exists_bears (hcovered slot hslot))
        exact ⟨id, hid, hstale ▸ List.not_mem_nil⟩
      · by_contra hall
        push Not at hall
        exact hfresh ⟨hstale, hall⟩
    obtain ⟨row, hrow, hb, rfl⟩ := (ht.evidence id).mp hid
    refine ⟨row, hrow, hbears row hrow hb, fun hpast => hnot ?_⟩
    exact (ht.stale _).mpr ⟨row, hrow, hb, rfl, hpast⟩
  · exact (ht.contradictions_ne_nil_iff.mpr ⟨a, ha, b, hb, hdis⟩) hnil

/-! ## How old the user is -/

/-- A language of ASCII texts. -/
def exampleLanguage : Language where
  unicode := { lower := String.toLower, casefold := String.toLower, nfkc := id,
               isAlnum := Char.isAlphanum }
  loads _ := .error .jsonDecodeError
  strValue _ := ""
  strTuple values := " ".intercalate (values.map fun
    | .str s => s
    | _ => "")

/-- A digest that is the same of everything. -/
def exampleHashing : Hashing where
  digest _ := ""
  sha256Hex _ := String.ofList (List.replicate 64 'a')

/-- The age of the user is asked for. -/
def ageNeed : InformationNeed :=
  ⟨{ needId := "need-1", type := .exactFact, entities := ["user"], relationOrAction := some "age",
     requiredSlots := ["entity", "value"] }, by decide +kernel⟩

theorem ageScope_ok : (⟨"user", "agent", "w"⟩ : AuthorityScopeFields).postInit = .ok () := by
  decide +kernel

/-- The scope of the example. -/
def ageScope : AuthorityScope := ⟨⟨"user", "agent", "w"⟩, ageScope_ok⟩

theorem ageEvidence_ok : (⟨"message", "sha256:" ++ String.ofList (List.replicate 64 '0'), 0, 12,
    "sha256:" ++ String.ofList (List.replicate 64 '1')⟩ : ProposalEvidenceFields).postInit =
      .ok () := by
  decide +kernel

/-- The first twelve characters of a message. -/
def ageEvidence : ProposalEvidence :=
  ⟨⟨"message", "sha256:" ++ String.ofList (List.replicate 64 '0'), 0, 12,
    "sha256:" ++ String.ofList (List.replicate 64 '1')⟩, ageEvidence_ok⟩

/-- Somebody's age, until a moment. -/
def ageFields (subject age : String) (validUntil : Option Timestamp) : MemoryUnitFields :=
  { unitId := "unit", formationId := "formation", scope := ageScope,
    payload := .atomicFact subject "age" age .positive, evidence := [ageEvidence],
    confidence := ⟨1, "1.0"⟩, validUntil := validUntil }

theorem ageFields_ok : (ageFields "user" "45" none).postInit = .ok () := by
  decide +kernel

/-- The age of the user, and once that of the sister. -/
def ageRows : List TypedRow :=
  [⟨"record-1", "age", ⟨ageFields "user" "45" none, ageFields_ok⟩⟩,
    ⟨"record-2", "age", ⟨ageFields "sister" "46" (some ⟨"2020-01-01T00:00:00+00:00",
      63713433600000000⟩), by decide +kernel⟩⟩]

theorem isDigest_exampleHashing (text : String) :
    isDigest ("sha256:" ++ exampleHashing.sha256Hex text) = true :=
  (by decide +kernel : isDigest ("sha256:" ++ String.ofList (List.replicate 64 'a')) = true)

/-- The rows of the example can be read. -/
theorem readable_ageRows : ∀ row ∈ ageRows, row.Readable exampleLanguage ageNeed := by
  refine fun row hrow => ⟨?_, fun _ u hu => ?_⟩
  · rcases List.mem_cons.mp hrow with rfl | hrow
    · exact ⟨_, rfl⟩
    · cases List.mem_singleton.mp hrow
      exact ⟨_, rfl⟩
  · rcases List.mem_cons.mp hrow with rfl | hrow
    · cases hu
    · cases List.mem_singleton.mp hrow
      cases hu
      decide

/-- The user's age is decided, also of the rows the other way round. -/
theorem age_steady : ∃ d, decideSufficiency exampleLanguage exampleHashing 63800000000000000
    ageNeed ageRows = .ok d ∧
      Steady exampleLanguage exampleHashing 63800000000000000 ageNeed ageRows d := by
  have hsteady := fun now => @steady_iff exampleLanguage exampleHashing now ageNeed ageRows
    isDigest_exampleHashing (by decide)
  obtain ⟨d, hd⟩ := (hsteady 63800000000000000).1.mpr readable_ageRows
  exact ⟨d, hd, (hsteady _).2 d hd⟩

/-- It is supported. -/
theorem age_supported : ∃ d, decideSufficiency exampleLanguage exampleHashing 63800000000000000
    ageNeed ageRows = .ok d ∧ d.val.status = .sufficient ∧
      Supported exampleLanguage 63800000000000000 ageNeed ageRows d := by
  have hstatus : (decideSufficiency exampleLanguage exampleHashing 63800000000000000 ageNeed
      ageRows).toOption.map (·.val.status) = some .sufficient := by decide +kernel
  obtain ⟨d, hd, hsufficient⟩ := Option.map_eq_some_iff.mp hstatus
  have hok := toOption_eq_some.mp hd
  exact ⟨d, hok, hsufficient, sufficient_supported hok hsufficient⟩

end Atmem.Sufficiency
