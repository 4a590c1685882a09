import Atmem.Retrieve.Helpers.Choosing
import Atmem.Retrieve.Properties.Sufficiency
/-!
# What a context package delivers

A package that is assembled describes what stands in its text: the records
it names, their units, spans and sources are those of the memory blocks,
and every other nominee is excluded. Of a contradiction among the nominees
both sides are delivered, or nothing is.
-/

namespace Atmem.Assembly

open Checked FirstFit Sufficiency

variable {L : Language} {H : Hashing} {project : Projection} {clock : Reading → Instant}
variable {need : InformationNeed} {naming : Naming} {budget : RetrievalBudget}
variable {rows held : List Nominee} {p : ContextPackage H}
variable {full own d : SufficiencyDecision} {conflicts : List String}

/-! ## What is judged -/

/-- It says that nothing supports. -/
theorem unsupportedDecision_status {reason : String}
    (h : unsupportedDecision H need reason = .ok d) : d.val.status = .unsupported := by
  rw [make_eq_ok.mp (mapError_eq_ok.mp h)]

/-- **A known contradiction is said or nothing is supported**; without one,
what is said is of the rows that are held. -/
theorem judge_spec (h : judge H need full conflicts held own = .ok d) :
    if full.val.status = .contradictory then
      (∀ id ∈ conflicts, id ∈ idsOf held) ∧ d = full ∨ d.val.status = .unsupported
    else d = own ∨ d.val.status = .partly := by
  unfold judge at h
  split at h
  · rename_i hfull
    rw [if_pos hfull]
    split at h
    · rename_i hheld
      cases h
      exact .inl ⟨hheld, rfl⟩
    · exact .inr (unsupportedDecision_status h)
  · rename_i hfull
    rw [if_neg hfull]
    split at h
    · right
      rw [make_eq_ok.mp (mapError_eq_ok.mp h)]
    · cases h
      exact .inl rfl

/-! ## What is written -/

/-- What a package says of its rows, and of those it leaves out. -/
structure Delivers (L : Language) (project : Projection) (need : InformationNeed)
    (budget : RetrievalBudget) (rows : List Nominee) (p : ContextPackage H)
    (held : List Nominee) : Prop where
  recordIds : p.val.recordIds = idsOf held
  units : p.val.selectedUnits = held.map (·.unit)
  provenance : p.val.provenance = held.flatMap provenanceOf
  sources : p.val.sourceIds =
    (held.flatMap fun row => row.unit.val.evidence.map (·.val.sourceId)).eraseDups
  others : (p.val.recordIds ++ p.val.excludedEvidenceIds).Perm (idsOf rows)
  empty : p.val.sufficiency.val.status = .unsupported → held = [] ∧ p.val.context = ""
  context : p.val.sufficiency.val.status ≠ .unsupported → p.val.context =
    header need p.val.sufficiency ++ String.join (held.map (memoryBlock L project need)) ++
      String.join (p.val.actionConstraints.map constraintBlock) ++ closing
  bytes : p.val.context.utf8ByteSize ≤ budget.contextBytes
  constraints : ∀ constraint ∈ p.val.actionConstraints, ∃ row ∈ held,
    actionConstraint row p.val.sufficiency.val.status = .ok (some constraint)

theorem subperm_ids (hheld : held.Subperm rows) : (idsOf held).Subperm (idsOf rows) := by
  obtain ⟨l, hperm, hsub⟩ := hheld
  exact ⟨idsOf l, hperm.map _, hsub.map _⟩

theorem nodup_ids (hids : (idsOf rows).Nodup) (hheld : held.Subperm rows) :
    (idsOf held).Nodup := by
  obtain ⟨ids, hperm, hsub⟩ := subperm_ids hheld
  exact hperm.nodup_iff.mp (hids.sublist hsub)

/-- The ids of some of the rows, and of the others. -/
theorem perm_ids (hids : (idsOf rows).Nodup) (hheld : held.Subperm rows) :
    (idsOf held ++ (idsOf rows).filter (· ∉ idsOf held)).Perm (idsOf rows) := by
  have hsub := subperm_ids hheld
  have hnodup : (idsOf held ++ (idsOf rows).filter (· ∉ idsOf held)).Nodup := by
    refine List.nodup_append.mpr ⟨nodup_ids hids hheld, hids.filter _, fun a ha b hb heq => ?_⟩
    rw [heq] at ha
    exact of_decide_eq_true (List.mem_filter.mp hb).2 ha
  refine (List.perm_ext_iff_of_nodup hnodup hids).mpr fun id => ?_
  rw [List.mem_append, List.mem_filter]
  by_cases hid : id ∈ idsOf held
  · simp [hid, hsub.subset hid]
  · simp [hid]

/-- Rows that are kept in order, and all of whose ids are kept. -/
theorem eq_of_ids {kept : List Nominee} (hsub : kept.Sublist held) (hids : (idsOf held).Nodup)
    (hall : ∀ row ∈ held, row.recordId ∈ idsOf kept) : kept = held := by
  have hsubset : idsOf held ⊆ idsOf kept := fun id hid => by
    obtain ⟨row, hrow, rfl⟩ := List.mem_map.mp hid
    exact hall row hrow
  have hle := (hids.subperm hsubset).length_le
  rw [idsOf, idsOf, List.length_map, List.length_map] at hle
  exact hsub.eq_of_length_le hle

/-- A unit has evidence. -/
theorem evidence_ne_nil (unit : MemoryUnit) : unit.val.evidence ≠ [] := by
  have hok := unit.property
  simp only [MemoryUnitFields.postInit, bind_eq_ok, ensure_eq_ok] at hok
  exact hok.2.2.2.1

/-- What is written is of the rows that are held. -/
theorem write_spec {written : Serialized} (h : write L project need budget d held = .ok written) :
    written.rows.Sublist held ∧ (∀ constraint ∈ written.constraints, ∃ row ∈ held,
      actionConstraint row d.val.status = .ok (some constraint)) ∧
    written.context = header need d ++
      String.join (written.rows.map (memoryBlock L project need)) ++
      String.join (written.constraints.map constraintBlock) ++ closing := by
  obtain ⟨constraints, hconstraints, h⟩ := bind_eq_ok_iff.mp h
  obtain ⟨options, hoptions, hcs⟩ := bind_eq_ok_iff.mp hconstraints
  cases hcs
  cases h
  refine ⟨firstFit_sublist _ _, fun constraint hmem => ?_, rfl⟩
  exact exists_of_mem_mapM hoptions
    (List.reduceOption_mem_iff.mp ((firstFit_sublist _ _).subset hmem))

/-- What the package's own checks come to. -/
theorem package_checked (p : ContextPackage H) :
    p.val.context.utf8ByteSize ≤ p.val.budget.contextBytes ∧
      (∀ row ∈ p.val.provenance, row.recordId ∈ p.val.recordIds) := by
  have hok := p.property
  simp only [ContextPackageFields.postInit, bind_eq_ok, ensure_eq_ok] at hok
  obtain ⟨-, -, -, hbytes, -, -, -, -, hprovenance, -⟩ := hok
  exact ⟨hbytes, fun row hrow => (hprovenance row hrow).1⟩

/-- **What is delivered is what is described**: the spans of a row that was
not written would be refused. -/
theorem delivers_of_supported (hids : (idsOf rows).Nodup) (hheld : held.Subperm rows)
    {written : Serialized} (hwritten : write L project need budget d held = .ok written)
    (hstatus : d.val.status ≠ .unsupported)
    (h : supportedPackage H clock need naming budget d rows held written = .ok p) :
    Delivers L project need budget rows p held ∧ p.val.sufficiency = d := by
  have hval := make_eq_ok.mp (mapError_eq_ok.mp h)
  obtain ⟨hsub, hconstraints, hcontext⟩ := write_spec hwritten
  obtain ⟨hbytes, hprovenance⟩ := package_checked p
  have hrows : written.rows = held := by
    refine eq_of_ids hsub (nodup_ids hids hheld) fun row hrow => ?_
    obtain ⟨e, he⟩ := List.exists_mem_of_ne_nil _ (evidence_ne_nil row.unit)
    rw [hval] at hprovenance
    exact hprovenance ⟨row.recordId, e.val.sourceId, e.val.startOffset, e.val.endOffset,
      e.val.excerptSha256⟩ (List.mem_flatMap.mpr ⟨row, hrow, List.mem_map.mpr ⟨e, he, rfl⟩⟩)
  rw [hval] at hbytes
  refine ⟨⟨?_, ?_, ?_, ?_, ?_, ?_, ?_, ?_, ?_⟩, ?_⟩ <;> simp only [hval]
  · rw [hrows]
  · rw [hrows]
    exact perm_ids hids hheld
  · exact fun hnot => absurd hnot hstatus
  · intro _
    rw [hcontext, hrows]
  · exact hbytes
  · exact hconstraints

/-- A package without support holds no row. -/
theorem delivers_of_unsupported (hstatus : d.val.status = .unsupported)
    (h : unsupportedPackage H clock need naming budget d rows = .ok p) :
    Delivers L project need budget rows p [] ∧ p.val.sufficiency = d := by
  have hval := make_eq_ok.mp (mapError_eq_ok.mp h)
  obtain ⟨hbytes, -⟩ := package_checked p
  rw [hval] at hbytes
  refine ⟨⟨?_, ?_, ?_, ?_, ?_, ?_, ?_, ?_, ?_⟩, ?_⟩ <;> simp only [hval]
  · rfl
  · rfl
  · rfl
  · rfl
  · exact .refl _
  · exact fun _ => ⟨trivial, trivial⟩
  · exact fun hnot => absurd hstatus hnot
  · exact hbytes
  · exact fun _ hmem => absurd hmem List.not_mem_nil

/-- One record, one row. -/
theorem eq_of_recordId (hids : (idsOf rows).Nodup) {a b : Nominee} (ha : a ∈ rows) (hb : b ∈ rows)
    (h : a.recordId = b.recordId) : a = b :=
  List.inj_on_of_nodup_map hids ha hb h

/-- A row that is contradicted, and what it disagrees with. -/
theorem exists_opposed {now : Instant} (hfull : decide L H now need rows = .ok full) {id : String}
    (hid : id ∈ full.val.contradictionIds) : ∃ a ∈ rows, ∃ b ∈ rows,
      a.recordId = id ∧ opposes L a.toTypedRow b.toTypedRow = true := by
  obtain ⟨t, ht, hval⟩ := decideSufficiency_eq_ok hfull
  rw [hval] at hid
  obtain ⟨r, hr, hrid, other, hother, hdis⟩ :=
    ht.keeping.contradicted id (List.mem_eraseDups.mp hid)
  obtain ⟨a, ha, rfl⟩ := List.mem_map.mp hr
  obtain ⟨b, hb, rfl⟩ := List.mem_map.mp hother
  obtain ⟨-, -, hkey, hvalue⟩ := hdis
  refine ⟨a, ha, b, hb, hrid, ?_⟩
  simp only [opposes, Bool.and_eq_true, decide_eq_true_eq]
  exact ⟨hkey.symm, fun heq => hvalue heq.symm⟩

/-- **Both sides of a contradiction are held** where its evidence is. -/
theorem both_sides (hids : (idsOf rows).Nodup) (hheld : held.Subperm rows) {now : Instant}
    (hfull : decide L H now need rows = .ok full)
    (hevidence : ∀ id ∈ conflictEvidenceIds L rows full.val.contradictionIds, id ∈ idsOf held) :
    ∀ id ∈ full.val.contradictionIds, ∃ a ∈ held, ∃ b ∈ held,
      a.recordId = id ∧ opposes L a.toTypedRow b.toTypedRow = true := by
  have hholds : ∀ r ∈ rows, r.recordId ∈ idsOf held → r ∈ held := fun r hr hmem => by
    obtain ⟨r', hr', heq⟩ := List.mem_map.mp hmem
    rwa [eq_of_recordId hids hr (hheld.subset hr') heq.symm]
  intro id hid
  obtain ⟨a, ha, other, hother, rfl, hopposed⟩ := exists_opposed hfull hid
  -- the row of that record, and the first that says something else
  have hlast : (rows.filter (·.recordId = a.recordId)).getLast? = some a := by
    cases hl : (rows.filter (·.recordId = a.recordId)).getLast? with
    | none =>
      rw [List.getLast?_eq_none_iff, List.filter_eq_nil_iff] at hl
      exact absurd (decide_eq_true rfl) (hl a ha)
    | some r =>
      obtain ⟨hr, heq⟩ := List.mem_filter.mp (List.mem_of_getLast? hl)
      rw [eq_of_recordId hids hr ha (of_decide_eq_true heq)]
  obtain ⟨b, hb⟩ : ∃ b, (rows.find? fun candidate =>
      opposes L a.toTypedRow candidate.toTypedRow) = some b :=
    Option.isSome_iff_exists.mp (List.find?_isSome.mpr ⟨other, hother, hopposed⟩)
  have hopposing : b.recordId ∈ conflictEvidenceIds L rows full.val.contradictionIds := by
    refine List.mem_append_right _ (List.mem_filterMap.mpr ⟨a.recordId, hid, ?_⟩)
    rw [hlast, Option.bind_some, hb, Option.map_some]
  have hopposes : opposes L a.toTypedRow b.toTypedRow = true := by
    simpa using List.find?_some hb
  exact ⟨a, hholds a ha (hevidence _ (List.mem_append_left _ hid)), b,
    hholds b (List.mem_of_find?_eq_some hb) (hevidence _ hopposing), rfl, hopposes⟩

/-! ## Assembling -/

/-- How a package comes about: of some rows that were chosen, it delivers
those that are `held`, under the decision on them or on all. -/
structure Assembled (L : Language) (H : Hashing) (project : Projection) (clock : Reading → Instant)
    (need : InformationNeed) (budget : RetrievalBudget) (rows : List Nominee)
    (full : SufficiencyDecision) (p : ContextPackage H) (held : List Nominee) : Prop where
  delivers : Delivers L project need budget rows p held
  nominated : held.Subperm rows
  few : held.length ≤ maxContextUnits
  judged : p.val.sufficiency.val.status = .unsupported ∨ ∃ now ∈ [clock .chosen, clock .packed],
    ∃ own, decide L H now need held = .ok own ∧ judge H need full
      (conflictEvidenceIds L rows full.val.contradictionIds) held own = .ok p.val.sufficiency

/-- **How a package came about.** -/
theorem assembled (hids : (idsOf rows).Nodup)
    (h : assembleContextV2 L H project clock need naming budget rows = .ok p) :
    ∃ full, decide L H (clock .all) need rows = .ok full ∧
      ∃ held, Assembled L H project clock need budget rows full p held := by
  obtain ⟨chosen, hchosen, h⟩ := bind_eq_ok_iff.mp h
  obtain ⟨full, hfull, h⟩ := bind_eq_ok_iff.mp h
  obtain ⟨own, hown, h⟩ := bind_eq_ok_iff.mp h
  obtain ⟨d, hd, h⟩ := bind_eq_ok_iff.mp h
  obtain ⟨-, -, hnominated, hfew, -⟩ := complementaryRows_spec hchosen
  refine ⟨full, hfull, ?_⟩
  -- unsupported: nothing is delivered
  split at h
  · rename_i hstatus
    obtain ⟨hdelivers, rfl⟩ : Delivers L project need budget rows p [] ∧ p.val.sufficiency = d :=
      delivers_of_unsupported hstatus h
    exact ⟨[], hdelivers, List.nil_subperm, Nat.zero_le _, .inl hstatus⟩
  · rename_i hstatus
    obtain ⟨written, hwritten, h⟩ := bind_eq_ok_iff.mp h
    split at h
    · -- all that was chosen was written
      obtain ⟨hdelivers, rfl⟩ := delivers_of_supported hids hnominated hwritten hstatus h
      exact ⟨chosen, hdelivers, hnominated, hfew,
        .inr ⟨_, List.mem_cons_self, own, hown, hd⟩⟩
    · obtain ⟨own', hown', h⟩ := bind_eq_ok_iff.mp h
      obtain ⟨d', hd', h⟩ := bind_eq_ok_iff.mp h
      -- what was left out is taken away, and the rest decided anew
      have hsub := List.filter_sublist (p := fun row : Nominee =>
        Decidable.decide (row.recordId ∈ idsOf written.rows)) (l := chosen)
      split at h
      · rename_i hstatus'
        obtain ⟨hdelivers, rfl⟩ :
            Delivers L project need budget rows p [] ∧ p.val.sufficiency = d' :=
          delivers_of_unsupported hstatus' h
        exact ⟨[], hdelivers, List.nil_subperm, Nat.zero_le _, .inl hstatus'⟩
      · rename_i hstatus'
        obtain ⟨rewritten, hrewritten, h⟩ := bind_eq_ok_iff.mp h
        have hnominated' := hsub.subperm.trans hnominated
        obtain ⟨hdelivers, rfl⟩ := delivers_of_supported hids hnominated' hrewritten hstatus' h
        exact ⟨_, hdelivers, hnominated', hsub.length_le.trans hfew,
          .inr ⟨_, List.mem_cons_of_mem _ List.mem_cons_self, own', hown', hd'⟩⟩

/-- **A package describes what it delivers.** -/
theorem package_describes_context (hids : (idsOf rows).Nodup)
    (h : assembleContextV2 L H project clock need naming budget rows = .ok p) :
    ∃ held, held.Subperm rows ∧ held.length ≤ maxContextUnits ∧
      Delivers L project need budget rows p held := by
  obtain ⟨full, -, held, ha⟩ := assembled hids h
  exact ⟨held, ha.nominated, ha.few, ha.delivers⟩

/-- What is said of what is delivered. -/
structure Honest (L : Language) (H : Hashing) (clock : Reading → Instant) (need : InformationNeed)
    (full : SufficiencyDecision) (p : ContextPackage H) (held : List Nominee) : Prop where
  contradictory : full.val.status = .contradictory →
    p.val.sufficiency.val.status = .unsupported ∨ p.val.sufficiency = full ∧
      ∀ id ∈ full.val.contradictionIds, ∃ a ∈ held, ∃ b ∈ held,
        a.recordId = id ∧ opposes L a.toTypedRow b.toTypedRow = true
  consistent : full.val.status ≠ .contradictory →
    p.val.sufficiency.val.status ≠ .contradictory
  sufficient : p.val.sufficiency.val.status = .sufficient →
    ∃ now ∈ [clock .chosen, clock .packed], decide L H now need held = .ok p.val.sufficiency

/-- A contradiction is two rows that disagree. -/
theorem status_of_decide {now : Instant} (h : decide L H now need rows = .ok d) :
    d.val.status = .contradictory ↔ ∃ a ∈ rows, ∃ b ∈ rows,
      TypedRow.Disagree L need a.toTypedRow b.toTypedRow := by
  obtain ⟨t, ht, hval⟩ := decideSufficiency_eq_ok h
  have hiff : d.val.status = .contradictory ↔ t.contradictions ≠ [] := by
    rw [hval]
    exact status_contradictory_iff
  refine (hiff.trans ht.contradictions_ne_nil_iff).trans ⟨?_, ?_⟩
  · rintro ⟨r, hr, r', hr', hdis⟩
    obtain ⟨a, ha, rfl⟩ := List.mem_map.mp hr
    obtain ⟨b, hb, rfl⟩ := List.mem_map.mp hr'
    exact ⟨a, ha, b, hb, hdis⟩
  · rintro ⟨a, ha, b, hb, hdis⟩
    exact ⟨_, List.mem_map_of_mem ha, _, List.mem_map_of_mem hb, hdis⟩

/-- **A known conflict is never a confident answer.** It is delivered with
both of its sides, and said to be one, or nothing is delivered; and what is
said to suffice is what the rows that are delivered were decided to do. -/
theorem known_conflicts_are_said (hids : (idsOf rows).Nodup)
    (h : assembleContextV2 L H project clock need naming budget rows = .ok p) :
    ∃ full, decide L H (clock .all) need rows = .ok full ∧ ∃ held,
      Delivers L project need budget rows p held ∧ Honest L H clock need full p held := by
  obtain ⟨full, hfull, held, ha⟩ := assembled hids h
  refine ⟨full, hfull, held, ha.delivers, ?_, ?_, ?_⟩
  · intro hcontra
    rcases ha.judged with hnone | ⟨now, -, own, -, hjudge⟩
    · exact .inl hnone
    · have hspec := judge_spec hjudge
      rw [if_pos hcontra] at hspec
      rcases hspec with ⟨hevidence, heq⟩ | hnone
      · exact .inr ⟨heq, both_sides hids ha.nominated hfull hevidence⟩
      · exact .inl hnone
  · intro hcontra hstatus
    rcases ha.judged with hnone | ⟨now, -, own, hown, hjudge⟩
    · rw [hnone] at hstatus
      cases hstatus
    · have hspec := judge_spec hjudge
      rw [if_neg hcontra] at hspec
      rcases hspec with rfl | hpartly
      · obtain ⟨a, ha', b, hb', hdis⟩ := (status_of_decide hown).mp hstatus
        exact hcontra ((status_of_decide hfull).mpr
          ⟨a, ha.nominated.subset ha', b, ha.nominated.subset hb', hdis⟩)
      · rw [hpartly] at hstatus
        cases hstatus
  · intro hstatus
    rcases ha.judged with hnone | ⟨now, hnow, own, hown, hjudge⟩
    · rw [hnone] at hstatus
      cases hstatus
    · have hspec := judge_spec hjudge
      split at hspec
      · rename_i hcontra
        rcases hspec with ⟨-, heq⟩ | hnone
        · rw [heq, hcontra] at hstatus
          cases hstatus
        · rw [hnone] at hstatus
          cases hstatus
      · rcases hspec with rfl | hpartly
        · exact ⟨now, hnow, hown⟩
        · rw [hpartly] at hstatus
          cases hstatus

/-! ## How old the user is, once more -/

/-- The names that the package is given. -/
def ageNaming : Naming := ⟨"context", ageScope, "profile", 0, "preparation"⟩

/-- A row on the user's age, in its place. -/
def ageNominee (recordId age : String) (rank : ℕ)
    (hok : (ageFields "user" age none).postInit = .ok ()) : Nominee :=
  ⟨⟨recordId, "age", ⟨ageFields "user" age none, hok⟩⟩, rank⟩

/-- Two rows about the age. -/
def ageNominees : List Nominee :=
  [ageNominee "record-1" "45" 1 ageFields_ok,
    ageNominee "record-2" "46" 2 (by decide +kernel)]

/-- The package for a need to know it. -/
def agePackage : Except Raised (ContextPackage exampleHashing) :=
  assembleContextV2 exampleLanguage exampleHashing (fun value _ _ => value)
    (fun _ => 63800000000000000) ageNeed ageNaming ⟨8192⟩ ageNominees

/-- Two rows conflict. -/
theorem exists_agePackage :
    ∃ p, agePackage = .ok p ∧ p.val.sufficiency.val.status = .contradictory := by
  have hstatus : agePackage.toOption.map (·.val.sufficiency.val.status) =
      some .contradictory := by decide +kernel
  obtain ⟨p, hp, hcontra⟩ := Option.map_eq_some_iff.mp hstatus
  exact ⟨p, toOption_eq_some.mp hp, hcontra⟩

/-- The package of the example, described. -/
theorem age_described : ∃ p, agePackage = .ok p ∧ ∃ held, held.Subperm ageNominees ∧
    held.length ≤ maxContextUnits ∧
      Delivers exampleLanguage (fun value _ _ => value) ageNeed ⟨8192⟩ ageNominees p held := by
  obtain ⟨p, hok, -⟩ := exists_agePackage
  exact ⟨p, hok, package_describes_context (by decide) hok⟩

/-- The package has both, and says that they conflict. -/
theorem age_conflict_said : ∃ p, agePackage = .ok p ∧
    p.val.sufficiency.val.status = .contradictory ∧ ∃ full, decide exampleLanguage exampleHashing
      63800000000000000 ageNeed ageNominees = .ok full ∧ ∃ held,
        Delivers exampleLanguage (fun value _ _ => value) ageNeed ⟨8192⟩ ageNominees p held ∧
          Honest exampleLanguage exampleHashing (fun _ => 63800000000000000) ageNeed
            full p held := by
  obtain ⟨p, hok, hcontra⟩ := exists_agePackage
  exact ⟨p, hok, hcontra, known_conflicts_are_said (by decide) hok⟩

end Atmem.Assembly
