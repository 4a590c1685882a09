import Atmem.Common.Checked
import Atmem.Common.Grouping
import Atmem.Execution.Model.Projection
/-!
# What a projection calls missing

A projection looks for holes in the numbers of its own execution. A number
between two of them that another execution of the producer bears is there, and
is still called missing. So its ranges are real exactly where no other event
stands between the execution's own (`reports_real_gaps_iff`).
-/

namespace Atmem.Execution

open Checked Gaps Grouping

variable {V : Values} {events : List Json} {subjectId executionId : String}
variable {rows selected : List Selected} {report : Projection}
variable {k : String × String} {n : ℤ}

/-! ## What is there -/

/-- An event of the collection bears a number of a producer and epoch. -/
def Present (V : Values) (events : List Json) (k : String × String) (n : ℤ) : Prop :=
  ∃ raw ∈ events, ∃ body, bodyOf V raw = .ok body ∧ positionOf V body = some (k, n)

/-- An event of the execution does. -/
def Own (V : Values) (events : List Json) (subjectId executionId : String) (k : String × String)
    (n : ℤ) : Prop :=
  ∃ raw ∈ events, ∃ body, bodyOf V raw = .ok body ∧
    selects V subjectId executionId body = true ∧ positionOf V body = some (k, n)

/-- The number is strictly between two of the execution's. -/
def Between (V : Values) (events : List Json) (subjectId executionId : String)
    (k : String × String) (n : ℤ) : Prop :=
  (∃ a, Own V events subjectId executionId k a ∧ a < n) ∧
    ∃ b, Own V events subjectId executionId k b ∧ n < b

/-- A range of a producer and epoch reports a number. -/
def CoverageGap.Reports (k : String × String) (n : ℤ) (g : CoverageGap) : Prop :=
  (g.producerInstanceId, g.producerEpoch) = k ∧ Within n (g.firstSequence, g.lastSequence)

instance : DecidablePred (CoverageGap.Reports k n) := fun g =>
  inferInstanceAs (Decidable (_ ∧ Within n (g.firstSequence, g.lastSequence)))

/-- **Only real gaps are reported**, and each of them once. -/
structure ReportsRealGaps (V : Values) (events : List Json) (subjectId executionId : String)
    (report : Projection) : Prop where
  absent : ∀ g ∈ report.coverageGaps, ∀ k n, g.Reports k n → ¬ Present V events k n
  once : ∀ k n, Between V events subjectId executionId k n → ¬ Present V events k n →
    report.coverageGaps.countP (CoverageGap.Reports k n) = 1

/-! ## What is selected -/

/-- The rows that are read are those of the events. -/
theorem mem_readEvents (h : readEvents V events = .ok rows) {row : Selected} :
    row ∈ rows ↔ row.raw ∈ events ∧ bodyOf V row.raw = .ok row.body := by
  unfold readEvents at h
  induction events generalizing rows with
  | nil =>
    cases h
    simp
  | cons raw events ih =>
    rw [List.mapM_cons] at h
    obtain ⟨first, hfirst, h⟩ := bind_eq_ok_iff.mp h
    obtain ⟨rest, hrest, h⟩ := bind_eq_ok_iff.mp h
    obtain ⟨body, hbody, hpair⟩ := bind_eq_ok_iff.mp hfirst
    obtain rfl := Except.ok.inj hpair
    obtain rfl := Except.ok.inj h
    rw [List.mem_cons, List.mem_cons, ih hrest]
    constructor
    · rintro (rfl | ⟨hmem, hrow⟩)
      · exact ⟨.inl rfl, hbody⟩
      · exact ⟨.inr hmem, hrow⟩
    · rintro ⟨heq | hmem, hrow⟩
      · rw [heq, hbody] at hrow
        obtain ⟨raw', body'⟩ := row
        obtain rfl : raw' = raw := heq
        exact .inl (congrArg _ (Except.ok.inj hrow).symm)
      · exact .inr ⟨hmem, hrow⟩

/-- Sorting loses nothing. -/
theorem perm_of_sortSelected (h : sortSelected V rows = .ok selected) : selected.Perm rows := by
  obtain ⟨keyed, hkeyed, h⟩ := bind_eq_ok_iff.mp h
  have hrows : keyed.map (·.2) = rows := by
    have hmap := map_of_mapM_eq_ok (v := Prod.snd) (g := id) (fun row pair hpair => by
      obtain ⟨key, -, hpair⟩ := bind_eq_ok_iff.mp hpair
      rw [← Except.ok.inj hpair]
      rfl) hkeyed
    rwa [List.map_id] at hmap
  rw [← Except.ok.inj h, ← hrows]
  exact (List.perm_insertionSort _ keyed).map _

/-- **What a projection is made of**: the bodies of the execution's events, in
some order. -/
theorem coverageGaps_of_projection
    (h : executionProjection V events subjectId executionId = .ok report) :
    ∃ bodies, report.coverageGaps = coverageGaps V bodies ∧ ∀ body, body ∈ bodies ↔
      (∃ raw ∈ events, bodyOf V raw = .ok body) ∧ selects V subjectId executionId body = true := by
  obtain ⟨rows, hrows, h⟩ := bind_eq_ok_iff.mp h
  obtain ⟨selected, hselected, h⟩ := bind_eq_ok_iff.mp h
  split at h
  · cases h
  · obtain ⟨-, -, h⟩ := bind_eq_ok_iff.mp h
    obtain ⟨status, -, h⟩ := bind_eq_ok_iff.mp h
    refine ⟨selected.map (·.body), by rw [← Except.ok.inj h], fun body => ?_⟩
    have hmem : ∀ row, row ∈ selected ↔ (row.raw ∈ events ∧ bodyOf V row.raw = .ok row.body) ∧
        selects V subjectId executionId row.body = true := fun row => by
      rw [(perm_of_sortSelected hselected).mem_iff, List.mem_filter, mem_readEvents hrows]
    rw [List.mem_map]
    constructor
    · rintro ⟨row, hrow, rfl⟩
      obtain ⟨⟨hraw, hbody⟩, hselects⟩ := (hmem row).mp hrow
      exact ⟨⟨row.raw, hraw, hbody⟩, hselects⟩
    · rintro ⟨⟨raw, hraw, hbody⟩, hselects⟩
      exact ⟨⟨raw, body⟩, (hmem ⟨raw, body⟩).mpr ⟨⟨hraw, hbody⟩, hselects⟩, rfl⟩

/-! ## What is reported -/

/-- The numbers of a producer and epoch. -/
def numbersOf (k : String × String) (positions : List ((String × String) × ℤ)) : List ℤ :=
  (positions.filter (·.1 = k)).map (·.2)

theorem mem_numbersOf {positions : List ((String × String) × ℤ)} :
    n ∈ numbersOf k positions ↔ (k, n) ∈ positions := by
  unfold numbersOf
  simp

/-- A missing number is in one gap of its stream, and in no other. -/
theorem countP_gapsOf (l : String × String) (numbers : List ℤ) :
    (gapsOf (l, numbers)).countP (CoverageGap.Reports k n) =
      if l = k then (if Missing n numbers then 1 else 0) else 0 := by
  rw [gapsOf, List.countP_map]
  by_cases hl : l = k
  · rw [if_pos hl, ← if_congr missing_distinct rfl rfl, ← countP_gaps (pairwise_distinct numbers)]
    refine List.countP_congr fun g _ => ?_
    simp [CoverageGap.Reports, hl]
  · rw [if_neg hl, List.countP_eq_zero]
    rintro g -
    simp [CoverageGap.Reports, hl]

/-- **A number is reported once where it is missing** among those of its
producer and epoch, and not at all where it is not. -/
theorem countP_coverageGaps (bodies : List Json) (k : String × String) (n : ℤ) :
    (coverageGaps V bodies).countP (CoverageGap.Reports k n) =
      if Missing n (numbersOf k (bodies.filterMap (positionOf V))) then 1 else 0 := by
  have hother : ∀ l ≠ k, (gapsOf (l, numbersOf l (bodies.filterMap (positionOf V)))).countP
      (CoverageGap.Reports k n) = 0 := fun l hl => by rw [countP_gapsOf, if_neg hl]
  rw [coverageGaps, producers, List.flatMap_map]
  refine (countP_flatMap_of_nodup (nodup_eraseDups _) hother).trans ?_
  rw [countP_gapsOf, if_pos rfl]
  split
  · rfl
  · rename_i hkey
    refine (if_neg ?_).symm
    rintro ⟨⟨a, ha, -⟩, -⟩
    exact hkey (List.mem_eraseDups.mpr (List.mem_map.mpr ⟨(k, a), mem_numbersOf.mp ha, rfl⟩))

/-- The numbers the execution's events bear, and those missing among them. -/
theorem missing_iff {bodies : List Json} (hbodies : ∀ body, body ∈ bodies ↔
    (∃ raw ∈ events, bodyOf V raw = .ok body) ∧ selects V subjectId executionId body = true) :
    Missing n (numbersOf k (bodies.filterMap (positionOf V))) ↔
      Between V events subjectId executionId k n ∧ ¬ Own V events subjectId executionId k n := by
  have hown : ∀ m, m ∈ numbersOf k (bodies.filterMap (positionOf V)) ↔
      Own V events subjectId executionId k m := fun m => by
    rw [mem_numbersOf, List.mem_filterMap]
    constructor
    · rintro ⟨body, hbody, hposition⟩
      obtain ⟨⟨raw, hraw, hread⟩, hselects⟩ := (hbodies body).mp hbody
      exact ⟨raw, hraw, body, hread, hselects, hposition⟩
    · rintro ⟨raw, hraw, body, hread, hselects, hposition⟩
      exact ⟨body, (hbodies body).mpr ⟨⟨raw, hraw, hread⟩, hselects⟩, hposition⟩
  simp only [Missing, hown, Between, and_assoc]

/-- A number that was delivered is present. -/
theorem present_of_own (h : Own V events subjectId executionId k n) : Present V events k n := by
  obtain ⟨raw, hraw, body, hread, -, hposition⟩ := h
  exact ⟨raw, hraw, body, hread, hposition⟩

/-- **When a projection reports only real gaps**: exactly when no event that is
not the execution's bears a number between two of its own that it lacks
itself. -/
theorem reports_real_gaps_iff
    (h : executionProjection V events subjectId executionId = .ok report) :
    ReportsRealGaps V events subjectId executionId report ↔
      ∀ k n, Between V events subjectId executionId k n → Present V events k n →
        Own V events subjectId executionId k n := by
  obtain ⟨bodies, hgaps, hbodies⟩ := coverageGaps_of_projection h
  have hcount : ∀ k n, report.coverageGaps.countP (CoverageGap.Reports k n) =
      if Missing n (numbersOf k (bodies.filterMap (positionOf V))) then 1 else 0 := fun k n => by
    rw [hgaps, countP_coverageGaps]
  constructor
  · intro hreal k n hbetween hpresent
    by_contra hown
    have hone := hcount k n
    rw [if_pos ((missing_iff hbodies).mpr ⟨hbetween, hown⟩)] at hone
    obtain ⟨g, hg, hreports⟩ := List.countP_pos_iff.mp (by omega :
      0 < report.coverageGaps.countP (CoverageGap.Reports k n))
    exact hreal.absent g hg k n (of_decide_eq_true hreports) hpresent
  · intro hown
    refine ⟨fun g hg k n hreports hpresent => ?_, fun k n hbetween habsent => ?_⟩
    · have hpos : 0 < report.coverageGaps.countP (CoverageGap.Reports k n) :=
        List.countP_pos_iff.mpr ⟨g, hg, decide_eq_true hreports⟩
      rw [hcount] at hpos
      split at hpos
      · rename_i hmissing
        obtain ⟨hbetween, hnot⟩ := (missing_iff hbodies).mp hmissing
        exact hnot (hown k n hbetween hpresent)
      · exact absurd hpos (lt_irrefl 0)
    · rw [hcount, if_pos ((missing_iff hbodies).mpr
        ⟨hbetween, fun h => habsent (present_of_own h)⟩)]

/-! ## An example -/

/-- Values of texts, numbers and objects only. -/
def plainValues : Values where
  str | .str s => s | _ => ""
  int | .int n => .ok n | _ => .error "TypeError"
  dict | .obj kvs => .ok (.obj kvs) | _ => .error "TypeError"
  str_str _ := rfl
  int_int _ := rfl
  dict_obj _ := rfl

/-- The event of an execution that bears a number. -/
def numbered (executionId : String) (n : ℤ) : Json :=
  .obj [("subject_id", .str "ada"), ("execution_id", .str executionId),
    ("producer_instance_id", .str "host"), ("producer_epoch", .str "1"),
    ("producer_sequence", .int n)]

/-- The numbers one and three of an execution, and two of none. -/
theorem reports_real_gaps_of_two :
    ∃ report, executionProjection plainValues [numbered "a" 1, numbered "a" 3] "ada" "a" =
        .ok report ∧
      ReportsRealGaps plainValues [numbered "a" 1, numbered "a" 3] "ada" "a" report := by
  refine ⟨_, rfl, (reports_real_gaps_iff rfl).mpr ?_⟩
  rintro k n - ⟨raw, hraw, body, hread, hposition⟩
  refine ⟨raw, hraw, body, hread, ?_, hposition⟩
  simp only [List.mem_cons, List.not_mem_nil, or_false] at hraw
  rcases hraw with rfl | rfl
  · obtain rfl := Except.ok.inj hread
    decide
  · obtain rfl := Except.ok.inj hread
    decide

/-- **A number of another execution is called missing.** The second event of
the producer is of another execution of the subject. -/
theorem reports_other_execution :
    ¬ ∀ (V : Values) (events : List Json) (subjectId executionId : String) (report : Projection),
      executionProjection V events subjectId executionId = .ok report →
      ReportsRealGaps V events subjectId executionId report := by
  intro h
  have hreal := h plainValues [numbered "a" 1, numbered "b" 2, numbered "a" 3] "ada" "a" _ rfl
  refine hreal.absent ⟨"missing_producer_sequence", "host", "1", 2, 2⟩ (by decide +kernel)
    ("host", "1") 2 ⟨rfl, le_refl _, le_refl _⟩ ?_
  exact ⟨numbered "b" 2, by decide, numbered "b" 2, rfl, by decide⟩

end Atmem.Execution
