import Atmem.Common.Splitting
import Atmem.ContextEngine.Model.Sentences
/-!
# Sentence ranges split their source

Each stage splits what the one before has left: sentences tile the source,
clauses a sentence, windows a clause; in between whitespace goes. Every cut is
next to a byte that is a character of its own.
-/

namespace Atmem.ContextEngine

open Backtracking Pattern Splitting

variable {content : Bytes} {i j start stop : ℕ}

/-! ## Where a source may be cut -/

/-- The byte at an offset is in ASCII. -/
def AsciiAt (content : Bytes) (i : ℕ) : Prop := ∃ c, content[i]? = some c ∧ c < 128

/-- A source may be cut at its ends, and on either side of a byte in ASCII. -/
def Aligned (content : Bytes) (i : ℕ) : Prop :=
  i = 0 ∨ i = content.length ∨ AsciiAt content i ∨ ∃ k, i = k + 1 ∧ AsciiAt content k

/-- A test that only ASCII bytes pass finds one. -/
theorem asciiAt_of_any {p : UInt8 → Bool} (hp : ∀ c, p c = true → c < 128)
    (h : (content[i]?).any p = true) : AsciiAt content i := by
  cases hget : content[i]? with
  | none => rw [hget] at h; cases h
  | some c =>
    rw [hget] at h
    exact ⟨c, hget, hp c h⟩

theorem lt_of_isSpace {c : UInt8} (h : isSpace c = true) : c < 128 := by
  simp only [isSpace, Bool.or_eq_true, Bool.and_eq_true, decide_eq_true_eq] at h
  rcases h with rfl | ⟨-, h⟩
  · decide
  · exact UInt8.lt_iff_toNat_lt.mpr (lt_of_le_of_lt (UInt8.le_iff_toNat_le.mp h) (by decide))

/-- White space is ASCII. -/
theorem asciiAt_of_spaceAt (h : spaceAt content i = true) : AsciiAt content i :=
  asciiAt_of_any (fun _ => lt_of_isSpace) h

/-- An offset that a range has to hold: there is a byte, and it is not
whitespace. -/
def Visible (content : Bytes) (i : ℕ) : Prop := i < content.length ∧ spaceAt content i = false

/-- The ranges split a source: what they leave out is invisible. -/
abbrev SplitsSource (content : Bytes) : ℕ → ℕ → List Range → Prop :=
  Splits (Visible content) (Aligned content)

/-! ## Stripping -/

/-- What is stripped at the start is white space. -/
theorem stripStart_spec (content : Bytes) (h : start ≤ stop) :
    start ≤ stripStart content start stop ∧ stripStart content start stop ≤ stop ∧
      (∀ k, start ≤ k → k < stripStart content start stop → spaceAt content k = true) ∧
      (Aligned content start → Aligned content (stripStart content start stop)) := by
  induction start using stripStart.induct content stop with
  | case1 start hspace ih =>
    rw [stripStart, if_pos hspace]
    obtain ⟨hge, hle, hall, haligned⟩ := ih hspace.1
    refine ⟨(Nat.le_succ _).trans hge, hle, fun k hk hlt => ?_, fun _ => haligned ?_⟩
    · rcases Nat.eq_or_lt_of_le hk with rfl | hlt'
      · exact hspace.2
      · exact hall k hlt' hlt
    · exact .inr (.inr (.inr ⟨start, rfl, asciiAt_of_spaceAt hspace.2⟩))
  | case2 start hspace =>
    rw [stripStart, if_neg hspace]
    exact ⟨le_rfl, h, fun k hk hlt => absurd hlt (Nat.not_lt_of_le hk), id⟩

/-- What is stripped at the end is white space. -/
theorem stripStop_spec (content : Bytes) (h : start ≤ stop) :
    start ≤ stripStop content start stop ∧ stripStop content start stop ≤ stop ∧
      (∀ k, stripStop content start stop ≤ k → k < stop → spaceAt content k = true) ∧
      (Aligned content stop → Aligned content (stripStop content start stop)) := by
  induction stop with
  | zero => exact ⟨h, le_rfl, fun k _ hk => absurd hk (Nat.not_lt_zero k), id⟩
  | succ stop ih =>
    rw [stripStop]
    split
    · next hspace =>
      obtain ⟨hge, hle, hall, haligned⟩ := ih (Nat.le_of_lt_succ hspace.1)
      refine ⟨hge, hle.trans (Nat.le_succ _), fun k hk hlt => ?_, fun _ => haligned ?_⟩
      · rcases Nat.eq_or_lt_of_le (Nat.le_of_lt_succ hlt) with rfl | hlt'
        · exact hspace.2
        · exact hall k hk hlt'
      · exact .inr (.inr (.inl (asciiAt_of_spaceAt hspace.2)))
    · exact ⟨h, le_rfl, fun k hk hlt => absurd hlt (Nat.not_lt_of_le hk), id⟩

/-- **What splits a stripped range splits the range.** -/
theorem splits_of_strip {r : Range} {rs : List Range} (h : r.1 ≤ r.2)
    (hsplits : SplitsSource content (strip content r).1 (strip content r).2 rs) :
    SplitsSource content r.1 r.2 rs := by
  obtain ⟨h₁, h₂, hleft, -⟩ := stripStart_spec content h
  obtain ⟨h₃, h₄, hright, -⟩ := stripStop_spec content h₂
  refine hsplits.widen h₁ h₄ (fun i hi hlt hvisible => ?_) fun i hi hlt hvisible => ?_
  · exact absurd hvisible.2 (by rw [hleft i hi hlt]; decide)
  · exact absurd hvisible.2 (by rw [hright i hi hlt]; decide)

/-- Stripping cuts no character. -/
theorem aligned_strip {r : Range} (h : r.1 ≤ r.2) (h₁ : Aligned content r.1)
    (h₂ : Aligned content r.2) :
    Aligned content (strip content r).1 ∧ Aligned content (strip content r).2 := by
  obtain ⟨-, hle, -, hstart⟩ := stripStart_spec content h
  exact ⟨hstart h₁, (stripStop_spec content hle).2.2.2 h₂⟩

/-- A stripped range splits its own, where something is left of it. -/
theorem splits_stripped {r : Range} (h : r.1 ≤ r.2) (h₁ : Aligned content r.1)
    (h₂ : Aligned content r.2) :
    SplitsSource content r.1 r.2 ([strip content r].filter fun r => r.1 < r.2) := by
  obtain ⟨hstart, hstop⟩ := aligned_strip h h₁ h₂
  refine splits_of_strip h ?_
  by_cases hlt : (strip content r).1 < (strip content r).2
  · have hkept : [strip content r].filter (fun r => r.1 < r.2) = [strip content r] := by simp [hlt]
    rw [hkept]
    exact .singleton hlt hstart hstop
  · have hgone : [strip content r].filter (fun r => r.1 < r.2) = [] := by simp [hlt]
    rw [hgone]
    exact .nil fun i hi hlt' => absurd (hi.trans_lt hlt') hlt

/-! ## Sentences -/

/-- A sentence ends where a character does. -/
theorem takes_sentence (content : Bytes) : Takes content sentence := by
  intro i j hj
  obtain ⟨m, hm, hj⟩ := mem_ends_seq.mp hj
  exact Nat.lt_of_lt_of_le (mem_ends_many.mp hm).1 (le_of_mem_ends hj)

/-- There is a sentence from everywhere: the rest, if it comes to it. -/
theorem ends_sentence (h : i < content.length) : ends content sentence i ≠ [] := by
  have hrest : content.length ∈ ends content (.many true 1 fun _ => true) i := by
    have hall : (content.drop i).takeWhile (fun _ => true) = content.drop i :=
      List.takeWhile_eq_self_iff.mpr fun _ _ => rfl
    rw [mem_ends_many, hall, List.length_drop]
    omega
  have hend : content.length ∈ ends content atEnd content.length := by
    rw [atEnd, mem_ends_assert, List.drop_length]
    exact ⟨rfl, rfl⟩
  have hmem : content.length ∈ ends content sentence i :=
    mem_ends_seq.mpr ⟨_, hrest, mem_ends_alt.mpr (.inr (mem_ends_alt.mpr (.inr hend)))⟩
  exact List.ne_nil_of_mem hmem

/-- A sentence ends after a punctuation mark or a newline, or with the
source. -/
theorem aligned_of_sentence (hi : i ≤ content.length) (h : j ∈ ends content sentence i) :
    Aligned content j := by
  obtain ⟨m, hm, hj⟩ := mem_ends_seq.mp h
  have hmle := le_length_of_mem_ends hi hm
  rcases mem_ends_alt.mp hj with hj | hj
  · obtain ⟨k, hk, hj⟩ := mem_ends_seq.mp hj
    obtain ⟨rfl, -⟩ := mem_ends_ahead.mp hj
    obtain ⟨rfl, hany⟩ := mem_ends_one.mp hk
    refine .inr (.inr (.inr ⟨m, rfl, asciiAt_of_any (fun c hc => ?_) hany⟩))
    have hall : (ascii ".!?").all (· < 128) = true := by decide
    exact of_decide_eq_true (List.all_eq_true.mp hall c (of_decide_eq_true hc))
  rcases mem_ends_alt.mp hj with hj | hj
  · obtain ⟨k, rfl⟩ := Nat.exists_eq_add_of_le' ((Nat.le_add_left 1 m).trans (mem_ends_many.mp hj).1)
    have hany := any_of_mem_many hj (k := k) (Nat.le_of_add_le_add_right (mem_ends_many.mp hj).1)
      (Nat.lt_succ_self k)
    refine .inr (.inr (.inr ⟨k, rfl, asciiAt_of_any (fun c hc => ?_) hany⟩))
    rw [of_decide_eq_true hc]
    decide
  · obtain ⟨rfl, hend⟩ := mem_ends_assert.mp hj
    rw [Bool.or_eq_true, decide_eq_true_eq, decide_eq_true_eq] at hend
    rcases hend with hend | hend
    · exact .inr (.inl (le_antisymm hmle (List.drop_eq_nil_iff.mp hend)))
    · refine .inr (.inr (.inl ⟨10, ?_, by decide⟩))
      have hhead := congrArg List.head? hend
      rwa [List.head?_drop] at hhead

/-! ## Clauses -/

theorem any_slice {p : UInt8 → Bool} {k : ℕ} (h : ((slice content start stop)[k]?).any p = true) :
    (content[start + k]?).any p = true := by
  rw [slice, List.getElem?_take] at h
  split at h
  · rwa [List.getElem?_drop] at h
  · cases h

theorem length_slice_le (content : Bytes) (start stop : ℕ) :
    (slice content start stop).length ≤ stop - start := by
  rw [slice]
  exact List.length_take_le _ _

/-- A clause is told by the whitespace it begins with. -/
theorem space_of_clause {segment : Bytes} (h : j ∈ ends segment clause i) :
    ∃ k, j = k + 1 ∧ (segment[k]?).any isSpace = true := by
  have hspaces : ∀ {i m : ℕ}, m ∈ ends segment spaces i →
      ∃ k, m = k + 1 ∧ (segment[k]?).any isSpace = true := by
    intro i m hm
    have hge := (mem_ends_many.mp hm).1
    obtain ⟨k, rfl⟩ := Nat.exists_eq_add_of_le' ((Nat.le_add_left 1 i).trans hge)
    exact ⟨k, rfl, any_of_mem_many hm (Nat.le_of_add_le_add_right hge) (Nat.lt_succ_self k)⟩
  rcases mem_ends_alt.mp h with h | h
  · obtain ⟨m, -, h⟩ := mem_ends_seq.mp h
    obtain ⟨n, hn, h⟩ := mem_ends_seq.mp h
    obtain ⟨rfl, -⟩ := mem_ends_ahead.mp h
    exact hspaces hn
  · obtain ⟨n, hn, h⟩ := mem_ends_seq.mp h
    obtain ⟨rfl, -⟩ := mem_ends_ahead.mp h
    exact hspaces hn

/-- **The pieces between the boundaries** split what they are cut from. -/
theorem splits_pieces (hstop : Aligned content stop) {found : List (ℕ × ℕ)}
    (hfound : ∀ m ∈ found, Aligned content (start + m.2)) {last : ℕ} (hlast : Aligned content last)
    (hle : last ≤ stop) :
    SplitsSource content last stop
      ((((last :: boundariesFrom content start stop last found).zip
        (boundariesFrom content start stop last found)).map (strip content)).filter
          fun r => r.1 < r.2) := by
  induction found generalizing last with
  | nil => exact splits_stripped (r := (last, stop)) hle hlast hstop
  | cons m found ih =>
    rw [boundariesFrom]
    split
    · next hseparates =>
      have hboundary := hfound m List.mem_cons_self
      have hbetween : last ≤ start + m.2 ∧ start + m.2 ≤ stop := by
        simp only [separates, Bool.and_eq_true, decide_eq_true_eq] at hseparates
        omega
      have hfirst := splits_stripped (r := (last, start + m.2)) hbetween.1 hlast hboundary
      have hrest := ih (fun m hm => hfound m (List.mem_cons_of_mem _ hm)) hboundary hbetween.2
      rw [List.zip_cons_cons, List.map_cons, ← List.singleton_append, List.filter_append]
      exact hfirst.append hrest hbetween.1 hbetween.2
    · exact ih (fun m hm => hfound m (List.mem_cons_of_mem _ hm)) hlast hle

/-- **The clauses of a sentence split it.** -/
theorem splits_clauses {m : Range} (h : m.1 ≤ m.2) (h₁ : Aligned content m.1)
    (h₂ : Aligned content m.2) : SplitsSource content m.1 m.2 (clauses content m) := by
  obtain ⟨hstart, hstop⟩ := aligned_strip h h₁ h₂
  refine splits_of_strip h ?_
  rw [clauses]
  dsimp only
  split
  · next hlt =>
    refine splits_pieces hstop (fun m' hm' => ?_) hstart hlt.le
    obtain ⟨-, hmem⟩ := mem_matchesFrom hm'
    obtain ⟨k, hk, hany⟩ := space_of_clause hmem
    rw [hk]
    exact .inr (.inr (.inr ⟨_, rfl, asciiAt_of_spaceAt (any_slice hany)⟩))
  · next hnot => exact .nil fun i hi hlt => absurd (hi.trans_lt hlt) hnot

/-- What tiles the source is split, tile by tile. -/
theorem splits_of_tiles {f : Range → List Range} {ms : List Range} (htiles : Tiles stop start ms)
    (h₁ : Aligned content start) (hms : ∀ m ∈ ms, Aligned content m.2)
    (hf : ∀ m : Range, m.1 ≤ m.2 → Aligned content m.1 → Aligned content m.2 →
      SplitsSource content m.1 m.2 (f m)) :
    start ≤ stop ∧ SplitsSource content start stop (ms.flatMap f) := by
  induction ms generalizing start with
  | nil =>
    rw [Tiles] at htiles
    subst htiles
    exact ⟨le_rfl, .nil fun i hi hlt => absurd hlt (Nat.not_lt_of_le hi)⟩
  | cons m ms ih =>
    obtain ⟨rfl, hlt, htiles⟩ := htiles
    have hm := hms m List.mem_cons_self
    obtain ⟨hle, hrest⟩ := ih htiles hm fun m hm => hms m (List.mem_cons_of_mem _ hm)
    exact ⟨hlt.le.trans hle, (hf m hlt.le h₁ hm).append hrest hlt.le hle⟩

/-- **The sentences split the source.** -/
theorem splits_values (content : Bytes) :
    SplitsSource content 0 content.length (values content) := by
  have htiles := tiles_matchesFrom content.length (takes_sentence content)
    (fun i hi => ends_sentence hi) (Nat.zero_le _) (Nat.zero_add _).ge
  refine (splits_of_tiles htiles (.inl rfl) (fun m hm => ?_) fun m => splits_clauses).2
  obtain ⟨hle, hmem⟩ := mem_matchesFrom hm
  exact aligned_of_sentence hle hmem

/-! ## Windows -/

/-- A line break ends at an offset: a newline, or a backslash and an `n`. -/
def LineBreakBefore (content : Bytes) (i : ℕ) : Prop :=
  content[i - 1]? = some 10 ∨ (content[i - 2]? = some 92 ∧ content[i - 1]? = some 110)

/-- So does a line. -/
theorem takes_lineBreak (content : Bytes) : Takes content lineBreak := by
  intro i j hj
  rcases mem_ends_alt.mp hj with hj | hj
  · obtain ⟨m, hm, hj⟩ := mem_ends_seq.mp hj
    obtain ⟨rfl, -⟩ := mem_ends_one.mp hm
    exact le_of_mem_ends hj
  · exact (mem_ends_many.mp hj).1

/-- A match of a line break ends after one, in ASCII. -/
theorem ascii_of_lineBreak (h : j ∈ ends content lineBreak i) :
    ∃ k, j = k + 1 ∧ AsciiAt content k := by
  rcases mem_ends_alt.mp h with h | h
  · obtain ⟨m, -, h⟩ := mem_ends_seq.mp h
    obtain ⟨rfl, hany⟩ := mem_ends_one.mp h
    refine ⟨m, rfl, asciiAt_of_any (fun c hc => ?_) hany⟩
    rw [of_decide_eq_true hc]
    decide
  · have hge := (mem_ends_many.mp h).1
    obtain ⟨k, rfl⟩ := Nat.exists_eq_add_of_le' ((Nat.le_add_left 1 i).trans hge)
    refine ⟨k, rfl, asciiAt_of_any (fun c hc => ?_) (any_of_mem_many h
      (Nat.le_of_add_le_add_right hge) (Nat.lt_succ_self k))⟩
    rw [of_decide_eq_true hc]
    decide

/-- A match that holds a backslash before an `n` begins there. -/
theorem eq_of_lineBreak (h : j ∈ ends content lineBreak i) {k : ℕ} (hi : i ≤ k) (hj : k < j)
    (hk : content[k]? = some 92) : i = k ∧ j = k + 2 := by
  rcases mem_ends_alt.mp h with h | h
  · obtain ⟨m, hm, h⟩ := mem_ends_seq.mp h
    obtain ⟨rfl, -⟩ := mem_ends_one.mp hm
    obtain ⟨rfl, hn⟩ := mem_ends_one.mp h
    rcases Nat.eq_or_lt_of_le hi with rfl | hlt
    · exact ⟨rfl, rfl⟩
    · have heq : k = i + 1 := by omega
      subst heq
      rw [hk] at hn
      cases hn
  · have hany := any_of_mem_many h hi hj
    rw [hk] at hany
    cases hany

/-- **Every line break of a window is found.** -/
theorem lineBreak_found {k : ℕ} (hk : k ≤ content.length) (h : LineBreakBefore content k)
    (htwo : 2 ≤ k) : ∃ m ∈ findIter content lineBreak, k ≤ m.2 := by
  rcases h with h | ⟨hslash, hn⟩
  · have hstarts : ends content lineBreak (k - 1) ≠ [] := by
      refine List.ne_nil_of_mem (a := k) (mem_ends_alt.mpr (.inr (mem_ends_many.mpr ?_)))
      have hdrop : content.drop (k - 1) = 10 :: content.drop k := by
        have hlt : k - 1 < content.length := by omega
        rw [List.drop_eq_getElem_cons hlt, Nat.sub_add_cancel (by omega)]
        rw [List.getElem?_eq_getElem hlt] at h
        rw [Option.some.inj h]
      rw [hdrop, List.takeWhile_cons_of_pos (by decide), List.length_cons]
      omega
    obtain ⟨m, hm, hle, hlt⟩ := exists_covering (takes_lineBreak content) (Nat.zero_le (k - 1))
      (by omega) (Nat.zero_add _).ge hstarts
    exact ⟨m, hm, by omega⟩
  · have hstarts : ends content lineBreak (k - 2) ≠ [] := by
      refine List.ne_nil_of_mem (a := k) (mem_ends_alt.mpr (.inl (mem_ends_seq.mpr
        ⟨k - 1, mem_ends_one.mpr ⟨by omega, ?_⟩, mem_ends_one.mpr ⟨by omega, ?_⟩⟩)))
      · rw [hslash]
        decide
      · rw [hn]
        decide
    obtain ⟨m, hm, hle, hlt⟩ := exists_covering (takes_lineBreak content) (Nat.zero_le (k - 2))
      (by omega) (Nat.zero_add _).ge hstarts
    obtain ⟨-, hmem⟩ := mem_matchesFrom hm
    obtain ⟨-, hend⟩ := eq_of_lineBreak hmem hle hlt hslash
    exact ⟨m, hm, by omega⟩

/-- A window that is not cut has no line break in its second half. -/
theorem not_lineBreak_of_windowCut (hnone : windowCut content start stop = none)
    (hstop : stop ≤ content.length) (hlong : maximum < stop - start) {i : ℕ}
    (hi : maximum / 2 ≤ i) (hle : i ≤ maximum) : ¬ LineBreakBefore content (start + i) := by
  intro hbreak
  have hend : min stop (start + maximum) = start + maximum := by omega
  have hlen : (slice content start (start + maximum)).length = maximum := by
    rw [slice, List.length_take, List.length_drop]
    omega
  have hget : ∀ k < maximum, (slice content start (start + maximum))[k]? = content[start + k]? := by
    intro k hk
    rw [slice, List.getElem?_take, if_pos (by omega), List.getElem?_drop]
  have hwindow : LineBreakBefore (slice content start (start + maximum)) i := by
    simp only [maximum] at hi hle hget
    simp only [LineBreakBefore, maximum] at hbreak ⊢
    rw [hget (i - 1) (by omega), hget (i - 2) (by omega)]
    rwa [show start + (i - 1) = start + i - 1 by omega,
      show start + (i - 2) = start + i - 2 by omega]
  obtain ⟨m, hm, hge⟩ := lineBreak_found (by omega) hwindow (by simp only [maximum] at hi; omega)
  have hempty := List.getLast?_eq_none_iff.mp hnone
  rw [hend] at hempty
  have hin : m.2 ∈ ((findIter (slice content start (start + maximum)) lineBreak).map (·.2)).filter
      (maximum / 2 ≤ ·) :=
    List.mem_filter.mpr ⟨List.mem_map_of_mem hm, decide_eq_true (hi.trans hge)⟩
  rw [hempty] at hin
  exact List.not_mem_nil hin

/-- A cut is in the window, after a byte in ASCII. -/
theorem windowCut_spec {b : ℕ} (h : windowCut content start stop = some b) :
    b ≤ min stop (start + maximum) - start ∧ Aligned content (start + b) := by
  have hmem := List.mem_of_getLast? h
  obtain ⟨m, hm, rfl⟩ := List.mem_map.mp (List.mem_filter.mp hmem).1
  obtain ⟨hle, hends⟩ := mem_matchesFrom hm
  have hlength := le_length_of_mem_ends hle hends
  obtain ⟨k, hk, c, hget, hc⟩ := ascii_of_lineBreak hends
  refine ⟨hlength.trans (length_slice_le _ _ _), .inr (.inr (.inr ⟨start + k, ?_, ?_⟩))⟩
  · rw [hk]
    rfl
  · exact asciiAt_of_any (fun c hc => of_decide_eq_true hc)
      (any_slice (p := fun c => c < 128) (by rw [hget]; exact decide_eq_true hc))

/-- **The windows of a range split it**, and one that is too long has no line
break to be cut at. -/
theorem splits_bounded (hlt : start ≤ stop) (h₁ : Aligned content start) (h₂ : Aligned content stop) :
    SplitsSource content start stop (bounded content stop start) ∧
      ∀ r ∈ bounded content stop start, maximum < r.2 - r.1 →
        windowCut content r.1 r.2 = none := by
  -- a window that is not cut is a range of its own
  have hwhole : ∀ {start : ℕ}, start ≤ stop → Aligned content start →
      (maximum < stop - start → windowCut content start stop = none) →
      SplitsSource content start stop (if start < stop then [(start, stop)] else []) ∧
        ∀ r ∈ (if start < stop then [(start, stop)] else []), maximum < r.2 - r.1 →
          windowCut content r.1 r.2 = none := by
    intro start hle h₁ hcut
    split
    · next hlt =>
      refine ⟨.singleton hlt h₁ h₂, fun r hr => ?_⟩
      rw [List.mem_singleton.mp hr]
      exact hcut
    · next hnot =>
      exact ⟨.nil fun i hi hlt => absurd (hi.trans_lt hlt) hnot, fun r hr => absurd hr List.not_mem_nil⟩
  induction hn : stop - start using Nat.strong_induction_on generalizing start with
  | _ n ih =>
    subst hn
    rw [bounded]
    split
    · next hlong =>
      split
      · next b hcut =>
        obtain ⟨hb, haligned⟩ := windowCut_spec hcut
        have hge := windowCut_ge content hcut
        simp only [maximum] at hb hge hlong
        obtain ⟨hsplits, hshort⟩ := ih (stop - (start + b)) (by omega) (by omega) haligned rfl
        refine ⟨(Splits.singleton (by omega) h₁ haligned).append hsplits (by omega) (by omega),
          fun r hr => ?_⟩
        rcases List.mem_cons.mp hr with rfl | hr
        · intro hlong'
          simp only [maximum] at hlong'
          omega
        · exact hshort r hr
      · next hcut => exact hwhole hlt h₁ fun _ => hcut
    · next hshort => exact hwhole hlt h₁ fun hlong => absurd hlong hshort

end Atmem.ContextEngine
