import Mathlib.Data.List.Basic
import Mathlib.Data.List.TakeWhile
import Mathlib.Data.Nat.Basic
/-!
# Patterns and their matches

A pattern is matched by trying its choices in order: what it yields at a
position are the ends of its matches from there, the preferred one first. A
text is scanned for the first position with a match, and on from the end of it.
-/

namespace Backtracking

/-- A pattern over an alphabet; what is repeated is one element at a time. -/
inductive Pattern (α : Type*)
  | one (p : α → Bool)
  /-- At least so many, as few as will do or as many as there are. -/
  | many (frugal : Bool) (least : ℕ) (p : α → Bool)
  | seq (a b : Pattern α)
  | alt (a b : Pattern α)
  /-- The pattern follows, and is not taken. -/
  | ahead (a : Pattern α)
  /-- Nothing is taken; a test on what comes before and what follows. -/
  | assert (t : Option α → List α → Bool)

variable {α : Type*} (s : List α)

/-- The ends of the matches at a position, the preferred one first. -/
def ends : Pattern α → ℕ → List ℕ
  | .one p, i => if (s[i]?).any p then [i + 1] else []
  | .many frugal least p, i =>
    let found := List.range' (i + least) (((s.drop i).takeWhile p).length + 1 - least)
    if frugal then found else found.reverse
  | .seq a b, i => (ends a i).flatMap (ends b)
  | .alt a b, i => ends a i ++ ends b i
  | .ahead a, i => if (ends a i).isEmpty then [] else [i]
  | .assert t, i => if t (s.take i).getLast? (s.drop i) then [i] else []

/-- The first match from a position on. -/
def findFrom (a : Pattern α) (start : ℕ) : Option (ℕ × ℕ) :=
  (List.range' start (s.length + 1 - start)).findSome? fun i =>
    (ends s a i).head?.map fun j => (i, j)

/-- `re.search`, where only it is asked whether there is a match. -/
def search (a : Pattern α) : Bool := (findFrom s a 0).isSome

/-- The matches that follow one another, as many as the fuel. -/
def matchesFrom (a : Pattern α) : ℕ → ℕ → List (ℕ × ℕ)
  | 0, _ => []
  | fuel + 1, start =>
    match findFrom s a start with
    | none => []
    | some (i, j) => (i, j) :: matchesFrom a fuel j

/-- `re.finditer`, of a pattern that takes something wherever it matches. -/
def findIter (a : Pattern α) : List (ℕ × ℕ) := matchesFrom s a s.length 0

variable {s} {a b : Pattern α} {p : α → Bool} {i j start fuel : ℕ}

/-! ## What a match takes -/

/-- One element that passes. -/
theorem mem_ends_one : j ∈ ends s (.one p) i ↔ j = i + 1 ∧ (s[i]?).any p = true := by
  change j ∈ (if (s[i]?).any p then [i + 1] else []) ↔ _
  split
  · next h => simp [h]
  · next h => simp [h]

/-- One pattern after the other. -/
theorem mem_ends_seq : j ∈ ends s (.seq a b) i ↔ ∃ m ∈ ends s a i, j ∈ ends s b m :=
  List.mem_flatMap

/-- Either pattern. -/
theorem mem_ends_alt : j ∈ ends s (.alt a b) i ↔ j ∈ ends s a i ∨ j ∈ ends s b i :=
  List.mem_append

/-- A look ahead takes nothing. -/
theorem mem_ends_ahead : j ∈ ends s (.ahead a) i ↔ j = i ∧ ends s a i ≠ [] := by
  change j ∈ (if (ends s a i).isEmpty then [] else [i]) ↔ _
  split
  · next h => simp [List.isEmpty_iff.mp h]
  · next h => simp [mt List.isEmpty_iff.mpr h]

theorem mem_ends_assert {t : Option α → List α → Bool} : j ∈ ends s (.assert t) i ↔
    j = i ∧ t (s.take i).getLast? (s.drop i) = true := by
  change j ∈ (if t (s.take i).getLast? (s.drop i) then [i] else []) ↔ _
  split
  · next h => simp [h]
  · next h => simp [h]

/-- What is in front of the first element a test refuses passes it. -/
theorem getElem?_takeWhile {l : List α} {k : ℕ} (hk : k < (l.takeWhile p).length) :
    (l[k]?).any p = true := by
  have hget : (l.takeWhile p)[k]? = l[k]? := by
    have hnonce := List.takeWhile_prefix (l := l) p
    exact (List.prefix_iff_getElem?.mp hnonce k hk).symm ▸ (List.getElem?_eq_getElem hk)
  have hmem := List.mem_takeWhile_imp (List.getElem_mem hk)
  rw [← hget, List.getElem?_eq_getElem hk]
  exact hmem

/-- A repetition takes elements that pass its test. -/
theorem mem_ends_many {frugal : Bool} {least : ℕ} : j ∈ ends s (.many frugal least p) i ↔
    i + least ≤ j ∧ j ≤ i + ((s.drop i).takeWhile p).length := by
  have hmem : j ∈ ends s (.many frugal least p) i ↔
      j ∈ List.range' (i + least) (((s.drop i).takeWhile p).length + 1 - least) := by
    cases frugal
    · exact List.mem_reverse
    · exact Iff.rfl
  rw [hmem, List.mem_range'_1]
  omega

/-- Every element a repetition took passes. -/
theorem any_of_mem_many {frugal : Bool} {least : ℕ} (h : j ∈ ends s (.many frugal least p) i)
    {k : ℕ} (hi : i ≤ k) (hj : k < j) : (s[k]?).any p = true := by
  have hlast := (mem_ends_many.mp h).2
  have hany := getElem?_takeWhile (p := p) (l := s.drop i) (k := k - i) (by omega)
  rwa [List.getElem?_drop, Nat.add_sub_cancel' hi] at hany

/-- A match does not end before it begins. -/
theorem le_of_mem_ends (h : j ∈ ends s a i) : i ≤ j := by
  induction a generalizing i j with
  | one p =>
    obtain ⟨rfl, -⟩ := mem_ends_one.mp h
    exact Nat.le_succ i
  | many frugal least p => exact (Nat.le_add_right i least).trans (mem_ends_many.mp h).1
  | seq a b iha ihb =>
    obtain ⟨m, hm, hj⟩ := mem_ends_seq.mp h
    exact (iha hm).trans (ihb hj)
  | alt a b iha ihb => exact (mem_ends_alt.mp h).elim iha ihb
  | ahead a _ => exact (mem_ends_ahead.mp h).1.ge
  | assert t => exact (mem_ends_assert.mp h).1.ge

/-- A match ends in the text. -/
theorem le_length_of_mem_ends (hi : i ≤ s.length) (h : j ∈ ends s a i) : j ≤ s.length := by
  induction a generalizing i j with
  | one p =>
    obtain ⟨rfl, hany⟩ := mem_ends_one.mp h
    refine Nat.lt_of_not_le fun hle => ?_
    rw [List.getElem?_eq_none hle] at hany
    cases hany
  | many frugal least p =>
    have htake := (List.takeWhile_sublist (l := s.drop i) p).length_le
    rw [List.length_drop] at htake
    have hmem := (mem_ends_many.mp h).2
    omega
  | seq a b iha ihb =>
    obtain ⟨m, hm, hj⟩ := mem_ends_seq.mp h
    exact ihb (iha hi hm) hj
  | alt a b iha ihb => exact (mem_ends_alt.mp h).elim (iha hi) (ihb hi)
  | ahead a _ => exact (mem_ends_ahead.mp h).1.le.trans hi
  | assert t => exact (mem_ends_assert.mp h).1.le.trans hi

/-! ## Scanning -/

/-- What is found matches, and nothing before it does. -/
theorem findFrom_eq_some {m : ℕ × ℕ} (h : findFrom s a start = some m) :
    start ≤ m.1 ∧ m.1 ≤ s.length ∧ m.2 ∈ ends s a m.1 ∧ ∀ k, start ≤ k → k < m.1 → ends s a k = [] := by
  obtain ⟨front, i, rest, hrange, hfound, hnone⟩ := List.findSome?_eq_some_iff.mp h
  obtain ⟨j, hhead, rfl⟩ := Option.map_eq_some_iff.mp hfound
  have hmem : i ∈ List.range' start (s.length + 1 - start) := by
    rw [hrange]
    exact List.mem_append_right _ List.mem_cons_self
  rw [List.mem_range'_1] at hmem
  refine ⟨hmem.1, by dsimp only; omega, List.mem_of_mem_head? hhead, fun k hk hlt => ?_⟩
  have hkmem : k ∈ front := by
    have hin : k ∈ List.range' start (s.length + 1 - start) := by
      rw [List.mem_range'_1]
      dsimp only at hlt
      omega
    rw [hrange] at hin
    rcases List.mem_append.mp hin with hfront | hrest
    · exact hfront
    · have hsorted := List.pairwise_lt_range' (s := start) (n := s.length + 1 - start)
      rw [hrange, List.pairwise_append] at hsorted
      rcases List.mem_cons.mp hrest with rfl | hrest
      · exact absurd hlt (lt_irrefl _)
      · have hgt := List.rel_of_pairwise_cons hsorted.2.1 hrest
        dsimp only at hlt
        omega
  have hempty := hnone k hkmem
  rw [Option.map_eq_none_iff] at hempty
  exact List.head?_eq_none_iff.mp hempty

/-- When nothing is found nothing matches. -/
theorem findFrom_eq_none (h : findFrom s a start = none) {k : ℕ} (hk : start ≤ k)
    (hle : k ≤ s.length) : ends s a k = [] := by
  have hempty := List.findSome?_eq_none_iff.mp h k (by rw [List.mem_range'_1]; omega)
  rw [Option.map_eq_none_iff] at hempty
  exact List.head?_eq_none_iff.mp hempty

/-- A pattern takes something wherever it matches. -/
def Takes (s : List α) (a : Pattern α) : Prop := ∀ i, ∀ j ∈ ends s a i, i < j

/-- The matches are matches, and follow one another. -/
theorem mem_matchesFrom {m : ℕ × ℕ} (h : m ∈ matchesFrom s a fuel start) :
    m.1 ≤ s.length ∧ m.2 ∈ ends s a m.1 := by
  induction fuel generalizing start with
  | zero => exact absurd h List.not_mem_nil
  | succ fuel ih =>
    rw [matchesFrom] at h
    split at h
    · exact absurd h List.not_mem_nil
    · next i j hfound =>
      obtain ⟨-, hi, hj, -⟩ := findFrom_eq_some hfound
      rcases List.mem_cons.mp h with rfl | h
      · exact ⟨hi, hj⟩
      · exact ih h

/-- **No match is missed**: where the pattern matches is inside of a match that
is found. -/
theorem exists_covering (htakes : Takes s a) {k : ℕ} (hk : start ≤ k) (hlt : k < s.length)
    (hfuel : s.length ≤ start + fuel) (h : ends s a k ≠ []) :
    ∃ m ∈ matchesFrom s a fuel start, m.1 ≤ k ∧ k < m.2 := by
  induction fuel generalizing start with
  | zero => omega
  | succ fuel ih =>
    rw [matchesFrom]
    split
    · next hnone => exact absurd (findFrom_eq_none hnone hk hlt.le) h
    · next i j hfound =>
      obtain ⟨hi, hile, hj, hbefore⟩ := findFrom_eq_some hfound
      dsimp only at hi hile hj hbefore
      have hik : i ≤ k := Nat.le_of_not_lt fun hlt => h (hbefore k hk hlt)
      rcases Nat.lt_or_ge k j with hkj | hge
      · exact ⟨(i, j), List.mem_cons_self, hik, hkj⟩
      · have hij := htakes i j hj
        obtain ⟨m, hm, hcover⟩ := ih hge (by omega)
        exact ⟨m, List.mem_cons_of_mem _ hm, hcover⟩

/-- Ranges that follow one another without a gap. -/
def Tiles (stop : ℕ) : ℕ → List (ℕ × ℕ) → Prop
  | start, [] => start = stop
  | start, m :: ms => m.1 = start ∧ m.1 < m.2 ∧ Tiles stop m.2 ms

/-- **A pattern that matches everywhere tiles the text.** -/
theorem tiles_matchesFrom (fuel : ℕ) (htakes : Takes s a) (hall : ∀ i < s.length, ends s a i ≠ [])
    (hstart : start ≤ s.length) (hfuel : s.length ≤ start + fuel) :
    Tiles s.length start (matchesFrom s a fuel start) := by
  induction fuel generalizing start with
  | zero =>
    rw [matchesFrom, Tiles]
    omega
  | succ fuel ih =>
    rw [matchesFrom]
    split
    · next hnone =>
      rw [Tiles]
      by_contra hne
      exact hall start (by omega) (findFrom_eq_none hnone le_rfl hstart)
    · next i j hfound =>
      obtain ⟨hi, hile, hj, hbefore⟩ := findFrom_eq_some hfound
      dsimp only at hi hile hj hbefore
      have hij := htakes i j hj
      have hjle := le_length_of_mem_ends hile hj
      have heq : i = start := by
        rcases Nat.eq_or_lt_of_le hi with heq | hlt
        · exact heq.symm
        · exact absurd (hbefore start le_rfl hlt) (hall start (by omega))
      exact ⟨heq, hij, ih hjle (by omega)⟩

end Backtracking
