import Mathlib.Data.List.Dedup
import Mathlib.Data.List.Sort
import Mathlib.Data.Int.Order.Basic
import Mathlib.Algebra.Order.Group.Int
/-!
# The gaps of a list of numbers

The ranges between neighbours of an ordered list that are not one apart. A
number lies in one of them exactly when it is missing: when the list has a
smaller number and a larger one but not the number itself (`countP_gaps`).
-/

namespace Gaps

variable {l : List ℤ} {n : ℤ}

/-- The ranges between neighbours, first and last number. -/
def gaps : List ℤ → List (ℤ × ℤ)
  | a :: b :: l => (if a + 1 < b then [(a + 1, b - 1)] else []) ++ gaps (b :: l)
  | _ => []

/-- A number of the gap, its ends included. -/
def Within (n : ℤ) (g : ℤ × ℤ) : Prop := g.1 ≤ n ∧ n ≤ g.2

instance : DecidablePred (Within n) := fun g => inferInstanceAs (Decidable (g.1 ≤ n ∧ n ≤ g.2))

/-- There are numbers on both sides, and the number is not there. -/
def Missing (n : ℤ) (l : List ℤ) : Prop := (∃ a ∈ l, a < n) ∧ (∃ b ∈ l, n < b) ∧ n ∉ l

instance : Decidable (Missing n l) :=
  inferInstanceAs (Decidable ((∃ a ∈ l, a < n) ∧ (∃ b ∈ l, n < b) ∧ n ∉ l))

theorem missing_cons_of_lt {a : ℤ} (ha : a < n) {b : ℤ} (hb : b < n) :
    Missing n (a :: b :: l) ↔ Missing n (b :: l) := by
  unfold Missing
  simp only [List.mem_cons, exists_eq_or_imp, ha, hb, not_or, true_or, true_and]
  constructor
  · rintro ⟨hlarger | hlarger, -, hne, hnot⟩
    · exact absurd ha (lt_asymm hlarger)
    · exact ⟨hlarger, hne, hnot⟩
  · rintro ⟨hlarger, hne, hnot⟩
    exact ⟨.inr hlarger, ne_of_gt ha, hne, hnot⟩

/-- Below the first number nothing is missing. -/
theorem not_missing_of_le {b : ℤ} (hl : (b :: l).Pairwise (· < ·)) (hn : n ≤ b) :
    ¬ Missing n (b :: l) := by
  rintro ⟨⟨a, ha, hlt⟩, -, -⟩
  rcases List.mem_cons.mp ha with rfl | ha
  · omega
  · have hba := (List.pairwise_cons.mp hl).1 a ha
    omega

/-- Up to the second number, only what lies between the first two is
missing. -/
theorem missing_cons_of_le {a b : ℤ} (hl : (a :: b :: l).Pairwise (· < ·)) (hn : n ≤ b) :
    Missing n (a :: b :: l) ↔ a < n ∧ n < b := by
  constructor
  · intro h
    have hne : n ≠ b := fun heq => h.2.2 (by simp [heq])
    refine ⟨?_, by omega⟩
    by_contra ha
    exact not_missing_of_le hl (not_lt.mp ha) h
  · rintro ⟨ha, hb⟩
    refine ⟨⟨a, List.mem_cons_self, ha⟩, ⟨b, List.mem_cons_of_mem _ List.mem_cons_self, hb⟩,
      fun hmem => ?_⟩
    have hrest := (List.pairwise_cons.mp (List.pairwise_cons.mp hl).2).1
    rcases List.mem_cons.mp hmem with rfl | hmem
    · omega
    · rcases List.mem_cons.mp hmem with rfl | hmem
      · omega
      · have hbn := hrest n hmem
        omega

/-- The range between two neighbours holds what lies between them. -/
theorem countP_neighbours (a b n : ℤ) :
    (if a + 1 < b then [(a + 1, b - 1)] else []).countP (Within n) =
      if a < n ∧ n < b then 1 else 0 := by
  have hwithin : Within n (a + 1, b - 1) ↔ a < n ∧ n < b := by
    unfold Within
    dsimp only
    omega
  by_cases hgap : a + 1 < b
  · rw [if_pos hgap, List.countP_singleton]
    exact if_congr (by rw [decide_eq_true_iff, hwithin]) rfl rfl
  · rw [if_neg hgap, if_neg (by omega)]
    rfl

/-- **A number lies in one gap where it is missing**, and in none where it is
not. -/
theorem countP_gaps (hl : l.Pairwise (· < ·)) (n : ℤ) :
    (gaps l).countP (Within n) = if Missing n l then 1 else 0 := by
  induction l using gaps.induct with
  | case1 a b l ih =>
    obtain ⟨hfirst, hrest⟩ := List.pairwise_cons.mp hl
    have hab : a < b := hfirst b List.mem_cons_self
    rw [gaps, List.countP_append, countP_neighbours, ih hrest]
    by_cases hbn : b < n
    · -- behind the second number, the first changes nothing
      rw [if_neg (by omega), Nat.zero_add]
      exact if_congr (missing_cons_of_lt (hab.trans hbn) hbn).symm rfl rfl
    · have hle : n ≤ b := not_lt.mp hbn
      rw [if_neg (not_missing_of_le hrest hle), Nat.add_zero]
      exact if_congr (missing_cons_of_le hl hle).symm rfl rfl
  | case2 l hshort =>
    have hnone : ¬ Missing n l := by
      rcases l with - | ⟨a, l⟩
      · rintro ⟨⟨a, ha, -⟩, -⟩
        cases ha
      · rcases l with - | ⟨b, l⟩
        · rintro ⟨⟨x, hx, hlt⟩, ⟨y, hy, hgt⟩, -⟩
          rw [List.mem_singleton.mp hx] at hlt
          rw [List.mem_singleton.mp hy] at hgt
          omega
        · exact absurd rfl (hshort a b l)
    rw [if_neg hnone, gaps]
    · rfl
    · exact hshort

/-- The distinct numbers of a list, in order. -/
def distinct (l : List ℤ) : List ℤ := l.dedup.insertionSort (· ≤ ·)

/-- The distinct numbers are those of the list. -/
@[simp] theorem mem_distinct : n ∈ distinct l ↔ n ∈ l := by
  rw [distinct, List.mem_insertionSort, List.mem_dedup]

/-- They are in order and once each. -/
theorem pairwise_distinct (l : List ℤ) : (distinct l).Pairwise (· < ·) := by
  have hle : (distinct l).Pairwise (· ≤ ·) := List.pairwise_insertionSort _ _
  have hne : (distinct l).Nodup :=
    (List.perm_insertionSort (· ≤ ·) l.dedup).nodup_iff.mpr (List.nodup_dedup l)
  exact (hle.and hne).imp fun ⟨hle, hne⟩ => lt_of_le_of_ne hle hne

/-- And miss the same numbers. -/
theorem missing_distinct : Missing n (distinct l) ↔ Missing n l := by
  simp only [Missing, mem_distinct]

end Gaps
