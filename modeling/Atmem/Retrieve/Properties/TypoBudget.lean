import Atmem.Common.EditDistance
import Atmem.Retrieve.Model.Decision
/-!
# The typo budget is a bounded edit distance

A row holds the distances of what was read of the left text from every start
of the right one, both read backwards. No row has less than the one above, so
nothing is given up that would have come back within the budget.
-/

namespace Atmem.Retrieve

open EditDistance

/-! ## Rows -/

/-- The distances of a text, read backwards, from `start` and what is read on
from there. -/
def distances (left : List Char) : List Char → List Char → List ℕ
  | start, [] => [levenshtein left start]
  | start, c :: right => levenshtein left start :: distances left (c :: start) right

variable {left right start : List Char} {budget : ℕ} {c : Char}

/-- The first distance is to the whole text. -/
theorem distances_head (left start right : List Char) :
    ∃ rest, distances left start right = levenshtein left start :: rest := by
  cases right with
  | nil => exact ⟨[], rfl⟩
  | cons c right => exact ⟨_, rfl⟩

/-- The first row. -/
theorem distances_nil (start right : List Char) :
    distances [] start right = List.range' start.length (right.length + 1) := by
  induction right generalizing start with
  | nil => rw [distances, levenshtein_nil_left]; rfl
  | cons c right ih =>
    rw [distances, levenshtein_nil_left, ih, List.length_cons, List.length_cons]
    exact List.range'_succ.symm

/-- **A row is computed from the one above.** -/
theorem rowCells_eq (left start right : List Char) (c : Char) :
    levenshtein (c :: left) start ::
        rowCells c (levenshtein (c :: left) start) (distances left start right) right =
      distances (c :: left) start right := by
  induction right generalizing start with
  | nil => rfl
  | cons d right ih =>
    obtain ⟨rest, hrest⟩ := distances_head left (d :: start) right
    have hcell : levenshtein (c :: left) (d :: start) =
        min (min (levenshtein (c :: left) start + 1) (levenshtein left (d :: start) + 1))
          (levenshtein left start + if c ≠ d then 1 else 0) := by
      rw [levenshtein_cons]
      simp only [ne_eq, ite_not]
    have htail := ih (d :: start)
    rw [distances, distances, hrest, rowCells, ← hcell, ← hrest]
    exact congrArg (levenshtein (c :: left) start :: ·) htail

/-- The last of a row is the distance from all of the right text. -/
theorem getLast?_distances (left start right : List Char) :
    (distances left start right).getLast? = some (levenshtein left (right.reverse ++ start)) := by
  induction right generalizing start with
  | nil => rfl
  | cons c right ih =>
    obtain ⟨rest, hrest⟩ := distances_head left (c :: start) right
    have htail := ih (c :: start)
    rw [distances, hrest, List.getLast?_cons_cons, ← hrest, htail, List.reverse_cons,
      List.append_assoc, List.singleton_append]

/-! ## Giving up -/

/-- **Rows do not go down**: a row above the budget is followed by one. -/
theorem lt_distances_cons (hstart : budget < levenshtein (c :: left) start)
    (h : ∀ d ∈ distances left start right, budget < d) :
    ∀ d ∈ distances (c :: left) start right, budget < d := by
  induction right generalizing start with
  | nil =>
    intro d hd
    rw [List.mem_singleton.mp hd]
    exact hstart
  | cons a right ih =>
    have hfirst : budget < levenshtein left start := h _ List.mem_cons_self
    have hnext : budget < levenshtein left (a :: start) := by
      obtain ⟨rest, hrest⟩ := distances_head left (a :: start) right
      refine h _ (List.mem_cons_of_mem _ ?_)
      rw [hrest]
      exact List.mem_cons_self
    have hstart' : budget < levenshtein (c :: left) (a :: start) := by
      rw [levenshtein_cons]
      omega
    intro d hd
    rcases List.mem_cons.mp hd with rfl | hd
    · exact hstart
    · exact ih hstart' (fun d hd => h d (List.mem_cons_of_mem _ hd)) d hd

/-- Nothing comes back within the budget. -/
theorem lt_levenshtein_of_row (h : ∀ d ∈ distances left [] right, budget < d)
    (more : List Char) : budget < levenshtein (more.reverse ++ left) right.reverse := by
  induction more generalizing left with
  | nil =>
    have hlast := List.mem_of_getLast? (getLast?_distances left [] right)
    rw [List.append_nil] at hlast
    exact h _ hlast
  | cons c more ih =>
    have hfirst : budget < levenshtein (c :: left) [] := by
      obtain ⟨rest, hrest⟩ := distances_head left [] right
      have hlt := h (levenshtein left []) (hrest ▸ List.mem_cons_self)
      rw [levenshtein_nil_right] at hlt ⊢
      exact hlt.trans (Nat.lt_succ_self _)
    rw [List.reverse_cons, List.append_assoc, List.singleton_append]
    exact ih (lt_distances_cons hfirst h)

/-- The least is over the budget exactly if all are. -/
theorem min?_any_iff {row : List ℕ} (hrow : row ≠ []) :
    (row.min?).any (budget < ·) = true ↔ ∀ d ∈ row, budget < d := by
  cases hmin : row.min? with
  | none => exact absurd (List.min?_eq_none_iff.mp hmin) hrow
  | some m =>
    obtain ⟨hmem, hle⟩ := List.min?_eq_some_iff.mp hmin
    simp only [Option.any_some, decide_eq_true_eq]
    exact ⟨fun hlt d hd => hlt.trans_le (hle d hd), fun hall => hall m hmem⟩

/-- **The rows compute the distance**, as far as the budget goes. -/
theorem typoRows_eq (budget : ℕ) (right left : List Char) (more : List Char) :
    typoRows budget right (left.length + 1) (distances left [] right) more =
      decide (levenshtein (more.reverse ++ left) right.reverse ≤ budget) := by
  induction more generalizing left with
  | nil =>
    rw [typoRows, getLast?_distances, Option.any_some, List.append_nil]
    rfl
  | cons c more ih =>
    have hrow : (left.length + 1) :: rowCells c (left.length + 1) (distances left [] right) right =
        distances (c :: left) [] right := by
      have hcells := rowCells_eq left [] right c
      rwa [levenshtein_nil_right, List.length_cons] at hcells
    rw [typoRows, hrow, List.reverse_cons, List.append_assoc, List.singleton_append]
    obtain ⟨rest, hrest⟩ := distances_head (c :: left) [] right
    split
    · next hgiven =>
      have hlt := lt_levenshtein_of_row
        ((min?_any_iff (by rw [hrest]; exact List.cons_ne_nil _ _)).mp hgiven) more
      exact (decide_eq_false (Nat.not_le_of_lt hlt)).symm
    · exact ih (c :: left)

/-! ## The budget -/

/-- What a typo may cost: two edits from seven characters on, and one below. -/
def typoBudget (left right : List Char) : ℕ :=
  if max left.length right.length ≥ 7 then 2 else 1

/-- **The typo budget is a bounded edit distance.** Two texts are within it
exactly if they are equal, or both have five characters and so many edits make
one the other; giving up early changes nothing, and neither does the order. -/
theorem withinTypoBudget_iff (left right : String) :
    (withinTypoBudget left right = true ↔ left = right ∨
      (5 ≤ left.toList.length ∧ 5 ≤ right.toList.length ∧
        ∃ n ≤ typoBudget left.toList right.toList, Edits n left.toList right.toList)) ∧
    typoRows (typoBudget left.toList right.toList) right.toList 1
        (List.range (right.toList.length + 1)) left.toList =
      decide (levenshtein left.toList right.toList ≤ typoBudget left.toList right.toList) ∧
    withinTypoBudget left right = withinTypoBudget right left := by
  have hrows : ∀ (left right : List Char) (budget : ℕ),
      typoRows budget right 1 (List.range (right.length + 1)) left =
        decide (levenshtein left right ≤ budget) := by
    intro left right budget
    have hrows := typoRows_eq budget right [] left
    rwa [distances_nil, List.append_nil, levenshtein_reverse, List.length_nil,
      ← List.range_eq_range'] at hrows
  have hiff : ∀ left right : String, withinTypoBudget left right = true ↔ left = right ∨
      (5 ≤ left.toList.length ∧ 5 ≤ right.toList.length ∧
        levenshtein left.toList right.toList ≤ typoBudget left.toList right.toList) := by
    intro left right
    have hleft := length_le_add_levenshtein left.toList right.toList
    have hright := length_le_add_levenshtein right.toList left.toList
    rw [levenshtein_comm] at hright
    rw [withinTypoBudget]
    split
    · next heq => exact iff_of_true rfl (.inl heq)
    next hne =>
    dsimp only
    rw [or_iff_right hne]
    split
    · -- a length under five
      next hshort => exact iff_of_false Bool.false_ne_true (by omega)
    next hlong =>
    rw [← typoBudget]
    split
    · -- the lengths alone differ by more than the budget
      next hfar => exact iff_of_false Bool.false_ne_true (by omega)
    · rw [hrows, decide_eq_true_eq]
      omega
  refine ⟨?_, hrows _ _ _, ?_⟩
  · rw [hiff, levenshtein_le_iff]
  · have hbudget : typoBudget left.toList right.toList = typoBudget right.toList left.toList := by
      rw [typoBudget, typoBudget, max_comm]
    rw [Bool.eq_iff_iff, hiff, hiff, hbudget, levenshtein_comm]
    constructor <;> rintro (heq | ⟨hl, hr, hle⟩)
    · exact .inl heq.symm
    · exact .inr ⟨hr, hl, hle⟩
    · exact .inl heq.symm
    · exact .inr ⟨hr, hl, hle⟩

example : withinTypoBudget "retrieval" "retreival" = true := by decide

end Atmem.Retrieve
