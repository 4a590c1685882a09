import Mathlib.Data.List.Basic
import Mathlib.Order.MinMax
/-!
# The edit distance

How many insertions, deletions and substitutions it takes, at the least, to
make one list another. The distance is computed from the heads; that it is
attained, and that no edits are fewer, makes it the same from the other end.
-/

namespace EditDistance

variable {α : Type*}

/-- One edit. -/
inductive Edit : List α → List α → Prop
  | insert (u v : List α) (a : α) : Edit (u ++ v) (u ++ a :: v)
  | delete (u v : List α) (a : α) : Edit (u ++ a :: v) (u ++ v)
  | substitute (u v : List α) (a b : α) : Edit (u ++ a :: v) (u ++ b :: v)

/-- So many edits, one after another. -/
inductive Edits : ℕ → List α → List α → Prop
  | refl (xs : List α) : Edits 0 xs xs
  | step {n : ℕ} {xs ys zs : List α} : Edit xs ys → Edits n ys zs → Edits (n + 1) xs zs

namespace Edit

variable {xs ys : List α}

/-- An edit behind a common head. -/
theorem cons (a : α) (h : Edit xs ys) : Edit (a :: xs) (a :: ys) := by
  cases h with
  | insert u v b => exact .insert (a :: u) v b
  | delete u v b => exact .delete (a :: u) v b
  | substitute u v b c => exact .substitute (a :: u) v b c

/-- An edit is undone by one. -/
theorem symm (h : Edit xs ys) : Edit ys xs := by
  cases h with
  | insert u v a => exact .delete u v a
  | delete u v a => exact .insert u v a
  | substitute u v a b => exact .substitute u v b a

/-- An edit of the reversals. -/
theorem reverse (h : Edit xs ys) : Edit xs.reverse ys.reverse := by
  cases h with
  | insert u v a => simpa using Edit.insert v.reverse u.reverse a
  | delete u v a => simpa using Edit.delete v.reverse u.reverse a
  | substitute u v a b => simpa using Edit.substitute v.reverse u.reverse a b

end Edit

namespace Edits

variable {n m : ℕ} {xs ys zs : List α}

/-- Edits in a row add up. -/
theorem trans (h : Edits n xs ys) (h' : Edits m ys zs) : Edits (n + m) xs zs := by
  induction h with
  | refl xs => rwa [Nat.zero_add]
  | step hedit _ ih =>
    rw [Nat.add_right_comm]
    exact .step hedit (ih h')

/-- Edits behind a common head. -/
theorem cons (a : α) (h : Edits n xs ys) : Edits n (a :: xs) (a :: ys) := by
  induction h with
  | refl xs => exact .refl _
  | step hedit _ ih => exact .step (hedit.cons a) ih

theorem single (h : Edit xs ys) : Edits 1 xs ys := .step h (.refl ys)

/-- Edits are undone by as many. -/
theorem symm (h : Edits n xs ys) : Edits n ys xs := by
  induction h with
  | refl xs => exact .refl xs
  | step hedit _ ih => exact ih.trans (.single hedit.symm)

/-- Edits of the reversals. -/
theorem reverse (h : Edits n xs ys) : Edits n xs.reverse ys.reverse := by
  induction h with
  | refl xs => exact .refl _
  | step hedit _ ih => exact .step hedit.reverse ih

/-- An edit changes the length by one, at the most. -/
theorem length_le (h : Edits n xs ys) :
    xs.length ≤ ys.length + n := by
  induction h with
  | refl xs => exact le_rfl
  | step hedit _ ih =>
    cases hedit with
    | insert u v a | delete u v a | substitute u v a b =>
      simp only [List.length_append, List.length_cons] at ih ⊢
      omega

end Edits

variable [DecidableEq α]

/-- The distance of two lists, from their heads. -/
def levenshtein : List α → List α → ℕ
  | [], ys => ys.length
  | xs, [] => xs.length
  | x :: xs, y :: ys =>
    min (min (levenshtein (x :: xs) ys + 1) (levenshtein xs (y :: ys) + 1))
      (levenshtein xs ys + if x = y then 0 else 1)

@[simp] theorem levenshtein_nil_left (ys : List α) : levenshtein [] ys = ys.length := by
  rw [levenshtein]

@[simp] theorem levenshtein_nil_right (xs : List α) : levenshtein xs [] = xs.length := by
  cases xs <;> rw [levenshtein]
  exact List.cons_ne_nil _ _

/-- The recursion of the distance. -/
theorem levenshtein_cons (x y : α) (xs ys : List α) : levenshtein (x :: xs) (y :: ys) =
    min (min (levenshtein (x :: xs) ys + 1) (levenshtein xs (y :: ys) + 1))
      (levenshtein xs ys + if x = y then 0 else 1) := by
  rw [levenshtein]

/-! ## It is attained -/

/-- The distance is reached by edits. -/
theorem edits_levenshtein (xs ys : List α) : Edits (levenshtein xs ys) xs ys := by
  induction xs generalizing ys with
  | nil =>
    rw [levenshtein_nil_left]
    induction ys with
    | nil => exact .refl []
    | cons y ys ih => exact .step (.insert [] [] y) (ih.cons y)
  | cons x xs ih =>
    induction ys with
    | nil =>
      have hrest := ih []
      rw [levenshtein_nil_right] at hrest ⊢
      exact .step (.delete [] xs x) hrest
    | cons y ys ih' =>
      have hinsert : Edits (levenshtein (x :: xs) ys + 1) (x :: xs) (y :: ys) :=
        ih'.trans (.single (.insert [] ys y))
      have hdelete : Edits (levenshtein xs (y :: ys) + 1) (x :: xs) (y :: ys) :=
        .step (.delete [] xs x) (ih (y :: ys))
      have hkeep : Edits (levenshtein xs ys + if x = y then 0 else 1) (x :: xs) (y :: ys) := by
        split
        · next heq => exact heq ▸ (ih ys).cons x
        · exact ((ih ys).cons x).trans (.single (.substitute [] ys x y))
      rw [levenshtein_cons]
      rcases min_choice (min (levenshtein (x :: xs) ys + 1) (levenshtein xs (y :: ys) + 1))
        (levenshtein xs ys + if x = y then 0 else 1) with h | h <;> rw [h]
      · rcases min_choice (levenshtein (x :: xs) ys + 1) (levenshtein xs (y :: ys) + 1)
          with h | h <;> rw [h]
        · exact hinsert
        · exact hdelete
      · exact hkeep

/-! ## No edits are fewer -/

/-- An edit on the left saves one, at the most. -/
def Near (xs zs : List α) : Prop := ∀ ys, levenshtein xs ys ≤ levenshtein zs ys + 1

/-- An element more is at most an edit more. -/
theorem levenshtein_cons_right_le (xs : List α) (y : α) (ys : List α) :
    levenshtein xs (y :: ys) ≤ levenshtein xs ys + 1 := by
  cases xs with
  | nil => simp
  | cons x xs =>
    rw [levenshtein_cons]
    omega

theorem near_delete (x : α) (xs : List α) : Near (x :: xs) xs := by
  intro ys
  cases ys with
  | nil => simp
  | cons y ys =>
    rw [levenshtein_cons]
    omega

theorem near_insert (x : α) (xs : List α) : Near xs (x :: xs) := by
  intro ys
  induction ys with
  | nil => simp only [levenshtein_nil_right, List.length_cons]; omega
  | cons y ys ih =>
    have hright := levenshtein_cons_right_le xs y ys
    rw [levenshtein_cons]
    omega

theorem near_substitute (x z : α) (xs : List α) : Near (x :: xs) (z :: xs) := by
  intro ys
  induction ys with
  | nil => simp
  | cons y ys ih =>
    rw [levenshtein_cons, levenshtein_cons]
    split <;> split <;> omega

/-- A common head keeps texts near. -/
theorem Near.cons (x : α) {xs zs : List α} (h : Near xs zs) : Near (x :: xs) (x :: zs) := by
  intro ys
  induction ys with
  | nil => simpa using h []
  | cons y ys ih =>
    have hcons := h (y :: ys)
    have htail := h ys
    rw [levenshtein_cons, levenshtein_cons]
    omega

/-- So does a common beginning. -/
theorem Near.append (u : List α) {xs zs : List α} (h : Near xs zs) : Near (u ++ xs) (u ++ zs) := by
  induction u with
  | nil => exact h
  | cons a u ih => exact ih.cons a

/-- One edit brings no distance far. -/
theorem near_of_edit {xs zs : List α} (h : Edit xs zs) : Near xs zs := by
  cases h with
  | insert u v a => exact (near_insert a v).append u
  | delete u v a => exact (near_delete a v).append u
  | substitute u v a b => exact (near_substitute a b v).append u

theorem levenshtein_self (xs : List α) : levenshtein xs xs = 0 := by
  induction xs with
  | nil => simp
  | cons x xs ih =>
    rw [levenshtein_cons, ih, if_pos rfl]
    omega

/-- **No fewer edits will do.** -/
theorem levenshtein_le_of_edits {n : ℕ} {xs ys : List α} (h : Edits n xs ys) :
    levenshtein xs ys ≤ n := by
  induction h with
  | refl xs => rw [levenshtein_self]
  | step hedit _ ih => exact (near_of_edit hedit _).trans (Nat.succ_le_succ ih)

/-- **The distance is the least number of edits.** -/
theorem levenshtein_le_iff {n : ℕ} {xs ys : List α} :
    levenshtein xs ys ≤ n ↔ ∃ m ≤ n, Edits m xs ys := by
  constructor
  · intro h
    exact ⟨_, h, edits_levenshtein xs ys⟩
  · rintro ⟨m, hm, h⟩
    exact (levenshtein_le_of_edits h).trans hm

/-- The distance is symmetric. -/
theorem levenshtein_comm (xs ys : List α) : levenshtein xs ys = levenshtein ys xs :=
  le_antisymm (levenshtein_le_of_edits (edits_levenshtein ys xs).symm)
    (levenshtein_le_of_edits (edits_levenshtein xs ys).symm)

/-- The distance is the same from the other end. -/
theorem levenshtein_reverse (xs ys : List α) :
    levenshtein xs.reverse ys.reverse = levenshtein xs ys := by
  refine le_antisymm (levenshtein_le_of_edits (edits_levenshtein xs ys).reverse) ?_
  have hback := levenshtein_le_of_edits (edits_levenshtein xs.reverse ys.reverse).reverse
  rwa [List.reverse_reverse, List.reverse_reverse] at hback

/-- The lengths differ by the distance at most. -/
theorem length_le_add_levenshtein (xs ys : List α) :
    xs.length ≤ ys.length + levenshtein xs ys :=
  (edits_levenshtein xs ys).length_le

end EditDistance
