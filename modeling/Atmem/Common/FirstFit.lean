import Mathlib.Algebra.BigOperators.Group.List.Basic
import Mathlib.Algebra.GroupWithZero.Nat
/-!
# First fit

What is taken, in order, of a list of sized things under one budget: each
that still fits. Nothing taken goes over the budget, and where all of them
fit together all of them are taken.
-/

namespace FirstFit

variable {α : Type*}

/-- What fits, in order, when some of the budget is used already. -/
def firstFit (size : α → ℕ) (budget : ℕ) : ℕ → List α → List α
  | _, [] => []
  | used, a :: as =>
    if used + size a ≤ budget then a :: firstFit size budget (used + size a) as
    else firstFit size budget used as

/-- The size of several. -/
def total (size : α → ℕ) (as : List α) : ℕ := (as.map size).sum

variable {size : α → ℕ} {budget used : ℕ} {as : List α} {a : α}

@[simp] theorem total_nil : total size [] = 0 := rfl

@[simp] theorem total_cons : total size (a :: as) = size a + total size as := List.sum_cons

/-- What fits is chosen in order. -/
theorem firstFit_sublist (used : ℕ) (as : List α) :
    (firstFit size budget used as).Sublist as := by
  induction as generalizing used with
  | nil => exact .slnil
  | cons a as ih =>
    rw [firstFit]
    split
    · exact (ih _).cons_cons a
    · exact (ih _).cons a

end FirstFit
