import Mathlib.Data.List.Sort
import Mathlib.Data.Prod.Lex
/-!
# Paging through a sorted list

A list sorted by a key, read from behind the key of the last element that was
shown. What remains is a suffix of the list, and a page shows the front of it.
And a list whose front is swept over and over: each sweep looks at as many
elements as a window holds, and takes out those that are due; what is not due
keeps its place in the window, so an element that is due is reached exactly
where fewer of those come before it than the window holds.
-/

namespace Paging

variable {α κ : Type*} [LinearOrder κ] {key : α → κ} {l l' : List α}

/-- Each element comes before the next by its key. -/
abbrev Ordered (key : α → κ) (l : List α) : Prop := l.Pairwise fun a b => key a < key b

/-- Two ordered lists of the same elements are the same list. -/
theorem Ordered.eq_of_mem_iff (hl : Ordered key l) (hl' : Ordered key l')
    (hmem : ∀ a, a ∈ l ↔ a ∈ l') : l = l' := by
  have : Std.Irrefl fun a b : α => key a < key b := ⟨fun _ => lt_irrefl _⟩
  have : Std.Antisymm fun a b : α => key a < key b :=
    ⟨fun _ _ hab hba => absurd hba (lt_asymm hab)⟩
  exact List.Pairwise.eq_of_mem_iff hl hl' hmem

/-- The elements of a list in the order of their keys. -/
def sortBy (key : α → κ) (l : List α) : List α := l.mergeSort fun a b => decide (key a ≤ key b)

/-- Sorting keeps the elements. -/
@[simp] theorem mem_sortBy {a : α} : a ∈ sortBy key l ↔ a ∈ l := List.mem_mergeSort

/-- Sorting keeps their number. -/
@[simp] theorem length_sortBy : (sortBy key l).length = l.length := List.length_mergeSort ..

/-- Where no two elements share a key, sorting orders them. -/
theorem ordered_sortBy (hl : l.Pairwise fun a b => key a ≠ key b) : Ordered key (sortBy key l) := by
  have hle : (sortBy key l).Pairwise fun a b => decide (key a ≤ key b) = true :=
    List.pairwise_mergeSort
      (fun a b c hab hbc => decide_eq_true ((of_decide_eq_true hab).trans (of_decide_eq_true hbc)))
      (fun a b => by
        rcases le_total (key a) (key b) with h | h <;> simp [h]) l
  have hne : (sortBy key l).Pairwise fun a b => key a ≠ key b :=
    hl.perm (List.mergeSort_perm ..).symm fun h => h.symm
  exact (hle.and hne).imp fun ⟨hle, hne⟩ => lt_of_le_of_ne (of_decide_eq_true hle) hne

/-- What is kept may be chosen before sorting or after. -/
theorem sortBy_filter (hl : l.Pairwise fun a b => key a ≠ key b) (p : α → Bool) :
    sortBy key (l.filter p) = (sortBy key l).filter p := by
  refine Ordered.eq_of_mem_iff (ordered_sortBy (hl.filter p)) ((ordered_sortBy hl).filter p) ?_
  intro a
  simp

/-- **Behind the last element that was shown** come exactly those that were
not. -/
theorem filter_after {shown rest : List α} {last : α} (hl : Ordered key (shown ++ rest))
    (hlast : shown.getLast? = some last) :
    ((shown ++ rest).filter fun a => decide (key last < key a)) = rest := by
  obtain ⟨before, rfl⟩ := List.getLast?_eq_some_iff.mp hlast
  obtain ⟨hshown, -, hcross⟩ := List.pairwise_append.mp hl
  obtain ⟨-, -, hbefore⟩ := List.pairwise_append.mp hshown
  rw [List.filter_append, List.filter_eq_nil_iff.mpr, List.nil_append, List.filter_eq_self.mpr]
  · exact fun a ha => decide_eq_true (hcross last (by simp) a ha)
  · intro a ha
    rw [decide_eq_true_eq]
    rcases List.mem_append.mp ha with ha | ha
    · exact lt_asymm (hbefore a ha last (List.mem_singleton_self _))
    · rw [List.mem_singleton.mp ha]
      exact lt_irrefl _

end Paging

namespace Sweeping

open Paging

variable {α κ : Type*} {due : α → Bool} {k m : ℕ} {a : α} {l : List α}

/-- One sweep: of the first `m` elements, those that are not due stay. -/
def sweep (due : α → Bool) (m : ℕ) (l : List α) : List α :=
  ((l.take m).filter fun a => !due a) ++ l.drop m

/-- Each element that is due comes into the window, once those due before it
are gone. -/
def Reaches (due : α → Bool) : ℕ → List α → Prop
  | _, [] => True
  | m, a :: l => if due a then 0 < m ∧ Reaches due m l else Reaches due (m - 1) l

/-- A due element is taken by the first step. -/
theorem reaches_cons_due (ha : due a = true) :
    Reaches due m (a :: l) ↔ 0 < m ∧ Reaches due m l := by
  rw [Reaches, if_pos ha]

/-- One that is not due takes a step for nothing. -/
theorem reaches_cons_not (ha : due a = false) :
    Reaches due m (a :: l) ↔ Reaches due (m - 1) l := by
  rw [Reaches, if_neg (by rw [ha]; exact Bool.false_ne_true)]

theorem sweep_cons_due (ha : due a = true) : sweep due (k + 1) (a :: l) = sweep due k l := by
  simp [sweep, ha]

theorem sweep_cons_not (ha : due a = false) :
    sweep due (k + 1) (a :: l) = a :: sweep due k l := by
  simp [sweep, ha]

/-- **A sweep changes nothing about what is reached**, of a window at least as
large. -/
theorem reaches_sweep (hk : k ≤ m) : Reaches due m (sweep due k l) ↔ Reaches due m l := by
  induction k generalizing m l with
  | zero => simp [sweep]
  | succ k ih =>
    cases l with
    | nil => simp [sweep]
    | cons a l =>
      rcases ha : due a with - | -
      · rw [sweep_cons_not ha, reaches_cons_not ha, reaches_cons_not ha]
        exact ih (by omega)
      · rw [sweep_cons_due ha, reaches_cons_due ha, ih (by omega)]
        exact ⟨fun h => ⟨by omega, h⟩, And.right⟩

/-- A window that shows nothing due stands still: all is reached only where
nothing is due at all. -/
theorem reaches_of_clear (hclear : ∀ a ∈ l.take m, due a = false) :
    Reaches due m l ↔ ∀ a ∈ l, due a = false := by
  induction l generalizing m with
  | nil => simp [Reaches]
  | cons a l ih =>
    rw [List.forall_mem_cons]
    rcases ha : due a with - | -
    · rw [reaches_cons_not ha, ih fun b hb => ?_]
      · exact ⟨fun h => ⟨rfl, h⟩, And.right⟩
      · cases m with
        | zero => simp at hb
        | succ m => exact hclear b (List.mem_cons_of_mem a hb)
    · rw [reaches_cons_due ha]
      refine ⟨fun h => ?_, fun h => nomatch h.1⟩
      obtain ⟨m, rfl⟩ := Nat.exists_eq_succ_of_ne_zero h.1.ne'
      rw [hclear a List.mem_cons_self] at ha
      cases ha

/-- A sweep that takes something out leaves less to do. -/
theorem countP_sweep_lt (ha : a ∈ l.take m) (hdue : due a = true) :
    (sweep due m l).countP due < l.countP due := by
  have hpos : 0 < (l.take m).countP due := List.countP_pos_iff.mpr ⟨a, ha, hdue⟩
  have hall : l.countP due = (l.take m).countP due + (l.drop m).countP due := by
    rw [← List.countP_append, List.take_append_drop]
  have hnone : ((l.take m).filter fun a => !due a).countP due = 0 :=
    List.countP_eq_zero.mpr fun b hb => by simpa using (List.mem_filter.mp hb).2
  rw [sweep, List.countP_append, hnone, hall]
  omega

/-- **What is reached, counted**: by the elements of smaller keys that are not
due. -/
theorem reaches_iff_countP [LinearOrder κ] {key : α → κ} (hl : Ordered key l) :
    Reaches due m l ↔
      ∀ a ∈ l, due a = true → (l.countP fun b => !due b && decide (key b < key a)) < m := by
  induction l generalizing m with
  | nil => simp [Reaches]
  | cons a l ih =>
    obtain ⟨hfirst, hrest⟩ := List.pairwise_cons.mp hl
    rw [List.forall_mem_cons]
    -- no key is smaller than the first
    have hself : ((a :: l).countP fun b => !due b && decide (key b < key a)) = 0 := by
      refine List.countP_eq_zero.mpr fun b hb => ?_
      rcases List.mem_cons.mp hb with rfl | hb
      · simp
      · simp [lt_asymm (hfirst b hb)]
    rcases ha : due a with - | -
    · -- an element that is not due counts for every one after it
      have hcount (b : α) (hb : b ∈ l) :
          ((a :: l).countP fun c => !due c && decide (key c < key b)) =
            (l.countP fun c => !due c && decide (key c < key b)) + 1 := by
        rw [List.countP_cons_of_pos (by simp [ha, hfirst b hb])]
      rw [reaches_cons_not ha, ih hrest]
      constructor
      · intro h
        refine ⟨(fun hd => nomatch hd), fun b hb hd => ?_⟩
        have := h b hb hd
        rw [hcount b hb]
        omega
      · rintro ⟨-, h⟩ b hb hd
        have := h b hb hd
        rw [hcount b hb] at this
        omega
    · have hcount (b : α) : ((a :: l).countP fun c => !due c && decide (key c < key b)) =
          l.countP fun c => !due c && decide (key c < key b) := by
        rw [List.countP_cons_of_neg (by simp [ha])]
      rw [reaches_cons_due ha, ih hrest, hself]
      simp only [hcount]
      exact ⟨fun h => ⟨fun _ => h.1, h.2⟩, fun h => ⟨h.1 trivial, h.2⟩⟩

end Sweeping
