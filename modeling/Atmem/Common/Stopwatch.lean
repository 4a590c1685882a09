import Mathlib.Data.List.Chain
import Mathlib.Order.Lattice
/-!
# Time counted over a history

A history is a list of stamped entries, each in force until the next one
is stamped and the last until the instant the history is read. A stopwatch
runs while certain entries are in force. A history is also cut at its last
marked entry: what lies before it, and the entry with what follows.
-/

namespace Stopwatch

variable {α : Type*}

/-! ## Counting -/

section Total

variable (stamp : α → ℕ) (runs : α → Bool) (length : ℕ → ℕ → ℕ)

/-- The time the stopwatch has counted when the history is read. -/
def total (t : ℕ) : List α → ℕ
  | [] => 0
  | x :: xs =>
    (if runs x then length (stamp x) ((xs.head?.map stamp).getD t) else 0) + total t xs

/-- A history in two parts: the first is read when the second begins. -/
theorem total_append_cons (t : ℕ) (xs ys : List α) (y : α) :
    total stamp runs length t (xs ++ y :: ys) =
      total stamp runs length (stamp y) xs + total stamp runs length t (y :: ys) := by
  induction xs with
  | nil => exact (Nat.zero_add _).symm
  | cons x xs ih =>
    have hnext : ((xs ++ y :: ys).head?.map stamp).getD t = (xs.head?.map stamp).getD (stamp y) := by
      cases xs <;> rfl
    rw [List.cons_append, total, total, ih, hnext]
    omega

/-- One more entry: what was counted until then, and what it counts. -/
theorem total_concat (t : ℕ) (xs : List α) (y : α) :
    total stamp runs length t (xs ++ [y]) =
      total stamp runs length (stamp y) xs + if runs y then length (stamp y) t else 0 :=
  total_append_cons stamp runs length t xs [] y

/-- A stopwatch never counts more than the time there was, where the
stamps are in order and lengths add up to no more than the whole. -/
theorem total_le (hlength : ∀ a b c, a ≤ b → b ≤ c → length a b + length b c ≤ length a c)
    {t : ℕ} {x : α} {xs : List α} (hxs : (x :: xs).IsChain (fun a b => stamp a ≤ stamp b))
    (ht : ∀ y ∈ (x :: xs).getLast?, stamp y ≤ t) :
    stamp x ≤ t ∧ total stamp runs length t (x :: xs) ≤ length (stamp x) t := by
  induction xs generalizing x with
  | nil =>
    refine ⟨ht x rfl, ?_⟩
    rw [total, total]
    split <;> simp
  | cons y ys ih =>
    obtain ⟨hxy, hys⟩ := List.isChain_cons_cons.mp hxs
    obtain ⟨hy, hle⟩ := ih hys ht
    refine ⟨Nat.le_trans hxy hy, ?_⟩
    have hadd := hlength _ _ _ hxy hy
    rw [total]
    simp only [List.head?_cons, Option.map_some, Option.getD_some]
    split <;> omega

/-- Two measures that are near on every length are near in total, each time
the stopwatch runs. -/
theorem total_near {length' : ℕ → ℕ → ℕ} {scale error bound : ℕ}
    (hnear : ∀ a b, b < bound → scale * length a b ≤ length' a b + error ∧
      length' a b ≤ scale * length a b + error)
    {t : ℕ} (ht : t < bound) {xs : List α} (hxs : ∀ x ∈ xs, stamp x < bound) :
    scale * total stamp runs length t xs ≤
        total stamp runs length' t xs + error * xs.countP runs ∧
      total stamp runs length' t xs ≤
        scale * total stamp runs length t xs + error * xs.countP runs := by
  induction xs with
  | nil => exact ⟨Nat.le_refl 0, Nat.le_refl 0⟩
  | cons x xs ih =>
    obtain ⟨hle, hge⟩ := ih fun y hy => hxs y (List.mem_cons_of_mem x hy)
    have hnext : (xs.head?.map stamp).getD t < bound := by
      cases xs with
      | nil => exact ht
      | cons y ys => exact hxs y (List.mem_cons_of_mem x List.mem_cons_self)
    obtain ⟨hle', hge'⟩ := hnear (stamp x) _ hnext
    rw [total, total, List.countP_cons, Nat.mul_add, Nat.mul_add]
    rcases hruns : runs x with - | -
    · simpa [hruns] using ⟨hle, hge⟩
    · simp only [if_true, Nat.mul_one]
      omega

end Total

/-! ## The last mark -/

section Mark

variable (mark : α → Bool)

/-- The last marked entry and what follows it; the whole history, where
nothing after its first entry is marked. -/
def sinceLast : List α → List α
  | [] => []
  | x :: xs => if xs.any mark then sinceLast xs else x :: xs

/-- What lies before. -/
def beforeLast : List α → List α
  | [] => []
  | x :: xs => if xs.any mark then x :: beforeLast xs else []

/-- What came before the last mark, and since. -/
theorem beforeLast_append_sinceLast (xs : List α) : beforeLast mark xs ++ sinceLast mark xs = xs := by
  induction xs with
  | nil => rfl
  | cons x xs ih =>
    unfold beforeLast sinceLast
    split
    · rw [List.cons_append, ih]
    · rfl

theorem sinceLast_suffix (xs : List α) : sinceLast mark xs <:+ xs :=
  ⟨beforeLast mark xs, beforeLast_append_sinceLast mark xs⟩

/-- A marked entry starts the count anew. -/
theorem sinceLast_concat_of_mark {y : α} (hy : mark y = true) (xs : List α) :
    sinceLast mark (xs ++ [y]) = [y] := by
  induction xs with
  | nil => rfl
  | cons x xs ih =>
    have hany : (xs ++ [y]).any mark = true := by simp [hy]
    rw [List.cons_append, sinceLast, if_pos hany, ih]

/-- Any other entry is one more since the last mark. -/
theorem sinceLast_concat_of_not_mark {y : α} (hy : mark y = false) (xs : List α) :
    sinceLast mark (xs ++ [y]) = sinceLast mark xs ++ [y] := by
  induction xs with
  | nil => rfl
  | cons x xs ih =>
    have hany : (xs ++ [y]).any mark = xs.any mark := by simp [hy]
    rw [List.cons_append, sinceLast, sinceLast, hany, ih]
    split <;> rfl

/-- The cut depends on the marks of the entries alone. -/
theorem cut_congr {mark' : α → Bool} {xs : List α} (h : ∀ x ∈ xs, mark x = mark' x) :
    beforeLast mark xs = beforeLast mark' xs ∧ sinceLast mark xs = sinceLast mark' xs := by
  induction xs with
  | nil => exact ⟨rfl, rfl⟩
  | cons x xs ih =>
    have hrest : ∀ y ∈ xs, mark y = mark' y := fun y hy => h y (List.mem_cons_of_mem _ hy)
    have hany : xs.any mark = xs.any mark' := by
      rw [Bool.eq_iff_iff, List.any_eq_true, List.any_eq_true]
      exact exists_congr fun y => and_congr_right fun hy => by rw [hrest y hy]
    obtain ⟨hbefore, hsince⟩ := ih hrest
    unfold beforeLast sinceLast
    rw [hany, hbefore, hsince]
    exact ⟨rfl, rfl⟩

/-- The entry the count starts at stays where it is until the next mark. -/
theorem head?_sinceLast_concat {x y : α} {xs : List α} (hy : mark y = false)
    (hx : x ∈ (sinceLast mark xs).head?) : x ∈ (sinceLast mark (xs ++ [y])).head? := by
  rw [sinceLast_concat_of_not_mark mark hy, List.head?_append, Option.mem_def.mp hx]
  rfl

/-- **Counting from a stamp.** Where the stamps are in order, and nothing that
counts bears the stamp of the last marked entry up to that entry, what counts
from that stamp on is what counts after the entry. -/
theorem countP_since {β : Type*} [LinearOrder β] (stamp : α → β) (counts : α → Bool)
    {xs : List α} {x : α} (hx : x ∈ (sinceLast mark xs).head?)
    (hordered : xs.Pairwise fun a b => stamp a ≤ stamp b)
    (hties : ∀ y ∈ beforeLast mark xs ++ [x], counts y = true → stamp y ≠ stamp x) :
    xs.countP (fun y => counts y && decide (stamp x ≤ stamp y)) =
      (sinceLast mark xs).tail.countP counts := by
  obtain ⟨after, hafter⟩ := List.head?_eq_some_iff.mp hx
  have hsplit := beforeLast_append_sinceLast mark xs
  rw [hafter, List.append_cons] at hsplit
  rw [hafter, List.tail_cons]
  rw [← hsplit] at hordered ⊢
  obtain ⟨hbefore, -, hcross⟩ := List.pairwise_append.mp hordered
  have hlast : ∀ y ∈ beforeLast mark xs ++ [x], stamp y ≤ stamp x := by
    intro y hy
    rcases List.mem_append.mp hy with hy | hy
    · exact (List.pairwise_append.mp hbefore).2.2 y hy x (List.mem_singleton_self x)
    · rw [List.mem_singleton.mp hy]
  have hnone : (beforeLast mark xs ++ [x]).countP
      (fun y => counts y && decide (stamp x ≤ stamp y)) = 0 := by
    refine List.countP_eq_zero.mpr fun y hy hcounted => ?_
    obtain ⟨hcounts, hle⟩ := Bool.and_eq_true_iff.mp hcounted
    exact hties y hy hcounts (le_antisymm (hlast y hy) (of_decide_eq_true hle))
  have hall : after.countP (fun y => counts y && decide (stamp x ≤ stamp y)) =
      after.countP counts := by
    refine List.countP_congr fun y hy => ?_
    have hle : stamp x ≤ stamp y :=
      hcross x (List.mem_append_right _ (List.mem_singleton_self x)) y hy
    rw [decide_eq_true hle, Bool.and_true]
  rw [List.countP_append, hnone, hall, Nat.zero_add]

end Mark

end Stopwatch
