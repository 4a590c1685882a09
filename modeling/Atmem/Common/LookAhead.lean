import Mathlib.Data.List.Basic
import Mathlib.Data.Nat.Init
import Mathlib.Order.Defs.Unbundled
/-!
# Pages with an element of look-ahead

An ordered list read in pages of a fixed size, each from behind the key of the
last element of the one before, which is given where more elements follow. The
pages that follow one another from a cursor are, put together, what lies behind
it (`Cuts.flatten_eq`), and they come to an end (`Cuts.exists_pages`).
-/

namespace LookAhead

variable {α κ : Type*} {before : κ → κ → Prop} [DecidableRel before] {key : α → κ}
variable {l : List α} {n : ℕ} {fetch : Option κ → List α × Option κ}

/-- What lies behind a cursor; without one, everything. -/
def behind (before : κ → κ → Prop) [DecidableRel before] (key : α → κ) (l : List α) :
    Option κ → List α
  | none => l
  | some c => l.filter fun a => before c (key a)

/-- A page shows the front of what lies behind its cursor, and gives the key of
its last element where there is more. -/
structure Cuts (before : κ → κ → Prop) [DecidableRel before] (key : α → κ) (l : List α) (n : ℕ)
    (fetch : Option κ → List α × Option κ) : Prop where
  shown : ∀ c, (fetch c).1 = (behind before key l c).take n
  next : ∀ c, (fetch c).2 =
    if n < (behind before key l c).length then
      ((behind before key l c).take n).getLast?.map key
    else none

/-- **The pages from a cursor on**, until one gives no other. -/
inductive Pages (fetch : Option κ → List α × Option κ) : Option κ → List (List α) → Prop
  | last {c : Option κ} : (fetch c).2 = none → Pages fetch c [(fetch c).1]
  | next {c : Option κ} {k : κ} {pages : List (List α)} :
      (fetch c).2 = some k → Pages fetch (some k) pages → Pages fetch c ((fetch c).1 :: pages)

/-- What lies behind a cursor is in order. -/
theorem pairwise_behind (hl : l.Pairwise fun a b => before (key a) (key b)) (c : Option κ) :
    (behind before key l c).Pairwise fun a b => before (key a) (key b) := by
  cases c with
  | none => exact hl
  | some c => exact hl.filter _

variable [IsStrictOrder κ before]

/-- Behind an element that lies behind a cursor is what follows it there. -/
theorem behind_key (hl : l.Pairwise fun a b => before (key a) (key b)) {c : Option κ} {x : α}
    {front rest : List α} (hcut : behind before key l c = front ++ x :: rest) :
    behind before key l (some (key x)) = rest := by
  have hfrom : behind before key l (some (key x)) =
      (behind before key l c).filter fun a => before (key x) (key a) := by
    cases c with
    | none => rfl
    | some c =>
      have hx : x ∈ l.filter fun a => decide (before c (key a)) := by
        rw [show l.filter (fun a => decide (before c (key a))) = front ++ x :: rest from hcut]
        simp
      have hcx : before c (key x) := of_decide_eq_true (List.mem_filter.mp hx).2
      rw [behind, behind, List.filter_filter]
      refine List.filter_congr fun a _ => ?_
      by_cases hxa : before (key x) (key a)
      · simp [hxa, Trans.trans hcx hxa]
      · simp [hxa]
  have hordered := pairwise_behind hl c
  rw [hcut] at hordered
  obtain ⟨-, hrest, hcross⟩ := List.pairwise_append.mp hordered
  have hfront : front.filter (fun a => decide (before (key x) (key a))) = [] := by
    refine List.filter_eq_nil_iff.mpr fun a ha => ?_
    rw [decide_eq_true_iff]
    exact fun hxa => asymm hxa (hcross a ha x List.mem_cons_self)
  have hself : ¬ before (key x) (key x) := irrefl _
  rw [hfrom, hcut, List.filter_append, hfront, List.nil_append,
    List.filter_cons_of_neg (by simpa using hself), List.filter_eq_self]
  exact fun a ha => decide_eq_true ((List.pairwise_cons.mp hrest).1 a ha)

/-- A page that gives a cursor leaves behind it what it did not show, which is
less. -/
theorem Cuts.rest (hf : Cuts before key l n fetch)
    (hl : l.Pairwise fun a b => before (key a) (key b)) {c : Option κ} {k : κ}
    (hk : (fetch c).2 = some k) :
    behind before key l (some k) = (behind before key l c).drop n ∧
      n < (behind before key l c).length := by
  rw [hf.next] at hk
  split at hk
  · rename_i hmore
    obtain ⟨x, hx, rfl⟩ := Option.map_eq_some_iff.mp hk
    obtain ⟨front, hfront⟩ := List.getLast?_eq_some_iff.mp hx
    have hcut : behind before key l c = front ++ x :: (behind before key l c).drop n := by
      rw [← List.singleton_append, ← List.append_assoc, ← hfront, List.take_append_drop]
    exact ⟨behind_key hl hcut, hmore⟩
  · cases hk

/-- **The pages from a cursor on** show all that lies behind it, each element
once and in its order. -/
theorem Cuts.flatten_eq (hf : Cuts before key l n fetch) (hn : 0 < n)
    (hl : l.Pairwise fun a b => before (key a) (key b)) {c : Option κ} {pages : List (List α)}
    (hp : Pages fetch c pages) : pages.flatten = behind before key l c := by
  induction hp with
  | @last c hnone =>
    have hall : (behind before key l c).length ≤ n := by
      by_contra hmore
      rw [hf.next, if_pos (Nat.lt_of_not_le hmore), Option.map_eq_none_iff, List.getLast?_eq_none_iff,
        List.take_eq_nil_iff] at hnone
      rcases hnone with hzero | hnil
      · omega
      · rw [hnil] at hmore
        exact hmore (Nat.zero_le n)
    rw [List.flatten_singleton, hf.shown, List.take_of_length_le hall]
  | @next c k pages hk _ ih =>
    rw [List.flatten_cons, ih, (hf.rest hl hk).1, hf.shown, List.take_append_drop]

/-- The pages from a cursor on come to an end. -/
theorem Cuts.exists_pages (hf : Cuts before key l n fetch) (hn : 0 < n)
    (hl : l.Pairwise fun a b => before (key a) (key b)) (c : Option κ) :
    ∃ pages, Pages fetch c pages := by
  induction hlen : (behind before key l c).length using Nat.strong_induction_on generalizing c with
  | _ m ih =>
    rcases hk : (fetch c).2 with - | k
    · exact ⟨_, .last hk⟩
    · -- fewer elements lie behind the next cursor
      obtain ⟨hrest, hmore⟩ := hf.rest hl hk
      have hless : (behind before key l (some k)).length < m := by
        rw [hrest, List.length_drop]
        omega
      obtain ⟨pages, hpages⟩ := ih _ hless (some k) rfl
      exact ⟨_, .next hk hpages⟩

end LookAhead
