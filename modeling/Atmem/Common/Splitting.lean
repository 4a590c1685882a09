import Mathlib.Data.List.Basic
import Mathlib.Data.Nat.Basic
import Mathlib.Order.MinMax
/-!
# Splitting

Ranges in order, none empty and none touching another's inside, that hold
every offset of a range that is needed, and begin and end at offsets where it
may be cut. What is split can be split further. And texts that were joined
out of parts and can be taken apart in one way only: a code no word of which
goes on into another, such words up to a stop no word begins with, and words
of ordinary elements up to a stop.
-/

namespace Splitting

/-- Ranges split a range: `needed` are the offsets they have to hold, `cut`
those they may begin and end at. -/
structure Splits (needed cut : ℕ → Prop) (lo hi : ℕ) (rs : List (ℕ × ℕ)) : Prop where
  ordered : rs.Pairwise fun a b => a.2 ≤ b.1
  inside : ∀ r ∈ rs, lo ≤ r.1 ∧ r.1 < r.2 ∧ r.2 ≤ hi
  holds : ∀ i, lo ≤ i → i < hi → needed i → ∃ r ∈ rs, r.1 ≤ i ∧ i < r.2
  cuts : ∀ r ∈ rs, cut r.1 ∧ cut r.2

namespace Splits

variable {needed cut : ℕ → Prop} {lo mid hi : ℕ} {rs rs' : List (ℕ × ℕ)}

/-- Nothing splits a range with nothing that is needed. -/
theorem nil (h : ∀ i, lo ≤ i → i < hi → ¬ needed i) : Splits needed cut lo hi [] where
  ordered := .nil
  inside _ hr := absurd hr List.not_mem_nil
  holds i hlo hhi hneeded := absurd hneeded (h i hlo hhi)
  cuts _ hr := absurd hr List.not_mem_nil

/-- One range splits what it is. -/
theorem singleton (hlt : lo < hi) (hlo : cut lo) (hhi : cut hi) :
    Splits needed cut lo hi [(lo, hi)] where
  ordered := List.pairwise_singleton _ _
  inside r hr := by
    rw [List.mem_singleton.mp hr]
    exact ⟨le_rfl, hlt, le_rfl⟩
  holds i hi₁ hi₂ _ := ⟨(lo, hi), List.mem_singleton_self _, hi₁, hi₂⟩
  cuts r hr := by
    rw [List.mem_singleton.mp hr]
    exact ⟨hlo, hhi⟩

/-- What splits a range splits one around it with nothing more that is
needed. -/
theorem widen (h : Splits needed cut lo hi rs) {lo' hi' : ℕ} (hlo : lo' ≤ lo) (hhi : hi ≤ hi')
    (hleft : ∀ i, lo' ≤ i → i < lo → ¬ needed i) (hright : ∀ i, hi ≤ i → i < hi' → ¬ needed i) :
    Splits needed cut lo' hi' rs where
  ordered := h.ordered
  inside r hr := by
    obtain ⟨h₁, h₂, h₃⟩ := h.inside r hr
    exact ⟨hlo.trans h₁, h₂, h₃.trans hhi⟩
  holds i h₁ h₂ hneeded := by
    rcases Nat.lt_or_ge i lo with hlt | hge
    · exact absurd hneeded (hleft i h₁ hlt)
    rcases Nat.lt_or_ge i hi with hlt | hge'
    · exact h.holds i hge hlt hneeded
    · exact absurd hneeded (hright i hge' h₂)
  cuts := h.cuts

/-- **Two splits side by side.** -/
theorem append (h : Splits needed cut lo mid rs) (h' : Splits needed cut mid hi rs')
    (hlo : lo ≤ mid) (hhi : mid ≤ hi) : Splits needed cut lo hi (rs ++ rs') where
  ordered := List.pairwise_append.mpr ⟨h.ordered, h'.ordered, fun a ha b hb =>
    (h.inside a ha).2.2.trans (h'.inside b hb).1⟩
  inside r hr := by
    rcases List.mem_append.mp hr with hr | hr
    · obtain ⟨h₁, h₂, h₃⟩ := h.inside r hr
      exact ⟨h₁, h₂, h₃.trans hhi⟩
    · obtain ⟨h₁, h₂, h₃⟩ := h'.inside r hr
      exact ⟨hlo.trans h₁, h₂, h₃⟩
  holds i h₁ h₂ hneeded := by
    rcases Nat.lt_or_ge i mid with hlt | hge
    · obtain ⟨r, hr, hin⟩ := h.holds i h₁ hlt hneeded
      exact ⟨r, List.mem_append_left _ hr, hin⟩
    · obtain ⟨r, hr, hin⟩ := h'.holds i hge h₂ hneeded
      exact ⟨r, List.mem_append_right _ hr, hin⟩
  cuts r hr := (List.mem_append.mp hr).elim (h.cuts r) (h'.cuts r)

/-- **What is split is split further**, range by range. -/
theorem flatMap {f : ℕ × ℕ → List (ℕ × ℕ)} (h : Splits needed cut lo hi rs)
    (hf : ∀ r ∈ rs, Splits needed cut r.1 r.2 (f r)) :
    Splits needed cut lo hi (rs.flatMap f) where
  ordered := by
    refine List.pairwise_flatMap.mpr ⟨fun r hr => (hf r hr).ordered, ?_⟩
    refine h.ordered.imp_of_mem fun {a b} ha hb hab x hx y hy => ?_
    exact ((hf a ha).inside x hx).2.2.trans (hab.trans ((hf b hb).inside y hy).1)
  inside x hx := by
    obtain ⟨r, hr, hx⟩ := List.mem_flatMap.mp hx
    obtain ⟨h₁, -, h₃⟩ := h.inside r hr
    obtain ⟨h₄, h₅, h₆⟩ := (hf r hr).inside x hx
    exact ⟨h₁.trans h₄, h₅, h₆.trans h₃⟩
  holds i h₁ h₂ hneeded := by
    obtain ⟨r, hr, hin⟩ := h.holds i h₁ h₂ hneeded
    obtain ⟨x, hx, hxin⟩ := (hf r hr).holds i hin.1 hin.2 hneeded
    exact ⟨x, List.mem_flatMap.mpr ⟨r, hr, hx⟩, hxin⟩
  cuts x hx := by
    obtain ⟨r, hr, hx⟩ := List.mem_flatMap.mp hx
    exact (hf r hr).cuts x hx

end Splits

end Splitting

/-! ## Texts that delimit themselves -/

namespace Delimited

variable {α β : Type*} {enc : α → List β} {a b : α} {s t u v : List β}

/-- No word of the code goes on into another. -/
def SelfDelimiting (enc : α → List β) : Prop :=
  ∀ {a b s t}, enc a ++ s = enc b ++ t → a = b ∧ s = t

/-- A code that can be read word by word is such a code. -/
theorem SelfDelimiting.of_reader {read : List β → Option (α × List β)}
    (hread : ∀ a s, read (enc a ++ s) = some (a, s)) : SelfDelimiting enc := by
  intro a b s t h
  have hsame : some (a, s) = some (b, t) := by rw [← hread, ← hread, h]
  exact Prod.mk.inj (Option.some.inj hsame)

/-- **Words up to a stop** that no word begins with can be taken apart. -/
theorem SelfDelimiting.flatMap_inj (henc : SelfDelimiting enc) {stop : β}
    (hstop : ∀ a s t, enc a ++ s ≠ stop :: t) {xs ys : List α}
    (h : xs.flatMap enc ++ stop :: s = ys.flatMap enc ++ stop :: t) : xs = ys ∧ s = t := by
  induction xs generalizing ys with
  | nil =>
    rcases ys with - | ⟨y, ys⟩
    · exact ⟨rfl, (List.cons.inj h).2⟩
    · rw [List.flatMap_cons, List.append_assoc] at h
      exact absurd h.symm (hstop y _ s)
  | cons x xs ih =>
    rw [List.flatMap_cons, List.append_assoc] at h
    rcases ys with - | ⟨y, ys⟩
    · exact absurd h (hstop x _ t)
    · rw [List.flatMap_cons, List.append_assoc] at h
      obtain ⟨rfl, hrest⟩ := henc h
      obtain ⟨rfl, hst⟩ := ih hrest
      exact ⟨rfl, hst⟩

/-- What is left after a word: nothing, or a stop and more. -/
def Stops (stop : β → Prop) (s : List β) : Prop := ∀ c ∈ s.head?, stop c

theorem Stops.cons {stop : β → Prop} {c : β} (hc : stop c) : Stops stop (c :: s) :=
  fun _ hd => Option.some.inj hd ▸ hc

/-- **A word of ordinary elements** ends at the first stop. -/
theorem word_append_inj {stop : β → Prop} (hu : ∀ c ∈ u, ¬ stop c) (hv : ∀ c ∈ v, ¬ stop c)
    (hs : Stops stop s) (ht : Stops stop t) (h : u ++ s = v ++ t) : u = v ∧ s = t := by
  induction u generalizing v with
  | nil =>
    rcases v with - | ⟨c, v⟩
    · exact ⟨rfl, h⟩
    · have hc : stop c := hs c (by rw [show s = c :: (v ++ t) from h]; rfl)
      exact absurd hc (hv c List.mem_cons_self)
  | cons c u ih =>
    rcases v with - | ⟨d, v⟩
    · have hc : stop c := ht c (by rw [show t = c :: (u ++ s) from h.symm]; rfl)
      exact absurd hc (hu c List.mem_cons_self)
    · obtain ⟨rfl, hrest⟩ := List.cons.inj h
      obtain ⟨rfl, hst⟩ := ih (fun x hx => hu x (List.mem_cons_of_mem _ hx))
        (fun x hx => hv x (List.mem_cons_of_mem _ hx)) hrest
      exact ⟨rfl, hst⟩

/-- **Words that are each ended by a stop** none of them has can be taken
apart. -/
theorem terminated_inj {stop : β} {xs ys : List (List β)} (hx : ∀ u ∈ xs, stop ∉ u)
    (hy : ∀ v ∈ ys, stop ∉ v)
    (h : xs.flatMap (· ++ [stop]) = ys.flatMap (· ++ [stop])) : xs = ys := by
  induction xs generalizing ys with
  | nil =>
    rcases ys with - | ⟨v, ys⟩
    · rfl
    · simp at h
  | cons u xs ih =>
    rcases ys with - | ⟨v, ys⟩
    · simp at h
    · simp only [List.flatMap_cons, List.append_assoc, List.singleton_append] at h
      rw [List.forall_mem_cons] at hx hy
      have hplain : ∀ w : List β, stop ∉ w → ∀ c ∈ w, ¬ c = stop := by
        rintro w hw c hc rfl
        exact hw hc
      have hends : ∀ w : List β, Stops (· = stop) (stop :: w) := fun _ => .cons rfl
      obtain ⟨rfl, hrest⟩ := word_append_inj (hplain u hx.1) (hplain v hy.1) (hends _) (hends _) h
      rw [ih hx.2 hy.2 (List.cons.inj hrest).2]

/-- Words joined by a stop, and ended by it. -/
theorem intercalate_append_stop {stop : β} {xs : List (List β)} (hne : xs ≠ []) :
    [stop].intercalate xs ++ [stop] = xs.flatMap (· ++ [stop]) := by
  induction xs with
  | nil => exact absurd rfl hne
  | cons u xs ih =>
    rcases xs with - | ⟨v, xs⟩
    · simp
    · rw [List.intercalate_cons_cons, List.flatMap_cons, ← ih (List.cons_ne_nil v xs)]
      simp

end Delimited
