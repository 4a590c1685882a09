import Mathlib.Algebra.GroupWithZero.Nat
import Mathlib.Data.List.Infix
/-!
# Patterns in a text

How often a pattern occurs in a text, and what becomes of its occurrences
when the text is joined out of parts, cut into words, or has its matches of
another pattern replaced. A substitution can only leave an occurrence where
the text had one the matcher did not match.
-/

namespace Occurrence

variable {α : Type*} {p s t : List α}

/-! ## Joining -/

/-- A pattern that starts before an element it does not hold ends before
it. -/
theorem prefix_of_prefix_append_cons {sep : α} (hsep : sep ∉ p) (h : p <+: s ++ sep :: t) :
    p <+: s := by
  rcases Nat.le_total p.length s.length with hle | hle
  · exact List.prefix_of_prefix_length_le h (List.prefix_append s _) hle
  · have hs : s <+: p := List.prefix_of_prefix_length_le (List.prefix_append s _) h hle
    obtain ⟨u, rfl⟩ := hs
    have hu : u <+: sep :: t := (List.prefix_append_right_inj s).mp h
    rcases u with - | ⟨x, u⟩
    · simp
    · have hx : x = sep := (List.cons_prefix_cons.mp hu).1
      exact absurd (List.mem_append_right s (hx ▸ List.mem_cons_self)) hsep

/-- It lies on one side of an element it does not hold. -/
theorem infix_append_cons {sep : α} (hsep : sep ∉ p) (h : p <:+: s ++ sep :: t) :
    p <:+: s ∨ p <:+: t := by
  induction s with
  | nil =>
    rcases List.infix_cons_iff.mp h with hp | ht
    · have hnil : p <+: [] := prefix_of_prefix_append_cons (s := []) hsep hp
      exact Or.inl hnil.isInfix
    · exact Or.inr ht
  | cons x s ih =>
    rcases List.infix_cons_iff.mp h with hp | hs
    · have hp' : p <+: x :: s := prefix_of_prefix_append_cons hsep hp
      exact Or.inl hp'.isInfix
    · rcases ih hs with hs | ht
      · exact Or.inl (List.infix_cons hs)
      · exact Or.inr ht

/-- And on one side of a separator that shares no element with it. -/
theorem infix_append_append {sep : List α} (hne : sep ≠ []) (hsep : ∀ x ∈ sep, x ∉ p)
    (h : p <:+: s ++ (sep ++ t)) : p <:+: s ∨ p <:+: t := by
  induction sep generalizing s with
  | nil => exact absurd rfl hne
  | cons x sep ih =>
    rcases infix_append_cons (hsep x List.mem_cons_self) h with hs | ht
    · exact Or.inl hs
    · rcases sep with - | ⟨y, sep⟩
      · exact Or.inr ht
      · rcases ih (s := []) (List.cons_ne_nil y sep)
          (fun z hz => hsep z (List.mem_cons_of_mem x hz)) ht with hnil | ht
        · exact Or.inl (hnil.trans (List.nil_infix))
        · exact Or.inr ht

/-- In parts joined by such a separator, it lies in one of them. -/
theorem infix_intercalate {sep : List α} {parts : List (List α)} (hne : sep ≠ [])
    (hsep : ∀ x ∈ sep, x ∉ p) (hp : p ≠ []) (h : p <:+: sep.intercalate parts) :
    ∃ part ∈ parts, p <:+: part := by
  induction parts with
  | nil => exact absurd (List.infix_nil.mp h) hp
  | cons part parts ih =>
    rcases parts with - | ⟨next, rest⟩
    · rw [List.intercalate_singleton] at h
      exact ⟨part, List.mem_singleton_self _, h⟩
    · rw [List.intercalate_cons_cons, List.append_assoc] at h
      rcases infix_append_append hne hsep h with hpart | hrest
      · exact ⟨part, List.mem_cons_self, hpart⟩
      · obtain ⟨found, hmem, hfound⟩ := ih hrest
        exact ⟨found, List.mem_cons_of_mem part hmem, hfound⟩

/-- Each element of such parts is of the separator or of one of them. -/
theorem mem_intercalate {sep : List α} {parts : List (List α)} {x : α}
    (h : x ∈ sep.intercalate parts) : x ∈ sep ∨ ∃ part ∈ parts, x ∈ part := by
  induction parts with
  | nil => cases h
  | cons part parts ih =>
    rcases parts with - | ⟨next, rest⟩
    · rw [List.intercalate_singleton] at h
      exact Or.inr ⟨part, List.mem_cons_self, h⟩
    · rw [List.intercalate_cons_cons, List.append_assoc] at h
      rcases List.mem_append.mp h with h | h
      · exact Or.inr ⟨part, List.mem_cons_self, h⟩
      · rcases List.mem_append.mp h with h | h
        · exact Or.inl h
        · rcases ih h with hsep | ⟨found, hfound, hin⟩
          · exact Or.inl hsep
          · exact Or.inr ⟨found, List.mem_cons_of_mem part hfound, hin⟩

/-! ## Counting -/

section Count

variable [DecidableEq α]

/-- How often the pattern occurs in the text. -/
def occurrences (p : List α) : List α → ℕ
  | [] => if p.isPrefixOf [] then 1 else 0
  | x :: xs => (if p.isPrefixOf (x :: xs) then 1 else 0) + occurrences p xs

/-- It does not occur exactly if it is no part. -/
theorem occurrences_eq_zero : occurrences p t = 0 ↔ ¬ p <:+: t := by
  induction t with
  | nil => simp [occurrences]
  | cons x xs ih =>
    rw [occurrences, List.infix_cons_iff, Nat.add_eq_zero_iff, ih]
    by_cases hp : p <+: x :: xs <;> simp [hp]

/-- What occurs in a text with a separator in it occurs on one side. -/
theorem occurrences_append_cons {sep : α} (hsep : sep ∉ p) (hne : p ≠ []) :
    occurrences p (s ++ sep :: t) = occurrences p s + occurrences p t := by
  have hnil : ¬ p <+: [] := fun h => hne (List.prefix_nil.mp h)
  induction s with
  | nil =>
    have hcons : ¬ p <+: sep :: t :=
      fun h => hnil (prefix_of_prefix_append_cons (s := []) hsep h)
    simp [occurrences, hcons, hnil]
  | cons x s ih =>
    have hiff : p <+: x :: (s ++ sep :: t) ↔ p <+: x :: s :=
      ⟨prefix_of_prefix_append_cons (s := x :: s) hsep, fun h => h.trans (List.prefix_append _ _)⟩
    rw [List.cons_append, occurrences, occurrences, ih]
    by_cases hp : p <+: x :: s
    · have hleft : p <+: x :: (s ++ sep :: t) := hiff.mpr hp
      simp [hp, hleft]
      omega
    · have hleft : ¬ p <+: x :: (s ++ sep :: t) := fun h => hp (hiff.mp h)
      simp [hp, hleft]

/-- In lines joined by a break, the pattern occurs as often as in the
lines together. -/
theorem occurrences_intercalate {sep : α} (hsep : sep ∉ p) (hne : p ≠ []) (lines : List (List α)) :
    occurrences p ([sep].intercalate lines) = (lines.map (occurrences p)).sum := by
  induction lines with
  | nil => simp [occurrences, hne]
  | cons line lines ih =>
    rcases lines with - | ⟨next, rest⟩
    · simp
    · rw [List.intercalate_cons_cons, List.map_cons, List.sum_cons, ← ih]
      simpa using occurrences_append_cons hsep hne

end Count

/-! ## Words -/

section Words

variable (space : α → Bool)

/-- What a text is cut into at the elements that are space. -/
def words (t : List α) : List (List α) := (t.splitOnP space).filter (!·.isEmpty)

variable {space}

/-- The first piece stands at the head of the text, and each one in it. -/
theorem infix_of_pieces (t : List α) : (∀ piece ∈ (t.splitOnP space).head?, piece <+: t) ∧
    ∀ piece ∈ t.splitOnP space, piece <:+: t ∧ ∀ x ∈ piece, space x = false := by
  induction t with
  | nil => simp
  | cons x xs ih =>
    obtain ⟨hhead, hall⟩ := ih
    rw [List.splitOnP_cons_eq_if_modifyHead]
    split
    · refine ⟨fun piece hp => ?_, fun piece hp => ?_⟩
      · have hnil : piece = [] := (Option.some.inj hp).symm
        exact hnil ▸ List.nil_prefix
      · rcases List.mem_cons.mp hp with rfl | hp
        · exact ⟨List.nil_infix, fun _ hx => nomatch hx⟩
        · exact ⟨List.infix_cons (hall piece hp).1, (hall piece hp).2⟩
    · rename_i hx
      obtain ⟨first, rest, hpieces⟩ := List.exists_cons_of_ne_nil (List.splitOnP_ne_nil space xs)
      rw [hpieces] at hhead hall ⊢
      have hfirst : x :: first <+: x :: xs := List.cons_prefix_cons.mpr ⟨rfl, hhead first rfl⟩
      refine ⟨fun piece hp => ?_, fun piece hp => ?_⟩
      · have heq : x :: first = piece := Option.some.inj hp
        exact heq ▸ hfirst
      · rcases List.mem_cons.mp hp with rfl | hp
        · refine ⟨hfirst.isInfix, fun y hy => ?_⟩
          rcases List.mem_cons.mp hy with rfl | hy
          · exact Bool.eq_false_iff.mpr hx
          · exact (hall first List.mem_cons_self).2 y hy
        · have hrest := hall piece (List.mem_cons_of_mem first hp)
          exact ⟨List.infix_cons hrest.1, hrest.2⟩

/-- A word is a part of the text. -/
theorem infix_of_mem_words {w : List α} (hw : w ∈ words space t) : w <:+: t :=
  ((infix_of_pieces t).2 w (List.mem_filter.mp hw).1).1

/-- No word has a space. -/
theorem space_eq_false {w : List α} (hw : w ∈ words space t) {x : α} (hx : x ∈ w) :
    space x = false :=
  ((infix_of_pieces t).2 w (List.mem_filter.mp hw).1).2 x hx

end Words

/-! ## Searching -/

section Search

variable [DecidableEq α] {n : ℕ}

/-- Where a pattern first stands in a text. -/
def find (p t : List α) : Option ℕ := t.tails.findIdx? (p.isPrefixOf ·)

/-- What is found begins where it is found. -/
theorem prefix_of_find (h : find p t = some n) : n ≤ t.length ∧ p <+: t.drop n := by
  obtain ⟨hn, hp, -⟩ := List.findIdx?_eq_some_iff_getElem.mp h
  rw [List.length_tails] at hn
  rw [List.getElem_tails, List.isPrefixOf_iff_prefix] at hp
  exact ⟨Nat.le_of_lt_succ hn, hp⟩

/-- What is found ends in the text. -/
theorem add_length_le_of_find (h : find p t = some n) : n + p.length ≤ t.length := by
  obtain ⟨hn, hp⟩ := prefix_of_find h
  have hlength := hp.length_le
  rw [List.length_drop] at hlength
  omega

end Search

/-! ## Replacing -/

section Replace

/-- Matches one text and nothing else. -/
def literal [DecidableEq α] (old t : List α) : Option ℕ :=
  if old.isPrefixOf t then some old.length else none

variable (matchLength : List α → Option ℕ) (replacement : List α)

/-- Replaces what matches, from the left and without overlap, after so
many elements that are part of a match are skipped. The matcher tells how
long the match at the head of a text is. -/
def replaceAll : ℕ → List α → List α
  | _, [] => []
  | k + 1, _ :: xs => replaceAll k xs
  | 0, x :: xs =>
    match matchLength (x :: xs) with
    | some n => replacement ++ replaceAll (n - 1) xs
    | none => x :: replaceAll 0 xs

variable {matchLength replacement} {k : ℕ}

/-- A pattern without the first element of the replacement that starts a
result stands in the text. -/
theorem prefix_of_prefix_replaceAll {first : α} (hfirst : replacement.head? = some first)
    (hp : first ∉ p) (h : p <+: replaceAll matchLength replacement 0 t) : p <+: t := by
  obtain ⟨rest, rfl⟩ : ∃ rest, replacement = first :: rest := by
    rcases replacement with - | ⟨x, rest⟩
    · cases hfirst
    · exact ⟨rest, by rw [Option.some.inj hfirst]⟩
  induction p generalizing t with
  | nil => exact List.nil_prefix
  | cons a p ih =>
    rcases t with - | ⟨x, xs⟩
    · rw [replaceAll] at h
      exact absurd (List.prefix_nil.mp h) (List.cons_ne_nil a p)
    · rw [replaceAll] at h
      split at h
      · have hfalse : a = first := (List.cons_prefix_cons.mp h).1
        exact absurd (hfalse ▸ List.mem_cons_self) hp
      · obtain ⟨hax, hxs⟩ := List.cons_prefix_cons.mp h
        exact List.cons_prefix_cons.mpr ⟨hax, ih (fun hm => hp (List.mem_cons_of_mem a hm)) hxs⟩

/-- **What a substitution leaves of a pattern** the text had, where the
matcher did not match. -/
theorem exists_unmatched_of_infix_replaceAll {first last : α} {inner : List α}
    (hhead : replacement.head? = some first) (hreplacement : replacement = inner ++ [last])
    (hfirst : first ∉ p) (hlast : last ∉ p) (hinner : ¬ p <:+: replacement) (hne : p ≠ [])
    (h : p <:+: replaceAll matchLength replacement k t) :
    ∃ rest, rest <:+ t ∧ p <+: rest ∧ matchLength rest = none := by
  induction t generalizing k with
  | nil =>
    rw [replaceAll] at h
    exact absurd (List.infix_nil.mp h) hne
  | cons x xs ih =>
    have later : (∃ rest, rest <:+ xs ∧ p <+: rest ∧ matchLength rest = none) →
        ∃ rest, rest <:+ x :: xs ∧ p <+: rest ∧ matchLength rest = none :=
      fun ⟨rest, hs, hrest⟩ => ⟨rest, hs.trans (List.suffix_cons x xs), hrest⟩
    rcases k with - | k
    · rw [replaceAll] at h
      split at h
      · rename_i n _
        -- the last character of the replacement is not of the pattern, so no match spans it
        have hsplit : p <:+: inner ++ last :: replaceAll matchLength replacement (n - 1) xs := by
          rw [hreplacement, List.append_assoc] at h
          rw [hreplacement]
          exact h
        rcases infix_append_cons hlast hsplit with hleft | hright
        · have hnonce : inner <+: replacement := by
            rw [hreplacement]
            exact List.prefix_append inner [last]
          exact absurd (hleft.trans hnonce.isInfix) hinner
        · exact later (ih hright)
      · rename_i hnone
        rcases List.infix_cons_iff.mp h with hp | hp
        · have hwhole : p <+: replaceAll matchLength replacement 0 (x :: xs) := by
            rw [replaceAll, hnone]
            exact hp
          exact ⟨x :: xs, List.suffix_refl _, prefix_of_prefix_replaceAll hhead hfirst hwhole, hnone⟩
        · exact later (ih hp)
    · exact later (ih h)

end Replace

end Occurrence
