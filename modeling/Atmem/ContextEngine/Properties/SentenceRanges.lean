import Atmem.ContextEngine.Helpers.Sentences
/-!
# Sentence ranges

The ranges of a source are in order and apart, none is empty, and together
they hold all of it but whitespace; in UTF-8 none cuts a character.
-/

namespace Atmem.ContextEngine

open Splitting

/-! ## Characters -/

/-- A text in UTF-8. -/
def utf8 (text : List Char) : Bytes := text.flatMap String.utf8EncodeChar

/-- An offset between two characters of a text, or at an end of it. -/
def Between (text : List Char) (i : ℕ) : Prop :=
  ∃ front back, text = front ++ back ∧ i = (utf8 front).length

/-- A character of more than one byte has none in ASCII. -/
theorem le_of_mem_utf8EncodeChar {c : Char} (hc : c.utf8Size ≠ 1) :
    ∀ b ∈ String.utf8EncodeChar c, 128 ≤ b := by
  have hor : ∀ a b : UInt8, 128 ≤ b → 128 ≤ a ||| b := by
    intro a b hb
    rw [UInt8.le_iff_toNat_le] at hb ⊢
    rw [UInt8.toNat_or]
    exact hb.trans Nat.right_le_or
  have hsize := c.utf8Size_pos
  have hmax := c.utf8Size_le_four
  have hcases : c.utf8Size = 2 ∨ c.utf8Size = 3 ∨ c.utf8Size = 4 := by omega
  intro b hb
  rcases hcases with h | h | h
  · rw [String.utf8EncodeChar_eq_cons_cons h] at hb
    simp only [List.mem_cons, List.not_mem_nil, or_false] at hb
    rcases hb with rfl | rfl <;> exact hor _ _ (by decide)
  · rw [String.utf8EncodeChar_eq_cons_cons_cons h] at hb
    simp only [List.mem_cons, List.not_mem_nil, or_false] at hb
    rcases hb with rfl | rfl | rfl <;> exact hor _ _ (by decide)
  · rw [String.utf8EncodeChar_eq_cons_cons_cons_cons h] at hb
    simp only [List.mem_cons, List.not_mem_nil, or_false] at hb
    rcases hb with rfl | rfl | rfl | rfl <;> exact hor _ _ (by decide)

/-- **Next to a byte in ASCII there is no character to cut.** -/
theorem between_of_aligned {text : List Char} {i : ℕ} (h : Aligned (utf8 text) i) :
    Between text i := by
  induction text generalizing i with
  | nil =>
    refine ⟨[], [], rfl, ?_⟩
    rcases h with rfl | rfl | ⟨c, hc, -⟩ | ⟨k, -, c, hc, -⟩
    · rfl
    · rfl
    · cases hc
    · cases hc
  | cons c text ih =>
    have hutf8 : utf8 (c :: text) = String.utf8EncodeChar c ++ utf8 text := List.flatMap_cons
    have hlen : (String.utf8EncodeChar c).length = c.utf8Size := String.length_utf8EncodeChar c
    rcases Nat.eq_zero_or_pos i with rfl | hpos
    · exact ⟨[], c :: text, rfl, rfl⟩
    rcases Nat.lt_or_ge i c.utf8Size with hlt | hge
    · -- inside the first character no byte is in ASCII
      have hwide : c.utf8Size ≠ 1 := by omega
      have hnot : ∀ k < c.utf8Size, ¬ AsciiAt (utf8 (c :: text)) k := by
        rintro k hk ⟨b, hb, hascii⟩
        rw [hutf8, List.getElem?_append_left (by omega)] at hb
        have hge := le_of_mem_utf8EncodeChar hwide b (List.mem_of_getElem? hb)
        exact absurd hascii (UInt8.not_lt.mpr hge)
      rcases h with rfl | rfl | hascii | ⟨k, rfl, hascii⟩
      · exact absurd hpos (lt_irrefl _)
      · rw [hutf8, List.length_append] at hlt
        omega
      · exact absurd hascii (hnot i hlt)
      · exact absurd hascii (hnot k (by omega))
    · -- past it, the same holds of the rest of the text
      have hshift : Aligned (utf8 text) (i - c.utf8Size) := by
        have hascii : ∀ k, c.utf8Size ≤ k → AsciiAt (utf8 (c :: text)) k →
            AsciiAt (utf8 text) (k - c.utf8Size) := by
          rintro k hk ⟨b, hb, hlt⟩
          rw [hutf8, List.getElem?_append_right (by omega), hlen] at hb
          exact ⟨b, hb, hlt⟩
        rcases h with rfl | rfl | hi | ⟨k, rfl, hk⟩
        · exact .inl (Nat.zero_sub _)
        · refine .inr (.inl ?_)
          rw [hutf8, List.length_append, hlen, Nat.add_sub_cancel_left]
        · exact .inr (.inr (.inl (hascii i hge hi)))
        · rcases Nat.eq_or_lt_of_le hge with heq | hlt
          · exact .inl (by omega)
          · exact .inr (.inr (.inr ⟨k - c.utf8Size, by omega, hascii k (by omega) hk⟩))
      obtain ⟨front, back, rfl, hi⟩ := ih hshift
      refine ⟨c :: front, back, rfl, ?_⟩
      have hfront : utf8 (c :: front) = String.utf8EncodeChar c ++ utf8 front := List.flatMap_cons
      rw [hfront, List.length_append, hlen]
      omega

/-! ## The ranges -/

/-- The first ranges split the whole source. -/
theorem splits_initial {content : Bytes} (hsome : content ≠ []) :
    SplitsSource content 0 content.length (initial content) := by
  rw [initial]
  split
  · exact .singleton (List.length_pos_of_ne_nil hsome) (.inl rfl) (.inr (.inl rfl))
  · exact splits_values content

/-- **Sentence ranges partition the text**: in order, apart, not empty and
inside of it, with every byte that is not whitespace in one of them; in UTF-8
they begin and end between characters; and one that is too long has no line
break in the second half of its first window. -/
theorem sentence_ranges_partition (content : Bytes) :
    (sentenceRanges content).Pairwise (fun a b => a.2 ≤ b.1) ∧
    (∀ r ∈ sentenceRanges content, r.1 < r.2 ∧ r.2 ≤ content.length) ∧
    (∀ (i : ℕ) (c : UInt8), content[i]? = some c → isSpace c = false →
      ∃ r ∈ sentenceRanges content, r.1 ≤ i ∧ i < r.2) ∧
    (∀ text, content = utf8 text → ∀ r ∈ sentenceRanges content,
      Between text r.1 ∧ Between text r.2) ∧
    ∀ r ∈ sentenceRanges content, maximum < r.2 - r.1 → ∀ i, maximum / 2 ≤ i → i ≤ maximum →
      ¬ LineBreakBefore content (r.1 + i) := by
  -- an empty text has no sentence
  rcases eq_or_ne content [] with rfl | hsome
  · have hnone : sentenceRanges [] = [] := by
      have hvalues : values [] = [] := rfl
      have hinitial : initial [] = [(0, 0)] := by rw [initial, if_pos hvalues]; rfl
      rw [sentenceRanges, hinitial, List.flatMap_singleton, bounded]
      rfl
    rw [hnone]
    exact ⟨.nil, fun r hr => absurd hr List.not_mem_nil, fun i c hget => absurd hget (by simp),
      fun _ _ r hr => absurd hr List.not_mem_nil, fun r hr => absurd hr List.not_mem_nil⟩
  have hinitial := splits_initial hsome
  have hbounded := fun r hr => splits_bounded (hinitial.inside r hr).2.1.le
    (hinitial.cuts r hr).1 (hinitial.cuts r hr).2
  have hall : SplitsSource content 0 content.length (sentenceRanges content) :=
    hinitial.flatMap fun r hr => (hbounded r hr).1
  refine ⟨hall.ordered, fun r hr => (hall.inside r hr).2, fun i c hget hc => ?_,
    fun text htext r hr => ?_, fun r hr hlong i hi hle => ?_⟩
  · have hlt : i < content.length := (List.getElem?_eq_some_iff.mp hget).1
    refine hall.holds i (Nat.zero_le i) hlt ⟨hlt, ?_⟩
    rw [spaceAt, hget]
    exact hc
  · subst htext
    exact ⟨between_of_aligned (hall.cuts r hr).1, between_of_aligned (hall.cuts r hr).2⟩
  · obtain ⟨r', hr', hmem⟩ := List.mem_flatMap.mp hr
    exact not_lineBreak_of_windowCut ((hbounded r' hr').2 r hmem hlong) (hall.inside r hr).2.2 hlong
      hi hle

end Atmem.ContextEngine
