import Mathlib.Data.List.Induction
/-!
# Hash chains

A chain is a list of entries, each of which cites the mark of the one
before it and carries a mark of its own, the digest of what it holds and
cites. Where the digest determines both, the last mark commits to the whole
chain: two chains that end alike are alike (`content_eq_of_head`), and of
two chains one is a common part followed by entries whose marks the other
never had (`exists_common`).
-/

namespace HashChain

variable {ε η κ : Type*}

/-- How an entry takes part in a chain: what it cites, the mark it carries,
and the mark it ought to carry after a given one. -/
structure Scheme (ε η : Type*) where
  cited : ε → Option η
  mark : ε → η
  digest : Option η → ε → η

namespace Scheme

variable (S : Scheme ε η)

/-- The mark a chain that goes on from `p` ends with. -/
def head (p : Option η) : List ε → Option η
  | [] => p
  | e :: l => head (some (S.mark e)) l

/-- Every entry cites the mark before it and carries its digest. -/
def Linked (p : Option η) : List ε → Prop
  | [] => True
  | e :: l => (S.cited e = p ∧ S.mark e = S.digest p e) ∧ Linked (some (S.mark e)) l

variable {S} {p : Option η} {e : ε} {l l' m : List ε}

@[simp] theorem head_nil : S.head p [] = p := rfl

@[simp] theorem linked_nil : S.Linked p [] := trivial

/-- The head of two parts is that of the second. -/
theorem head_append : S.head p (l ++ m) = S.head (S.head p l) m := by
  induction l generalizing p with
  | nil => rfl
  | cons e l ih => exact ih

/-- **A chain is read in parts**, the second from the head of the first. -/
theorem linked_append : S.Linked p (l ++ m) ↔ S.Linked p l ∧ S.Linked (S.head p l) m := by
  induction l generalizing p with
  | nil => simp
  | cons e l ih =>
    constructor
    · rintro ⟨he, hrest⟩
      have hparts := ih.mp hrest
      exact ⟨⟨he, hparts.1⟩, hparts.2⟩
    · rintro ⟨⟨he, hl⟩, hm⟩
      exact ⟨he, ih.mpr ⟨hl, hm⟩⟩

@[simp] theorem head_concat : S.head p (l ++ [e]) = some (S.mark e) := by
  rw [head_append]
  rfl

/-- A chain grows by an entry that cites its head. -/
theorem linked_concat : S.Linked p (l ++ [e]) ↔
    S.Linked p l ∧ S.cited e = S.head p l ∧ S.mark e = S.digest (S.head p l) e := by
  rw [linked_append]
  exact and_congr_right fun _ => ⟨fun h => h.1, fun h => ⟨h, trivial⟩⟩

/-- An entry of a chain carries the digest of what it cites. -/
theorem Linked.mark_eq (h : S.Linked p l) (he : e ∈ l) : S.mark e = S.digest (S.cited e) e := by
  induction l generalizing p with
  | nil => exact absurd he List.not_mem_nil
  | cons d l ih =>
    obtain ⟨⟨hcited, hmark⟩, hrest⟩ := h
    rcases List.mem_cons.mp he with rfl | he
    · rw [hcited]
      exact hmark
    · exact ih hrest he

theorem head_ne_none (hne : l ≠ []) : S.head p l ≠ none := by
  rw [← List.dropLast_concat_getLast hne, head_concat]
  exact Option.some_ne_none _

/-! ## What a head commits to -/

section Commitment

/-- Entries of the two lists with one digest cite and hold alike. -/
def Binding (S : Scheme ε η) (content : ε → κ) (l l' : List ε) : Prop :=
  ∀ e ∈ l, ∀ e' ∈ l', S.digest (S.cited e) e = S.digest (S.cited e') e' →
    S.cited e = S.cited e' ∧ content e = content e'

variable {content : ε → κ}

/-- Fewer entries have fewer collisions. -/
theorem Binding.mono (hb : Binding S content l l') {k k' : List ε} (hk : k ⊆ l) (hk' : k' ⊆ l') :
    Binding S content k k' :=
  fun e he e' he' => hb e (hk he) e' (hk' he')

/-- **Two chains that end with one mark hold the same**, entry by entry:
the last entries have one digest, so they cite one mark, with which the
chains before them end. -/
theorem content_eq_of_head (hb : Binding S content l l') (hl : S.Linked none l)
    (hl' : S.Linked none l') (hhead : S.head none l = S.head none l') :
    l.map content = l'.map content := by
  induction l using List.reverseRecOn generalizing l' with
  | nil =>
    have hnil : l' = [] := by
      by_contra hne
      exact head_ne_none hne hhead.symm
    rw [hnil]
  | append_singleton l e ih =>
    have hne : l' ≠ [] := by
      rintro rfl
      rw [head_concat] at hhead
      cases hhead
    obtain ⟨k, d, rfl⟩ : ∃ k d, l' = k ++ [d] :=
      ⟨l'.dropLast, l'.getLast hne, (List.dropLast_concat_getLast hne).symm⟩
    rw [head_concat, head_concat] at hhead
    have hmark : S.mark e = S.mark d := Option.some.inj hhead
    have he : e ∈ l ++ [e] := List.mem_append_right l (List.mem_singleton_self e)
    have hd : d ∈ k ++ [d] := List.mem_append_right k (List.mem_singleton_self d)
    rw [hl.mark_eq he, hl'.mark_eq hd] at hmark
    obtain ⟨hcited, hcontent⟩ := hb e he d hd hmark
    rw [linked_concat] at hl hl'
    have hrest : l.map content = k.map content :=
      ih (hb.mono (List.subset_append_left _ _) (List.subset_append_left _ _)) hl.1 hl'.1 (by
        rw [← hl.2.1, ← hl'.2.1]
        exact hcited)
    rw [List.map_append, List.map_append, hrest, List.map_singleton, List.map_singleton, hcontent]

/-- **Of two chains, one is a part the other begins with, followed by
entries whose marks the other never had.** -/
theorem exists_common (hb : Binding S content l l') (hl : S.Linked none l)
    (hl' : S.Linked none l') :
    ∃ k m, l' = k ++ m ∧ k.map content <+: l.map content ∧
      ∀ e ∈ m, ∀ d ∈ l, S.mark e ≠ S.mark d := by
  induction l' using List.reverseRecOn with
  | nil => exact ⟨[], [], rfl, List.nil_prefix, fun e he => absurd he List.not_mem_nil⟩
  | append_singleton l' e ih =>
    by_cases hmem : ∃ d ∈ l, S.mark e = S.mark d
    · -- the other chain, up to the entry of that mark, ends alike
      obtain ⟨d, hd, hmark⟩ := hmem
      obtain ⟨before, after, rfl⟩ := List.append_of_mem hd
      have hsplit : before ++ d :: after = before ++ [d] ++ after := by simp
      rw [hsplit, linked_append] at hl
      have hsub : before ++ [d] ⊆ before ++ d :: after := by
        rw [hsplit]
        exact List.subset_append_left _ _
      have heq : (before ++ [d]).map content = (l' ++ [e]).map content :=
        content_eq_of_head (hb.mono hsub (List.Subset.refl _)) hl.1 hl' (by
          rw [head_concat, head_concat, hmark])
      refine ⟨l' ++ [e], [], (List.append_nil _).symm, ?_, fun e he => absurd he List.not_mem_nil⟩
      rw [← heq, hsplit]
      exact ⟨after.map content, List.map_append.symm⟩
    · have hb' : Binding S content l l' := hb.mono (List.Subset.refl _) (List.subset_append_left _ _)
      obtain ⟨k, m, rfl, hk, hm⟩ := ih hb' (linked_concat.mp hl').1
      refine ⟨k, m ++ [e], by rw [List.append_assoc], hk, fun a ha d hd => ?_⟩
      rcases List.mem_append.mp ha with ha | ha
      · exact hm a ha d hd
      · rw [List.mem_singleton.mp ha]
        exact fun heq => hmem ⟨d, hd, heq⟩

end Commitment

end Scheme

end HashChain
