import Mathlib.Data.List.Nodup
/-!
# Grouping by a key

The keys of a list in the order they first occur, each once, and what is
gathered of each.
-/

namespace Grouping

variable {β κ : Type*}

/-- Without duplicates each key is there once. -/
theorem nodup_eraseDups [BEq κ] [LawfulBEq κ] (keys : List κ) : keys.eraseDups.Nodup := by
  induction hlen : keys.length using Nat.strongRecOn generalizing keys with
  | ind n ih =>
    rcases keys with - | ⟨k, keys⟩
    · rw [List.eraseDups_nil]
      exact List.nodup_nil
    · have hless : (keys.filter fun l => !l == k).length < n := by
        have hle := List.length_filter_le (fun l => !l == k) keys
        rw [← hlen, List.length_cons]
        omega
      rw [List.eraseDups_cons, List.nodup_cons]
      refine ⟨fun hmem => ?_, ih _ hless _ rfl⟩
      rw [List.mem_eraseDups, List.mem_filter] at hmem
      simp at hmem

/-- More than one key is there just where two of them differ. -/
theorem one_lt_length_eraseDups [BEq κ] [LawfulBEq κ] {keys : List κ} :
    1 < keys.eraseDups.length ↔ ¬ ∀ k ∈ keys, ∀ l ∈ keys, k = l := by
  simp only [← List.mem_eraseDups (l := keys)]
  have hnodup := nodup_eraseDups keys
  generalize keys.eraseDups = distinct at hnodup
  constructor
  · intro hlen halike
    match distinct, hlen with
    | k :: l :: rest, _ =>
      have hkl : k = l := halike k (by simp) l (by simp)
      simp [hkl] at hnodup
  · intro hdiffer
    by_contra hfew
    refine hdiffer fun k hk l hl => ?_
    rcases distinct with - | ⟨m, - | ⟨n, rest⟩⟩
    · cases hk
    · rw [List.mem_singleton.mp hk, List.mem_singleton.mp hl]
    · simp at hfew

/-- What only one key's part can hold is counted in that part. -/
theorem countP_flatMap_of_nodup [DecidableEq κ] {keys : List κ} (hkeys : keys.Nodup) {part : κ → List β}
    {p : β → Bool} {k : κ} (hother : ∀ l ≠ k, (part l).countP p = 0) :
    (keys.flatMap part).countP p = if k ∈ keys then (part k).countP p else 0 := by
  induction keys with
  | nil => rfl
  | cons l keys ih =>
    obtain ⟨hfresh, hkeys⟩ := List.nodup_cons.mp hkeys
    rw [List.flatMap_cons, List.countP_append, ih hkeys]
    by_cases hl : l = k
    · subst hl
      rw [if_neg hfresh, if_pos List.mem_cons_self, Nat.add_zero]
    · rw [hother l hl, Nat.zero_add]
      refine if_congr ?_ rfl rfl
      simp [Ne.symm hl]

end Grouping
