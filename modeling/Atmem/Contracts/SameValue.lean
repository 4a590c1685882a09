import Atmem.Contracts.CanonicalUnicode
/-!
# Equality of JSON values

Two values are the same when they are of one kind and hold the same, the
fields of an object in any order. That is what the sorted keys compare
(`sortKeys_eq_iff`), so two values have one canonical text exactly when they
are the same (`canonicalUnicode_eq_iff`).
-/

namespace Atmem

namespace Json

mutual

/-- Values of one kind that hold the same: an object has as many fields as
the other, and each of its keys the same value there. -/
def SameValue : Json → Json → Prop
  | .arr xs, b => ∃ ys, b = .arr ys ∧ SameItems xs ys
  | .obj kvs, b => ∃ lvs, b = .obj lvs ∧ kvs.length = lvs.length ∧ SameFields kvs lvs
  | .null, b => b = .null
  | .bool x, b => b = .bool x
  | .int n, b => b = .int n
  | .float repr, b => b = .float repr
  | .str s, b => b = .str s

/-- Arrays of one length, their elements the same values in order. -/
def SameItems : List Json → List Json → Prop
  | [], ys => ys = []
  | x :: xs, ys => ∃ y rest, ys = y :: rest ∧ SameValue x y ∧ SameItems xs rest

/-- Each field of the first object is in the second, with the same value. -/
def SameFields : List (String × Json) → List (String × Json) → Prop
  | [], _ => True
  | (k, x) :: kvs, lvs => (∃ y, (k, y) ∈ lvs ∧ SameValue x y) ∧ SameFields kvs lvs

end

/-- Sorted, two objects of distinct keys are one when they hold the same
fields. -/
theorem sortFields_eq_iff {kvs lvs : List (String × Json)} (hkeys : (kvs.map (·.1)).Nodup) :
    sortFields kvs = sortFields lvs ↔ kvs.Perm lvs := by
  constructor
  · intro h
    exact (sortFields_perm kvs).symm.trans (h ▸ sortFields_perm lvs)
  · intro h
    have hsorted : ∀ fields : List (String × Json),
        (sortFields fields).Pairwise fun a b => a.1 ≤ b.1 :=
      fun fields => List.pairwise_insertionSort _ fields
    refine List.Perm.eq_of_pairwise (fun a b ha hb hab hba => ?_) (hsorted kvs) (hsorted lvs)
      ((sortFields_perm kvs).trans (h.trans (sortFields_perm lvs).symm))
    have ha' : a ∈ kvs := (sortFields_perm kvs).mem_iff.mp ha
    have hb' : b ∈ kvs := h.mem_iff.mpr ((sortFields_perm lvs).mem_iff.mp hb)
    exact List.inj_on_of_nodup_map hkeys ha' hb' (le_antisymm hab hba)

theorem sortKeysFields_keys (kvs : List (String × Json)) :
    (sortKeysFields kvs).map (·.1) = kvs.map (·.1) := by
  rw [sortKeysFields_eq_map, List.map_map]
  rfl

theorem length_sortKeysFields (kvs : List (String × Json)) :
    (sortKeysFields kvs).length = kvs.length := by
  rw [sortKeysFields_eq_map, List.length_map]

/-- The fields are those that were there, their values sorted. -/
theorem mem_sortKeysFields {kvs : List (String × Json)} {k : String} {v : Json} :
    (k, v) ∈ sortKeysFields kvs ↔ ∃ x, (k, x) ∈ kvs ∧ x.sortKeys = v := by
  rw [sortKeysFields_eq_map]
  simp

/-- Of distinct keys, fields that are all among as many others are these. -/
theorem perm_of_subset {kvs lvs : List (String × Json)} (hkeys : (kvs.map (·.1)).Nodup)
    (hlen : kvs.length = lvs.length) (hsub : kvs ⊆ lvs) : kvs.Perm lvs :=
  (hkeys.of_map.subperm hsub).perm_of_length_le hlen.ge

mutual

/-- **Sorting the keys compares values**: two are the same exactly when their
sorted forms are one. -/
theorem sortKeys_eq_iff : ∀ (a b : Json), Proper a → Proper b →
    (a.sortKeys = b.sortKeys ↔ SameValue a b)
  | .null, b, _, _ => by cases b <;> simp [sortKeys, SameValue]
  | .bool x, b, _, _ => by cases b <;> simp [sortKeys, SameValue, eq_comm]
  | .int n, b, _, _ => by cases b <;> simp [sortKeys, SameValue, eq_comm]
  | .float r, b, _, _ => by cases b <;> simp [sortKeys, SameValue, eq_comm]
  | .str s, b, _, _ => by cases b <;> simp [sortKeys, SameValue, eq_comm]
  | .arr xs, b, ha, hb => by
    cases b with
    | arr ys =>
      have hitems := sortKeysItems_eq_iff xs ys ha hb
      simp only [sortKeys, Json.arr.injEq, SameValue, exists_eq_left', hitems]
    | null | bool | int | float | str | obj => simp [sortKeys, SameValue]
  | .obj kvs, b, ha, hb => by
    cases b with
    | obj lvs =>
      have hkeys : ((sortKeysFields kvs).map (·.1)).Nodup := (sortKeysFields_keys kvs).symm ▸ ha.1
      have hfields := sortKeysFields_subset_iff kvs lvs ha.2 hb.2
      have hsame : sortFields (sortKeysFields kvs) = sortFields (sortKeysFields lvs) ↔
          kvs.length = lvs.length ∧ SameFields kvs lvs := by
        rw [sortFields_eq_iff hkeys, ← hfields]
        constructor
        · intro h
          have hlen := h.length_eq
          rw [length_sortKeysFields, length_sortKeysFields] at hlen
          exact ⟨hlen, h.subset⟩
        · intro h
          refine perm_of_subset hkeys ?_ h.2
          rw [length_sortKeysFields, length_sortKeysFields, h.1]
      simp only [sortKeys, Json.obj.injEq, SameValue, exists_eq_left', hsame]
    | null | bool | int | float | str | arr => simp [sortKeys, SameValue]

/-- Sorted arrays are equal exactly if their elements are the same values. -/
theorem sortKeysItems_eq_iff : ∀ (xs ys : List Json), ProperItems xs → ProperItems ys →
    (sortKeysItems xs = sortKeysItems ys ↔ SameItems xs ys)
  | [], ys, _, _ => by cases ys <;> simp [sortKeysItems, SameItems]
  | x :: xs, [], _, _ => by simp [sortKeysItems, SameItems]
  | x :: xs, y :: ys, hx, hy => by
    have hvalue := sortKeys_eq_iff x y hx.1 hy.1
    have hrest := sortKeysItems_eq_iff xs ys hx.2 hy.2
    simp only [sortKeysItems, List.cons.injEq, SameItems, hvalue, hrest]
    constructor
    · intro h
      exact ⟨y, ys, ⟨rfl, rfl⟩, h⟩
    · rintro ⟨_, _, ⟨rfl, rfl⟩, h⟩
      exact h

/-- Sorted fields are among others exactly if the fields are. -/
theorem sortKeysFields_subset_iff : ∀ (kvs lvs : List (String × Json)), ProperFields kvs →
    ProperFields lvs → (sortKeysFields kvs ⊆ sortKeysFields lvs ↔ SameFields kvs lvs)
  | [], lvs, _, _ => by simp [sortKeysFields, SameFields]
  | (k, x) :: kvs, lvs, hk, hl => by
    have hrest := sortKeysFields_subset_iff kvs lvs hk.2 hl
    have hfield : (k, x.sortKeys) ∈ sortKeysFields lvs ↔ ∃ y, (k, y) ∈ lvs ∧ SameValue x y := by
      rw [mem_sortKeysFields]
      refine exists_congr fun y => and_congr_right fun hy => ?_
      rw [← sortKeys_eq_iff x y hk.1 (properFields_iff.mp hl (k, y) hy), eq_comm]
    rw [sortKeysFields, SameFields, List.cons_subset, hfield, hrest]

end

/-- Values that are the same have one canonical text, and no others do. -/
theorem canonicalUnicode_eq_iff {a b : Json} (ha : Proper a) (hb : Proper b) :
    canonicalUnicode a = canonicalUnicode b ↔ SameValue a b := by
  rw [← sortKeys_eq_iff a b ha hb]
  constructor
  · intro h
    exact canonicalJson_inj ha hb (canonicalJson_of_canonicalUnicode ha hb h)
  · intro h
    rw [canonicalUnicode, canonicalUnicode, h]

end Json

end Atmem
