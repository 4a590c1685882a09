import Mathlib.Data.List.Basic
/-!
# Base 64

Three bytes are four digits of six bits each, and what is left of the last
three is padded. A text is decoded where it is digits throughout, and padding
only at its end; the bits that padding stands for are not looked at.
-/

namespace Base64

/-- The sixty-four digits. -/
def alphabet : List Char :=
  "ABCDEFGHIJKLMNOPQRSTUVWXYZabcdefghijklmnopqrstuvwxyz0123456789+/".toList

/-- The digit of a number below 64. -/
def digit (n : ℕ) : Char := alphabet.getD n '='

/-- The number of a digit. -/
def value? (c : Char) : Option ℕ := alphabet.idxOf? c

/-- Three bytes are four digits; a rest is padded. -/
def encode : List UInt8 → List Char
  | [] => []
  | [a] => [digit (a.toNat / 4), digit (a.toNat % 4 * 16), '=', '=']
  | [a, b] =>
    [digit (a.toNat / 4), digit (a.toNat % 4 * 16 + b.toNat / 16), digit (b.toNat % 16 * 4), '=']
  | a :: b :: c :: rest =>
    digit (a.toNat / 4) :: digit (a.toNat % 4 * 16 + b.toNat / 16) ::
      digit (b.toNat % 16 * 4 + c.toNat / 64) :: digit (c.toNat % 64) :: encode rest

/-- The first byte of two digits. -/
def byte₁ (p q : ℕ) : UInt8 := .ofNat (p * 4 + q / 16)

/-- The byte that the second and third digits share. -/
def byte₂ (q r : ℕ) : UInt8 := .ofNat (q % 16 * 16 + r / 4)

/-- The byte that the third and fourth digits share. -/
def byte₃ (r s : ℕ) : UInt8 := .ofNat (r % 4 * 64 + s)

/-- Four digits. -/
def decodeGroup (p q r s : Char) : Option (List UInt8) := do
  let p ← value? p
  let q ← value? q
  let r ← value? r
  let s ← value? s
  pure [byte₁ p q, byte₂ q r, byte₃ r s]

/-- Two or three digits, and padding. -/
def decodePadded (p q r : Char) : Option (List UInt8) := do
  let p ← value? p
  let q ← value? q
  if r = '=' then pure [byte₁ p q]
  else do
    let r ← value? r
    pure [byte₁ p q, byte₂ q r]

/-- Four digits at a time; padding ends the text. -/
def decode : List Char → Option (List UInt8)
  | [] => some []
  | p :: q :: r :: s :: rest =>
    if s = '=' ∧ rest = [] then decodePadded p q r
    else do
      let xs ← decodeGroup p q r s
      let ys ← decode rest
      pure (xs ++ ys)
  | _ => none

/-- The digits are all different, and the padding is none of them. -/
theorem alphabet_spec : alphabet.length = 64 ∧ alphabet.Nodup ∧ '=' ∉ alphabet := by
  decide +kernel

/-- The digits are the characters of the alphabet. -/
theorem digit_eq {n : ℕ} (h : n < 64) :
    ∃ hn : n < alphabet.length, digit n = alphabet[n] := by
  have hn : n < alphabet.length := alphabet_spec.1.symm ▸ h
  refine ⟨hn, ?_⟩
  rw [digit, List.getD_eq_getElem?_getD, List.getElem?_eq_getElem hn, Option.getD_some]

theorem digit_mem {n : ℕ} (h : n < 64) : digit n ∈ alphabet := by
  obtain ⟨hn, hdigit⟩ := digit_eq h
  exact hdigit ▸ List.getElem_mem hn

/-- A digit has the value it was written for. -/
theorem value?_digit {n : ℕ} (h : n < 64) : value? (digit n) = some n := by
  obtain ⟨hn, hdigit⟩ := digit_eq h
  rw [hdigit, value?, List.idxOf?_eq_some_iff]
  exact ⟨hn, rfl, fun j hj => List.pairwise_iff_getElem.mp alphabet_spec.2.1 j n _ hn hj⟩

/-- No digit is the padding. -/
theorem digit_ne_pad {n : ℕ} (h : n < 64) : digit n ≠ '=' :=
  fun heq => alphabet_spec.2.2 (heq ▸ digit_mem h)

theorem ofNat_toNat_of_eq {n : ℕ} {a : UInt8} (h : n = a.toNat) : UInt8.ofNat n = a := by
  rw [h, UInt8.ofNat_toNat]

/-- Three bytes are four digits, and a rest is four too. -/
theorem length_encode (bytes : List UInt8) :
    (encode bytes).length = (bytes.length + 2) / 3 * 4 := by
  induction bytes using encode.induct with
  | case1 => rfl
  | case2 => simp [encode]
  | case3 => simp [encode]
  | case4 a b c rest ih =>
    rw [encode]
    simp only [List.length_cons, ih]
    omega

/-- What is written is digits and padding. -/
theorem mem_encode {bytes : List UInt8} {c : Char} (h : c ∈ encode bytes) :
    c ∈ alphabet ∨ c = '=' := by
  induction bytes using encode.induct with
  | case1 => cases h
  | case2 a =>
    have ha := a.toNat_lt
    simp only [encode, List.mem_cons, List.not_mem_nil, or_false] at h
    rcases h with rfl | rfl | rfl | rfl
    · exact .inl (digit_mem (by omega))
    · exact .inl (digit_mem (by omega))
    · exact .inr rfl
    · exact .inr rfl
  | case3 a b =>
    have ha := a.toNat_lt
    have hb := b.toNat_lt
    simp only [encode, List.mem_cons, List.not_mem_nil, or_false] at h
    rcases h with rfl | rfl | rfl | rfl
    · exact .inl (digit_mem (by omega))
    · exact .inl (digit_mem (by omega))
    · exact .inl (digit_mem (by omega))
    · exact .inr rfl
  | case4 a b c' rest ih =>
    have ha := a.toNat_lt
    have hb := b.toNat_lt
    have hc := c'.toNat_lt
    simp only [encode, List.mem_cons] at h
    rcases h with rfl | rfl | rfl | rfl | h
    · exact .inl (digit_mem (by omega))
    · exact .inl (digit_mem (by omega))
    · exact .inl (digit_mem (by omega))
    · exact .inl (digit_mem (by omega))
    · exact ih h

/-- **What is encoded is decoded.** -/
theorem decode_encode (bytes : List UInt8) : decode (encode bytes) = some bytes := by
  induction bytes using encode.induct with
  | case1 => rfl
  | case2 a =>
    have ha := a.toNat_lt
    have h₁ : byte₁ (a.toNat / 4) (a.toNat % 4 * 16) = a := ofNat_toNat_of_eq (by omega)
    rw [encode, decode, if_pos ⟨rfl, rfl⟩, decodePadded, value?_digit (by omega),
      value?_digit (by omega)]
    simp [h₁]
  | case3 a b =>
    have ha := a.toNat_lt
    have hb := b.toNat_lt
    have h₁ : byte₁ (a.toNat / 4) (a.toNat % 4 * 16 + b.toNat / 16) = a :=
      ofNat_toNat_of_eq (by omega)
    have h₂ : byte₂ (a.toNat % 4 * 16 + b.toNat / 16) (b.toNat % 16 * 4) = b :=
      ofNat_toNat_of_eq (by omega)
    rw [encode, decode, if_pos ⟨rfl, rfl⟩, decodePadded, value?_digit (by omega),
      value?_digit (by omega), value?_digit (by omega)]
    simp [h₁, h₂, digit_ne_pad (show b.toNat % 16 * 4 < 64 by omega)]
  | case4 a b c rest ih =>
    have ha := a.toNat_lt
    have hb := b.toNat_lt
    have hc := c.toNat_lt
    have h₁ : byte₁ (a.toNat / 4) (a.toNat % 4 * 16 + b.toNat / 16) = a :=
      ofNat_toNat_of_eq (by omega)
    have h₂ : byte₂ (a.toNat % 4 * 16 + b.toNat / 16) (b.toNat % 16 * 4 + c.toNat / 64) = b :=
      ofNat_toNat_of_eq (by omega)
    have h₃ : byte₃ (b.toNat % 16 * 4 + c.toNat / 64) (c.toNat % 64) = c :=
      ofNat_toNat_of_eq (by omega)
    have hpad : ¬ (digit (c.toNat % 64) = '=' ∧ encode rest = []) :=
      fun h => digit_ne_pad (by omega) h.1
    rw [encode, decode, if_neg hpad, ih, decodeGroup, value?_digit (by omega),
      value?_digit (by omega), value?_digit (by omega), value?_digit (by omega)]
    simp [h₁, h₂, h₃]

/-- What is decoded is three quarters of its text at most. -/
theorem length_decode_le {cs : List Char} {bytes : List UInt8} (h : decode cs = some bytes) :
    4 * bytes.length ≤ 3 * cs.length := by
  induction cs using decode.induct generalizing bytes with
  | case1 =>
    cases h
    exact Nat.le_refl _
  | case2 p q r s rest hpad =>
    rw [decode, if_pos hpad, decodePadded] at h
    -- a padded group is one byte or two
    have hlength : bytes.length ≤ 2 := by
      cases hp : value? p <;> cases hq : value? q <;> rw [hp, hq] at h <;> try cases h
      rename_i x y
      by_cases hr : r = '='
      · simp [hr] at h
        simp [← h]
      · cases hv : value? r with
        | none => simp [hr, hv] at h
        | some z =>
          simp [hr, hv] at h
          simp [← h]
    simp only [List.length_cons]
    omega
  | case3 p q r s rest hpad ih =>
    rw [decode, if_neg hpad] at h
    cases hgroup : decodeGroup p q r s with
    | none => simp [hgroup] at h
    | some xs =>
      -- a full group is three
      have hxs : xs.length = 3 := by
        rw [decodeGroup] at hgroup
        cases hp : value? p <;> cases hq : value? q <;> cases hr : value? r <;>
          cases hs : value? s <;> simp [hp, hq, hr, hs] at hgroup
        simp [← hgroup]
      cases hrest : decode rest with
      | none => simp [hgroup, hrest] at h
      | some ys =>
        have hys := ih hrest
        have hbytes : xs ++ ys = bytes := by simpa [hgroup, hrest] using h
        rw [← hbytes, List.length_append]
        simp only [List.length_cons]
        omega
  | case4 cs hnil hcons =>
    rw [decode.eq_3 cs hnil hcons] at h
    cases h

end Base64
