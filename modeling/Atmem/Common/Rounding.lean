import Mathlib.Data.Int.Log
import Mathlib.Data.Rat.Floor
import Mathlib.Tactic.Linarith
/-!
# Rounding to a binary precision

The number of `p` significant bits that is nearest to a rational, the
even one of two that are as near, with no bound on the exponent. An
operation of binary64 whose result is in the normal range is the exact
operation, rounded to 53 bits.
-/

namespace Rounding

/-- To the nearest integer, the even one of two that are as near. -/
def roundHalfEven (q : ℚ) : ℤ :=
  let below := ⌊q⌋
  if q - below < 1 / 2 then below
  else if 1 / 2 < q - below then below + 1
  else if below % 2 = 0 then below else below + 1

/-- The nearest integer is at most a half away. -/
theorem abs_roundHalfEven_sub_le (q : ℚ) : |(roundHalfEven q : ℚ) - q| ≤ 1 / 2 := by
  have hle : (⌊q⌋ : ℚ) ≤ q := Int.floor_le q
  have hlt : q < ⌊q⌋ + 1 := Int.lt_floor_add_one q
  have hcases : (roundHalfEven q = ⌊q⌋ ∧ q - ⌊q⌋ ≤ 1 / 2) ∨
      (roundHalfEven q = ⌊q⌋ + 1 ∧ 1 / 2 ≤ q - ⌊q⌋) := by
    unfold roundHalfEven
    dsimp only
    split_ifs with hbelow habove heven
    · exact .inl ⟨rfl, hbelow.le⟩
    · exact .inr ⟨rfl, habove.le⟩
    · exact .inl ⟨rfl, not_lt.mp habove⟩
    · exact .inr ⟨rfl, not_lt.mp hbelow⟩
  rw [abs_le]
  rcases hcases with ⟨hround, hhalf⟩ | ⟨hround, hhalf⟩ <;> rw [hround] <;> push_cast <;>
    constructor <;> linarith

/-- The last place of a number of `p` bits as large as `q`. -/
def lastPlace (p : ℕ) (q : ℚ) : ℚ := 2 ^ (Int.log 2 q + 1 - p)

/-- The nearest number of `p` bits. -/
def nearest (p : ℕ) (q : ℚ) : ℚ := roundHalfEven (q / lastPlace p q) * lastPlace p q

variable {p : ℕ} {q : ℚ}

theorem lastPlace_pos : 0 < lastPlace p q := zpow_pos two_pos _

/-- The leading bit is within the number. -/
theorem lastPlace_le (hq : 0 < q) : lastPlace p q ≤ 2 * q / 2 ^ p := by
  have hlead : (2 : ℚ) ^ Int.log 2 q ≤ q := by
    simpa using Int.zpow_log_le_self (b := 2) Nat.one_lt_two hq
  have hsplit : lastPlace p q = 2 ^ Int.log 2 q * 2 / 2 ^ p := by
    rw [lastPlace, zpow_sub₀ two_ne_zero, zpow_add_one₀ two_ne_zero, zpow_natCast]
  rw [hsplit, mul_comm 2 q]
  gcongr

/-- **The error of rounding** is at most half of the last place. -/
theorem abs_nearest_sub_le (hq : 0 ≤ q) : |nearest p q - q| ≤ q / 2 ^ p := by
  rcases hq.eq_or_lt with rfl | hpos
  · simp [nearest, roundHalfEven]
  have hplace := lastPlace_pos (p := p) (q := q)
  have herror := abs_roundHalfEven_sub_le (q / lastPlace p q)
  calc |nearest p q - q|
      = |(roundHalfEven (q / lastPlace p q) - q / lastPlace p q) * lastPlace p q| := by
        rw [sub_mul, div_mul_cancel₀ q hplace.ne', nearest]
    _ = |(roundHalfEven (q / lastPlace p q) : ℚ) - q / lastPlace p q| * lastPlace p q := by
        rw [abs_mul, abs_of_pos hplace]
    _ ≤ 1 / 2 * (2 * q / 2 ^ p) :=
        mul_le_mul herror (lastPlace_le hpos) hplace.le one_half_pos.le
    _ = q / 2 ^ p := by ring

end Rounding
