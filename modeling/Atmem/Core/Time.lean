import Atmem.Common.Rounding
/-!
# Trusted time

An instant is the microseconds since the start of year one, and
`to_iso` writes it as the store keeps it. `elapsed_ms` passes through a
float of seconds, and so does the model: both of its operations are
rounded to binary64.
-/

namespace Atmem

/-- An aware UTC datetime, in microseconds since 0001-01-01. -/
abbrev Instant := ℕ

/-- A number in at least `width` decimal digits. -/
def padded (width n : ℕ) : String :=
  let digits := Nat.toDigits 10 n
  String.ofList (List.replicate (width - digits.length) '0' ++ digits)

/-- The days before a year of the proleptic Gregorian calendar. -/
def daysBeforeYear (year : ℕ) : ℕ :=
  let y := year - 1
  y * 365 + y / 4 - y / 100 + y / 400

/-- The year has a 29th of February. -/
def isLeap (year : ℕ) : Bool := year % 4 = 0 && (year % 100 ≠ 0 || year % 400 = 0)

/-- The days of each month of a year. -/
def daysInMonths (year : ℕ) : List ℕ :=
  [31, if isLeap year then 29 else 28, 31, 30, 31, 30, 31, 31, 30, 31, 30, 31]

/-- The year a day falls in, counting days from zero: at most one less
than the mean length of a year gives. -/
def yearOf (day : ℕ) : ℕ :=
  let guess := day * 400 / 146097 + 1
  if daysBeforeYear (guess + 1) ≤ day then guess + 1
  else if daysBeforeYear guess ≤ day then guess else guess - 1

/-- The month and the day of the month of a day of the year. -/
def monthDay (month day : ℕ) : List ℕ → ℕ × ℕ
  | [] => (month, day + 1)
  | n :: ns => if day < n then (month, day + 1) else monthDay (month + 1) (day - n) ns

/-- `to_iso`: `isoformat()` of an aware UTC datetime, the microseconds
only where there are any. -/
def toIso (t : Instant) : String :=
  let seconds := t / 1000000
  let micros := t % 1000000
  let day := seconds / 86400
  let year := yearOf day
  let md := monthDay 1 (day - daysBeforeYear year) (daysInMonths year)
  let second := seconds % 86400
  padded 4 year ++ "-" ++ padded 2 md.1 ++ "-" ++ padded 2 md.2 ++ "T" ++
    padded 2 (second / 3600) ++ ":" ++ padded 2 (second / 60 % 60) ++ ":" ++
    padded 2 (second % 60) ++ (if micros = 0 then "" else "." ++ padded 6 micros) ++ "+00:00"

example : toIso 63902859322000123 = "2026-01-01T10:15:22.000123+00:00" := by decide +kernel

/-- The first instant past `datetime.max`. -/
def maxInstant : Instant := daysBeforeYear 10000 * 86400000000

/-- `timedelta.total_seconds`, of a span in microseconds. -/
def totalSeconds (micros : ℕ) : ℚ := Rounding.nearest 53 (micros / 1000000)

/-- `elapsed_ms`: whole milliseconds between two trusted instants, never
negative. A span back in time is cut to none. -/
def elapsedMs (start finish : Instant) : ℕ :=
  ⌊Rounding.nearest 53 (totalSeconds (finish - start) * 1000)⌋₊

-- 1.001 seconds are a little less in binary, and `int` cuts
example : elapsedMs 0 1001000 = 1000 := by decide +kernel

/-- **The milliseconds are those of the span**, up to what truncation and
the two roundings take or add. A `datetime` spans less than `2 ^ 59`
microseconds. -/
theorem elapsedMs_near {start finish : Instant} (hspan : finish - start < 2 ^ 59) :
    1000 * elapsedMs start finish < finish - start + 300 ∧
      finish - start < 1000 * elapsedMs start finish + 1300 := by
  obtain ⟨micros, hmicros⟩ : ∃ micros, finish - start = micros := ⟨_, rfl⟩
  rw [hmicros] at hspan ⊢
  have hsize : (micros : ℚ) < 2 ^ 59 := by exact_mod_cast hspan
  have hnonneg : (0 : ℚ) ≤ micros := Nat.cast_nonneg micros
  have hfirst := abs_le.mp (Rounding.abs_nearest_sub_le (p := 53) (q := micros / 1000000)
    (by positivity))
  -- both roundings are of numbers that are not negative
  have hseconds : 0 ≤ totalSeconds micros := by
    have hle : (micros : ℚ) / 1000000 / 2 ^ 53 ≤ micros / 1000000 :=
      div_le_self (by positivity) (by norm_num)
    unfold totalSeconds
    linarith only [hfirst.1, hle]
  have hsecond := abs_le.mp (Rounding.abs_nearest_sub_le (p := 53)
    (q := totalSeconds micros * 1000) (by positivity))
  have hresult : 0 ≤ Rounding.nearest 53 (totalSeconds micros * 1000) := by
    have hle : totalSeconds micros * 1000 / 2 ^ 53 ≤ totalSeconds micros * 1000 :=
      div_le_self (by positivity) (by norm_num)
    linarith only [hsecond.1, hle]
  have hms : elapsedMs start finish = ⌊Rounding.nearest 53 (totalSeconds micros * 1000)⌋₊ := by
    rw [elapsedMs, hmicros]
  have hfloor := Nat.floor_le hresult
  have hceil := Nat.lt_floor_add_one (Rounding.nearest 53 (totalSeconds micros * 1000))
  rw [← hms] at hfloor hceil
  have htotal : totalSeconds micros = Rounding.nearest 53 (micros / 1000000) := rfl
  rw [← htotal] at hfirst
  constructor
  · have hbound : (1000 * elapsedMs start finish : ℚ) < micros + 300 := by
      linarith only [hfloor, hsecond.2, hfirst.2, hsize, hnonneg]
    exact_mod_cast hbound
  · have hbound : (micros : ℚ) < 1000 * elapsedMs start finish + 1300 := by
      linarith only [hceil, hsecond.1, hfirst.1, hsize, hnonneg, hfirst.2]
    exact_mod_cast hbound

end Atmem
