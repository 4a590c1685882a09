import Mathlib.Logic.Function.Basic
import Atmem.Common.Splitting
import Atmem.Core.Time
/-!
# Instants and their texts

Two instants are never written alike. Each number stands between two
characters that are no digits, so the text gives back the numbers, and
the calendar gives back the instant they were taken of.
-/

namespace Atmem

open Delimited

/-! ## Digits -/

/-- A padded number is digits. -/
theorem isDigit_of_mem_padded {width n : ℕ} {c : Char} (hc : c ∈ (padded width n).toList) :
    c.isDigit = true := by
  rw [padded, String.toList_ofList] at hc
  rcases List.mem_append.mp hc with hc | hc
  · rw [(List.mem_replicate.mp hc).2]
    decide
  · exact Nat.isDigit_of_mem_toDigits (by decide) (by decide) hc

/-- The digits of a padded number are its value. -/
theorem ofDigitChars_padded (width n : ℕ) : Nat.ofDigitChars 10 (padded width n).toList 0 = n := by
  rw [padded, String.toList_ofList, Nat.ofDigitChars_append, Nat.ofDigitChars_replicate_zero,
    Nat.mul_zero, Nat.ofDigitChars_ten_toDigits]

/-- **A number up to what is no digit** can be read off a text. -/
theorem padded_append_inj {width n m : ℕ} {c d : Char} {s t : List Char}
    (hc : c.isDigit = false) (hd : d.isDigit = false)
    (h : (padded width n).toList ++ c :: s = (padded width m).toList ++ d :: t) :
    n = m ∧ c :: s = d :: t := by
  have hplain (k : ℕ) : ∀ x ∈ (padded width k).toList, ¬ x.isDigit = false := fun x hx => by
    rw [isDigit_of_mem_padded hx]
    decide
  obtain ⟨hdigits, hrest⟩ := word_append_inj (hplain n) (hplain m) (.cons hc) (.cons hd) h
  refine ⟨?_, hrest⟩
  rw [← ofDigitChars_padded width n, hdigits, ofDigitChars_padded]

/-! ## The calendar -/

/-- A month is at least the one the count starts from. -/
theorem le_monthDay (months : List ℕ) (month day : ℕ) : month ≤ (monthDay month day months).1 := by
  induction months generalizing month day with
  | nil => exact Nat.le_refl month
  | cons n ns ih =>
    rw [monthDay]
    split
    · exact Nat.le_refl month
    · exact Nat.le_of_succ_le (ih (month + 1) (day - n))

/-- A month and a day of the month are of one day of the year. -/
theorem monthDay_inj {months : List ℕ} {month day day' : ℕ}
    (h : monthDay month day months = monthDay month day' months) : day = day' := by
  induction months generalizing month day day' with
  | nil => simpa [monthDay] using h
  | cons n ns ih =>
    rw [monthDay, monthDay] at h
    split at h <;> split at h
    · simpa using h
    · exact absurd (congrArg Prod.fst h) (Nat.ne_of_lt (le_monthDay ns (month + 1) _))
    · exact absurd (congrArg Prod.fst h).symm (Nat.ne_of_lt (le_monthDay ns (month + 1) _))
    · have hrest := ih h
      omega

/-- A year begins no later than any of its days. -/
theorem daysBeforeYear_yearOf_le (day : ℕ) : daysBeforeYear (yearOf day) ≤ day := by
  have hmean : daysBeforeYear (day * 400 / 146097 + 1 - 1) ≤ day := by
    simp only [daysBeforeYear]
    omega
  simp only [yearOf]
  split
  · assumption
  · split
    · assumption
    · exact hmean

/-! ## Instants -/

/-- What `isoformat` writes of the fields of a UTC datetime. -/
def fieldsText (year month day hour minute second micros : ℕ) : List Char :=
  (padded 4 year).toList ++ '-' :: ((padded 2 month).toList ++ '-' ::
    ((padded 2 day).toList ++ 'T' :: ((padded 2 hour).toList ++ ':' ::
      ((padded 2 minute).toList ++ ':' :: ((padded 2 second).toList ++
        (if micros = 0 then '+' :: "00:00".toList
          else '.' :: ((padded 6 micros).toList ++ '+' :: "00:00".toList)))))))

/-- The text of a time, character by character. -/
theorem toIso_toList (t : Instant) :
    let day := t / 1000000 / 86400
    let md := monthDay 1 (day - daysBeforeYear (yearOf day)) (daysInMonths (yearOf day))
    let second := t / 1000000 % 86400
    (toIso t).toList = fieldsText (yearOf day) md.1 md.2 (second / 3600) (second / 60 % 60)
      (second % 60) (t % 1000000) := by
  simp only [toIso, fieldsText, String.toList_append]
  split <;> simp

/-- **The fields can be read off the text.** -/
theorem fieldsText_inj {year month day hour minute second micros : ℕ}
    {year' month' day' hour' minute' second' micros' : ℕ}
    (h : fieldsText year month day hour minute second micros =
      fieldsText year' month' day' hour' minute' second' micros') :
    year = year' ∧ month = month' ∧ day = day' ∧ hour = hour' ∧ minute = minute' ∧
      second = second' ∧ micros = micros' := by
  obtain ⟨hyear, h⟩ := padded_append_inj (by decide) (by decide) h
  obtain ⟨hmonth, h⟩ := padded_append_inj (by decide) (by decide) (List.cons.inj h).2
  obtain ⟨hday, h⟩ := padded_append_inj (by decide) (by decide) (List.cons.inj h).2
  obtain ⟨hhour, h⟩ := padded_append_inj (by decide) (by decide) (List.cons.inj h).2
  obtain ⟨hminute, h⟩ := padded_append_inj (by decide) (by decide) (List.cons.inj h).2
  have hlast := (List.cons.inj h).2
  refine ⟨hyear, hmonth, hday, hhour, hminute, ?_⟩
  by_cases hmicros : micros = 0 <;> by_cases hmicros' : micros' = 0
  · rw [if_pos hmicros, if_pos hmicros'] at hlast
    exact ⟨(padded_append_inj (by decide) (by decide) hlast).1, hmicros.trans hmicros'.symm⟩
  · rw [if_pos hmicros, if_neg hmicros'] at hlast
    have hpoint := (padded_append_inj (by decide) (by decide) hlast).2
    exact absurd (List.cons.inj hpoint).1 (by decide)
  · rw [if_neg hmicros, if_pos hmicros'] at hlast
    have hpoint := (padded_append_inj (by decide) (by decide) hlast).2
    exact absurd (List.cons.inj hpoint).1 (by decide)
  · rw [if_neg hmicros, if_neg hmicros'] at hlast
    obtain ⟨hsecond, hrest⟩ := padded_append_inj (by decide) (by decide) hlast
    exact ⟨hsecond, (padded_append_inj (by decide) (by decide) (List.cons.inj hrest).2).1⟩

/-- Hours, minutes and seconds give the second of the day. -/
theorem second_eq {n m : ℕ} (hhour : n / 3600 = m / 3600) (hminute : n / 60 % 60 = m / 60 % 60)
    (hsecond : n % 60 = m % 60) : n = m := by
  have hn : n / 60 / 60 = n / 3600 := Nat.div_div_eq_div_mul n 60 60
  have hm : m / 60 / 60 = m / 3600 := Nat.div_div_eq_div_mul m 60 60
  omega

/-- **No two instants are written alike.** -/
theorem toIso_injective : Function.Injective toIso := by
  intro t t' h
  have hchars := congrArg String.toList h
  rw [toIso_toList, toIso_toList] at hchars
  obtain ⟨hyear, hmonth, hday, hhour, hminute, hsecond, hmicros⟩ := fieldsText_inj hchars
  have hle := daysBeforeYear_yearOf_le (t / 1000000 / 86400)
  have hle' := daysBeforeYear_yearOf_le (t' / 1000000 / 86400)
  rw [hyear] at hle hmonth hday
  have hofYear := monthDay_inj (Prod.ext hmonth hday)
  have hdays : t / 1000000 / 86400 = t' / 1000000 / 86400 := by
    rw [← Nat.sub_add_cancel hle, hofYear, Nat.sub_add_cancel hle']
  have hseconds : t / 1000000 = t' / 1000000 :=
    Nat.ext_div_mod hdays (second_eq hhour hminute hsecond)
  exact Nat.ext_div_mod hseconds hmicros

end Atmem
