/-
  OwAnalytics.Lib.Calendar

  The Gregorian calendar, from year 0 on, by counting: the lengths of the months and
  of the years, and the number of a day.  Decimal texts of a fixed width, in which
  dates are written.
-/

import Mathlib

namespace Calendar

/-- A leap year of the proleptic Gregorian calendar. -/
def IsLeap (year : ℕ) : Prop := (year % 4 = 0 ∧ year % 100 ≠ 0) ∨ year % 400 = 0

instance : DecidablePred IsLeap := fun _ => inferInstanceAs (Decidable (_ ∨ _))

/-- The days of a year. -/
def yearLength (year : ℕ) : ℕ := if IsLeap year then 366 else 365

/-- The length of a month, counted from 1; there is none with another number. -/
def monthLength (year month : ℕ) : ℕ :=
  match month with
  | 2 => if IsLeap year then 29 else 28
  | 4 | 6 | 9 | 11 => 30
  | 1 | 3 | 5 | 7 | 8 | 10 | 12 => 31
  | _ => 0

/-- The days from the beginning of year 0 to that of the year. -/
def daysBeforeYear : ℕ → ℕ
  | 0 => 0
  | year + 1 => daysBeforeYear year + yearLength year

/-- The days of a year before a month. -/
def daysBeforeMonth (year : ℕ) : ℕ → ℕ
  | 0 => 0
  | month + 1 => daysBeforeMonth year month + monthLength year month

/-- A day of the calendar. -/
structure Date where
  year : ℕ
  month : ℕ
  day : ℕ
  month_pos : 1 ≤ month
  month_le : month ≤ 12
  day_pos : 1 ≤ day
  day_le : day ≤ monthLength year month

/-- The number of a day; 1970-01-01 is day 0. -/
def Date.dayNumber (d : Date) : ℤ :=
  daysBeforeYear d.year + daysBeforeMonth d.year d.month + d.day - 1 - daysBeforeYear 1970

/-- Every fourth year is a leap year, but for the centuries that are no multiples of 400. -/
theorem daysBeforeYear_eq (year : ℕ) :
    daysBeforeYear year + (year + 99) / 100 = 365 * year + (year + 3) / 4 + (year + 399) / 400 := by
  induction year with
  | zero => rfl
  | succ year ih =>
      rw [daysBeforeYear, yearLength]
      -- each quotient grows just at the multiples of its divisor
      by_cases hleap : IsLeap year
      · rw [if_pos hleap]
        unfold IsLeap at hleap
        omega
      · rw [if_neg hleap]
        unfold IsLeap at hleap
        omega

theorem daysBeforeYear_1970 : daysBeforeYear 1970 = 719528 := by
  have h := daysBeforeYear_eq 1970
  omega

/-- From March on, the days before a month are those of the first two months and then 30 or 31 for
    each month, in a pattern that repeats after five. -/
theorem daysBeforeMonth_eq (year : ℕ) {month : ℕ} (hpos : 1 ≤ month) (hle : month ≤ 12) :
    daysBeforeMonth year month =
      if month ≤ 2 then 31 * (month - 1)
      else (153 * (month - 3) + 2) / 5 + 59 + if IsLeap year then 1 else 0 := by
  by_cases hleap : IsLeap year <;> interval_cases month <;>
    simp [daysBeforeMonth, monthLength, hleap]

/-! ## Decimal texts of a fixed width -/

/-- The last digits of a number. -/
def fixedDigits : ℕ → ℕ → List Char
  | 0, _ => []
  | width + 1, n => fixedDigits width (n / 10) ++ [Nat.digitChar (n % 10)]

@[simp] theorem length_fixedDigits (width n : ℕ) : (fixedDigits width n).length = width := by
  induction width generalizing n with
  | zero => rfl
  | succ width ih => rw [fixedDigits, List.length_append, ih, List.length_singleton]

theorem isDigit_of_mem_fixedDigits {width n : ℕ} {c : Char} (h : c ∈ fixedDigits width n) :
    c.isDigit = true := by
  induction width generalizing n with
  | zero => cases h
  | succ width ih =>
      rw [fixedDigits, List.mem_append, List.mem_singleton] at h
      rcases h with h | rfl
      · exact ih h
      · rw [Nat.isDigit_digitChar, decide_eq_true_eq]
        omega

theorem ofDigitChars_fixedDigits (width n : ℕ) :
    Nat.ofDigitChars 10 (fixedDigits width n) 0 = n % 10 ^ width := by
  induction width generalizing n with
  | zero => simp [fixedDigits, Nat.mod_one]
  | succ width ih =>
      rw [fixedDigits, Nat.ofDigitChars_append, ih,
        Nat.ofDigitChars_cons_digitChar_of_lt_ten (by omega), Nat.ofDigitChars_nil,
        Nat.pow_succ']
      -- the last digit, and ten times the others
      have hsplit := Nat.mod_mul (x := n) (a := 10) (b := 10 ^ width)
      omega

theorem digit_lt {c : Char} (h : c.isDigit = true) : c.toNat - '0'.toNat < 10 := by
  rw [Char.isDigit, Bool.and_eq_true, decide_eq_true_eq, decide_eq_true_eq] at h
  have hle : c.toNat ≤ 57 := h.2
  have hzero : '0'.toNat = 48 := rfl
  omega

theorem digitChar_of_isDigit {c : Char} (h : c.isDigit = true) :
    Nat.digitChar (c.toNat - '0'.toNat) = c := by
  have hlt := digit_lt h
  rw [Char.isDigit, Bool.and_eq_true, decide_eq_true_eq, decide_eq_true_eq] at h
  have hge : '0'.toNat ≤ c.toNat := h.1
  have hzero : '0'.toNat = 48 := rfl
  apply Char.toNat_inj.mp
  rw [Nat.toNat_digitChar_of_lt_ten hlt]
  omega

/-- A text of digits is the last digits of its number. -/
theorem fixedDigits_ofDigitChars {text : List Char} (h : ∀ c ∈ text, c.isDigit = true) :
    fixedDigits text.length (Nat.ofDigitChars 10 text 0) = text := by
  induction text using List.reverseRecOn with
  | nil => rfl
  | append_singleton text c ih =>
      have hc : c.isDigit = true := h c (by simp)
      have htext := ih fun d hd => h d (by simp [hd])
      have hlt := digit_lt hc
      have hnumber : Nat.ofDigitChars 10 (text ++ [c]) 0 =
          10 * Nat.ofDigitChars 10 text 0 + (c.toNat - '0'.toNat) := by
        rw [Nat.ofDigitChars_append, Nat.ofDigitChars_cons, Nat.ofDigitChars_nil]
      have hdiv : (10 * Nat.ofDigitChars 10 text 0 + (c.toNat - '0'.toNat)) / 10 =
          Nat.ofDigitChars 10 text 0 := by omega
      have hmod : (10 * Nat.ofDigitChars 10 text 0 + (c.toNat - '0'.toNat)) % 10 =
          c.toNat - '0'.toNat := by omega
      rw [List.length_append, List.length_singleton, fixedDigits, hnumber, hdiv, hmod, htext,
        digitChar_of_isDigit hc]

/-- The number of a text of digits is below the power of its length. -/
theorem ofDigitChars_lt {text : List Char} (h : ∀ c ∈ text, c.isDigit = true) :
    Nat.ofDigitChars 10 text 0 < 10 ^ text.length := by
  have hself := ofDigitChars_fixedDigits text.length (Nat.ofDigitChars 10 text 0)
  rw [fixedDigits_ofDigitChars h] at hself
  rw [hself]
  exact Nat.mod_lt _ (Nat.pow_pos (by decide))

end Calendar
