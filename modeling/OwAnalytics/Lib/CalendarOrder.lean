/-
  OwAnalytics.Lib.CalendarOrder

  A number split over growing blocks: the block it lies in and its place there.
  Numbers compare as the blocks do, then as the places.  Years, months and days
  split the numbers of the days like this, so every day number is that of a date,
  dates compare as their numbers, and digits of a fixed width as the numbers they
  write.
-/

import OwAnalytics.Lib.Calendar

namespace Calendar

/-! ## Blocks -/

/-- Comparing a sum of a block's start and a place below its length. -/
theorem compare_add_of_lt {f : ℕ → ℕ} (hf : Monotone f) {a b r s : ℕ} (hr : f a + r < f (a + 1))
    (hs : f b + s < f (b + 1)) :
    compare (f a + r) (f b + s) = (compare a b).then (compare r s) := by
  rcases lt_trichotomy a b with hlt | rfl | hgt
  · have hle : f (a + 1) ≤ f b := hf hlt
    rw [Nat.compare_eq_lt.mpr hlt, Nat.compare_eq_lt.mpr (by omega)]
    rfl
  · rw [Nat.compare_eq_eq.mpr rfl]
    show _ = compare r s
    rcases lt_trichotomy r s with h | rfl | h
    · rw [Nat.compare_eq_lt.mpr h, Nat.compare_eq_lt.mpr (by omega)]
    · rw [Nat.compare_eq_eq.mpr rfl, Nat.compare_eq_eq.mpr rfl]
    · rw [Nat.compare_eq_gt.mpr h, Nat.compare_eq_gt.mpr (by omega)]
  · have hle : f (b + 1) ≤ f a := hf hgt
    rw [Nat.compare_eq_gt.mpr hgt, Nat.compare_eq_gt.mpr (by omega)]
    rfl

/-- Numbers that weigh more than what is added to them compare first. -/
theorem compare_weighted {weight a b r s : ℕ} (hr : r < weight) (hs : s < weight) :
    compare (weight * a + r) (weight * b + s) = (compare a b).then (compare r s) := by
  have hmono : Monotone fun a : ℕ => weight * a := fun _ _ h => Nat.mul_le_mul_left weight h
  refine compare_add_of_lt hmono ?_ ?_
  · rw [Nat.mul_succ]
    omega
  · rw [Nat.mul_succ]
    omega

/-- A number between the first and the last block lies in one of them. -/
theorem exists_block {f : ℕ → ℕ} {n last : ℕ} (hfirst : f 0 ≤ n) (hlast : n < f last) :
    ∃ a < last, f a ≤ n ∧ n < f (a + 1) := by
  induction last with
  | zero => exact absurd hlast (Nat.not_lt.mpr hfirst)
  | succ last ih =>
      by_cases h : n < f last
      · obtain ⟨a, ha, hbounds⟩ := ih h
        exact ⟨a, by omega, hbounds⟩
      · exact ⟨last, Nat.lt_succ_self last, Nat.not_lt.mp h, hlast⟩

/-! ## Dates -/

theorem daysBeforeYear_mono : Monotone daysBeforeYear :=
  monotone_nat_of_le_succ fun _ => Nat.le_add_right _ _

theorem daysBeforeMonth_mono (year : ℕ) : Monotone (daysBeforeMonth year) :=
  monotone_nat_of_le_succ fun _ => Nat.le_add_right _ _

/-- The months of a year make up the year. -/
theorem daysBeforeMonth_thirteen (year : ℕ) : daysBeforeMonth year 13 = yearLength year := by
  by_cases h : IsLeap year <;> simp [daysBeforeMonth, monthLength, yearLength, h]

/-- The days of the year before a date. -/
def Date.dayOfYear (d : Date) : ℕ := daysBeforeMonth d.year d.month + (d.day - 1)

/-- The days before a date, from year 0 on. -/
def Date.ordinal (d : Date) : ℕ := daysBeforeYear d.year + d.dayOfYear

theorem Date.dayOfYear_lt (d : Date) : d.dayOfYear < daysBeforeMonth d.year (d.month + 1) := by
  have hpos := d.day_pos
  have hle := d.day_le
  rw [Date.dayOfYear, daysBeforeMonth]
  omega

theorem Date.ordinal_lt (d : Date) : d.ordinal < daysBeforeYear (d.year + 1) := by
  have hmonth := d.dayOfYear_lt
  have hyear : daysBeforeMonth d.year (d.month + 1) ≤ yearLength d.year := by
    rw [← daysBeforeMonth_thirteen]
    exact daysBeforeMonth_mono d.year (by have := d.month_le; omega)
  rw [Date.ordinal, daysBeforeYear]
  omega

theorem Date.dayNumber_eq (d : Date) : d.dayNumber = (d.ordinal : ℤ) - 719528 := by
  have hpos := d.day_pos
  rw [Date.dayNumber, Date.ordinal, Date.dayOfYear, daysBeforeYear_1970]
  push_cast
  omega

/-- Dates compare by year, month and day as their numbers do. -/
theorem Date.compare_ordinal (d e : Date) :
    compare d.ordinal e.ordinal
      = (compare d.year e.year).then ((compare d.month e.month).then (compare d.day e.day)) := by
  have hyears := compare_add_of_lt daysBeforeYear_mono d.ordinal_lt e.ordinal_lt
  rw [Date.ordinal, Date.ordinal, hyears]
  rcases eq_or_ne d.year e.year with hyear | hyear
  · have hmonths : compare d.dayOfYear e.dayOfYear
        = (compare d.month e.month).then (compare (d.day - 1) (e.day - 1)) := by
      have he := e.dayOfYear_lt
      rw [← hyear] at he
      rw [Date.dayOfYear, Date.dayOfYear, ← hyear]
      refine compare_add_of_lt (daysBeforeMonth_mono d.year) d.dayOfYear_lt ?_
      rwa [Date.dayOfYear, ← hyear] at he
    have hdays : compare (d.day - 1) (e.day - 1) = compare d.day e.day := by
      have hd := d.day_pos
      have he := e.day_pos
      rcases lt_trichotomy d.day e.day with h | h | h
      · rw [Nat.compare_eq_lt.mpr h, Nat.compare_eq_lt.mpr (by omega)]
      · rw [Nat.compare_eq_eq.mpr h, Nat.compare_eq_eq.mpr (by omega)]
      · rw [Nat.compare_eq_gt.mpr h, Nat.compare_eq_gt.mpr (by omega)]
    rw [hmonths, hdays]
  · -- the years decide
    rcases Nat.lt_or_gt_of_ne hyear with h | h
    · rw [Nat.compare_eq_lt.mpr h]
      rfl
    · rw [Nat.compare_eq_gt.mpr h]
      rfl

/-- Every day before the end of a year is that of a date. -/
theorem exists_date {n lastYear : ℕ} (h : n < daysBeforeYear lastYear) :
    ∃ d : Date, d.ordinal = n ∧ d.year < lastYear := by
  obtain ⟨year, hyear, hlo, hhi⟩ := exists_block (f := daysBeforeYear) (Nat.zero_le n) h
  rw [daysBeforeYear] at hhi
  have hday : n - daysBeforeYear year < daysBeforeMonth year 13 := by
    rw [daysBeforeMonth_thirteen]
    omega
  obtain ⟨month, hmonth, hmlo, hmhi⟩ := exists_block (f := daysBeforeMonth year)
    (Nat.zero_le _) hday
  rw [daysBeforeMonth] at hmhi
  have hpos : 1 ≤ month := by
    -- there is no month 0
    by_contra hzero
    obtain rfl : month = 0 := by omega
    have hnone : monthLength year 0 = 0 := rfl
    have hstart : daysBeforeMonth year 0 = 0 := rfl
    omega
  let d : Date :=
    { year := year
      month := month
      day := n - daysBeforeYear year - daysBeforeMonth year month + 1
      month_pos := hpos
      month_le := by omega
      day_pos := by omega
      day_le := by omega }
  refine ⟨d, ?_, hyear⟩
  show daysBeforeYear year + (daysBeforeMonth year month +
    (n - daysBeforeYear year - daysBeforeMonth year month + 1 - 1)) = n
  omega

/-! ## Digits -/

theorem compare_digitChar {a b : ℕ} (ha : a < 10) (hb : b < 10) :
    compare (Nat.digitChar a) (Nat.digitChar b) = compare a b := by
  have htable : ∀ a < 10, ∀ b < 10,
      compare (Nat.digitChar a) (Nat.digitChar b) = compare a b := by
    decide
  exact htable a ha b hb

/-- Texts that begin with digits of one width compare by the numbers first. -/
theorem compare_fixedDigits {width n m : ℕ} (hn : n < 10 ^ width) (hm : m < 10 ^ width)
    (s t : List Char) :
    compare (fixedDigits width n ++ s) (fixedDigits width m ++ t)
      = (compare n m).then (compare s t) := by
  induction width generalizing n m s t with
  | zero =>
      obtain rfl : n = 0 := by simpa using hn
      obtain rfl : m = 0 := by simpa using hm
      rfl
  | succ width ih =>
      rw [Nat.pow_succ] at hn hm
      rw [fixedDigits, fixedDigits, List.append_assoc, List.append_assoc, List.singleton_append,
        List.singleton_append, ih (by omega) (by omega), List.compare_cons_cons,
        compare_digitChar (by omega) (by omega), ← Ordering.then_assoc]
      congr 1
      -- the number is the block of its last digit
      have hblocks : compare (10 * (n / 10) + n % 10) (10 * (m / 10) + m % 10)
          = (compare (n / 10) (m / 10)).then (compare (n % 10) (m % 10)) :=
        compare_weighted (by omega) (by omega)
      rw [← hblocks, Nat.div_add_mod, Nat.div_add_mod]

/-- The usual text of a number is its digits of the width it needs. -/
theorem toDigits_eq_fixedDigits {width n : ℕ} (hlo : 10 ^ width ≤ n) (hhi : n < 10 ^ (width + 1)) :
    Nat.toDigits 10 n = fixedDigits (width + 1) n := by
  have hlen : (Nat.toDigits 10 n).length = width + 1 := by
    apply le_antisymm
    · exact (Nat.length_toDigits_le_iff (by decide) (Nat.succ_pos width)).mpr hhi
    · rcases Nat.eq_zero_or_pos width with rfl | hpos
      · exact Nat.length_toDigits_pos
      · have hnot := (Nat.length_toDigits_le_iff (n := n) (b := 10) (by decide) hpos).not.mpr
          (Nat.not_lt.mpr hlo)
        omega
  have hdigits : ∀ c ∈ Nat.toDigits 10 n, c.isDigit = true := fun c hc =>
    Nat.isDigit_of_mem_toDigits (by decide) (by decide) hc
  have htext := fixedDigits_ofDigitChars hdigits
  rw [hlen, Nat.ofDigitChars_ten_toDigits] at htext
  exact htext.symm

end Calendar
