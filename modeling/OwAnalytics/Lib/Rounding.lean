/-
  OwAnalytics.Lib.Rounding

  Rounding to the nearest integer with ties away from zero, and to the nearest
  multiple of a fraction.  Rounding to a grid is monotone and keeps the points of
  the grid, so it keeps every interval between two of them; a sum of rounded
  values differs from the sum of the values by at most half a step for each term.
-/

import Mathlib

namespace Rounding

variable {K : Type*} [Field K] [LinearOrder K] [IsStrictOrderedRing K] [FloorRing K]

/-- The nearest integer, ties away from zero. -/
def roundHalfAway (x : K) : ℤ := if 0 ≤ x then ⌊x + 1 / 2⌋ else ⌈x - 1 / 2⌉

theorem roundHalfAway_intCast (n : ℤ) : roundHalfAway (n : K) = n := by
  unfold roundHalfAway
  split_ifs
  · rw [Int.floor_intCast_add, Int.floor_eq_zero_iff.mpr ⟨by norm_num, by norm_num⟩, add_zero]
  · have hfloor : ⌈(-(1 / 2) : K)⌉ = 0 := Int.ceil_eq_zero_iff.mpr ⟨by norm_num, by norm_num⟩
    rw [sub_eq_add_neg, add_comm, Int.ceil_add_intCast, hfloor, zero_add]

theorem roundHalfAway_mono {x y : K} (h : x ≤ y) : roundHalfAway x ≤ roundHalfAway y := by
  unfold roundHalfAway
  split_ifs with hx hy hy
  · exact Int.floor_mono (add_le_add_left h _)
  · exact absurd (hx.trans h) hy
  · -- a negative number is rounded to at most zero, the other one to at least zero
    have hlo : ⌈x - 1 / 2⌉ ≤ 0 := by
      rw [Int.ceil_le]
      push_cast
      linarith
    have hhi : 0 ≤ ⌊y + 1 / 2⌋ := Int.floor_nonneg.mpr (by linarith)
    exact hlo.trans hhi
  · exact Int.ceil_mono (sub_le_sub_right h _)

theorem abs_roundHalfAway_sub (x : K) : |(roundHalfAway x : K) - x| ≤ 1 / 2 := by
  unfold roundHalfAway
  rw [abs_le]
  split_ifs
  · have hle := Int.floor_le (x + 1 / 2)
    have hlt := Int.lt_floor_add_one (x + 1 / 2)
    constructor <;> linarith
  · have hle := Int.le_ceil (x - 1 / 2)
    have hlt := Int.ceil_lt_add_one (x - 1 / 2)
    constructor <;> linarith

/-- The nearest multiple of `1 / d`, ties away from zero. -/
def roundTo (d : ℕ) (x : K) : K := roundHalfAway (x * d) / d

variable {d : ℕ}

/-- The multiples of `1 / d` are kept. -/
theorem roundTo_grid (hd : 0 < d) (n : ℤ) : roundTo d ((n : K) / d) = n / d := by
  have hne : (d : K) ≠ 0 := Nat.cast_ne_zero.mpr hd.ne'
  rw [roundTo, div_mul_cancel₀ _ hne, roundHalfAway_intCast]

theorem roundTo_intCast (hd : 0 < d) (n : ℤ) : roundTo d (n : K) = n := by
  have hne : (d : K) ≠ 0 := Nat.cast_ne_zero.mpr hd.ne'
  have hgrid : (n : K) = ((n * d : ℤ) : K) / d := by
    push_cast
    rw [mul_div_cancel_right₀ _ hne]
  rw [hgrid, roundTo_grid hd]

theorem roundTo_mono (hd : 0 < d) {x y : K} (h : x ≤ y) : roundTo d x ≤ roundTo d y := by
  have hpos : (0 : K) < d := Nat.cast_pos.mpr hd
  apply div_le_div_of_nonneg_right _ hpos.le
  exact Int.cast_le.mpr (roundHalfAway_mono (mul_le_mul_of_nonneg_right h hpos.le))

/-- An interval between two integers is kept. -/
theorem roundTo_mem_Icc (hd : 0 < d) {x : K} {m n : ℤ} (h : x ∈ Set.Icc (m : K) n) :
    roundTo d x ∈ Set.Icc (m : K) n := by
  refine ⟨?_, ?_⟩
  · rw [← roundTo_intCast hd m]
    exact roundTo_mono hd h.1
  · rw [← roundTo_intCast hd n]
    exact roundTo_mono hd h.2

theorem abs_roundTo_sub (hd : 0 < d) (x : K) : |roundTo d x - x| ≤ 1 / (2 * d) := by
  have hpos : (0 : K) < d := Nat.cast_pos.mpr hd
  have hscale : roundTo d x - x = (roundHalfAway (x * d) - x * d) / d := by
    rw [roundTo, sub_div, mul_div_cancel_right₀ _ hpos.ne']
  rw [hscale, abs_div, abs_of_pos hpos, ← div_div]
  exact div_le_div_of_nonneg_right (abs_roundHalfAway_sub _) hpos.le

/-- Rounding the terms of a sum moves it by at most half a step for each of them. -/
theorem abs_sum_roundTo_sub (hd : 0 < d) {ι : Type*} (s : Finset ι) (f : ι → K) :
    |∑ i ∈ s, roundTo d (f i) - ∑ i ∈ s, f i| ≤ s.card / (2 * d) := by
  calc |∑ i ∈ s, roundTo d (f i) - ∑ i ∈ s, f i|
      = |∑ i ∈ s, (roundTo d (f i) - f i)| := by rw [Finset.sum_sub_distrib]
    _ ≤ ∑ i ∈ s, |roundTo d (f i) - f i| := Finset.abs_sum_le_sum_abs _ _
    _ ≤ ∑ _i ∈ s, (1 : K) / (2 * d) := Finset.sum_le_sum fun i _ => abs_roundTo_sub hd (f i)
    _ = s.card / (2 * d) := by
      rw [Finset.sum_const, nsmul_eq_mul, mul_one_div]

end Rounding
