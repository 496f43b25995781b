/-
  OwAnalytics.Lib.Significand

  Rounding a nonnegative rational number to a floating-point number of `p`
  significant bits, to nearest with ties to even and without a bound on the
  exponent.  A number that fits is kept, and rounding does not cross one; the
  error is at most half the distance of the numbers that fit.
-/

import Mathlib

namespace Significand

/-! ## Nearest integer -/

/-- The nearest integer, ties to even. -/
def roundHalfEven (x : ℚ) : ℤ :=
  if Int.fract x < 1 / 2 then ⌊x⌋
  else if Int.fract x > 1 / 2 then ⌊x⌋ + 1
  else if ⌊x⌋ % 2 = 0 then ⌊x⌋
  else ⌊x⌋ + 1

theorem roundHalfEven_le {x : ℚ} {n : ℤ} (h : x ≤ n) : roundHalfEven x ≤ n := by
  have hfloor : ⌊x⌋ ≤ n := by
    have hle := Int.floor_mono h
    rwa [Int.floor_intCast] at hle
  have hsucc : Int.fract x ≠ 0 → ⌊x⌋ + 1 ≤ n := by
    intro hfract
    have hlt : (⌊x⌋ : ℚ) < n := by
      have hadd := Int.floor_add_fract x
      have hpos := lt_of_le_of_ne (Int.fract_nonneg x) (Ne.symm hfract)
      linarith
    exact Int.cast_lt.mp hlt
  unfold roundHalfEven
  split_ifs with hlo hhi heven
  · exact hfloor
  · exact hsucc (by linarith)
  · exact hfloor
  · exact hsucc (by linarith)

theorem le_roundHalfEven {x : ℚ} {n : ℤ} (h : (n : ℚ) ≤ x) : n ≤ roundHalfEven x := by
  have hfloor : n ≤ ⌊x⌋ := Int.le_floor.mpr h
  unfold roundHalfEven
  split_ifs <;> omega

theorem abs_roundHalfEven_sub (x : ℚ) : |(roundHalfEven x : ℚ) - x| ≤ 1 / 2 := by
  have hadd := Int.floor_add_fract x
  have hnonneg := Int.fract_nonneg x
  have hlt := Int.fract_lt_one x
  unfold roundHalfEven
  rw [abs_le]
  split_ifs with hlo hhi heven
  · constructor <;> linarith
  · push_cast
    constructor <;> linarith
  · constructor <;> linarith
  · push_cast
    constructor <;> linarith

/-- A number halfway between two integers goes to the even one. -/
theorem roundHalfEven_half (n : ℤ) :
    roundHalfEven ((n : ℚ) + 1 / 2) = if n % 2 = 0 then n else n + 1 := by
  have hfract : Int.fract ((n : ℚ) + 1 / 2) = 1 / 2 := by
    rw [Int.fract_intCast_add, Int.fract_eq_self]
    norm_num
  have hfloor : ⌊(n : ℚ) + 1 / 2⌋ = n := by
    rw [Int.floor_intCast_add, Int.floor_eq_zero_iff.mpr ⟨by norm_num, by norm_num⟩, add_zero]
  unfold roundHalfEven
  rw [hfract, hfloor, if_neg (lt_irrefl _), if_neg (lt_irrefl _)]

/-! ## Significant bits -/

/-- The distance of the numbers with `p` significant bits in the binade of `x`. -/
def spacing (p : ℕ) (x : ℚ) : ℚ := 2 ^ (Int.log 2 x + 1 - p)

/-- The nearest number with `p` significant bits. -/
def roundBits (p : ℕ) (x : ℚ) : ℚ :=
  if x ≤ 0 then 0 else roundHalfEven (x / spacing p x) * spacing p x

/-- The numbers with `p` significant bits. -/
def Fits (p : ℕ) (x : ℚ) : Prop := ∃ (k : ℕ) (j : ℤ), k < 2 ^ p ∧ x = k * 2 ^ j

theorem fits_natCast {p k : ℕ} (h : k < 2 ^ p) : Fits p k :=
  ⟨k, 0, h, by simp⟩

theorem fits_zero (p : ℕ) : Fits p 0 := by
  simpa using fits_natCast (p := p) (k := 0) (by positivity)

/-- Half of a number that fits. -/
theorem fits_half {p k : ℕ} (h : k < 2 ^ p) : Fits p (k / 2) :=
  ⟨k, -1, h, by rw [zpow_neg_one]; rfl⟩

variable {p : ℕ} {x : ℚ}

theorem spacing_pos (p : ℕ) (x : ℚ) : 0 < spacing p x := zpow_pos two_pos _

theorem zpow_log_le (hx : 0 < x) : (2 : ℚ) ^ Int.log 2 x ≤ x :=
  Int.zpow_log_le_self Nat.one_lt_two hx

theorem lt_zpow_log (x : ℚ) : x < (2 : ℚ) ^ (Int.log 2 x + 1) :=
  Int.lt_zpow_succ_log_self Nat.one_lt_two x

/-- The bounds of the binade of `x`, in units of its spacing. -/
theorem pow_mul_spacing (p : ℕ) (x : ℚ) :
    ((2 ^ p : ℕ) : ℚ) * spacing p x = 2 ^ (Int.log 2 x + 1) := by
  rw [spacing, Nat.cast_pow, Nat.cast_ofNat, ← zpow_natCast, ← zpow_add₀ two_ne_zero]
  congr 1
  omega

theorem pow_pred_mul_spacing (hp : 0 < p) (x : ℚ) :
    ((2 ^ (p - 1) : ℕ) : ℚ) * spacing p x = 2 ^ Int.log 2 x := by
  rw [spacing, Nat.cast_pow, Nat.cast_ofNat, ← zpow_natCast, ← zpow_add₀ two_ne_zero]
  congr 1
  omega

/-- A number of the binade of `x` that fits is a multiple of the spacing. -/
theorem Fits.exists_mul_spacing {g : ℚ} (hg : Fits p g) (h : (2 : ℚ) ^ Int.log 2 x ≤ g) :
    ∃ n : ℤ, g = n * spacing p x := by
  obtain ⟨k, j, hk, rfl⟩ := hg
  have hlt : (2 : ℚ) ^ Int.log 2 x < 2 ^ (p + j) := by
    calc (2 : ℚ) ^ Int.log 2 x ≤ k * 2 ^ j := h
      _ < (2 ^ p : ℕ) * 2 ^ j := mul_lt_mul_of_pos_right (Nat.cast_lt.mpr hk) (zpow_pos two_pos _)
      _ = 2 ^ (p + j) := by
        rw [Nat.cast_pow, Nat.cast_ofNat, ← zpow_natCast, ← zpow_add₀ two_ne_zero]
  have hexp : Int.log 2 x < p + j := (zpow_lt_zpow_iff_right₀ one_lt_two).mp hlt
  -- the exponents differ by a natural number
  obtain ⟨d, hd⟩ : ∃ d : ℕ, j = Int.log 2 x + 1 - p + d :=
    ⟨(j - (Int.log 2 x + 1 - p)).toNat, by omega⟩
  refine ⟨k * 2 ^ d, ?_⟩
  rw [spacing, hd, zpow_add₀ two_ne_zero, zpow_natCast]
  push_cast
  ring

/-- Rounding does not go above a number that fits. -/
theorem roundBits_le {g : ℚ} (hg : Fits p g) (h : x ≤ g) : roundBits p x ≤ g := by
  unfold roundBits
  split_ifs with hx
  · obtain ⟨k, j, -, rfl⟩ := hg
    positivity
  · rw [not_le] at hx
    have hs := spacing_pos p x
    have hmul : ∀ n : ℤ, x ≤ n * spacing p x →
        roundHalfEven (x / spacing p x) * spacing p x ≤ n * spacing p x := by
      intro n hn
      apply mul_le_mul_of_nonneg_right _ hs.le
      exact Int.cast_le.mpr (roundHalfEven_le ((div_le_iff₀ hs).mpr hn))
    by_cases hbinade : (2 : ℚ) ^ (Int.log 2 x + 1) ≤ g
    · -- the next power of two lies between
      refine le_trans ?_ hbinade
      rw [← pow_mul_spacing p x]
      refine hmul (2 ^ p : ℕ) ?_
      rw [Int.cast_natCast, pow_mul_spacing]
      exact (lt_zpow_log x).le
    · obtain ⟨n, rfl⟩ := hg.exists_mul_spacing ((zpow_log_le hx).trans h)
      exact hmul n h

/-- Rounding does not go below a number that fits. -/
theorem le_roundBits (hp : 0 < p) {g : ℚ} (hg : Fits p g) (h : g ≤ x) : g ≤ roundBits p x := by
  unfold roundBits
  split_ifs with hx
  · exact h.trans hx
  · rw [not_le] at hx
    have hs := spacing_pos p x
    have hmul : ∀ n : ℤ, n * spacing p x ≤ x →
        n * spacing p x ≤ roundHalfEven (x / spacing p x) * spacing p x := by
      intro n hn
      apply mul_le_mul_of_nonneg_right _ hs.le
      exact Int.cast_le.mpr (le_roundHalfEven ((le_div_iff₀ hs).mpr hn))
    by_cases hbinade : g ≤ (2 : ℚ) ^ Int.log 2 x
    · refine hbinade.trans ?_
      rw [← pow_pred_mul_spacing hp x]
      refine hmul (2 ^ (p - 1) : ℕ) ?_
      rw [Int.cast_natCast, pow_pred_mul_spacing hp]
      exact zpow_log_le hx
    · obtain ⟨n, rfl⟩ := hg.exists_mul_spacing (not_le.mp hbinade).le
      exact hmul n h

/-- A number that fits is kept. -/
theorem roundBits_of_fits (hp : 0 < p) (hx : Fits p x) : roundBits p x = x :=
  le_antisymm (roundBits_le hx le_rfl) (le_roundBits hp hx le_rfl)

theorem abs_roundBits_sub (hx : 0 < x) : |roundBits p x - x| ≤ spacing p x / 2 := by
  have hs := spacing_pos p x
  have hscale : roundBits p x - x
      = (roundHalfEven (x / spacing p x) - x / spacing p x) * spacing p x := by
    rw [roundBits, if_neg (not_le.mpr hx), sub_mul, div_mul_cancel₀ _ hs.ne']
  rw [hscale, abs_mul, abs_of_pos hs]
  calc |(roundHalfEven (x / spacing p x) : ℚ) - x / spacing p x| * spacing p x
      ≤ 1 / 2 * spacing p x := mul_le_mul_of_nonneg_right (abs_roundHalfEven_sub _) hs.le
    _ = spacing p x / 2 := by ring

/-- A rounded number is a multiple of the spacing. -/
theorem exists_roundBits_eq (p : ℕ) (x : ℚ) : ∃ n : ℤ, roundBits p x = n * spacing p x := by
  unfold roundBits
  split_ifs
  · exact ⟨0, by simp⟩
  · exact ⟨_, rfl⟩

/-- Half past an integer of the last binade with distance one. -/
theorem roundBits_add_half (hp : 0 < p) {v : ℕ} (hlo : 2 ^ (p - 1) ≤ v) (hhi : v < 2 ^ p) :
    roundBits p (v + 1 / 2) = if v % 2 = 0 then (v : ℚ) else v + 1 := by
  have hpos : (0 : ℚ) < v + 1 / 2 := by positivity
  -- The half does not lift the value into the next binade, so the distance stays one.
  have hlog : Int.log 2 ((v : ℚ) + 1 / 2) = p - 1 := by
    have hle : (2 : ℚ) ^ ((p : ℤ) - 1) ≤ v + 1 / 2 := by
      have hcast : ((2 ^ (p - 1) : ℕ) : ℚ) ≤ v := Nat.cast_le.mpr hlo
      have hexp : ((2 ^ (p - 1) : ℕ) : ℚ) = 2 ^ ((p : ℤ) - 1) := by
        rw [Nat.cast_pow, Nat.cast_ofNat, ← zpow_natCast]
        congr 1
        omega
      rw [← hexp]
      linarith
    have hlt : (v : ℚ) + 1 / 2 < 2 ^ (p : ℤ) := by
      have hcast : ((v + 1 : ℕ) : ℚ) ≤ (2 ^ p : ℕ) := Nat.cast_le.mpr hhi
      rw [zpow_natCast]
      push_cast at hcast
      linarith
    have h1 := (Int.zpow_le_iff_le_log Nat.one_lt_two hpos).mp hle
    have h2 := (Int.lt_zpow_iff_log_lt Nat.one_lt_two hpos).mp hlt
    omega
  have hspacing : spacing p ((v : ℚ) + 1 / 2) = 1 := by
    rw [spacing, hlog]
    simp
  rw [roundBits, if_neg (not_le.mpr hpos), hspacing, div_one, mul_one]
  -- What is left is a tie, which goes to the even neighbour.
  have hhalf := roundHalfEven_half (v : ℤ)
  rw [Int.cast_natCast] at hhalf
  rw [hhalf]
  have hparity : (v : ℤ) % 2 = 0 ↔ v % 2 = 0 := by omega
  simp only [hparity]
  split_ifs
  · simp
  · simp

end Significand
