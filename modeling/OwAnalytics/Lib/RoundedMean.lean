/-
  OwAnalytics.Lib.RoundedMean

  The integer nearest to a mean, computed in floating point as the floor of the
  rounded quotient plus one half.  Rounding the quotient cannot carry it onto the
  next half and rounding the sum cannot carry it onto the next integer, as long as
  the sum of the values takes one bit less than the significand.
-/

import OwAnalytics.Lib.Significand

namespace Significand

variable {p S n k : ℕ}

/-- The next power of two fits. -/
theorem fits_zpow (hp : 0 < p) (j : ℤ) : Fits p ((2 : ℚ) ^ j) :=
  ⟨1, j, Nat.one_lt_two_pow hp.ne', by simp⟩

/-- A mean below a half is not rounded onto it. -/
theorem roundBits_mean_lt (hp : 0 < p) (hn : 0 < n) (hS : S ≤ 2 ^ (p - 1))
    (hhi : 2 * S < n * (2 * k + 1)) : roundBits p ((S : ℚ) / n) < k + 1 / 2 := by
  have hnpos : (0 : ℚ) < n := Nat.cast_pos.mpr hn
  have hgap : (2 : ℚ) * S + 1 ≤ n * (2 * k + 1) := by exact_mod_cast hhi
  have hmean : (n : ℚ) * (S / n) = S := mul_div_cancel₀ _ hnpos.ne'
  have hbelow : (S : ℚ) / n < k + 1 / 2 := by
    rw [div_lt_iff₀ hnpos]
    linarith
  rcases Nat.eq_zero_or_pos S with rfl | hSpos
  · rw [Nat.cast_zero, zero_div, roundBits, if_pos le_rfl]
    positivity
  · have hq : (0 : ℚ) < S / n := div_pos (Nat.cast_pos.mpr hSpos) hnpos
    by_contra hle
    rw [not_lt] at hle
    -- the error would be half the spacing, which only a power of two allows
    have herr := (abs_le.mp (abs_roundBits_sub (p := p) hq)).2
    have hspacing := pow_mul_spacing p ((S : ℚ) / n)
    have hlog := zpow_log_le hq
    rw [zpow_add_one₀ two_ne_zero] at hspacing
    have hone : (1 : ℚ) ≤ n * spacing p ((S : ℚ) / n) := by
      have hscaled := mul_le_mul_of_nonneg_left (hle.trans (sub_le_iff_le_add'.mp herr)) hnpos.le
      rw [mul_add, mul_add, hmean] at hscaled
      linarith
    have hsum : ((2 ^ p : ℕ) : ℚ) = 2 * (2 ^ (p - 1) : ℕ) := by
      rw [← mul_pow_sub_one hp.ne' 2, Nat.cast_mul, Nat.cast_ofNat]
    have hScast : (S : ℚ) ≤ (2 ^ (p - 1) : ℕ) := Nat.cast_le.mpr hS
    have hpow : (S : ℚ) / n ≤ 2 ^ Int.log 2 ((S : ℚ) / n) := by
      have hle' : ((2 ^ p : ℕ) : ℚ) ≤ n * (2 ^ Int.log 2 ((S : ℚ) / n) * 2) := by
        rw [← hspacing, mul_left_comm]
        exact le_mul_of_one_le_right (Nat.cast_nonneg _) hone
      rw [div_le_iff₀ hnpos, mul_comm]
      linarith
    have hfits : Fits p ((S : ℚ) / n) := by
      rw [le_antisymm hpow hlog]
      exact fits_zpow hp _
    rw [roundBits_of_fits hp hfits] at hle
    linarith

/-- A mean below one half stays far enough from it when there are not too many values. -/
theorem roundBits_mean_add_half_lt_one (hp : 2 ≤ p) (hn : 0 < n) (hcount : n ≤ 2 ^ (p - 2))
    (hhi : 2 * S < n) : roundBits p (roundBits p ((S : ℚ) / n) + 1 / 2) < 1 := by
  have hnpos : (0 : ℚ) < n := Nat.cast_pos.mpr hn
  -- one unit of the grid on which both bounds lie
  obtain ⟨u, hu⟩ : ∃ u : ℚ, u = 2 ^ (1 - (p : ℤ)) := ⟨_, rfl⟩
  have hupos : 0 < u := hu ▸ zpow_pos two_pos _
  have hhalf : ((2 ^ (p - 2) : ℕ) : ℚ) * u = 1 / 2 := by
    rw [hu, Nat.cast_pow, Nat.cast_ofNat, ← zpow_natCast, ← zpow_add₀ two_ne_zero]
    have hexp : ((p - 2 : ℕ) : ℤ) + (1 - p) = -1 := by omega
    rw [hexp, zpow_neg_one, one_div]
  have hpow : 2 ^ (p - 1) = 2 * 2 ^ (p - 2) := by
    rw [← Nat.pow_succ']
    congr 1
    omega
  have hle2 : 1 ≤ 2 ^ (p - 2) := Nat.one_le_two_pow
  have hlt : 2 ^ (p - 1) < 2 ^ p := Nat.pow_lt_pow_right Nat.one_lt_two (by omega)
  have hfit1 : Fits p ((2 ^ (p - 2) - 1 : ℕ) * u) :=
    ⟨2 ^ (p - 2) - 1, 1 - p, by omega, by rw [hu]⟩
  have hfit2 : Fits p ((2 ^ (p - 1) - 1 : ℕ) * u) :=
    ⟨2 ^ (p - 1) - 1, 1 - p, by omega, by rw [hu]⟩
  have hmean : (S : ℚ) / n ≤ (2 ^ (p - 2) - 1 : ℕ) * u := by
    have hgap : (2 : ℚ) * S + 1 ≤ n := by exact_mod_cast hhi
    have hnu : n * u ≤ 1 / 2 := by
      rw [← hhalf]
      exact mul_le_mul_of_nonneg_right (Nat.cast_le.mpr hcount) hupos.le
    rw [Nat.cast_sub hle2, sub_mul, hhalf, div_le_iff₀ hnpos]
    push_cast
    linarith
  have hsum : roundBits p ((S : ℚ) / n) + 1 / 2 ≤ (2 ^ (p - 1) - 1 : ℕ) * u := by
    have hround := roundBits_le hfit1 hmean
    rw [Nat.cast_sub hle2, sub_mul, hhalf] at hround
    rw [hpow, Nat.cast_sub (by omega), sub_mul, Nat.cast_mul, mul_assoc, hhalf]
    push_cast at hround ⊢
    linarith
  refine (roundBits_le hfit2 hsum).trans_lt ?_
  rw [hpow, Nat.cast_sub (by omega), sub_mul, Nat.cast_mul, mul_assoc, hhalf]
  push_cast
  linarith

/-- The rounded mean plus one half stays below the next integer. -/
theorem roundBits_mean_add_half_lt (hp : 2 ≤ p) (hn : 0 < n) (hcount : n ≤ 2 ^ (p - 2))
    (hS : S ≤ 2 ^ (p - 1)) (hfit : 2 * k + 1 < 2 ^ p) (hhi : 2 * S < n * (2 * k + 1)) :
    roundBits p (roundBits p ((S : ℚ) / n) + 1 / 2) < k + 1 := by
  rcases Nat.eq_zero_or_pos k with rfl | hk
  · simpa using roundBits_mean_add_half_lt_one hp hn hcount (by simpa using hhi)
  · have hp0 : 0 < p := by omega
    have hround := roundBits_mean_lt hp0 hn hS hhi
    have hhalf : Fits p ((k : ℚ) + 1 / 2) := by
      have hcast : (k : ℚ) + 1 / 2 = ((2 * k + 1 : ℕ) : ℚ) / 2 := by
        push_cast
        ring
      rw [hcast]
      exact fits_half hfit
    rcases le_or_gt (roundBits p ((S : ℚ) / n)) k with hle | hgt
    · refine (roundBits_le hhalf (add_le_add_left hle _)).trans_lt ?_
      linarith
    · -- between `k` and `k + 1 / 2`: the sum stays one spacing below `k + 1`
      obtain ⟨q, hqdef⟩ : ∃ q : ℚ, q = S / n := ⟨_, rfl⟩
      rw [← hqdef] at hround hgt ⊢
      have hq : 0 < q := by
        by_contra hnonpos
        rw [roundBits, if_pos (not_lt.mp hnonpos)] at hgt
        exact absurd hgt (not_lt.mpr (Nat.cast_nonneg k))
      have hs := spacing_pos p q
      have hbelow : q ≤ k + 1 / 2 := by
        by_contra habove
        exact absurd (le_roundBits hp0 hhalf (not_le.mp habove).le) (not_le.mpr hround)
      have hlog := zpow_log_le hq
      have hnext : Fits p ((k + 1 : ℕ) : ℚ) := fits_natCast (by omega)
      obtain ⟨c, hc⟩ := hhalf.exists_mul_spacing (hlog.trans hbelow)
      obtain ⟨d, hd⟩ := hnext.exists_mul_spacing (x := q) (by push_cast; linarith)
      obtain ⟨m, hm⟩ := exists_roundBits_eq p q
      -- the rounded quotient is a multiple of the spacing below `k + 1 / 2`
      have hmc : m ≤ c - 1 := by
        rw [hm, hc] at hround
        have hlt := lt_of_mul_lt_mul_right hround hs.le
        have hlt : m < c := Int.cast_lt.mp hlt
        omega
      have hsum : roundBits p q + 1 / 2 ≤ (d - 1 : ℤ) * spacing p q := by
        have hmc' : (m : ℚ) * spacing p q ≤ (c - 1 : ℤ) * spacing p q :=
          mul_le_mul_of_nonneg_right (Int.cast_le.mpr hmc) hs.le
        push_cast at hd hmc' ⊢
        rw [hm]
        linarith
      -- the multiple below `k + 1` fits: `k + 1` is at most the next power of two
      have hbinade : ((k + 1 : ℕ) : ℚ) ≤ 2 ^ (Int.log 2 q + 1) := by
        have hlt : (k : ℚ) < 2 ^ (Int.log 2 q + 1) :=
          hgt.trans_le (roundBits_le (fits_zpow hp0 _) (lt_zpow_log q).le)
        have hexp : 0 < Int.log 2 q + 1 := by
          have hone : (2 : ℚ) ^ (0 : ℤ) < 2 ^ (Int.log 2 q + 1) := by
            rw [zpow_zero]
            exact lt_of_le_of_lt (Nat.one_le_cast.mpr hk) hlt
          exact (zpow_lt_zpow_iff_right₀ one_lt_two).mp hone
        obtain ⟨t, ht⟩ : ∃ t : ℕ, Int.log 2 q + 1 = t := ⟨(Int.log 2 q + 1).toNat, by omega⟩
        rw [ht, zpow_natCast] at hlt ⊢
        have hnat : k < 2 ^ t := by exact_mod_cast hlt
        exact_mod_cast hnat
      have hfit : Fits p ((d - 1 : ℤ) * spacing p q) := by
        have hd1 : 1 ≤ d := by
          have hpos : (0 : ℚ) < d * spacing p q := by
            rw [← hd]
            positivity
          exact Int.cast_pos.mp ((mul_pos_iff_of_pos_right hs).mp hpos)
        have hdle : d ≤ (2 ^ p : ℕ) := by
          rw [hd, ← pow_mul_spacing p q] at hbinade
          have hle := le_of_mul_le_mul_right hbinade hs
          rw [← Int.cast_natCast] at hle
          exact Int.cast_le.mp hle
        refine ⟨(d - 1).toNat, Int.log 2 q + 1 - p, by omega, ?_⟩
        have hcast : (((d - 1).toNat : ℕ) : ℚ) = ((d - 1 : ℤ) : ℚ) := by
          rw [← Int.cast_natCast, Int.toNat_of_nonneg (by omega)]
        rw [hcast, spacing]
      refine (roundBits_le hfit hsum).trans_lt ?_
      push_cast at hd ⊢
      linarith

/-- The floor of the rounded mean plus one half is the integer the mean is nearest to. -/
theorem floor_roundBits_mean (hp : 2 ≤ p) (hn : 0 < n) (hcount : n ≤ 2 ^ (p - 2))
    (hS : S ≤ 2 ^ (p - 1)) (hfit : 2 * k + 1 < 2 ^ p) (hlo : n * (2 * k) ≤ 2 * S + n)
    (hhi : 2 * S < n * (2 * k + 1)) :
    ⌊roundBits p (roundBits p ((S : ℚ) / n) + 1 / 2)⌋ = k := by
  have hp0 : 0 < p := by omega
  have hnpos : (0 : ℚ) < n := Nat.cast_pos.mpr hn
  -- `k - 1 / 2` is a number of the format, so rounding does not go below it
  have hlower : (k : ℚ) - 1 / 2 ≤ roundBits p ((S : ℚ) / n) := by
    rcases Nat.eq_zero_or_pos k with rfl | hk
    · have hzero := le_roundBits hp0 (fits_zero p) (x := (S : ℚ) / n) (by positivity)
      rw [Nat.cast_zero]
      linarith
    · have hcast : (k : ℚ) - 1 / 2 = ((2 * k - 1 : ℕ) : ℚ) / 2 := by
        rw [Nat.cast_sub (by omega)]
        push_cast
        ring
      rw [hcast]
      refine le_roundBits hp0 (fits_half (by omega)) ?_
      rw [← hcast, le_div_iff₀ hnpos]
      have hlo' : (n : ℚ) * (2 * k) ≤ 2 * S + n := by exact_mod_cast hlo
      linarith
  rw [Int.floor_eq_iff]
  refine ⟨?_, ?_⟩
  · have hkfit : Fits p (k : ℚ) := fits_natCast (by omega)
    rw [Int.cast_natCast]
    exact le_roundBits hp0 hkfit (by linarith)
  · exact roundBits_mean_add_half_lt hp hn hcount hS hfit hhi

end Significand
