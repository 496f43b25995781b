/-
  OwAnalytics.Mcp.Memory.Mean

  The mean free memory.  With a significand of 64 bits the sum is exact up to
  2^64, and up to 2^63 the quotient plus one half is rounded to the integer the
  exact mean is nearest to.  From 2^63 on the half added to an odd value does not
  fit and is rounded up, so that one value alone can have a greater mean.
-/

import OwAnalytics.Lib.RoundedMean
import OwAnalytics.Mcp.Memory.Samples

namespace OwAnalytics.Mcp.Memory

open AnalyticsObjects Significand

/-- The exact sum of the values. -/
def freeSum (l : List Sample) : ℕ := (l.map fun s => s.free.toNat).sum

theorem fits_toNat (v : UInt64) : Fits 64 (v.toNat : ℚ) := fits_natCast v.toNat_lt

/-- A sum below 2^64 is not rounded. -/
theorem roundedSum_eq {l : List Sample} (h : freeSum l < 2 ^ 64) :
    roundedSum 64 l = freeSum l := by
  have hfold : ∀ acc : ℕ, acc + freeSum l < 2 ^ 64 →
      l.foldl (fun (sum : ℚ) s => roundBits 64 (sum + roundBits 64 s.free.toNat)) acc
        = ((acc + freeSum l : ℕ) : ℚ) := by
    clear h
    induction l with
    | nil => exact fun _ _ => rfl
    | cons s l ih =>
        intro acc hacc
        have hcons : freeSum (s :: l) = s.free.toNat + freeSum l := rfl
        rw [hcons, ← Nat.add_assoc] at hacc ⊢
        -- a partial sum that fits in 64 bits is not rounded
        have hfit : Fits 64 ((acc : ℚ) + s.free.toNat) := by
          rw [← Nat.cast_add]
          exact fits_natCast (by omega)
        rw [List.foldl_cons, roundBits_of_fits (by norm_num) (fits_toNat s.free),
          roundBits_of_fits (by norm_num) hfit, ← Nat.cast_add]
        exact ih _ hacc
  have hzero := hfold 0 (by omega)
  rwa [Nat.cast_zero, Nat.zero_add] at hzero

/-- The integer a mean is nearest to, halves upwards. -/
def nearestMean (S n : ℕ) : ℕ := (2 * S + n) / (2 * n)

theorem nearestMean_bounds {S n : ℕ} (hn : 0 < n) :
    n * (2 * nearestMean S n) ≤ 2 * S + n ∧ 2 * S < n * (2 * nearestMean S n + 1) := by
  have hlo := Nat.mul_div_le (2 * S + n) (2 * n)
  have hhi := Nat.lt_mul_div_succ (2 * S + n) (b := 2 * n) (by omega)
  unfold nearestMean
  constructor <;> nlinarith

theorem floor_mean {S n : ℕ} (hn : 0 < n) :
    ⌊(S : ℚ) / n + 1 / 2⌋ = nearestMean S n := by
  have hnpos : (0 : ℚ) < n := Nat.cast_pos.mpr hn
  obtain ⟨hlo, hhi⟩ := nearestMean_bounds (S := S) hn
  have hlo' : (n : ℚ) * (2 * nearestMean S n) ≤ 2 * S + n := by exact_mod_cast hlo
  have hhi' : (2 : ℚ) * S < n * (2 * nearestMean S n + 1) := by exact_mod_cast hhi
  rw [Int.floor_eq_iff, Int.cast_natCast]
  refine ⟨?_, ?_⟩
  · have hle : (nearestMean S n : ℚ) - 1 / 2 ≤ S / n := by
      rw [le_div_iff₀ hnpos]
      linarith
    linarith
  · have hlt : (S : ℚ) / n < nearestMean S n + 1 / 2 := by
      rw [div_lt_iff₀ hnpos]
      linarith
    linarith

/-- Up to 2^63 the floating-point mean is the exact one. -/
theorem floor_roundedMean {S n : ℕ} (hn : 0 < n) (hcount : n ≤ 2 ^ 62) (hS : S ≤ 2 ^ 63) :
    ⌊roundBits 64 (roundBits 64 ((S : ℚ) / n) + 1 / 2)⌋ = nearestMean S n := by
  obtain ⟨hlo, hhi⟩ := nearestMean_bounds (S := S) hn
  by_cases hone : n = 1 ∧ S = 2 ^ 63
  · -- the half added to 2^63 is a tie, and 2^63 is even
    obtain ⟨rfl, rfl⟩ := hone
    have hfit : Fits 64 (((2 ^ 63 : ℕ) : ℚ)) := fits_natCast (by norm_num)
    have htie := roundBits_add_half (p := 64) (by norm_num) (v := 2 ^ 63) le_rfl (by norm_num)
    rw [Nat.cast_one, div_one, roundBits_of_fits (by norm_num) hfit, htie, if_pos (by norm_num)]
    rfl
  · refine floor_roundBits_mean (by norm_num) hn hcount hS ?_ hlo hhi
    rcases Nat.lt_or_ge n 2 with hlt | hge
    · obtain rfl : n = 1 := by omega
      omega
    · have hdouble : 2 * (2 * nearestMean S n) ≤ 2 * S + 2 := by
        nlinarith
      omega

/-- The mean written into the summary, up to 2^63. -/
theorem avgMemfree_eq {P : Platform} {l : List Sample} {r : Registers}
    (h : Describes P 64 l r) (hne : l ≠ []) (hcount : l.length ≤ 2 ^ 62)
    (hsum : freeSum l ≤ 2 ^ 63) :
    avgMemfree 64 r = UInt64.ofNat (nearestMean (freeSum l) l.length) := by
  have hn : 0 < l.length := List.length_pos_iff.mpr hne
  have haverage : average 64 r = nearestMean (freeSum l) l.length := by
    have hlen : Fits 64 (l.length : ℚ) := fits_natCast (by omega)
    rw [average, h.sum, h.count, roundedSum_eq (by omega), roundBits_of_fits (by norm_num) hlen]
    exact floor_roundedMean hn hcount hsum
  have hmax : Fits 64 ((2 : ℚ) ^ 64 - 1) := by
    have hcast : (2 : ℚ) ^ 64 - 1 = ((2 ^ 64 - 1 : ℕ) : ℚ) := by norm_num
    rw [hcast]
    exact fits_natCast (by norm_num)
  have hle : nearestMean (freeSum l) l.length ≤ 2 ^ 63 := by
    have hlo := (nearestMean_bounds (S := freeSum l) hn).1
    by_contra hgt
    nlinarith
  -- a mean below `2 ^ 63` is not clamped
  have hclamp : ¬ (average 64 r : ℚ) > roundBits 64 (2 ^ 64 - 1) := by
    have hcast : (nearestMean (freeSum l) l.length : ℚ) ≤ (2 ^ 63 : ℕ) := Nat.cast_le.mpr hle
    rw [roundBits_of_fits (by norm_num) hmax, haverage, Int.cast_natCast, gt_iff_lt, not_lt]
    refine hcast.trans ?_
    norm_num
  rw [avgMemfree, if_neg hclamp, haverage, Int.toNat_natCast]

end OwAnalytics.Mcp.Memory
