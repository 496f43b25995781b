/-
  OwAnalytics.Lib.Binary64

  Sums and quotients in double precision: a significand of 53 bits and an exponent of 11,
  rounded to nearest with ties to even.  Small numbers are subnormal, a result past the
  largest number is infinite, and the two zeros are one.  Rounding is monotone and keeps
  the numbers of the format; what a sum loses to it is its drift.
-/

import OwAnalytics.Lib.Significand

open Significand (le_roundHalfEven roundHalfEven roundHalfEven_le)

/-- A number of double precision, or none. -/
inductive Binary64
  | finite (x : ℚ)
  | infinite (negative : Bool)
  | nan
deriving DecidableEq

namespace Binary64

/-! ## Rounding -/

/-- The exponent of the binade of `x`; a number below the normal ones shares the lowest. -/
def exponent (x : ℚ) : ℤ := if x = 0 then -1022 else max (Int.log 2 |x|) (-1022)

/-- The distance of the numbers in the binade of `x`. -/
def ulp (x : ℚ) : ℚ := 2 ^ (exponent x - 52)

/-- The nearest number, with no bound on the exponent from above. -/
def nearest (x : ℚ) : ℚ := roundHalfEven (x / ulp x) * ulp x

/-- The finite numbers of double precision. -/
def Representable (x : ℚ) : Prop := |x| < 2 ^ 1024 ∧ nearest x = x

/-- A finite number of double precision. -/
structure Finite where
  val : ℚ
  fits : Representable val

/-- The result of an operation. -/
def round (x : ℚ) : Binary64 :=
  if |nearest x| < 2 ^ 1024 then finite (nearest x) else infinite (x < 0)

theorem le_exponent (x : ℚ) : -1022 ≤ exponent x := by
  unfold exponent
  split_ifs
  · exact le_rfl
  · exact le_max_right _ _

theorem abs_lt_zpow_exponent (x : ℚ) : |x| < 2 ^ (exponent x + 1) := by
  unfold exponent
  split_ifs with hx
  · rw [hx, abs_zero]
    exact zpow_pos two_pos _
  · refine (Int.lt_zpow_succ_log_self Nat.one_lt_two |x|).trans_le ?_
    exact zpow_le_zpow_right₀ one_le_two (Int.add_le_add_right (le_max_left _ _) 1)

/-- A normal number reaches the power of two of its exponent. -/
theorem zpow_exponent_le {x : ℚ} (h : -1022 < exponent x) : (2 : ℚ) ^ exponent x ≤ |x| := by
  unfold exponent at h ⊢
  split_ifs at h ⊢ with hx
  · exact absurd h (lt_irrefl _)
  · rw [lt_max_iff, or_iff_left (lt_irrefl _)] at h
    rw [max_eq_left h.le]
    exact Int.zpow_log_le_self Nat.one_lt_two (abs_pos.mpr hx)

theorem exponent_lt {x : ℚ} {k : ℤ} (hk : -1022 < k) (h : |x| < 2 ^ k) : exponent x < k := by
  by_contra hle
  rw [not_lt] at hle
  have hpow := zpow_exponent_le (hk.trans_le hle)
  exact absurd (((zpow_le_zpow_right₀ one_le_two hle).trans hpow).trans_lt h) (lt_irrefl _)

theorem ulp_pos (x : ℚ) : 0 < ulp x := zpow_pos two_pos _

/-- A power of two that is not below the distance is a multiple of it. -/
theorem exists_mul_ulp {x : ℚ} {j : ℤ} (h : exponent x - 52 ≤ j) :
    ∃ n : ℤ, (2 : ℚ) ^ j = n * ulp x := by
  obtain ⟨d, hd⟩ : ∃ d : ℕ, j = d + (exponent x - 52) := ⟨(j - (exponent x - 52)).toNat, by omega⟩
  refine ⟨2 ^ d, ?_⟩
  rw [ulp, hd, zpow_add₀ two_ne_zero, zpow_natCast]
  push_cast
  rfl

/-- Rounding does not cross a multiple of the distance. -/
theorem nearest_le {x : ℚ} {n : ℤ} (h : x ≤ n * ulp x) : nearest x ≤ n * ulp x := by
  refine mul_le_mul_of_nonneg_right (Int.cast_le.mpr (roundHalfEven_le ?_)) (ulp_pos x).le
  exact (div_le_iff₀ (ulp_pos x)).mpr h

theorem le_nearest {x : ℚ} {n : ℤ} (h : n * ulp x ≤ x) : n * ulp x ≤ nearest x := by
  refine mul_le_mul_of_nonneg_right (Int.cast_le.mpr (le_roundHalfEven ?_)) (ulp_pos x).le
  exact (le_div_iff₀ (ulp_pos x)).mpr h

theorem nearest_of_mul_ulp {x : ℚ} {n : ℤ} (h : x = n * ulp x) : nearest x = x := by
  have hle := nearest_le h.le
  have hge := le_nearest h.ge
  rw [← h] at hle hge
  exact le_antisymm hle hge

/-- Rounding does not cross a power of two above the subnormal numbers. -/
theorem nearest_mem_Icc {x : ℚ} {k : ℤ} (h : exponent x < k) :
    nearest x ∈ Set.Icc (-2 ^ k : ℚ) (2 ^ k) := by
  obtain ⟨n, hn⟩ := exists_mul_ulp (x := x) (j := k) (by omega)
  have habs := (abs_lt_zpow_exponent x).trans_le
    (zpow_le_zpow_right₀ one_le_two (Int.add_one_le_of_lt h))
  obtain ⟨hlo, hhi⟩ := abs_lt.mp habs
  refine ⟨?_, ?_⟩
  · have hneg : -(2 : ℚ) ^ k = ((-n : ℤ) : ℚ) * ulp x := by rw [hn, Int.cast_neg, neg_mul]
    rw [hneg] at hlo ⊢
    exact le_nearest hlo.le
  · rw [hn] at hhi ⊢
    exact nearest_le hhi.le

@[simp]
theorem nearest_zero : nearest 0 = 0 :=
  nearest_of_mul_ulp (n := 0) (by rw [Int.cast_zero, zero_mul])

/-- What is rounded is kept by rounding it again. -/
theorem nearest_nearest (x : ℚ) : nearest (nearest x) = nearest x := by
  obtain ⟨n, hn⟩ : ∃ n : ℤ, nearest x = n * ulp x := ⟨_, rfl⟩
  rcases le_or_gt (exponent (nearest x)) (exponent x) with hle | hlt
  · -- The distance there is no larger, so that the number is still a multiple of it.
    obtain ⟨m, hm⟩ := exists_mul_ulp (x := nearest x) (j := exponent x - 52) (by omega)
    refine nearest_of_mul_ulp (n := n * m) ?_
    rw [Int.cast_mul, mul_assoc, ← hm]
    exact hn
  · -- Only a power of two is rounded up into the next binade.
    have hpow := zpow_exponent_le ((le_exponent x).trans_lt hlt)
    have hbound := abs_le.mpr (nearest_mem_Icc hlt)
    have habs : |nearest x| = 2 ^ exponent (nearest x) := le_antisymm hbound hpow
    obtain ⟨m, hm⟩ := exists_mul_ulp (x := nearest x) (j := exponent (nearest x)) (by omega)
    rcases abs_eq_abs.mp (habs.trans (abs_of_pos (zpow_pos two_pos _)).symm) with heq | heq
    · exact nearest_of_mul_ulp (n := m) (heq.trans hm)
    · exact nearest_of_mul_ulp (n := -m) (by rw [Int.cast_neg, neg_mul, ← hm]; exact heq)

theorem roundHalfEven_mono {x y : ℚ} (h : x ≤ y) : roundHalfEven x ≤ roundHalfEven y := by
  rcases (Int.floor_mono h).lt_or_eq with hlt | heq
  · -- an integer lies between the two
    have hx : roundHalfEven x ≤ ⌊x⌋ + 1 :=
      roundHalfEven_le (by exact_mod_cast (Int.lt_floor_add_one x).le)
    exact (hx.trans hlt).trans (le_roundHalfEven (Int.floor_le y))
  · have hfract : Int.fract x ≤ Int.fract y := by
      rw [Int.fract, Int.fract, heq]
      exact sub_le_sub_right h _
    unfold roundHalfEven
    rw [heq]
    split_ifs <;> first | omega | linarith

/-- Rounding keeps the order. -/
theorem nearest_mono : Monotone nearest := by
  intro x y h
  rcases lt_trichotomy (exponent x) (exponent y) with hlt | heq | hgt
  · -- `y` is above the power of two that `x` does not reach.
    have hpow := zpow_exponent_le ((le_exponent x).trans_lt hlt)
    obtain ⟨n, hn⟩ := exists_mul_ulp (x := y) (j := exponent y) (by omega)
    have hx := (abs_lt_zpow_exponent x).trans_le
      (zpow_le_zpow_right₀ one_le_two (Int.add_one_le_of_lt hlt))
    have hy : (2 : ℚ) ^ exponent y ≤ y := by
      rcases le_abs.mp hpow with hy | hy
      · exact hy
      · have hneg := (abs_lt.mp hx).1
        linarith
    refine (nearest_mem_Icc hlt).2.trans ?_
    rw [hn] at hy ⊢
    exact le_nearest hy
  · have hulp : ulp x = ulp y := by rw [ulp, ulp, heq]
    rw [nearest, nearest, hulp]
    refine mul_le_mul_of_nonneg_right (Int.cast_le.mpr (roundHalfEven_mono ?_)) (ulp_pos y).le
    exact div_le_div_of_nonneg_right h (ulp_pos y).le
  · -- `x` is below the power of two that `-y` does not reach.
    have hpow := zpow_exponent_le ((le_exponent y).trans_lt hgt)
    obtain ⟨n, hn⟩ := exists_mul_ulp (x := x) (j := exponent x) (by omega)
    have hy := (abs_lt_zpow_exponent y).trans_le
      (zpow_le_zpow_right₀ one_le_two (Int.add_one_le_of_lt hgt))
    have hx : x ≤ -2 ^ exponent x := by
      rcases le_abs.mp hpow with hx | hx
      · have hpos := (abs_lt.mp hy).2
        linarith
      · linarith
    refine le_trans ?_ (nearest_mem_Icc hgt).1
    have hneg : -(2 : ℚ) ^ exponent x = ((-n : ℤ) : ℚ) * ulp x := by
      rw [hn, Int.cast_neg, neg_mul]
    rw [hneg] at hx ⊢
    exact nearest_le hx

/-- An integer of 53 bits is kept. -/
theorem nearest_natCast {n : ℕ} (h : n < 2 ^ 53) : nearest n = n := by
  have hexp : exponent (n : ℚ) < 53 := by
    refine exponent_lt (by omega) ?_
    rw [abs_of_nonneg (Nat.cast_nonneg n)]
    exact_mod_cast h
  obtain ⟨m, hm⟩ := exists_mul_ulp (x := n) (j := 0) (by omega)
  refine nearest_of_mul_ulp (n := n * m) ?_
  rw [Int.cast_mul, mul_assoc, ← hm, zpow_zero, mul_one, Int.cast_natCast]

theorem round_eq_finite_iff {x y : ℚ} : round x = finite y ↔ Representable y ∧ nearest x = y := by
  unfold round
  split_ifs with hlt
  · rw [finite.injEq, iff_and_self]
    rintro rfl
    exact ⟨hlt, nearest_nearest x⟩
  · refine iff_of_false (by simp) ?_
    rintro ⟨hfits, rfl⟩
    exact hlt hfits.1

theorem round_of_representable {x : ℚ} (h : Representable x) : round x = finite x :=
  round_eq_finite_iff.mpr ⟨h, h.2⟩

theorem representable_zero : Representable 0 := ⟨by rw [abs_zero]; positivity, nearest_zero⟩

/-- A number of at most 64 bits becomes a finite one. -/
theorem round_of_abs_lt {x : ℚ} (h : |x| < 2 ^ 64) : round x = finite (nearest x) := by
  have hexp : exponent x < 64 := exponent_lt (by omega) (by exact_mod_cast h)
  have hle := abs_le.mpr (nearest_mem_Icc hexp)
  refine if_pos (hle.trans_lt ?_)
  rw [← zpow_natCast]
  exact zpow_lt_zpow_right₀ one_lt_two (by norm_num)

/-! ## Operations -/

/-- The sum, rounded; infinities and nan as in the standard. -/
def add : Binary64 → Binary64 → Binary64
  | finite a, finite b => round (a + b)
  | finite _, infinite s => infinite s
  | infinite s, finite _ => infinite s
  | infinite s, infinite t => if s = t then infinite s else nan
  | nan, _ => nan
  | _, nan => nan

/-- A quotient; the zero is positive. -/
def div : Binary64 → Binary64 → Binary64
  | finite a, finite b =>
    if b ≠ 0 then round (a / b) else if a ≠ 0 then infinite (a < 0) else nan
  | finite _, infinite _ => finite 0
  | infinite s, finite b => infinite (s != decide (b < 0))
  | infinite _, infinite _ => nan
  | nan, _ => nan
  | _, nan => nan

/-- The comparison of two numbers, false for nan. -/
def lt : Binary64 → Binary64 → Bool
  | finite a, finite b => a < b
  | finite _, infinite s => !s
  | infinite s, finite _ => s
  | infinite s, infinite t => s && !t
  | nan, _ => false
  | _, nan => false

/-- `std::min`. -/
def min (a b : Binary64) : Binary64 := if lt b a then b else a

/-- `std::max`. -/
def max (a b : Binary64) : Binary64 := if lt a b then b else a

instance instZero : Zero Binary64 := ⟨finite 0⟩
instance instAdd : Add Binary64 := ⟨add⟩
instance instDiv : Div Binary64 := ⟨div⟩

instance instZeroFinite : Zero Finite := ⟨⟨0, representable_zero⟩⟩

/-- A finite number as a number. -/
def Finite.toBinary64 (x : Finite) : Binary64 := finite x.val

theorem finite_add (a b : ℚ) : finite a + finite b = round (a + b) := rfl

theorem finite_div (a : ℚ) {b : ℚ} (hb : b ≠ 0) : finite a / finite b = round (a / b) := if_pos hb

theorem min_finite (a b : ℚ) : min (finite a) (finite b) = finite (Min.min a b) := by
  rw [min, lt, min_comm, min_def_lt]
  simp only [decide_eq_true_eq]
  split_ifs <;> rfl

theorem max_finite (a b : ℚ) : max (finite a) (finite b) = finite (Max.max a b) := by
  rw [max, lt, max_def_lt]
  simp only [decide_eq_true_eq]
  split_ifs <;> rfl

/-! ## Sums -/

/-- The sum of some numbers from `s` on, with each made a double before it is added. -/
def sumFrom (s : Binary64) (values : List ℚ) : Binary64 :=
  values.foldl (fun s v => s + round v) s

/-- What the conversions and additions of `sumFrom` lose to rounding, if no sum is infinite. -/
def drift (s : ℚ) : List ℚ → Option ℚ
  | [] => some 0
  | v :: rest =>
    let t := nearest (s + nearest v)
    if |t| < 2 ^ 1024 then (drift t rest).map (t - (s + v) + ·) else none

/-- A sum that is infinite stays so. -/
theorem sumFrom_infinite (b : Bool) {values : List ℚ} (h : ∀ v ∈ values, |nearest v| < 2 ^ 1024) :
    sumFrom (infinite b) values = infinite b := by
  induction values with
  | nil => rfl
  | cons v rest ih =>
      have hv : round v = finite (nearest v) := if_pos (h v List.mem_cons_self)
      rw [sumFrom, List.foldl_cons, hv]
      exact ih fun w hw => h w (List.mem_cons_of_mem _ hw)

/-- The sum is the exact one and the drift, or infinite. -/
theorem sumFrom_finite (s : ℚ) {values : List ℚ} (h : ∀ v ∈ values, |nearest v| < 2 ^ 1024) :
    (∃ e, drift s values = some e ∧ sumFrom (finite s) values = finite (s + values.sum + e)) ∨
      (drift s values = none ∧ ∃ b, sumFrom (finite s) values = infinite b) := by
  induction values generalizing s with
  | nil => exact .inl ⟨0, rfl, by rw [List.sum_nil, add_zero, add_zero]; rfl⟩
  | cons v rest ih =>
      have hrest : ∀ w ∈ rest, |nearest w| < 2 ^ 1024 := fun w hw => h w (List.mem_cons_of_mem _ hw)
      have hv : round v = finite (nearest v) := if_pos (h v List.mem_cons_self)
      rw [drift, sumFrom, List.foldl_cons, hv, finite_add, round, List.sum_cons]
      by_cases hlt : |nearest (s + nearest v)| < 2 ^ 1024
      · rw [if_pos hlt, if_pos hlt]
        rcases ih (nearest (s + nearest v)) hrest with ⟨e, hdrift, hsum⟩ | ⟨hdrift, hsum⟩
        · -- The error of this addition joins those of the rest.
          refine .inl ⟨nearest (s + nearest v) - (s + v) + e, by rw [hdrift]; rfl, hsum.trans ?_⟩
          congr 1
          ring
        · exact .inr ⟨by rw [hdrift]; rfl, hsum⟩
      · rw [if_neg hlt, if_neg hlt]
        exact .inr ⟨rfl, _, sumFrom_infinite _ hrest⟩

/-- A quotient of the sum is a number iff no sum is infinite and the quotient with the drift
    rounds to it. -/
theorem sumFrom_div_iff {values : List ℚ} (h : ∀ v ∈ values, |nearest v| < 2 ^ 1024) {c m : ℚ}
    (hc : c ≠ 0) :
    sumFrom 0 values / finite c = finite m ↔
      ∃ e, drift 0 values = some e ∧ round ((values.sum + e) / c) = finite m := by
  rcases sumFrom_finite 0 h with ⟨e, hdrift, hsum⟩ | ⟨hdrift, b, hsum⟩
  · have hquot : sumFrom 0 values / finite c = round ((values.sum + e) / c) := by
      rw [← finite_div _ hc, ← zero_add values.sum, ← hsum]
      rfl
    rw [hquot, hdrift]
    simp
  · have hquot : sumFrom 0 values / finite c = infinite (b != decide (c < 0)) :=
      congrArg (· / finite c) hsum
    rw [hquot, hdrift]
    simp

/-- Numbers of the format whose sums are, too, lose nothing. -/
theorem drift_eq_zero {s : ℚ} {values : List ℚ} (hvalues : ∀ v ∈ values, Representable v)
    (hsums : ∀ l, l <+: values → Representable (s + l.sum)) : drift s values = some 0 := by
  induction values generalizing s with
  | nil => rfl
  | cons v rest ih =>
      have hv := (hvalues v List.mem_cons_self).2
      have hsum : Representable (s + v) := by
        have hone := hsums [v] (List.prefix_append [v] rest)
        rwa [List.sum_singleton] at hone
      have hrest : drift (s + v) rest = some 0 := by
        refine ih (fun w hw => hvalues w (List.mem_cons_of_mem _ hw)) fun l hl => ?_
        have hcons := hsums (v :: l) ((List.prefix_cons_inj v).mpr hl)
        rwa [List.sum_cons, ← add_assoc] at hcons
      rw [drift, hv, hsum.2, if_pos hsum.1, hrest, Option.map_some, sub_self, zero_add]

end Binary64
