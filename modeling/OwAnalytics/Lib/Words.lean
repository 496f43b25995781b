/-
  OwAnalytics.Lib.Words

  The smaller and the larger of two machine words, as `std::min` and `std::max`
  compute them, and the numbers they stand for.
-/

import Mathlib

namespace Words

theorem min_comm (a b : UInt64) : min a b = min b a := by
  apply UInt64.toNat_inj.mp
  rw [UInt64.toNat_min, UInt64.toNat_min, Nat.min_comm]

theorem max_comm (a b : UInt64) : max a b = max b a := by
  apply UInt64.toNat_inj.mp
  rw [UInt64.toNat_max, UInt64.toNat_max, Nat.max_comm]

theorem min_right_comm (a b c : UInt64) : min (min a b) c = min (min a c) b := by
  apply UInt64.toNat_inj.mp
  rw [UInt64.toNat_min, UInt64.toNat_min, UInt64.toNat_min, UInt64.toNat_min, Nat.min_right_comm]

theorem max_right_comm (a b c : UInt64) : max (max a b) c = max (max a c) b := by
  apply UInt64.toNat_inj.mp
  rw [UInt64.toNat_max, UInt64.toNat_max, UInt64.toNat_max, UInt64.toNat_max, Nat.max_right_comm]

instance lawfulOrderMax : Std.LawfulOrderMax UInt64 :=
  .of_max_le_iff
    (fun a b c => by
      rw [UInt64.le_iff_toNat_le, UInt64.le_iff_toNat_le, UInt64.le_iff_toNat_le, UInt64.toNat_max]
      exact Nat.max_le)
    (fun a b => by
      show (if a ≤ b then b else a) = a ∨ (if a ≤ b then b else a) = b
      split
      · exact .inr rfl
      · exact .inl rfl)

end Words
