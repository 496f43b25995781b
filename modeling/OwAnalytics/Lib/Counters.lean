/-
  OwAnalytics.Lib.Counters

  Readings of unsigned counters and the differences taken of them.  A difference of two
  64-bit readings is the true one iff the later reading is not the smaller, and is
  otherwise larger than the later reading itself; over readings that never decrease the
  differences add up to the last reading less the first.
-/

import Mathlib

namespace Counters

/-! ## One difference -/

/-- An unsigned subtraction: of a reading, the one before is taken off. -/
structure Subtraction where
  minuend : UInt64
  subtrahend : UInt64
deriving DecidableEq

namespace Subtraction

/-- The difference as the machine computes it. -/
def difference (s : Subtraction) : UInt64 := s.minuend - s.subtrahend

/-- The difference is the true one, and where that would be negative it is at least not larger
    than the reading it is taken from. -/
structure Sound (s : Subtraction) : Prop where
  exact : s.subtrahend ≤ s.minuend →
    s.difference.toNat = s.minuend.toNat - s.subtrahend.toNat
  bounded : s.difference ≤ s.minuend

end Subtraction

/-- A difference that wraps is larger than the reading it is taken from. -/
theorem sub_le_iff {a b : UInt64} : a - b ≤ a ↔ b ≤ a := by
  rw [UInt64.le_iff_toNat_le, UInt64.le_iff_toNat_le, UInt64.toNat_sub]
  have ha := a.toNat_lt
  have hb := b.toNat_lt
  omega

theorem Subtraction.sound_iff {s : Subtraction} : s.Sound ↔ s.subtrahend ≤ s.minuend := by
  refine ⟨fun h => sub_le_iff.mp h.bounded, fun h => ⟨fun _ => ?_, sub_le_iff.mpr h⟩⟩
  exact UInt64.toNat_sub_of_le _ _ h

/-! ## The differences of a sequence of readings -/

/-- The differences of the readings of a list, the first one to a reading before the list. -/
def increments (before : ℕ) : List ℕ → List ℕ
  | [] => []
  | reading :: rest => (reading - before) :: increments reading rest

/-- The differences of readings that never decrease add up. -/
theorem add_sum_increments {before : ℕ} {readings : List ℕ}
    (h : List.IsChain (· ≤ ·) (before :: readings)) :
    before + (increments before readings).sum = readings.getLastD before := by
  induction readings generalizing before with
  | nil => rfl
  | cons reading rest ih =>
      obtain ⟨hle, hrest⟩ := List.isChain_cons_cons.mp h
      have hsum := ih hrest
      rw [increments, List.sum_cons, List.getLastD_cons]
      omega

end Counters
