/-
  OwAnalytics.Lib.Saturating

  Addition clipped at a cap, over any linearly ordered additive monoid in which
  `a ≤ a + b`.  A run of clipped additions is the clipped sum, whatever the
  order of its terms: once the cap is reached no later term can leave it.
-/

import Mathlib

namespace Saturating

variable {M : Type*} [AddCommMonoid M] [LinearOrder M] [CanonicallyOrderedAdd M]

/-- Addition clipped at `cap`. -/
def clipAdd (cap a b : M) : M := min cap (a + b)

/-- Clipping an argument first does not change a clipped addition. -/
theorem clipAdd_min (cap a b : M) : clipAdd cap (min cap a) b = min cap (a + b) := by
  unfold clipAdd
  rcases le_total cap a with h | h
  · have hsum : cap ≤ a + b := h.trans le_self_add
    rw [min_eq_left h, min_eq_left le_self_add, min_eq_left hsum]
  · rw [min_eq_right h]

/-- Two clipped additions are one. -/
theorem clipAdd_clipAdd (cap a b c : M) :
    clipAdd cap (clipAdd cap a b) c = clipAdd cap a (b + c) := by
  show clipAdd cap (min cap (a + b)) c = min cap (a + (b + c))
  rw [clipAdd_min, add_assoc]

end Saturating
