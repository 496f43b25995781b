/-
  OwAnalytics.Lib.Distribution

  Distributing the elements of a list over slots.  An element goes into every slot
  that takes it, so that none is lost or doubled iff each is taken by one slot.
-/

import Mathlib.Data.List.Perm.Basic
import Mathlib.Data.Nat.Count
import Mathlib.Tactic.Ring

namespace OwAnalytics.Distribution

variable {α σ : Type*} (inSlot : σ → α → Bool)

/-- One element, appended to the list of each slot that takes it. -/
def place (slots : List σ) (split : List (List α)) (a : α) : List (List α) :=
  List.zipWith (fun slot l => if inSlot slot a then l ++ [a] else l) slots split

theorem place_map (slots : List σ) (f : σ → List α) (a : α) :
    place inSlot slots (slots.map f) a =
      slots.map fun slot => f slot ++ if inSlot slot a then [a] else [] := by
  unfold place
  rw [List.zipWith_map_right, List.zipWith_self]
  refine List.map_congr_left fun slot _ => ?_
  cases inSlot slot a <;> simp

theorem foldl_place (slots : List σ) (l : List α) (f : σ → List α) :
    l.foldl (place inSlot slots) (slots.map f) =
      slots.map fun slot => f slot ++ l.filter (inSlot slot) := by
  induction l generalizing f with
  | nil => simp
  | cons a l ih =>
      rw [List.foldl_cons, place_map, ih]
      refine List.map_congr_left fun slot _ => ?_
      cases h : inSlot slot a <;> simp [h]

theorem count_flatten_filter [DecidableEq α] (slots : List σ) (l : List α) (a : α) :
    (slots.map fun slot => l.filter (inSlot slot)).flatten.count a =
      slots.countP (inSlot · a) * l.count a := by
  induction slots with
  | nil => simp
  | cons slot slots ih =>
      rw [List.map_cons, List.flatten_cons, List.count_append, ih, List.countP_cons]
      cases h : inSlot slot a with
      | true =>
          rw [List.count_filter h, if_pos rfl]
          ring
      | false =>
          -- a slot that does not take the element has none of its copies
          have hnone : a ∉ l.filter (inSlot slot) := fun ha => by
            simp [h] at ha
          rw [List.count_eq_zero_of_not_mem hnone]
          simp

/-- Nothing is lost and nothing doubled iff each element is taken by exactly one slot. -/
theorem flatten_perm_iff (slots : List σ) (l : List α) :
    (slots.map fun slot => l.filter (inSlot slot)).flatten.Perm l ↔
      ∀ a ∈ l, slots.countP (inSlot · a) = 1 := by
  classical
  rw [List.perm_iff_count]
  refine ⟨?_, ?_⟩
  · intro h a ha
    have hcount := h a
    rw [count_flatten_filter] at hcount
    exact Nat.eq_of_mul_eq_mul_right (List.count_pos_iff.mpr ha) (hcount.trans (Nat.one_mul _).symm)
  · intro h a
    rw [count_flatten_filter]
    by_cases ha : a ∈ l
    · rw [h a ha, Nat.one_mul]
    · rw [List.count_eq_zero_of_not_mem ha, Nat.mul_zero]

/-- Counting one among the first numbers is finding one. -/
theorem countP_range_eq_one_iff (p : ℕ → Bool) (n : ℕ) :
    (List.range n).countP p = 1 ↔ ∃! k, k < n ∧ p k = true := by
  have hcard : (List.range n).countP p = ((Finset.range n).filter fun k => p k = true).card := by
    rw [← Nat.count_eq_card_filter_range, Nat.count]
    simp only [Bool.decide_eq_true]
  rw [hcard, Finset.card_eq_one, Finset.singleton_iff_unique_mem]
  simp only [Finset.mem_filter, Finset.mem_range]

end OwAnalytics.Distribution
