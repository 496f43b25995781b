/-
  OwAnalytics.Lib.Readers

  Lists whose elements are read one by one by a function that may fail: all of them or
  none, and as many as come before the first failure.
-/

import Mathlib

namespace Readers

variable {α β : Type} {r : α → Option β} {xs : List α} {ys : List β}

/-! ## All elements -/

/-- The list is read iff every element of it is. -/
theorem isSome_mapM : (xs.mapM r).isSome = true ↔ ∀ x ∈ xs, (r x).isSome = true := by
  induction xs with
  | nil => simp
  | cons x rest ih =>
      rw [List.forall_mem_cons, ← ih, List.mapM_cons]
      cases r x with
      | none => simp
      | some y => cases rest.mapM r <;> simp

theorem forall₂_mapM (h : xs.mapM r = some ys) : List.Forall₂ (fun x y => r x = some y) xs ys := by
  induction xs generalizing ys with
  | nil =>
      rw [List.mapM_nil] at h
      cases h
      exact .nil
  | cons x xs ih =>
      rw [List.mapM_cons] at h
      obtain ⟨y, hy, h⟩ := Option.bind_eq_some_iff.mp h
      obtain ⟨ys', hys, h⟩ := Option.bind_eq_some_iff.mp h
      cases h
      exact .cons hy (ih hys)

theorem eq_filterMap (h : List.Forall₂ (fun x y => r x = some y) xs ys) : ys = xs.filterMap r := by
  induction h with
  | nil => rfl
  | cons hxy _ ih => rw [List.filterMap_cons_some hxy, ← ih]

/-- What an element is read as is among what the list is read as. -/
theorem mem_of_mapM (h : xs.mapM r = some ys) {x : α} (hx : x ∈ xs) {y : β} (hy : r x = some y) :
    y ∈ ys := by
  rw [eq_filterMap (forall₂_mapM h)]
  exact List.mem_filterMap.mpr ⟨x, hx, hy⟩

/-! ## Up to the first failure -/

/-- What has been read when the first element comes that cannot be. -/
def readUntil (r : α → Option β) : List α → List β
  | [] => []
  | x :: rest =>
      match r x with
      | some y => y :: readUntil r rest
      | none => []

theorem readUntil_cons_some {x : α} {y : β} (h : r x = some y) (rest : List α) :
    readUntil r (x :: rest) = y :: readUntil r rest := by
  rw [readUntil, h]

theorem readUntil_cons_none {x : α} (h : r x = none) (rest : List α) :
    readUntil r (x :: rest) = [] := by
  rw [readUntil, h]

/-- It is the elements before that one that have been read. -/
theorem forall₂_readUntil (r : α → Option β) (xs : List α) :
    List.Forall₂ (fun x y => r x = some y) (xs.takeWhile fun x => (r x).isSome)
      (readUntil r xs) := by
  induction xs with
  | nil => exact .nil
  | cons x rest ih =>
      cases hx : r x with
      | none =>
          rw [readUntil_cons_none hx, List.takeWhile_cons_of_neg (by simp [hx])]
          exact .nil
      | some y =>
          rw [readUntil_cons_some hx, List.takeWhile_cons_of_pos (by simp [hx])]
          exact .cons hx ih

end Readers
