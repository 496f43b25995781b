/-
  OwAnalytics.Lib.SortedMerge

  The merging set operations on strictly ascending lists, as a library of sorted
  ranges computes them: both lists are walked together and the smaller head
  decides.  On strictly ascending inputs they are the operations on the sets of
  members, and their outputs are strictly ascending again.
-/

import Mathlib

namespace SortedMerge

variable {α : Type*} [LinearOrder α]

/-- The list is strictly ascending. -/
abbrev StrictSorted (l : List α) : Prop := l.Pairwise (· < ·)

/-! ## Merging -/

/-- Walks the second list against the head `x` of the first one, whose tail is `xs` and is
    merged by `rest` once `x` is used up. -/
def symmetricDifferenceStep (x : α) (xs : List α) (rest : List α → List α) : List α → List α
  | [] => x :: xs
  | y :: ys =>
    if x < y then x :: rest (y :: ys)
    else if y < x then y :: symmetricDifferenceStep x xs rest ys
    else rest ys

/-- The members of exactly one of the lists. -/
def symmetricDifference : List α → List α → List α
  | [] => id
  | x :: xs => symmetricDifferenceStep x xs (symmetricDifference xs)

/-- Walks the second list against the head `x` of the first one. -/
def intersectionStep (x : α) (rest : List α → List α) : List α → List α
  | [] => []
  | y :: ys =>
    if x < y then rest (y :: ys)
    else if y < x then intersectionStep x rest ys
    else x :: rest ys

/-- The members of both lists. -/
def intersection : List α → List α → List α
  | [] => fun _ => []
  | x :: xs => intersectionStep x (intersection xs)

/-! ## What the merges contain -/

theorem not_mem_of_lt_head {x : α} {l : List α} (hl : StrictSorted l)
    (hx : ∀ y ∈ l.head?, x < y) : x ∉ l := by
  cases l with
  | nil => exact List.not_mem_nil
  | cons y l =>
      have hxy : x < y := hx y rfl
      intro hmem
      rcases List.mem_cons.mp hmem with rfl | hmem
      · exact lt_irrefl _ hxy
      · exact lt_asymm hxy ((List.pairwise_cons.mp hl).1 x hmem)

theorem mem_symmetricDifference {xs ys : List α} (hx : StrictSorted xs) (hy : StrictSorted ys)
    (a : α) : a ∈ symmetricDifference xs ys ↔ (a ∈ xs ∧ a ∉ ys) ∨ (a ∉ xs ∧ a ∈ ys) := by
  induction xs generalizing ys with
  | nil => simp [symmetricDifference]
  | cons x xs ihx =>
      obtain ⟨hxlt, hxs⟩ := List.pairwise_cons.mp hx
      have hxnot : x ∉ xs := fun h => lt_irrefl _ (hxlt x h)
      rw [symmetricDifference]
      induction ys with
      | nil => simp [symmetricDifferenceStep]
      | cons y ys ihy =>
          obtain ⟨hylt, hys⟩ := List.pairwise_cons.mp hy
          have hynot : y ∉ ys := fun h => lt_irrefl _ (hylt y h)
          rw [symmetricDifferenceStep]
          -- The smaller head is in no other list; equal heads cancel.
          rcases lt_trichotomy x y with hlt | rfl | hgt
          · have hxy : x ∉ y :: ys := not_mem_of_lt_head hy fun z hz => by
              obtain rfl := Option.some.inj hz
              exact hlt
            rw [if_pos hlt, List.mem_cons, ihx hxs hy, List.mem_cons (b := x)]
            by_cases hax : a = x
            · subst hax
              simp [hxy]
            · simp [hax]
          · rw [if_neg (lt_irrefl x), if_neg (lt_irrefl x), ihx hxs hys]
            by_cases hax : a = x
            · subst hax
              simp [hxnot, hynot]
            · simp [hax]
          · have hyx : y ∉ x :: xs := not_mem_of_lt_head hx fun z hz => by
              obtain rfl := Option.some.inj hz
              exact hgt
            have hrest : a ∈ symmetricDifferenceStep x xs (symmetricDifference xs) ys ↔
                (a ∈ x :: xs ∧ a ∉ ys) ∨ (a ∉ x :: xs ∧ a ∈ ys) := ihy hys
            rw [if_neg hgt.not_gt, if_pos hgt, List.mem_cons, hrest, List.mem_cons (b := y)]
            by_cases hay : a = y
            · subst hay
              simp [hyx]
            · simp [hay]

theorem mem_intersection {xs ys : List α} (hx : StrictSorted xs) (hy : StrictSorted ys) (a : α) :
    a ∈ intersection xs ys ↔ a ∈ xs ∧ a ∈ ys := by
  induction xs generalizing ys with
  | nil => simp [intersection]
  | cons x xs ihx =>
      obtain ⟨hxlt, hxs⟩ := List.pairwise_cons.mp hx
      have hxnot : x ∉ xs := fun h => lt_irrefl _ (hxlt x h)
      rw [intersection]
      induction ys with
      | nil => simp [intersectionStep]
      | cons y ys ihy =>
          obtain ⟨hylt, hys⟩ := List.pairwise_cons.mp hy
          rw [intersectionStep]
          -- The smaller head is in no other list, so only equal heads are kept.
          rcases lt_trichotomy x y with hlt | rfl | hgt
          · have hxy : x ∉ y :: ys := not_mem_of_lt_head hy fun z hz => by
              obtain rfl := Option.some.inj hz
              exact hlt
            rw [if_pos hlt, ihx hxs hy, List.mem_cons (b := x)]
            by_cases hax : a = x
            · subst hax
              simp [hxy]
            · simp [hax]
          · rw [if_neg (lt_irrefl x), if_neg (lt_irrefl x), List.mem_cons, ihx hxs hys]
            by_cases hax : a = x
            · subst hax
              simp
            · simp [hax]
          · have hyx : y ∉ x :: xs := not_mem_of_lt_head hx fun z hz => by
              obtain rfl := Option.some.inj hz
              exact hgt
            have hrest : a ∈ intersectionStep x (intersection xs) ys ↔ a ∈ x :: xs ∧ a ∈ ys :=
              ihy hys
            rw [if_neg hgt.not_gt, if_pos hgt, hrest, List.mem_cons (b := y)]
            by_cases hay : a = y
            · subst hay
              simp [hyx]
            · simp [hay]

/-- The intersection drops members of the first list. -/
theorem intersection_sublist (xs ys : List α) : (intersection xs ys).Sublist xs := by
  induction xs generalizing ys with
  | nil => exact List.Sublist.slnil
  | cons x xs ihx =>
      induction ys with
      | nil => exact List.nil_sublist _
      | cons y ys ihy =>
          have hcons : intersection (x :: xs) (y :: ys)
              = if x < y then intersection xs (y :: ys)
                else if y < x then intersection (x :: xs) ys
                else x :: intersection xs ys := rfl
          rw [hcons]
          split_ifs
          · exact (ihx (y :: ys)).cons x
          · exact ihy
          · exact (ihx ys).cons_cons x

/-! ## The merges are sorted -/

/-- A list that starts below a sorted list of later members is sorted with its head. -/
theorem strictSorted_cons {x : α} {l : List α} (hl : StrictSorted l) (hx : ∀ a ∈ l, x < a) :
    StrictSorted (x :: l) :=
  List.pairwise_cons.mpr ⟨hx, hl⟩

theorem strictSorted_symmetricDifference {xs ys : List α} (hx : StrictSorted xs)
    (hy : StrictSorted ys) : StrictSorted (symmetricDifference xs ys) := by
  induction xs generalizing ys with
  | nil => exact hy
  | cons x xs ihx =>
      obtain ⟨hxlt, hxs⟩ := List.pairwise_cons.mp hx
      induction ys with
      | nil => exact hx
      | cons y ys ihy =>
          obtain ⟨hylt, hys⟩ := List.pairwise_cons.mp hy
          have hcons : symmetricDifference (x :: xs) (y :: ys)
              = if x < y then x :: symmetricDifference xs (y :: ys)
                else if y < x then y :: symmetricDifference (x :: xs) ys
                else symmetricDifference xs ys := rfl
          rw [hcons]
          split_ifs with hlt hgt
          -- What is merged from there on lies above the head that was taken.
          · refine strictSorted_cons (ihx hxs hy) fun a ha => ?_
            rcases (mem_symmetricDifference hxs hy a).mp ha with ⟨ha, -⟩ | ⟨-, ha⟩
            · exact hxlt a ha
            · rcases List.mem_cons.mp ha with rfl | ha
              · exact hlt
              · exact hlt.trans (hylt a ha)
          · refine strictSorted_cons (ihy hys) fun a ha => ?_
            rcases (mem_symmetricDifference hx hys a).mp ha with ⟨ha, -⟩ | ⟨-, ha⟩
            · rcases List.mem_cons.mp ha with rfl | ha
              · exact hgt
              · exact hgt.trans (hxlt a ha)
            · exact hylt a ha
          · exact ihx hxs hys

/-! ## Dropping repetitions -/

/-- An ascending list without equal neighbours is strictly ascending. -/
theorem strictSorted_of_isChain_ne {l : List α} (hle : l.Pairwise (· ≤ ·))
    (hne : l.IsChain (· ≠ ·)) : StrictSorted l := by
  induction l with
  | nil => exact List.Pairwise.nil
  | cons x rest ih =>
      obtain ⟨hx, hrest⟩ := List.pairwise_cons.mp hle
      obtain ⟨hhead, htail⟩ := List.isChain_cons.mp hne
      refine strictSorted_cons (ih hrest htail) fun a ha => ?_
      cases rest with
      | nil => exact absurd ha List.not_mem_nil
      | cons y ys =>
          have hxy : x < y := lt_of_le_of_ne (hx y List.mem_cons_self) (hhead y rfl)
          rcases List.mem_cons.mp ha with rfl | ha
          · exact hxy
          · exact hxy.trans_le ((List.pairwise_cons.mp hrest).1 a ha)

/-- Dropping equal neighbours makes an ascending list strictly ascending. -/
theorem strictSorted_destutter {l : List α} (hl : l.Pairwise (· ≤ ·)) :
    StrictSorted (l.destutter (· ≠ ·)) :=
  strictSorted_of_isChain_ne (hl.sublist (List.destutter_sublist (· ≠ ·) l))
    (List.isChain_destutter (· ≠ ·) l)

/-- Dropping equal neighbours keeps every element. -/
theorem mem_destutter' {a x : α} {l : List α} :
    x ∈ l.destutter' (· ≠ ·) a ↔ x = a ∨ x ∈ l := by
  induction l generalizing a with
  | nil => simp
  | cons b rest ih =>
      by_cases hab : a = b
      · subst hab
        rw [List.destutter'_cons_neg rest (by simp), ih, List.mem_cons]
        tauto
      · rw [List.destutter'_cons_pos rest hab, List.mem_cons, ih, List.mem_cons]

theorem mem_destutter {x : α} {l : List α} : x ∈ l.destutter (· ≠ ·) ↔ x ∈ l := by
  cases l with
  | nil => rfl
  | cons a rest => rw [List.destutter, mem_destutter', List.mem_cons]

end SortedMerge
