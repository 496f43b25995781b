/-
  OwAnalytics.Lib.PairedIndex

  An index kept in two ascending lists, one of keys and one of the images of the keys
  under a function: when an insertion into both, and a removal from both, leaves it as
  it should be.  And the elements of a collection after operations that add and
  remove, those that were added and not since removed.
-/

import Mathlib

namespace PairedIndex

/-! ## Ascending lists -/

/-- Strictly, so that nothing is listed twice. -/
def Ascending {α : Type*} [LT α] (xs : List α) : Prop := xs.Pairwise (· < ·)

theorem Ascending.erase {α : Type*} [LT α] [BEq α] [LawfulBEq α] {xs : List α} (h : Ascending xs)
    (x : α) : Ascending (xs.erase x) := List.Pairwise.erase x h

section Ascending

variable {α : Type*} [LE α] [LT α] [Std.IsLinearOrder α] [Std.LawfulOrderLT α] {xs : List α} {x : α}

theorem ascending_iff : Ascending xs ↔ xs.Pairwise (· ≤ ·) ∧ xs.Nodup := by
  rw [Ascending, List.Nodup, ← List.pairwise_and_iff]
  exact List.Pairwise.iff fun {a b} => Std.lt_iff_le_and_ne

theorem Ascending.nodup (h : Ascending xs) : xs.Nodup := (ascending_iff.mp h).2

/-- Inserted in its place, an element leaves the list ascending iff it is new. -/
theorem ascending_orderedInsert_iff [DecidableLE α] (h : Ascending xs) :
    Ascending (xs.orderedInsert (· ≤ ·) x) ↔ x ∉ xs := by
  have hle : (xs.orderedInsert (· ≤ ·) x).Pairwise (· ≤ ·) :=
    (ascending_iff.mp h).1.orderedInsert x xs
  rw [ascending_iff, and_iff_right hle, (List.perm_orderedInsert _ x xs).nodup_iff,
    List.nodup_cons, and_iff_left h.nodup]

end Ascending

/-! ## The two lists -/

section Paired

variable {α β : Type*} [LT α] [LT β]

/-- The lists are ascending, and the function takes the keys to the images one to one. -/
structure Paired (f : α → β) (xs : List α) (ys : List β) : Prop where
  keys : Ascending xs
  images : Ascending ys
  bijOn : Set.BijOn f {x | x ∈ xs} {y | y ∈ ys}

variable {f : α → β} {xs : List α} {ys : List β} {x : α} {y : β}

theorem paired_nil : Paired f [] [] :=
  ⟨List.Pairwise.nil, List.Pairwise.nil, by simp⟩

theorem Paired.mem_images (h : Paired f xs ys) (hx : x ∈ xs) : f x ∈ ys := h.bijOn.mapsTo hx

/-- The images are those of the keys. -/
theorem Paired.mem_images_iff (h : Paired f xs ys) : y ∈ ys ↔ ∃ x ∈ xs, f x = y := by
  refine ⟨?_, ?_⟩
  · exact fun hy => h.bijOn.surjOn hy
  · rintro ⟨x, hx, rfl⟩
    exact h.mem_images hx

theorem Paired.injOn (h : Paired f xs ys) {x' : α} (hx : x ∈ xs) (hx' : x' ∈ xs)
    (heq : f x = f x') : x = x' := h.bijOn.injOn hx hx' heq

variable [LE α] [Std.IsLinearOrder α] [Std.LawfulOrderLT α]
variable [LE β] [Std.IsLinearOrder β] [Std.LawfulOrderLT β]

/-- A new key and what is inserted with it keep the index iff that is its image and is new. -/
theorem Paired.insert_iff [DecidableLE α] [DecidableLE β] (h : Paired f xs ys) (hx : x ∉ xs) :
    Paired f (xs.orderedInsert (· ≤ ·) x) (ys.orderedInsert (· ≤ ·) y) ↔ y = f x ∧ y ∉ ys := by
  have hkeys : {a | a ∈ xs.orderedInsert (· ≤ ·) x} = insert x {a | a ∈ xs} := by
    ext a
    simp
  have himages : {b | b ∈ ys.orderedInsert (· ≤ ·) y} = insert y {b | b ∈ ys} := by
    ext b
    simp
  refine ⟨?_, ?_⟩
  · intro hinsert
    have hnew : y ∉ ys := (ascending_orderedInsert_iff h.images).mp hinsert.images
    refine ⟨?_, hnew⟩
    -- the key of what is inserted is not one of the old ones
    obtain ⟨a, ha, rfl⟩ := hinsert.mem_images_iff.mp ((List.mem_orderedInsert _).mpr (.inl rfl))
    rcases (List.mem_orderedInsert _).mp ha with rfl | ha
    · rfl
    · exact absurd (h.mem_images ha) hnew
  · rintro ⟨rfl, hnew⟩
    refine ⟨(ascending_orderedInsert_iff h.keys).mpr hx,
      (ascending_orderedInsert_iff h.images).mpr hnew, ?_⟩
    rw [hkeys, himages]
    exact h.bijOn.insert hnew

/-- A key and what is removed with it keep the index iff that is its image. -/
theorem Paired.erase_iff [BEq α] [LawfulBEq α] [BEq β] [LawfulBEq β] (h : Paired f xs ys)
    (hx : x ∈ xs) : Paired f (xs.erase x) (ys.erase y) ↔ y = f x := by
  have hkeys : {a | a ∈ xs.erase x} = {a | a ∈ xs} \ {x} := by
    ext a
    simp [h.keys.nodup.mem_erase_iff, and_comm]
  have himages : {b | b ∈ ys.erase y} = {b | b ∈ ys} \ {y} := by
    ext b
    simp [h.images.nodup.mem_erase_iff, and_comm]
  refine ⟨?_, ?_⟩
  · intro herase
    -- the image would be left without its key
    by_contra hne
    have hleft : f x ∈ ys.erase y :=
      h.images.nodup.mem_erase_iff.mpr ⟨fun heq => hne heq.symm, h.mem_images hx⟩
    obtain ⟨a, ha, hfa⟩ := herase.mem_images_iff.mp hleft
    obtain ⟨hne', hmem⟩ := h.keys.nodup.mem_erase_iff.mp ha
    exact hne' (h.injOn hmem hx hfa)
  · rintro rfl
    refine ⟨h.keys.erase x, h.images.erase _, ?_⟩
    rw [hkeys, himages]
    exact h.bijOn.sdiff_singleton hx

end Paired

/-! ## Adding and removing -/

section Since

variable {ι α : Type*} (adds removes : ι → α → Prop)

/-- Some operation adds the element, and none after it removes it. -/
def AddedSince (ops : List ι) (a : α) : Prop :=
  ∃ before op after, ops = before ++ op :: after ∧ adds op a ∧ ∀ x ∈ after, ¬ removes x a

variable {adds removes} {ops : List ι} {op : ι} {a : α}

theorem not_addedSince_nil : ¬ AddedSince adds removes [] a := by
  rintro ⟨before, op, after, heq, -⟩
  cases before <;> cases heq

theorem addedSince_concat_iff :
    AddedSince adds removes (ops ++ [op]) a ↔
      adds op a ∨ AddedSince adds removes ops a ∧ ¬ removes op a := by
  refine ⟨?_, ?_⟩
  · rintro ⟨before, x, after, heq, hadds, hafter⟩
    -- the last operation is the one that adds, or it comes after that and removes nothing
    rcases List.eq_nil_or_concat' after with rfl | ⟨after, y, rfl⟩
    · obtain ⟨-, hlast⟩ := List.append_inj' heq rfl
      obtain rfl := List.singleton_inj.mp hlast
      exact .inl hadds
    · rw [← List.cons_append, ← List.append_assoc] at heq
      obtain ⟨rfl, hlast⟩ := List.append_inj' heq rfl
      obtain rfl := List.singleton_inj.mp hlast
      exact .inr ⟨⟨before, x, after, rfl, hadds, fun z hz => hafter z (List.mem_append_left _ hz)⟩,
        hafter op (List.mem_append_right _ (List.mem_singleton_self _))⟩
  · rintro (hadds | ⟨⟨before, x, after, rfl, hadds, hafter⟩, hremoves⟩)
    · exact ⟨ops, op, [], rfl, hadds, by simp⟩
    · refine ⟨before, x, after ++ [op], by simp, hadds, fun z hz => ?_⟩
      rcases List.mem_append.mp hz with hz | hz
      · exact hafter z hz
      · obtain rfl := List.mem_singleton.mp hz
        exact hremoves

end Since

end PairedIndex
