/-
  OwAnalytics.Lib.Hull

  The smallest interval around a set of intervals over a linear order.  A program
  computes it with a running interval, absent at first and widened by one
  interval after the other; widening two running intervals into one encloses the
  union of what each of them enclosed.
-/

import Mathlib

namespace Hull

variable {κ : Type*} [LinearOrder κ]

/-- The interval `i` contains the interval `s`. -/
def Contains (i s : κ × κ) : Prop := i.1 ≤ s.1 ∧ s.2 ≤ i.2

theorem Contains.refl (i : κ × κ) : Contains i i := ⟨le_rfl, le_rfl⟩

theorem Contains.trans {i j s : κ × κ} (hij : Contains i j) (hjs : Contains j s) : Contains i s :=
  ⟨hij.1.trans hjs.1, hjs.2.trans hij.2⟩

/-- `i` is the smallest interval that contains every interval of `S`. -/
structure IsHull (S : Set (κ × κ)) (i : κ × κ) : Prop where
  contains : ∀ s ∈ S, Contains i s
  smallest : ∀ j, (∀ s ∈ S, Contains j s) → Contains j i

/-- The smallest interval around two. -/
def join (i j : κ × κ) : κ × κ := (min i.1 j.1, max i.2 j.2)

theorem contains_join_iff {i j k : κ × κ} :
    Contains k (join i j) ↔ Contains k i ∧ Contains k j := by
  simp only [Contains, join, le_min_iff, max_le_iff]
  exact and_and_and_comm

theorem IsHull.union {S T : Set (κ × κ)} {i j : κ × κ} (hi : IsHull S i) (hj : IsHull T j) :
    IsHull (S ∪ T) (join i j) := by
  obtain ⟨hji, hjj⟩ := contains_join_iff.mp (Contains.refl (join i j))
  refine ⟨?_, ?_⟩
  · rintro s (hs | hs)
    · exact hji.trans (hi.contains s hs)
    · exact hjj.trans (hj.contains s hs)
  · intro k hk
    exact contains_join_iff.mpr
      ⟨hi.smallest k fun s hs => hk s (.inl hs), hj.smallest k fun s hs => hk s (.inr hs)⟩

/-- A running interval is the hull of a set; it is absent while the set is empty. -/
def Encloses (S : Set (κ × κ)) : Option (κ × κ) → Prop
  | none => S = ∅
  | some i => S.Nonempty ∧ IsHull S i

theorem Encloses.isSome_iff {S : Set (κ × κ)} {o : Option (κ × κ)} (h : Encloses S o) :
    o.isSome = true ↔ S.Nonempty := by
  cases o with
  | none =>
      have hempty : S = ∅ := h
      simp [hempty]
  | some i => exact iff_of_true rfl h.1

theorem IsHull.unique {S : Set (κ × κ)} {i j : κ × κ} (hi : IsHull S i) (hj : IsHull S j) :
    i = j := by
  obtain ⟨hlo, hhi⟩ := hi.smallest j hj.contains
  obtain ⟨hlo', hhi'⟩ := hj.smallest i hi.contains
  exact Prod.ext (le_antisymm hlo' hlo) (le_antisymm hhi hhi')

/-- A set has one running interval. -/
theorem Encloses.unique {S : Set (κ × κ)} {o o' : Option (κ × κ)} (h : Encloses S o)
    (h' : Encloses S o') : o = o' := by
  cases o with
  | none =>
      have hnone := h'.isSome_iff.not.mpr (Set.not_nonempty_iff_eq_empty.mpr h)
      exact (Option.not_isSome_iff_eq_none.mp hnone).symm
  | some i =>
      obtain ⟨j, rfl⟩ := Option.isSome_iff_exists.mp (h'.isSome_iff.mpr h.1)
      exact congrArg some (h.2.unique h'.2)

theorem encloses_empty : Encloses (∅ : Set (κ × κ)) none := rfl

/-- An optional interval encloses itself. -/
theorem encloses_self (o : Option (κ × κ)) : Encloses {s | s ∈ o} o := by
  cases o with
  | none => exact Set.eq_empty_of_forall_notMem fun s hs => absurd hs (by simp)
  | some i =>
      refine ⟨⟨i, rfl⟩, ?_, ?_⟩
      · rintro s hs
        obtain rfl := Option.some.inj hs
        exact Contains.refl _
      · exact fun j hj => hj i rfl

/-- The running interval widened by another one. -/
def widen : Option (κ × κ) → Option (κ × κ) → Option (κ × κ) := Option.merge join

@[simp] theorem widen_none (o : Option (κ × κ)) : widen o none = o := by
  cases o <;> rfl

theorem Encloses.union {S T : Set (κ × κ)} {o o' : Option (κ × κ)} (hS : Encloses S o)
    (hT : Encloses T o') : Encloses (S ∪ T) (widen o o') := by
  cases o with
  | none =>
      obtain rfl : S = ∅ := hS
      rw [Set.empty_union]
      cases o' <;> exact hT
  | some i =>
      cases o' with
      | none =>
          obtain rfl : T = ∅ := hT
          rw [Set.union_empty]
          exact hS
      | some j => exact ⟨hS.1.inl, hS.2.union hT.2⟩

/-- A loop that widens a running interval by one interval for each element of a list. -/
theorem Encloses.foldl {α : Type*} {S : α → Set (κ × κ)} {f : α → Option (κ × κ)}
    (hf : ∀ a, Encloses (S a) (f a)) (l : List α) {T : Set (κ × κ)} {o : Option (κ × κ)}
    (ho : Encloses T o) :
    Encloses (T ∪ {s | ∃ a ∈ l, s ∈ S a}) (l.foldl (fun o a => widen o (f a)) o) := by
  induction l generalizing T o with
  | nil => simpa using ho
  | cons a rest ih =>
      have hset : T ∪ {s | ∃ b ∈ a :: rest, s ∈ S b}
          = T ∪ S a ∪ {s | ∃ b ∈ rest, s ∈ S b} := by
        ext s
        simp [or_assoc]
      rw [List.foldl_cons, hset]
      exact ih (ho.union (hf a))

end Hull
