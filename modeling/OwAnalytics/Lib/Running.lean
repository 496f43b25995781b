/-
  OwAnalytics.Lib.Running

  Values a loop keeps about the elements it has passed: the least, the greatest,
  the mean, and the last element among those of the greatest key.  A running
  extreme is optional, absent while there are no elements, so that one more
  element is one more member of the set it is the extreme of.
-/

import Mathlib

namespace Running

/-! ## Extremes -/

section Extremes

variable {K : Type*} [LinearOrder K]

/-- The least element of a set, absent when the set is empty. -/
def Least (S : Set K) : Option K → Prop
  | none => S = ∅
  | some m => IsLeast S m

/-- The greatest element of a set, absent when the set is empty. -/
def Greatest (S : Set K) : Option K → Prop
  | none => S = ∅
  | some m => IsGreatest S m

/-- One more element for a running minimum. -/
def lower : Option K → K → Option K
  | none, v => some v
  | some m, v => if v < m then some v else some m

/-- One more element for a running maximum. -/
def raise : Option K → K → Option K
  | none, v => some v
  | some m, v => if v > m then some v else some m

theorem Least.insert {S : Set K} {o : Option K} (h : Least S o) (v : K) :
    Least (Set.insert v S) (lower o v) := by
  cases o with
  | none =>
      obtain rfl : S = ∅ := h
      exact ⟨Set.mem_insert v ∅, by simp [lowerBounds, Set.insert]⟩
  | some m =>
      have hleast : IsLeast (Set.insert v S) (min v m) := IsLeast.insert v h
      show Least _ (if v < m then some v else some m)
      split_ifs with hlt
      · rwa [min_eq_left hlt.le] at hleast
      · rwa [min_eq_right (not_lt.mp hlt)] at hleast

theorem Greatest.insert {S : Set K} {o : Option K} (h : Greatest S o) (v : K) :
    Greatest (Set.insert v S) (raise o v) := by
  cases o with
  | none =>
      obtain rfl : S = ∅ := h
      exact ⟨Set.mem_insert v ∅, by simp [upperBounds, Set.insert]⟩
  | some m =>
      have hgreatest : IsGreatest (Set.insert v S) (max v m) := IsGreatest.insert v h
      show Greatest _ (if v > m then some v else some m)
      split_ifs with hlt
      · rwa [max_eq_left (le_of_lt hlt)] at hgreatest
      · rwa [max_eq_right (not_lt.mp hlt)] at hgreatest

theorem Least.isSome_iff {S : Set K} {o : Option K} (h : Least S o) :
    o.isSome = true ↔ S.Nonempty := by
  cases o with
  | none =>
      have hempty : S = ∅ := h
      simp [hempty]
  | some m => exact iff_of_true rfl ⟨m, h.1⟩

theorem Greatest.isSome_iff {S : Set K} {o : Option K} (h : Greatest S o) :
    o.isSome = true ↔ S.Nonempty := by
  cases o with
  | none =>
      have hempty : S = ∅ := h
      simp [hempty]
  | some m => exact iff_of_true rfl ⟨m, h.1⟩

/-- A set has one minimum, if any. -/
theorem Least.unique {S : Set K} {o o' : Option K} (h : Least S o) (h' : Least S o') : o = o' := by
  cases o with
  | none =>
      have hnone := h'.isSome_iff.not.mpr (Set.not_nonempty_iff_eq_empty.mpr h)
      exact (Option.not_isSome_iff_eq_none.mp hnone).symm
  | some m =>
      obtain ⟨m', rfl⟩ := Option.isSome_iff_exists.mp (h'.isSome_iff.mpr ⟨m, h.1⟩)
      exact congrArg some (IsLeast.unique h h')

theorem Greatest.unique {S : Set K} {o o' : Option K} (h : Greatest S o) (h' : Greatest S o') :
    o = o' := by
  cases o with
  | none =>
      have hnone := h'.isSome_iff.not.mpr (Set.not_nonempty_iff_eq_empty.mpr h)
      exact (Option.not_isSome_iff_eq_none.mp hnone).symm
  | some m =>
      obtain ⟨m', rfl⟩ := Option.isSome_iff_exists.mp (h'.isSome_iff.mpr ⟨m, h.1⟩)
      exact congrArg some (IsGreatest.unique h h')

/-! An extreme that starts at a value is that of the value and the elements. -/

variable {l : List K} {a : K}

theorem isLeast_foldl_min (l : List K) (a : K) : IsLeast {v | v = a ∨ v ∈ l} (l.foldl min a) := by
  induction l generalizing a with
  | nil => simp [IsLeast, lowerBounds]
  | cons b rest ih =>
      obtain ⟨hmem, hle⟩ := ih (min a b)
      have hstart : rest.foldl min (min a b) ≤ min a b := hle (.inl rfl)
      refine ⟨?_, ?_⟩
      · rcases hmem with heq | hrest
        · show rest.foldl min (min a b) = a ∨ rest.foldl min (min a b) ∈ b :: rest
          rw [heq, List.mem_cons]
          rcases min_choice a b with h | h
          · exact .inl h
          · exact .inr (.inl h)
        · exact .inr (List.mem_cons_of_mem _ hrest)
      · rintro v (rfl | hv)
        · exact hstart.trans (min_le_left _ _)
        · rcases List.mem_cons.mp hv with rfl | hv
          · exact hstart.trans (min_le_right _ _)
          · exact hle (.inr hv)

theorem isGreatest_foldl_max (l : List K) (a : K) :
    IsGreatest {v | v = a ∨ v ∈ l} (l.foldl max a) := isLeast_foldl_min (K := Kᵒᵈ) l a

/-- It is the least element iff an element is as small as the start. -/
theorem isLeast_foldl_min_iff : IsLeast {v | v ∈ l} (l.foldl min a) ↔ ∃ v ∈ l, v ≤ a := by
  obtain ⟨hmem, hle⟩ := isLeast_foldl_min l a
  refine ⟨fun h => ⟨_, h.1, hle (.inl rfl)⟩, ?_⟩
  rintro ⟨v, hv, hva⟩
  refine ⟨?_, fun w hw => hle (.inr hw)⟩
  rcases hmem with heq | hmem
  · -- the start is an element
    have hav : a ≤ v := heq ▸ hle (.inr hv)
    rw [heq, le_antisymm hav hva]
    exact hv
  · exact hmem

theorem isGreatest_foldl_max_iff : IsGreatest {v | v ∈ l} (l.foldl max a) ↔ ∃ v ∈ l, a ≤ v :=
  isLeast_foldl_min_iff (K := Kᵒᵈ)

/-- A minimum is the greatest element iff all elements are one, not above the start. -/
theorem isGreatest_foldl_min_iff :
    IsGreatest {v | v ∈ l} (l.foldl min a) ↔ l ≠ [] ∧ ∃ c ≤ a, ∀ v ∈ l, v = c := by
  obtain ⟨-, hle⟩ := isLeast_foldl_min l a
  refine ⟨fun h => ⟨List.ne_nil_of_mem h.1, _, hle (.inl rfl), fun v hv =>
    le_antisymm (h.2 hv) (hle (.inr hv))⟩, ?_⟩
  rintro ⟨hne, c, hca, hall⟩
  obtain ⟨v, hv⟩ := List.exists_mem_of_ne_nil l hne
  have hleast : IsLeast {v | v ∈ l} (l.foldl min a) :=
    isLeast_foldl_min_iff.mpr ⟨v, hv, (hall v hv).trans_le hca⟩
  exact ⟨hleast.1, fun w hw => ((hall w hw).trans (hall _ hleast.1).symm).le⟩

end Extremes

/-! ## Mean -/

section Mean

variable {K : Type*} [Field K] [LinearOrder K] [IsStrictOrderedRing K]

/-- The mean of some values lies between any bounds of them. -/
theorem mean_mem_Icc {l : List K} (hne : l ≠ []) {lo hi : K} (h : ∀ v ∈ l, v ∈ Set.Icc lo hi) :
    l.sum / l.length ∈ Set.Icc lo hi := by
  have hpos : (0 : K) < l.length := Nat.cast_pos.mpr (List.length_pos_iff.mpr hne)
  have hlo := List.card_nsmul_le_sum l lo fun v hv => (h v hv).1
  have hhi := List.sum_le_card_nsmul l hi fun v hv => (h v hv).2
  rw [nsmul_eq_mul] at hlo hhi
  refine ⟨?_, ?_⟩
  · rw [le_div_iff₀ hpos, mul_comm]
    exact hlo
  · rw [div_le_iff₀ hpos, mul_comm]
    exact hhi

/-- A mean whose divisor wraps is exact iff it does not wrap, or there is nothing to divide. -/
theorem div_mod_eq_iff {n m : ℕ} (hm : 0 < m) (sum : K) :
    sum / ((n % m : ℕ) : K) = sum / n ↔ n < m ∨ sum = 0 := by
  refine ⟨fun heq => ?_, ?_⟩
  · by_contra hnot
    rw [not_or] at hnot
    obtain ⟨hlarge, hsum⟩ := hnot
    rw [div_eq_mul_inv, div_eq_mul_inv] at heq
    have hmod : n % m = n := Nat.cast_injective (inv_injective (mul_left_cancel₀ hsum heq))
    exact hlarge (hmod ▸ Nat.mod_lt n hm)
  · rintro (hlt | hsum)
    · rw [Nat.mod_eq_of_lt hlt]
    · rw [hsum, zero_div, zero_div]

end Mean

/-! ## The last of the greatest key -/

section Latest

variable {α T : Type*} [LinearOrder T] (key : α → T)

/-- `a` is the last element of the list among those with the greatest key. -/
def IsLatest (l : List α) (a : α) : Prop :=
  ∃ before after, l = before ++ a :: after ∧ (∀ x ∈ before, key x ≤ key a) ∧
    ∀ x ∈ after, key x < key a

variable {key}

theorem IsLatest.mem {l : List α} {a : α} (h : IsLatest key l a) : a ∈ l := by
  obtain ⟨before, after, rfl, -, -⟩ := h
  exact List.mem_append_right _ List.mem_cons_self

theorem IsLatest.le {l : List α} {a x : α} (h : IsLatest key l a) (hx : x ∈ l) :
    key x ≤ key a := by
  obtain ⟨before, after, rfl, hbefore, hafter⟩ := h
  rcases List.mem_append.mp hx with hx | hx
  · exact hbefore x hx
  · rcases List.mem_cons.mp hx with rfl | hx
    · exact le_rfl
    · exact (hafter x hx).le

/-- A new element with at least the greatest key takes over. -/
theorem isLatest_concat {l : List α} {x : α} (h : ∀ y ∈ l, key y ≤ key x) :
    IsLatest key (l ++ [x]) x :=
  ⟨l, [], rfl, h, by simp⟩

/-- A new element with a smaller key does not. -/
theorem IsLatest.concat {l : List α} {a x : α} (h : IsLatest key l a) (hx : key x < key a) :
    IsLatest key (l ++ [x]) a := by
  obtain ⟨before, after, rfl, hbefore, hafter⟩ := h
  refine ⟨before, after ++ [x], by simp, hbefore, ?_⟩
  intro y hy
  rcases List.mem_append.mp hy with hy | hy
  · exact hafter y hy
  · obtain rfl := List.mem_singleton.mp hy
    exact hx

end Latest

end Running
