/-
  OwAnalytics.Lib.DistinctOn

  The first element of each key in a list that is sorted by the key and then by something
  else, as `distinct on` selects it: it is the least of its key, and the keys come in
  their order, each once.  And how many elements with a property are left of a list that
  is cut off before the others are taken out.
-/

import Mathlib.Data.List.Destutter
import OwAnalytics.Lib.Arrangement

namespace OwAnalytics

variable {α κ : Type*}

section DistinctOn

variable [DecidableEq κ] (key : α → κ)

/-- The first element of each run of a key. -/
def distinctOn (l : List α) : List α := l.destutter fun a b => key a ≠ key b

variable {key} {l : List α} {x y : α}

theorem mem_of_mem_distinctOn (h : x ∈ distinctOn key l) : x ∈ l :=
  (List.destutter_sublist _ l).mem h

theorem map_distinctOn : (distinctOn key l).map key = (l.map key).destutter (· ≠ ·) :=
  List.map_destutter fun _ _ _ _ => Iff.rfl

variable [Ord κ] [Std.TransOrd κ] [Std.LawfulEqOrd κ]

/-- In a list that is sorted by the keys each key stands once. -/
theorem map_distinctOn_of_sorted (h : l.Pairwise (keyLe key)) :
    (distinctOn key l).map key = (l.map key).dedup := by
  have hsorted : (l.map key).Pairwise (keyLe id) := List.pairwise_map.mpr h
  have hanti : Std.Antisymm (keyLe (id : κ → κ)) := ⟨fun a b hab hba => keyLe_antisymm hab hba⟩
  rw [map_distinctOn]
  exact hsorted.destutter_eq_dedup

theorem first_of_mem_destutter' {r : α → α → Prop} [Std.Refl r] [IsTrans α r]
    (hkey : ∀ a b, r a b → keyLe key a b) {a : α} (hsorted : (a :: l).Pairwise r)
    (hx : x ∈ l.destutter' (fun a b => key a ≠ key b) a) :
    ∀ y ∈ a :: l, key y = key x → r x y := by
  induction l generalizing a with
  | nil =>
      rw [List.destutter'_nil, List.mem_singleton] at hx
      intro y hy _
      rw [hx, List.mem_singleton.mp hy]
      exact Std.Refl.refl a
  | cons b l ih =>
      intro y hy hxy
      rw [List.pairwise_cons] at hsorted
      obtain ⟨ha, hrest⟩ := hsorted
      by_cases hab : key a = key b
      · -- the run goes on
        rw [List.destutter'_cons_neg _ (not_not.mpr hab)] at hx
        have hshorter : (a :: l).Pairwise r :=
          List.pairwise_cons.mpr ⟨fun z hz => ha z (List.mem_cons_of_mem _ hz),
            (List.pairwise_cons.mp hrest).2⟩
        have hfirst := ih hshorter hx
        rcases List.mem_cons.mp hy with rfl | hy
        · exact hfirst _ List.mem_cons_self hxy
        · rcases List.mem_cons.mp hy with rfl | hy
          · exact trans_of r (hfirst a List.mem_cons_self (hab.trans hxy)) (ha _ List.mem_cons_self)
          · exact hfirst y (List.mem_cons_of_mem _ hy) hxy
      · rw [List.destutter'_cons_pos _ hab] at hx
        rcases List.mem_cons.mp hx with rfl | hrun
        · rcases List.mem_cons.mp hy with rfl | hy
          · exact Std.Refl.refl _
          · exact ha y hy
        · rcases List.mem_cons.mp hy with rfl | hy
          · -- all keys up to `x` would be the same
            have hmem : x ∈ b :: l := (List.destutter'_sublist l _ b).mem hrun
            have hbx : keyLe key b x := by
              rcases List.mem_cons.mp hmem with rfl | hmem
              · exact hkey _ _ (Std.Refl.refl _)
              · exact hkey _ _ ((List.pairwise_cons.mp hrest).1 x hmem)
            have hby : keyLe key b y := by
              rw [keyLe, hxy]
              exact hbx
            exact absurd (keyLe_antisymm (hkey _ _ (ha b List.mem_cons_self)) hby) hab
          · exact ih hrest hrun y hy hxy

/-- In a list that is sorted by the keys and beyond that, the elements that are kept come first
    among those of their key. -/
theorem first_of_mem_distinctOn {r : α → α → Prop} [Std.Refl r] [IsTrans α r]
    (hkey : ∀ a b, r a b → keyLe key a b) (hsorted : l.Pairwise r) (hx : x ∈ distinctOn key l)
    (hy : y ∈ l) (hxy : key y = key x) : r x y := by
  cases l with
  | nil => cases hy
  | cons a l => exact first_of_mem_destutter' hkey hsorted hx y hy hxy

end DistinctOn

/-! ## Taking out after cutting off -/

/-- A list that is cut off before elements are taken out has as many as it may iff none of the
    first is taken out, or all that come after are. -/
theorem length_filter_take_iff (p : α → Bool) (n : ℕ) (l : List α) :
    ((l.take n).filter p).length = min n (l.filter p).length ↔
      (∀ x ∈ l.take n, p x = true) ∨ ∀ x ∈ l.drop n, p x = false := by
  have hsplit : (l.filter p).length =
      ((l.take n).filter p).length + ((l.drop n).filter p).length := by
    rw [← List.length_append, ← List.filter_append, List.take_append_drop]
  have hle : ((l.take n).filter p).length ≤ (l.take n).length := List.length_filter_le _ _
  have htake : (l.take n).length = min n l.length := List.length_take
  have hall : ((l.take n).filter p).length = (l.take n).length ↔ ∀ x ∈ l.take n, p x = true :=
    List.length_filter_eq_length_iff
  have hnone : ((l.drop n).filter p).length = 0 ↔ ∀ x ∈ l.drop n, p x = false := by
    rw [List.length_eq_zero_iff, List.filter_eq_nil_iff]
    simp only [Bool.not_eq_true]
  have hdrop : ((l.drop n).filter p).length ≤ l.length - n :=
    (List.length_filter_le _ _).trans_eq List.length_drop
  rw [← hall, ← hnone]
  omega

end OwAnalytics
