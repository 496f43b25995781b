/-
  OwAnalytics.Lib.PrefixSearch

  A search in a sorted list from a lower bound up to the first element that fails a test.
  When the elements that pass the test lie next to each other above the bound, it finds
  all of them; and with a higher bound and a stronger test it finds no more.
-/

import Mathlib.Data.List.Basic

namespace PrefixSearch

theorem takeWhile_take {α : Type*} (q : α → Bool) (k : Nat) (xs : List α) :
    (xs.take k).takeWhile q = (xs.takeWhile q).take k := by
  induction xs generalizing k with
  | nil => simp
  | cons a xs ih =>
      cases k with
      | zero => simp
      | succ k =>
          rw [List.take_succ_cons, List.takeWhile_cons, List.takeWhile_cons]
          split
          · rw [ih, List.take_succ_cons]
          · rfl

variable {α : Type*} [LT α] [DecidableLT α] {lo x : α} {q : α → Bool} {xs : List α}

/-- The elements from the lower bound up to the first that fails the test. -/
def run (lo : α) (q : α → Bool) (xs : List α) : List α := (xs.dropWhile (· < lo)).takeWhile q

theorem run_cons_of_lt {a : α} (h : a < lo) : run lo q (a :: xs) = run lo q xs := by
  rw [run, List.dropWhile_cons_of_pos (by simpa using h), run]

theorem run_sublist : (run lo q xs).Sublist xs :=
  (List.takeWhile_sublist _).trans (List.dropWhile_sublist _)

variable [LE α] [Std.IsLinearOrder α] [Std.LawfulOrderLT α]

/-- At the lower bound the search begins; the elements after it are none to be dropped. -/
theorem run_cons_of_le {a : α} (hsorted : (a :: xs).Pairwise (· ≤ ·)) (h : lo ≤ a) :
    run lo q (a :: xs) = if q a = true then a :: run lo q xs else [] := by
  have hrest : xs.dropWhile (· < lo) = xs := by
    cases xs with
    | nil => rfl
    | cons b xs =>
        have hb : a ≤ b := List.rel_of_pairwise_cons hsorted List.mem_cons_self
        exact List.dropWhile_cons_of_neg (by simpa using Std.not_lt.mpr (Std.le_trans h hb))
  rw [run, List.dropWhile_cons_of_neg (by simpa using Std.not_lt.mpr h),
    List.takeWhile_cons, run, hrest]

/-- An element is found iff all from the lower bound up to it pass the test. -/
theorem mem_run_iff (hsorted : xs.Pairwise (· ≤ ·)) :
    x ∈ run lo q xs ↔ x ∈ xs ∧ lo ≤ x ∧ ∀ y ∈ xs, lo ≤ y → y ≤ x → q y = true := by
  induction xs with
  | nil => simp [run]
  | cons a xs ih =>
      have ih := ih hsorted.of_cons
      have ha : ∀ y ∈ xs, a ≤ y := fun y => List.rel_of_pairwise_cons hsorted
      -- elements below `lo` are passed over; from the first other one on, `q` must hold
      rcases Decidable.em (a < lo) with hlt | hge
      · rw [run_cons_of_lt hlt, ih, List.forall_mem_cons, List.mem_cons]
        have hnot : ¬ lo ≤ a := Std.not_le.mpr hlt
        refine ⟨fun ⟨hx, hlo, hall⟩ => ⟨.inr hx, hlo, fun h => absurd h hnot, hall⟩, ?_⟩
        rintro ⟨rfl | hx, hlo, -, hall⟩
        · exact absurd hlo hnot
        · exact ⟨hx, hlo, hall⟩
      · have hle : lo ≤ a := Std.not_lt.mp hge
        rw [run_cons_of_le hsorted hle, List.forall_mem_cons, List.mem_cons]
        split
        · rename_i hq
          rw [List.mem_cons, ih]
          refine ⟨?_, fun ⟨hx, hlo, _, hall⟩ => hx.imp_right fun hx => ⟨hx, hlo, hall⟩⟩
          rintro (rfl | ⟨hx, hlo, hall⟩)
          · refine ⟨.inl rfl, hle, fun _ _ => hq, fun y hy _ hyx => ?_⟩
            rwa [Std.le_antisymm hyx (ha y hy)]
          · exact ⟨.inr hx, hlo, fun _ _ => hq, hall⟩
        · rename_i hq
          refine iff_of_false List.not_mem_nil ?_
          rintro ⟨hx, -, hall, -⟩
          refine hq (hall hle ?_)
          rcases hx with rfl | hx
          · exact Std.le_refl _
          · exact ha x hx

/-- Something is found iff the least element not below the bound passes the test. -/
theorem run_ne_nil_iff (hsorted : xs.Pairwise (· ≤ ·)) :
    run lo q xs ≠ [] ↔ ∃ x ∈ xs, lo ≤ x ∧ q x = true ∧ ∀ y ∈ xs, lo ≤ y → x ≤ y := by
  refine ⟨?_, ?_⟩
  · intro hne
    obtain ⟨x, rest, hrun⟩ := List.exists_cons_of_ne_nil hne
    have hfirst : (x :: rest).Pairwise (· ≤ ·) := hrun ▸ hsorted.sublist run_sublist
    have hx : x ∈ run lo q xs := hrun ▸ List.mem_cons_self
    obtain ⟨hmem, hlo, hall⟩ := (mem_run_iff hsorted).mp hx
    refine ⟨x, hmem, hlo, hall x hmem hlo (Std.le_refl _), fun y hy hloy => ?_⟩
    -- an element before the first would be found as well
    by_contra hlt
    have hle : y ≤ x := Std.le_of_not_ge hlt
    have hfound : y ∈ run lo q xs := by
      refine (mem_run_iff hsorted).mpr ⟨hy, hloy, fun z hz hloz hzy => ?_⟩
      exact hall z hz hloz (Std.le_trans hzy hle)
    rw [hrun] at hfound
    rcases List.mem_cons.mp hfound with rfl | hfound
    · exact hlt (Std.le_refl _)
    · exact hlt (List.rel_of_pairwise_cons hfirst hfound)
  · rintro ⟨x, hx, hlo, hq, hleast⟩ hnil
    have hfound : x ∈ run lo q xs := by
      refine (mem_run_iff hsorted).mpr ⟨hx, hlo, fun y hy hloy hyx => ?_⟩
      rwa [Std.le_antisymm hyx (hleast y hy hloy)]
    rw [hnil] at hfound
    cases hfound

/-- When the elements that pass the test lie together above the bound, all of them are found. -/
theorem run_eq_filter (hsorted : xs.Pairwise (· ≤ ·)) (hlo : ∀ x ∈ xs, q x = true → lo ≤ x)
    (hbetween : ∀ x ∈ xs, ∀ y ∈ xs, lo ≤ x → x ≤ y → q y = true → q x = true) :
    run lo q xs = xs.filter q := by
  induction xs with
  | nil => rfl
  | cons a xs ih =>
      have ih := ih hsorted.of_cons (fun x hx => hlo x (List.mem_cons_of_mem _ hx))
        (fun x hx y hy => hbetween x (List.mem_cons_of_mem _ hx) y (List.mem_cons_of_mem _ hy))
      rcases Decidable.em (a < lo) with hlt | hge
      · have ha : ¬ q a = true := fun h => Std.not_le.mpr hlt (hlo a List.mem_cons_self h)
        rw [run_cons_of_lt hlt, List.filter_cons_of_neg ha, ih]
      · have hle : lo ≤ a := Std.not_lt.mp hge
        rw [run_cons_of_le hsorted hle, List.filter_cons]
        split
        · rw [ih]
        · rename_i ha
          -- the elements after one that fails fail too
          symm
          rw [List.filter_eq_nil_iff]
          intro y hy hqy
          exact ha (hbetween a List.mem_cons_self y (List.mem_cons_of_mem _ hy) hle
            (List.rel_of_pairwise_cons hsorted hy) hqy)

/-- A stronger test from a higher bound on finds no more, when what lies between the bounds passes
    the weaker one. -/
theorem run_subset_run (hsorted : xs.Pairwise (· ≤ ·)) {lo' : α} {q' : α → Bool} (hlo : lo ≤ lo')
    (hq : ∀ x, q' x = true → q x = true) (hbetween : ∀ x, lo ≤ x → x < lo' → q x = true) :
    run lo' q' xs ⊆ run lo q xs := by
  intro x hx
  obtain ⟨hmem, hlox, hall⟩ := (mem_run_iff hsorted).mp hx
  refine (mem_run_iff hsorted).mpr ⟨hmem, Std.le_trans hlo hlox, fun y hy hloy hyx => ?_⟩
  rcases Decidable.em (y < lo') with hlt | hge
  · exact hbetween y hloy hlt
  · exact hq y (hall y hy (Std.not_lt.mp hge) hyx)

end PrefixSearch
