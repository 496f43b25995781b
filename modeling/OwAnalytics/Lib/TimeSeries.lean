/-
  OwAnalytics.Lib.TimeSeries

  Counter series over a linear order of instants.  A series is a finite set of
  points; its consecutive pairs are the pairs with no point strictly between
  them, and the increase of a series over a window sums the nonnegative
  differences of the consecutive pairs that touch the window.

  The set-level definitions say what is meant; the list-level lemmas at the end
  relate them to a walk along the points in ascending order, which is how a
  program computes them.
-/

import Mathlib

namespace TimeSeries

/-- A counter value read at an instant. -/
structure Point (κ : Type*) where
  time : κ
  value : ℕ
deriving DecidableEq

variable {κ : Type*} [LinearOrder κ]

/-! ## Consecutive pairs -/

/-- `p` comes before `q` and no point of `S` lies strictly between them. -/
def Consecutive (S : Finset (Point κ)) (p q : Point κ) : Prop :=
  p.time < q.time ∧ ∀ r ∈ S, r.time ≤ p.time ∨ q.time ≤ r.time

instance (S : Finset (Point κ)) (p q : Point κ) : Decidable (Consecutive S p q) :=
  inferInstanceAs (Decidable (_ ∧ _))

/-- The consecutive pairs of a series. -/
def pairs (S : Finset (Point κ)) : Finset (Point κ × Point κ) :=
  (S ×ˢ S).filter fun pq => Consecutive S pq.1 pq.2

theorem mem_pairs {S : Finset (Point κ)} {p q : Point κ} :
    (p, q) ∈ pairs S ↔ p ∈ S ∧ q ∈ S ∧ Consecutive S p q := by
  simp [pairs, and_assoc]

/-- A consecutive pair is counted for the window `W` when one of its ends lies in
    `W` and the counter does not decrease over it. -/
def Counted (W : κ → Prop) (pq : Point κ × Point κ) : Prop :=
  (W pq.1.time ∨ W pq.2.time) ∧ pq.1.value ≤ pq.2.value

instance (W : κ → Prop) [DecidablePred W] (pq : Point κ × Point κ) :
    Decidable (Counted W pq) :=
  inferInstanceAs (Decidable (_ ∧ _))

/-- What a series increases by over the window `W`. -/
def increase (S : Finset (Point κ)) (W : κ → Prop) [DecidablePred W] : ℕ :=
  ∑ pq ∈ (pairs S).filter (Counted W), (pq.2.value - pq.1.value)

/-- What one pair contributes to the increase over `W`. -/
def gain (W : κ → Prop) [DecidablePred W] (pq : Point κ × Point κ) : ℕ :=
  if Counted W pq then pq.2.value - pq.1.value else 0

theorem increase_eq_sum_gain (S : Finset (Point κ)) (W : κ → Prop) [DecidablePred W] :
    increase S W = ∑ pq ∈ pairs S, gain W pq := by
  rw [increase, Finset.sum_filter]
  rfl

/-- A wider window counts at least as much. -/
theorem increase_mono (S : Finset (Point κ)) {W W' : κ → Prop} [DecidablePred W]
    [DecidablePred W'] (h : ∀ t, W t → W' t) : increase S W ≤ increase S W' := by
  apply Finset.sum_le_sum_of_subset
  intro pq hpq
  rw [Finset.mem_filter] at hpq ⊢
  obtain ⟨hpair, hwin, hle⟩ := hpq
  exact ⟨hpair, hwin.imp (h _) (h _), hle⟩

/-- A series without a point in the window does not increase over it. -/
theorem increase_eq_zero {S : Finset (Point κ)} {W : κ → Prop} [DecidablePred W]
    (h : ∀ p ∈ S, ¬ W p.time) : increase S W = 0 := by
  rw [increase_eq_sum_gain]
  apply Finset.sum_eq_zero
  rintro ⟨p, q⟩ hpq
  obtain ⟨hp, hq, -⟩ := mem_pairs.mp hpq
  have hnot : ¬ Counted W (p, q) := by
    rintro ⟨hwin | hwin, -⟩
    · exact h p hp hwin
    · exact h q hq hwin
  rw [gain, if_neg hnot]

/-! ## Adjacent windows -/

/-- The half-open window from `a` up to `b`. -/
def Within (a b t : κ) : Prop := a ≤ t ∧ t < b

instance (a b : κ) : DecidablePred (Within a b) := fun _ => inferInstanceAs (Decidable (_ ∧ _))

theorem Within.mono {a a' b b' t : κ} (ha : a' ≤ a) (hb : b ≤ b') (h : Within a b t) :
    Within a' b' t :=
  ⟨ha.trans h.1, h.2.trans_le hb⟩

/-- The consecutive pairs that start in `[a, b)`, end in `[b, c)` and do not decrease. -/
def straddling (S : Finset (Point κ)) (a b c : κ) : Finset (Point κ × Point κ) :=
  (pairs S).filter fun pq =>
    Within a b pq.1.time ∧ Within b c pq.2.time ∧ pq.1.value ≤ pq.2.value

/-- For a pair in ascending order, touching both of two adjacent windows means
    starting in the first and ending in the second. -/
theorem gain_adjacent {a b c : κ} (hab : a ≤ b) (hbc : b ≤ c) {p q : Point κ}
    (hpq : p.time < q.time) :
    gain (Within a b) (p, q) + gain (Within b c) (p, q)
      = gain (Within a c) (p, q)
        + if Within a b p.time ∧ Within b c q.time ∧ p.value ≤ q.value
          then q.value - p.value else 0 := by
  unfold gain Counted Within
  by_cases hv : p.value ≤ q.value
  · simp only [hv, and_true]
    have hp := lt_or_ge p.time b
    have hq := lt_or_ge q.time b
    split_ifs <;> grind
  · simp [hv]

/-- The increases over two adjacent windows exceed the increase over their union by
    exactly the straddling pairs, which both of them count. -/
theorem increase_adjacent (S : Finset (Point κ)) {a b c : κ} (hab : a ≤ b) (hbc : b ≤ c) :
    increase S (Within a b) + increase S (Within b c)
      = increase S (Within a c)
        + ∑ pq ∈ straddling S a b c, (pq.2.value - pq.1.value) := by
  simp only [increase_eq_sum_gain, straddling, Finset.sum_filter, ← Finset.sum_add_distrib]
  apply Finset.sum_congr rfl
  rintro ⟨p, q⟩ hpq
  exact gain_adjacent hab hbc (mem_pairs.mp hpq).2.2.1

/-- A series that is a function of time has at most one straddling pair. -/
theorem card_straddling_le_one {S : Finset (Point κ)}
    (hS : Set.InjOn Point.time (S : Set (Point κ)))
    (a b c : κ) : (straddling S a b c).card ≤ 1 := by
  rw [Finset.card_le_one]
  rintro ⟨p, q⟩ hpq ⟨p', q'⟩ hpq'
  simp only [straddling, Finset.mem_filter, mem_pairs] at hpq hpq'
  obtain ⟨⟨hp, hq, -, hgap⟩, hpw, hqw, -⟩ := hpq
  obtain ⟨⟨hp', hq', -, hgap'⟩, hpw', hqw', -⟩ := hpq'
  -- each start lies before `b`, so it is not past the other pair's end
  have hpp : p'.time ≤ p.time :=
    (hgap p' hp').resolve_right (not_le.mpr (hpw'.2.trans_le hqw.1))
  have hpp' : p.time ≤ p'.time :=
    (hgap' p hp).resolve_right (not_le.mpr (hpw.2.trans_le hqw'.1))
  have hqq : q.time ≤ q'.time :=
    (hgap q' hq').resolve_left (not_le.mpr (hpw.2.trans_le hqw'.1))
  have hqq' : q'.time ≤ q.time :=
    (hgap' q hq).resolve_left (not_le.mpr (hpw'.2.trans_le hqw.1))
  rw [hS hp hp' (le_antisymm hpp' hpp), hS hq hq' (le_antisymm hqq hqq')]

/-! ## Walking a series in ascending order -/

/-- The points are listed by strictly increasing instants. -/
def Ascending (l : List (Point κ)) : Prop := l.Pairwise (·.time < ·.time)

theorem Ascending.injOn_time {l : List (Point κ)} (hl : Ascending l) :
    Set.InjOn Point.time (l.toFinset : Set (Point κ)) := by
  have hmap : (l.map Point.time).Nodup := List.pairwise_map.mpr (hl.imp fun h => h.ne)
  intro p hp q hq hpq
  exact List.inj_on_of_nodup_map hmap (List.mem_toFinset.mp hp) (List.mem_toFinset.mp hq) hpq

/-- The neighbours of an ascending list are its consecutive pairs. -/
theorem mem_zip_tail {l : List (Point κ)} (hl : Ascending l) {p q : Point κ} :
    (p, q) ∈ l.zip l.tail ↔ p ∈ l ∧ q ∈ l ∧ Consecutive l.toFinset p q := by
  induction l with
  | nil => simp
  | cons x rest ih =>
      obtain ⟨hx, hrest⟩ := List.pairwise_cons.mp hl
      cases rest with
      | nil =>
          simp only [List.tail_cons, List.zip_nil_right, List.not_mem_nil, List.mem_singleton,
            false_iff]
          rintro ⟨rfl, rfl, hlt, -⟩
          exact lt_irrefl _ hlt
      | cons y rest =>
          have hy := (List.pairwise_cons.mp hrest).1
          have hzip : (x :: y :: rest).zip (x :: y :: rest).tail
              = (x, y) :: (y :: rest).zip (y :: rest).tail := rfl
          rw [hzip, List.mem_cons, ih hrest]
          refine ⟨?_, ?_⟩
          · rintro (heq | ⟨hp, hq, hlt, hgap⟩)
            · -- the first two points, with the rest of the list after them
              obtain ⟨rfl, rfl⟩ := Prod.mk.inj heq
              refine ⟨by simp, by simp, hx _ (by simp), ?_⟩
              intro r hr
              simp only [List.mem_toFinset, List.mem_cons] at hr
              rcases hr with rfl | rfl | hr
              · exact .inl le_rfl
              · exact .inr le_rfl
              · exact .inr (hy r hr).le
            · refine ⟨List.mem_cons_of_mem _ hp, List.mem_cons_of_mem _ hq, hlt, ?_⟩
              intro r hr
              rcases List.mem_cons.mp (List.mem_toFinset.mp hr) with rfl | hr
              · exact .inl (hx p hp).le
              · exact hgap r (List.mem_toFinset.mpr hr)
          · rintro ⟨hp, hq, hlt, hgap⟩
            have hqr : q ∈ y :: rest := by
              rcases List.mem_cons.mp hq with rfl | h
              · rcases List.mem_cons.mp hp with rfl | hp
                · exact absurd hlt (lt_irrefl _)
                · exact absurd hlt (hx p hp).not_gt
              · exact h
            rcases List.mem_cons.mp hp with rfl | hp
            · -- the pair starts at the head, so nothing may lie between it and the second point
              left
              rcases List.mem_cons.mp hqr with rfl | hqr
              · rfl
              · rcases hgap y (by simp) with h | h
                · exact absurd h (hx y (by simp)).not_ge
                · exact absurd (hy q hqr) h.not_gt
            · exact .inr ⟨hp, hqr, hlt, fun r hr =>
                hgap r (List.mem_toFinset.mpr (List.mem_cons_of_mem _ (List.mem_toFinset.mp hr)))⟩

theorem nodup_zip_tail {l : List (Point κ)} (hl : Ascending l) : (l.zip l.tail).Nodup := by
  have hnodup : l.Nodup := hl.imp fun h heq => h.ne (congrArg Point.time heq)
  have hsnd : ((l.zip l.tail).map Prod.snd).Nodup := by
    rw [List.map_snd_zip (by simp)]
    exact hnodup.sublist (List.tail_sublist l)
  exact hsnd.of_map

/-- A sum over the consecutive pairs is a sum over the neighbours. -/
theorem sum_pairs_toFinset {l : List (Point κ)} (hl : Ascending l) (f : Point κ × Point κ → ℕ) :
    ∑ pq ∈ pairs l.toFinset, f pq = ((l.zip l.tail).map f).sum := by
  have hpairs : pairs l.toFinset = (l.zip l.tail).toFinset := by
    ext ⟨p, q⟩
    simp only [mem_pairs, List.mem_toFinset, mem_zip_tail hl]
  rw [hpairs, List.sum_toFinset f (nodup_zip_tail hl)]

/-- The increase of an ascending list of points, as a walk along it computes it. -/
theorem increase_toFinset {l : List (Point κ)} (hl : Ascending l) (W : κ → Prop)
    [DecidablePred W] :
    increase l.toFinset W = ((l.zip l.tail).map (gain W)).sum := by
  rw [increase_eq_sum_gain, sum_pairs_toFinset hl]

/-- Every series that is a function of time can be listed in ascending order. -/
theorem exists_ascending {S : Finset (Point κ)}
    (hS : Set.InjOn Point.time (S : Set (Point κ))) :
    ∃ l : List (Point κ), Ascending l ∧ l.toFinset = S := by
  let le : Point κ → Point κ → Prop := fun p q => p.time ≤ q.time
  have hperm := List.perm_insertionSort le S.toList
  have hsorted : (S.toList.insertionSort le).Pairwise le :=
    List.pairwise_insertionSort le S.toList
  refine ⟨S.toList.insertionSort le, ?_, ?_⟩
  · have hnodup : (S.toList.insertionSort le).Nodup := hperm.nodup_iff.mpr S.nodup_toList
    refine List.Pairwise.imp_of_mem ?_ (hsorted.and hnodup)
    rintro p q hp hq ⟨hle, hne⟩
    have hpS : p ∈ S := Finset.mem_toList.mp (hperm.mem_iff.mp hp)
    have hqS : q ∈ S := Finset.mem_toList.mp (hperm.mem_iff.mp hq)
    exact lt_of_le_of_ne hle fun heq => hne (hS hpS hqS heq)
  · ext p
    rw [List.mem_toFinset, hperm.mem_iff, Finset.mem_toList]

/-! ## Telescoping -/

omit [LinearOrder κ] in
/-- Neighbour differences of values that never decrease along the list telescope. -/
theorem sum_zip_tail_sub (g : Point κ → ℕ) (x : Point κ) (l : List (Point κ))
    (hg : (x :: l).Pairwise (g · ≤ g ·)) :
    (((x :: l).zip l).map fun pq => g pq.2 - g pq.1).sum
      = g ((x :: l).getLast (List.cons_ne_nil _ _)) - g x := by
  induction l generalizing x with
  | nil => simp
  | cons y rest ih =>
      obtain ⟨hx, hrest⟩ := List.pairwise_cons.mp hg
      have hlast : g y ≤ g ((y :: rest).getLast (List.cons_ne_nil _ _)) := by
        rcases List.mem_cons.mp (List.getLast_mem (List.cons_ne_nil y rest)) with h | h
        · exact le_of_eq (congrArg g h.symm)
        · exact (List.pairwise_cons.mp hrest).1 _ h
      have hxy : g x ≤ g y := hx y (by simp)
      rw [List.zip_cons_cons, List.map_cons, List.sum_cons, ih y hrest,
        List.getLast_cons (List.cons_ne_nil y rest)]
      dsimp only
      omega

/-- `b` is the last point before `a` or, when there is none, the first point. -/
def IsStart (S : Finset (Point κ)) (a : κ) (b : Point κ) : Prop :=
  b ∈ S ∧
    ((b.time < a ∧ ∀ r ∈ S, r.time < a → r.time ≤ b.time) ∨
      ((∀ r ∈ S, a ≤ r.time) ∧ ∀ r ∈ S, b.time ≤ r.time))

/-- `e` is the first point at or after `c` or, when there is none, the last point. -/
def IsEnd (S : Finset (Point κ)) (c : κ) (e : Point κ) : Prop :=
  e ∈ S ∧
    ((c ≤ e.time ∧ ∀ r ∈ S, c ≤ r.time → e.time ≤ r.time) ∨
      ((∀ r ∈ S, r.time < c) ∧ ∀ r ∈ S, r.time ≤ e.time))

/-- The counter never decreases; in particular it is a function of time. -/
def Nondecreasing (S : Finset (Point κ)) : Prop :=
  ∀ p ∈ S, ∀ q ∈ S, p.time ≤ q.time → p.value ≤ q.value

theorem Nondecreasing.injOn_time {S : Finset (Point κ)} (hS : Nondecreasing S) :
    Set.InjOn Point.time (S : Set (Point κ)) := by
  intro p hp q hq hpq
  have hv : p.value = q.value :=
    le_antisymm (hS p hp q hq hpq.le) (hS q hq p hp hpq.ge)
  cases p
  cases q
  simp_all

theorem exists_isStart {S : Finset (Point κ)} (hS : S.Nonempty) (a : κ) :
    ∃ b, IsStart S a b := by
  by_cases hbefore : (S.filter (·.time < a)).Nonempty
  · obtain ⟨b, hb, hmax⟩ := Finset.exists_max_image _ Point.time hbefore
    rw [Finset.mem_filter] at hb
    exact ⟨b, hb.1, .inl ⟨hb.2, fun r hr hra => hmax r (Finset.mem_filter.mpr ⟨hr, hra⟩)⟩⟩
  · obtain ⟨b, hb, hmin⟩ := Finset.exists_min_image S Point.time hS
    rw [Finset.not_nonempty_iff_eq_empty, Finset.filter_eq_empty_iff] at hbefore
    exact ⟨b, hb, .inr ⟨fun r hr => not_lt.mp (hbefore hr), hmin⟩⟩

theorem exists_isEnd {S : Finset (Point κ)} (hS : S.Nonempty) (c : κ) :
    ∃ e, IsEnd S c e := by
  by_cases hafter : (S.filter (c ≤ ·.time)).Nonempty
  · obtain ⟨e, he, hmin⟩ := Finset.exists_min_image _ Point.time hafter
    rw [Finset.mem_filter] at he
    exact ⟨e, he.1, .inl ⟨he.2, fun r hr hcr => hmin r (Finset.mem_filter.mpr ⟨hr, hcr⟩)⟩⟩
  · obtain ⟨e, he, hmax⟩ := Finset.exists_max_image S Point.time hS
    rw [Finset.not_nonempty_iff_eq_empty, Finset.filter_eq_empty_iff] at hafter
    exact ⟨e, he, .inr ⟨fun r hr => not_le.mp (hafter hr), hmax⟩⟩

/-- A start point does not come after an end point. -/
theorem IsStart.time_le {S : Finset (Point κ)} {a c : κ} {b e : Point κ} (hb : IsStart S a b)
    (he : IsEnd S c e) (hac : a ≤ c) : b.time ≤ e.time := by
  obtain ⟨hbS, ⟨hba, -⟩ | ⟨-, hfirst⟩⟩ := hb
  · obtain ⟨-, ⟨hce, -⟩ | ⟨-, hlast⟩⟩ := he
    · exact (hba.le.trans hac).trans hce
    · exact hlast b hbS
  · exact hfirst e he.1

theorem Nondecreasing.value_eq {S : Finset (Point κ)} (hS : Nondecreasing S) {p q : Point κ}
    (hp : p ∈ S) (hq : q ∈ S) (hpq : p.time = q.time) : p.value = q.value :=
  le_antisymm (hS p hp q hq hpq.le) (hS q hq p hp hpq.ge)

/-- The value at `p`, clamped between the start point `b` and the end point `e`. -/
def clamp (b e p : Point κ) : ℕ :=
  if p.time ≤ b.time then b.value else if e.time ≤ p.time then e.value else p.value

theorem clamp_of_le {b e p : Point κ} (h : p.time ≤ b.time) : clamp b e p = b.value :=
  if_pos h

section Clamp

variable {S : Finset (Point κ)} {b e p q : Point κ} (hS : Nondecreasing S) (hb : b ∈ S)
  (he : e ∈ S) (hbe : b.time ≤ e.time)

include hS hb he

theorem clamp_of_between (hp : p ∈ S) (hbp : b.time ≤ p.time) (hpe : p.time ≤ e.time) :
    clamp b e p = p.value := by
  unfold clamp
  split_ifs with h1 h2
  · exact hS.value_eq hb hp (le_antisymm hbp h1)
  · exact hS.value_eq he hp (le_antisymm h2 hpe)
  · rfl

include hbe

theorem clamp_of_ge (h : e.time ≤ p.time) : clamp b e p = e.value := by
  unfold clamp
  split_ifs with h1
  · exact hS.value_eq hb he (le_antisymm hbe (h.trans h1))
  · rfl

theorem clamp_mono (hp : p ∈ S) (hq : q ∈ S) (hpq : p.time ≤ q.time) :
    clamp b e p ≤ clamp b e q := by
  rcases le_total q.time b.time with hqb | hbq
  · rw [clamp_of_le hqb, clamp_of_le (hpq.trans hqb)]
  · rcases le_total e.time q.time with heq | hqe
    · rw [clamp_of_ge hS hb he hbe heq]
      unfold clamp
      split_ifs with h1 h2
      · exact hS b hb e he hbe
      · exact le_rfl
      · exact hS p hp e he (le_of_not_ge h2)
    · rw [clamp_of_between hS hb he hq hbq hqe]
      unfold clamp
      split_ifs with h1 h2
      · exact hS b hb q hq hbq
      · exact hS e he q hq (h2.trans hpq)
      · exact hS p hp q hq hpq

end Clamp

/-- The gain of a consecutive pair is the increase of its clamped value: a counted pair
    lies between the two end points, any other pair lies on one side of them. -/
theorem gain_eq_clamp_sub {S : Finset (Point κ)} {a c : κ} {b e : Point κ}
    (hmono : Nondecreasing S) (hb : IsStart S a b) (he : IsEnd S c e)
    (hin : ∃ r ∈ S, Within a c r.time) {p q : Point κ} (hpq : (p, q) ∈ pairs S) :
    gain (Within a c) (p, q) = clamp b e q - clamp b e p := by
  obtain ⟨hp, hq, hlt, hgap⟩ := mem_pairs.mp hpq
  obtain ⟨w, hw, hwin⟩ := hin
  have hbe : b.time ≤ e.time := hb.time_le he (hwin.1.trans hwin.2.le)
  obtain ⟨hbS, hb⟩ := hb
  obtain ⟨heS, he⟩ := he
  by_cases hcount : Within a c p.time ∨ Within a c q.time
  · -- a counted pair lies between the start and the end point, where the clamp changes nothing
    have hbp : b.time ≤ p.time := by
      rcases hb with ⟨hba, -⟩ | ⟨-, hfirst⟩
      · rcases hgap b hbS with h | h
        · exact h
        · unfold Within at hcount
          grind
      · exact hfirst p hp
    have hqe : q.time ≤ e.time := by
      rcases he with ⟨hce, -⟩ | ⟨-, hlast⟩
      · rcases hgap e heS with h | h
        · unfold Within at hcount
          grind
        · exact h
      · exact hlast q hq
    rw [gain, if_pos ⟨hcount, hmono p hp q hq hlt.le⟩,
      clamp_of_between hmono hbS heS hq (hbp.trans hlt.le) hqe,
      clamp_of_between hmono hbS heS hp hbp (hlt.le.trans hqe)]
  · -- an uncounted pair lies before the window or after it, where the clamp is constant
    have hside : q.time < a ∨ c ≤ p.time := by
      have := hgap w hw
      unfold Within at hcount hwin
      grind
    have hconst : clamp b e q = clamp b e p := by
      rcases hside with h | h
      · have hqb : q.time ≤ b.time := by
          rcases hb with ⟨-, hlast⟩ | ⟨hall, -⟩
          · exact hlast q hq h
          · exact absurd (hall q hq) (not_le.mpr h)
        rw [clamp_of_le hqb, clamp_of_le (hlt.le.trans hqb)]
      · have hep : e.time ≤ p.time := by
          rcases he with ⟨-, hfirst⟩ | ⟨hall, -⟩
          · exact hfirst p hp h
          · exact absurd (hall p hp) (not_lt.mpr h)
        rw [clamp_of_ge hmono hbS heS hbe (hep.trans hlt.le),
          clamp_of_ge hmono hbS heS hbe hep]
    rw [gain, if_neg (fun h => hcount h.1), hconst, Nat.sub_self]

/-- The increase of a nondecreasing series with a point in the window telescopes to the
    value at its end point less the value at its start point. -/
theorem increase_telescopes {S : Finset (Point κ)} {a c : κ} {b e : Point κ}
    (hmono : Nondecreasing S) (hb : IsStart S a b) (he : IsEnd S c e)
    (hin : ∃ r ∈ S, Within a c r.time) :
    increase S (Within a c) = e.value - b.value := by
  have hbe : b.time ≤ e.time := by
    obtain ⟨w, -, hwin⟩ := hin
    exact hb.time_le he (hwin.1.trans hwin.2.le)
  obtain ⟨l, hl, rfl⟩ := exists_ascending hmono.injOn_time
  have hbS := hb.1
  have heS := he.1
  cases l with
  | nil => simp at hbS
  | cons x rest =>
      have hmem : ∀ p ∈ x :: rest, p ∈ (x :: rest).toFinset := fun p => List.mem_toFinset.mpr
      -- clamped between the two ends the values rise, so the gains of the pairs telescope
      have hclamp : (x :: rest).Pairwise (clamp b e · ≤ clamp b e ·) :=
        hl.imp_of_mem fun hp hq hpq =>
          clamp_mono hmono hbS heS hbe (hmem _ hp) (hmem _ hq) hpq.le
      have hfirst : x.time ≤ b.time := by
        rcases List.mem_cons.mp (List.mem_toFinset.mp hbS) with rfl | h
        · exact le_rfl
        · exact ((List.pairwise_cons.mp hl).1 b h).le
      have hlast : e.time ≤ ((x :: rest).getLast (List.cons_ne_nil _ _)).time :=
        (hl.imp le_of_lt).rel_getLast_of_rel_getLast_getLast (List.mem_toFinset.mp heS) le_rfl
      rw [increase_eq_sum_gain,
        Finset.sum_congr rfl fun pq hpq => gain_eq_clamp_sub hmono hb he hin hpq,
        sum_pairs_toFinset hl, List.tail_cons, sum_zip_tail_sub (clamp b e) x rest hclamp,
        clamp_of_le hfirst, clamp_of_ge hmono hbS heS hbe hlast]

end TimeSeries
