/-
  OwAnalytics.Lib.Arrangement

  Orders with ties.  What puts a list into an order that does not tell all elements
  apart may put equal ones as it likes; what is to hold of the first elements, or of
  those before the first that fails, has to hold whichever way that goes.
-/

import Mathlib.Data.List.Sort
import Mathlib.Data.List.TakeWhile

namespace OwAnalytics

variable {α : Type*}

/-- A way of putting lists into an order. -/
structure Arrangement (r : α → α → Prop) where
  arrange : List α → List α
  perm : ∀ l, (arrange l).Perm l
  sorted : ∀ l, (arrange l).Pairwise r

/-- The first elements of a list in an order, with ties in any way. -/
def IsFirst (r : α → α → Prop) (n : ℕ) (l first : List α) : Prop :=
  ∃ l' : List α, l'.Perm l ∧ l'.Pairwise r ∧ first = l'.take n

/-! ## Orders by keys -/

/-- In the order of a key. -/
def keyLe {κ : Type*} [Ord κ] (f : α → κ) (a b : α) : Prop := (compare (f a) (f b)).isLE = true

/-- In the reverse order of a key. -/
def keyGe {κ : Type*} [Ord κ] (f : α → κ) (a b : α) : Prop := keyLe f b a

/-- By the first order, and where that ties by the second. -/
def thenLe (r s : α → α → Prop) (a b : α) : Prop := r a b ∧ (r b a → s a b)

section Keys

variable {κ : Type*} [Ord κ] (f : α → κ) (r s : α → α → Prop)

instance : DecidableRel (keyLe f) := fun _ _ => inferInstanceAs (Decidable (_ = true))

instance : DecidableRel (keyGe f) := fun a b => inferInstanceAs (Decidable (keyLe f b a))

instance [DecidableRel r] [DecidableRel s] : DecidableRel (thenLe r s) :=
  fun _ _ => inferInstanceAs (Decidable (_ ∧ (_ → _)))

instance [Std.TransOrd κ] : IsTrans α (keyLe f) := ⟨fun _ _ _ => Std.TransCmp.isLE_trans⟩

instance [Std.TransOrd κ] : IsTrans α (keyGe f) := ⟨fun _ _ _ h h' => Std.TransCmp.isLE_trans h' h⟩

instance [Std.OrientedOrd κ] : Std.Total (keyLe f) := ⟨by
  intro a b
  have hswap : compare (f b) (f a) = (compare (f a) (f b)).swap := Std.OrientedCmp.eq_swap
  unfold keyLe
  rw [hswap]
  cases compare (f a) (f b) <;> simp⟩

instance [Std.OrientedOrd κ] : Std.Total (keyGe f) := ⟨fun a b => total_of (keyLe f) b a⟩

instance [IsTrans α r] [IsTrans α s] : IsTrans α (thenLe r s) := ⟨by
  rintro a b c ⟨hab, hs⟩ ⟨hbc, hs'⟩
  exact ⟨trans_of r hab hbc, fun hca =>
    trans_of s (hs (trans_of r hbc hca)) (hs' (trans_of r hca hab))⟩⟩

instance [Std.Total r] [Std.Total s] : Std.Total (thenLe r s) := ⟨by
  intro a b
  by_cases hab : r a b
  · by_cases hba : r b a
    · exact (total_of s a b).imp (fun h => ⟨hab, fun _ => h⟩) fun h => ⟨hba, fun _ => h⟩
    · exact .inl ⟨hab, fun h => absurd h hba⟩
  · exact .inr ⟨(total_of r a b).resolve_left hab, fun h => absurd h hab⟩⟩

theorem keyLe_iff [LE κ] [Std.LawfulOrderOrd κ] {f : α → κ} {a b : α} :
    keyLe f a b ↔ f a ≤ f b :=
  Std.LawfulOrderOrd.isLE_compare _ _

theorem keyLe_antisymm [Std.OrientedOrd κ] [Std.LawfulEqOrd κ] {f : α → κ} {a b : α}
    (h : keyLe f a b) (h' : keyLe f b a) : f a = f b :=
  Std.LawfulEqCmp.eq_of_compare (Std.OrientedCmp.isLE_antisymm h h')

end Keys

namespace Arrangement

variable {r : α → α → Prop}

theorem mem_arrange (A : Arrangement r) {l : List α} {x : α} : x ∈ A.arrange l ↔ x ∈ l :=
  (A.perm l).mem_iff

theorem isFirst_take (A : Arrangement r) (n : ℕ) (l : List α) :
    IsFirst r n l ((A.arrange l).take n) :=
  ⟨A.arrange l, A.perm l, A.sorted l, rfl⟩

/-- Any sort that is total and transitive. -/
def insertionSort (r : α → α → Prop) [DecidableRel r] [IsTrans α r] [Std.Total r] :
    Arrangement r where
  arrange := List.insertionSort r
  perm := List.perm_insertionSort r
  sorted := List.pairwise_insertionSort r

section Ties

variable [Std.Total r] [DecidableRel r] {n : ℕ} {l : List α}

/-- Fewer elements are strictly before one of the first than there are of these. -/
theorem countP_lt_of_mem_take (hsorted : l.Pairwise r) {x : α} (hx : x ∈ l.take n) :
    l.countP (fun y => ¬ r x y) < n := by
  obtain ⟨pre, post, hsplit⟩ := List.append_of_mem hx
  have hlist : l = pre ++ (x :: (post ++ l.drop n)) := by
    conv_lhs => rw [← List.take_append_drop n l, hsplit]
    simp
  rw [hlist, List.pairwise_append] at hsorted
  -- from the element on none is strictly before it
  have hafter : (x :: (post ++ l.drop n)).countP (fun y => ¬ r x y) = 0 := by
    refine List.countP_eq_zero.mpr fun y hy => ?_
    rcases List.mem_cons.mp hy with rfl | hy
    · simpa using (total_of r y y).elim id id
    · simpa using (List.pairwise_cons.mp hsorted.2.1).1 y hy
  have hpre : pre.length < n := by
    have hlength := congrArg List.length hsplit
    rw [List.length_take, List.length_append, List.length_cons] at hlength
    omega
  rw [hlist, List.countP_append, hafter]
  have hle : pre.countP (fun y => decide (¬ r x y)) ≤ pre.length := List.countP_le_length
  omega

/-- Where the order tells all elements apart, the first are those with fewer strictly before. -/
theorem mem_take_iff (A : Arrangement r) (hnodup : l.Nodup)
    (hanti : ∀ x ∈ l, ∀ y ∈ l, r x y → r y x → x = y) {x : α} :
    x ∈ (A.arrange l).take n ↔ x ∈ l ∧ l.countP (fun y => ¬ r x y) < n := by
  refine ⟨?_, ?_⟩
  · intro hx
    refine ⟨A.mem_arrange.mp (List.mem_of_mem_take hx), ?_⟩
    rw [← (A.perm l).countP_eq]
    exact countP_lt_of_mem_take (A.sorted l) hx
  · rintro ⟨hx, hcount⟩
    obtain ⟨pre, post, hsplit⟩ := List.append_of_mem (A.mem_arrange.mpr hx)
    have hsorted := A.sorted l
    have hdistinct := (A.perm l).nodup_iff.mpr hnodup
    rw [hsplit, List.pairwise_append] at hsorted
    rw [hsplit, List.nodup_append] at hdistinct
    -- all before the element are strictly before it
    have hall : ∀ y ∈ pre, decide (¬ r x y) = true := by
      intro y hy
      have hyx := hsorted.2.2 y hy x List.mem_cons_self
      have hne := hdistinct.2.2 y hy x List.mem_cons_self
      have hin : y ∈ l := A.mem_arrange.mp (by rw [hsplit]; exact List.mem_append_left _ hy)
      exact decide_eq_true fun hxy => hne (hanti y hin x hx hyx hxy)
    have hpre : pre.length < n := by
      rw [← (A.perm l).countP_eq, hsplit, List.countP_append,
        List.countP_eq_length.mpr hall] at hcount
      omega
    rw [hsplit, List.take_append, List.mem_append]
    obtain ⟨k, hk⟩ : ∃ k, n - pre.length = k + 1 := ⟨_, (Nat.succ_pred_eq_of_pos (by omega)).symm⟩
    rw [hk]
    exact .inr List.mem_cons_self

end Ties

end Arrangement

/-! ## The first elements -/

section First

variable {r : α → α → Prop} {n : ℕ} {l first : List α}

theorem IsFirst.mem (h : IsFirst r n l first) {x : α} (hx : x ∈ first) : x ∈ l := by
  obtain ⟨l', hperm, -, rfl⟩ := h
  exact hperm.mem_iff.mp (List.mem_of_mem_take hx)

/-- They are the first of the elements with a property, if they all have it. -/
theorem IsFirst.filter (h : IsFirst r n l first) {p : α → Bool} (hp : ∀ x ∈ first, p x = true) :
    IsFirst r n (l.filter p) first := by
  obtain ⟨l', hperm, hsorted, rfl⟩ := h
  refine ⟨l'.filter p, hperm.filter p, hsorted.filter p, ?_⟩
  have hsplit : l'.filter p = l'.take n ++ (l'.drop n).filter p := by
    conv_lhs => rw [← List.take_append_drop n l', List.filter_append, List.filter_eq_self.mpr hp]
  rw [hsplit, List.take_append, List.take_take, Nat.min_self, List.length_take]
  -- a list that is shorter is taken whole
  by_cases hlong : n ≤ l'.length
  · rw [Nat.min_eq_left hlong, Nat.sub_self, List.take_zero, List.append_nil]
  · rw [List.drop_of_length_le (by omega), List.filter_nil, List.take_nil, List.append_nil]

/-- Fewer first elements than there could be are all there are. -/
theorem IsFirst.perm_of_length_lt (h : IsFirst r n l first) (hlt : first.length < n) :
    first.Perm l := by
  obtain ⟨l', hperm, -, rfl⟩ := h
  rw [List.length_take] at hlt
  rw [List.take_of_length_le (by omega)]
  exact hperm

end First

/-! ## Cuts

    What comes before the first element that fails. -/

section Cuts

variable {r : α → α → Prop} {n : ℕ} {l first : List α} {wanted ok : α → Bool}

/-- What is wanted comes first in a sorted list, if nothing else is before it. -/
theorem eq_filter_append_of_pairwise (hsorted : l.Pairwise r)
    (hbefore : ∀ x ∈ l, ¬ wanted x = true → ∀ y ∈ l, wanted y = true → ¬ r x y) :
    l = l.filter wanted ++ l.filter (fun x => !wanted x) := by
  induction l with
  | nil => rfl
  | cons x rest ih =>
      rw [List.pairwise_cons] at hsorted
      have hrest := ih hsorted.2 fun a ha hnot b hb =>
        hbefore a (List.mem_cons_of_mem _ ha) hnot b (List.mem_cons_of_mem _ hb)
      by_cases hx : wanted x = true
      · rw [List.filter_cons_of_pos hx, List.filter_cons_of_neg (by simp [hx]), List.cons_append,
          ← hrest]
      · -- nothing wanted can follow
        have hnone : rest.filter wanted = [] := by
          refine List.filter_eq_nil_iff.mpr fun y hy hwanted => ?_
          exact hbefore x List.mem_cons_self hx y (List.mem_cons_of_mem _ hy) hwanted
            (hsorted.1 y hy)
        rw [hnone, List.nil_append] at hrest
        rw [List.filter_cons_of_neg hx, List.filter_cons_of_pos (by simp [hx]), hnone,
          List.nil_append, ← hrest]

/-- A beginning of a list without one of its elements ends before that. -/
theorem prefix_of_notMem {pre post : List α} {x : α} (h : l <+: pre ++ x :: post) (hx : x ∉ l) :
    l <+: pre := by
  rcases List.prefix_or_prefix_of_prefix h (List.prefix_append pre (x :: post)) with hle | hge
  · exact hle
  · obtain ⟨t, rfl⟩ := hge
    rw [List.prefix_append_right_inj] at h
    cases t with
    | nil => exact (List.append_nil pre).symm ▸ List.prefix_rfl
    | cons y t =>
        obtain ⟨rfl, -⟩ := List.cons_prefix_cons.mp h
        exact absurd (List.mem_append_right _ List.mem_cons_self) hx

/-- An order whose cut leaves something out has all that is wanted before that, and so have the
    others. -/
theorem takeWhile_perm_of_notMem
    (h : ∀ first, IsFirst r n l first → IsFirst r n (l.filter wanted) (first.takeWhile ok))
    {x : α} (hfirst : IsFirst r n l first) (hx : x ∈ first) (hout : x ∉ first.takeWhile ok) :
    (l.filter wanted).length < n ∧
      ∀ first, IsFirst r n l first → (first.takeWhile ok).Perm (l.filter wanted) := by
  have hlt : (first.takeWhile ok).length < first.length := by
    refine lt_of_le_of_ne (List.takeWhile_prefix ok).length_le fun heq => ?_
    rw [(List.takeWhile_prefix ok).eq_of_length heq] at hout
    exact hout hx
  have hle : first.length ≤ n := by
    obtain ⟨l', -, -, rfl⟩ := hfirst
    exact List.length_take_le _ _
  have hperm := (h first hfirst).perm_of_length_lt (hlt.trans_le hle)
  have hfew : (l.filter wanted).length < n := hperm.length_eq ▸ hlt.trans_le hle
  refine ⟨hfew, fun first hfirst => (h first hfirst).perm_of_length_lt ?_⟩
  obtain ⟨l', hperm', -, hcut⟩ := h first hfirst
  rw [hcut, List.length_take, hperm'.length_eq]
  omega

/-- Where the others come after, and begin with one that fails, the cut is made there. -/
theorem takeWhile_take_eq_filter {l' : List α} (hperm : l'.Perm l) (hsorted : l'.Pairwise r)
    (hok : ∀ x ∈ l, wanted x = true → ok x = true) (hfew : (l.filter wanted).length < n)
    (hothers : ∀ x ∈ l, ¬ wanted x = true → (∀ y ∈ l, wanted y = true → ¬ r x y) ∧
      (ok x = true → ∃ y ∈ l, ¬ ok y = true ∧ ¬ r x y)) :
    (l'.take n).takeWhile ok = l'.filter wanted := by
  have hin : ∀ {x}, x ∈ l' → x ∈ l := fun hx => hperm.mem_iff.mp hx
  have hsplit : l' = l'.filter wanted ++ l'.filter (fun x => !wanted x) :=
    eq_filter_append_of_pairwise hsorted
      fun x hx hnot y hy hw => (hothers x (hin hx) hnot).1 y (hin hy) hw
  have hlength : (l'.filter wanted).length < n := (hperm.filter wanted).length_eq ▸ hfew
  have hfails : ∀ k, ((l'.filter fun x => !wanted x).take k).takeWhile ok = [] := by
    intro k
    cases hcons : l'.filter fun x => !wanted x with
    | nil => rw [List.take_nil, List.takeWhile_nil]
    | cons x rest =>
        have hx : x ∈ l'.filter fun x => !wanted x := hcons ▸ List.mem_cons_self
        have hnot : ¬ wanted x = true := by simpa using (List.mem_filter.mp hx).2
        -- The first of the others fails: one that does not comes after one that does.
        have hhead : ¬ ok x = true := by
          intro hokx
          obtain ⟨y, hy, hyfails, hbefore⟩ :=
            (hothers x (hin (List.mem_of_mem_filter hx)) hnot).2 hokx
          have hymem : y ∈ x :: rest := by
            rw [← hcons, List.mem_filter]
            refine ⟨hperm.mem_iff.mpr hy, ?_⟩
            by_contra hyw
            exact hyfails (hok y hy (by simpa using hyw))
          rcases List.mem_cons.mp hymem with rfl | hyrest
          · exact hyfails hokx
          · have hpair := hsorted.filter fun x => !wanted x
            rw [hcons, List.pairwise_cons] at hpair
            exact hbefore (hpair.1 y hyrest)
        cases k with
        | zero => rw [List.take_zero, List.takeWhile_nil]
        | succ k => rw [List.take_succ_cons, List.takeWhile_cons_of_neg hhead]
  conv_lhs => rw [hsplit]
  rw [List.take_append, List.take_of_length_le hlength.le,
    List.takeWhile_append_of_pos fun x hx =>
      hok x (hin (List.mem_of_mem_filter hx)) (List.mem_filter.mp hx).2,
    hfails, List.append_nil]

end Cuts

/-! ## Whichever way the ties go -/

section AnyTies

variable {r : α → α → Prop} [Std.Total r] [IsTrans α r] [DecidableRel r] {n : ℕ} {l : List α}

/-- An element can come before all that it ties with. -/
theorem exists_early {x : α} (hx : x ∈ l) :
    ∃ pre post, (pre ++ x :: post).Perm l ∧ (pre ++ x :: post).Pairwise r ∧
      ∀ y ∈ pre, ¬ r x y := by
  classical
  have hperm := List.perm_insertionSort r l
  have hsorted := List.pairwise_insertionSort r l
  have hsplit := List.takeWhile_append_dropWhile (p := fun y => decide (¬ r x y))
    (l := l.insertionSort r)
  have hpre : ∀ y ∈ (l.insertionSort r).takeWhile fun y => decide (¬ r x y), ¬ r x y :=
    fun y hy => of_decide_eq_true (List.mem_takeWhile_imp (p := fun y => decide (¬ r x y)) hy)
  rw [← hsplit] at hperm hsorted
  rw [List.pairwise_append] at hsorted
  have hmem : x ∈ (l.insertionSort r).dropWhile fun y => decide (¬ r x y) := by
    refine (List.mem_append.mp (hperm.mem_iff.mpr hx)).resolve_left fun hbefore => ?_
    exact hpre x hbefore ((total_of r x x).elim id id)
  -- the rest starts with an element that `x` is not behind, and so is behind none of them
  have hrest : ∀ y ∈ (l.insertionSort r).dropWhile fun y => decide (¬ r x y), r x y := by
    have hhead := List.head?_dropWhile_not (fun y => decide (¬ r x y)) (l.insertionSort r)
    cases hcons : (l.insertionSort r).dropWhile fun y => decide (¬ r x y) with
    | nil => simp
    | cons z rest =>
        rw [hcons] at hhead hsorted
        have hz : r x z := by simpa using hhead
        intro y hy
        rcases List.mem_cons.mp hy with rfl | hy
        · exact hz
        · exact trans_of r hz ((List.pairwise_cons.mp hsorted.2.1).1 y hy)
  refine ⟨_, _, ((List.perm_cons_erase hmem).symm.append_left _).trans hperm, ?_, hpre⟩
  rw [List.pairwise_append, List.pairwise_cons]
  refine ⟨hsorted.1, ⟨fun y hy => hrest y (List.mem_of_mem_erase hy), ?_⟩, fun a ha b hb => ?_⟩
  · exact hsorted.2.1.sublist List.erase_sublist
  · refine hsorted.2.2 a ha b ?_
    rcases List.mem_cons.mp hb with rfl | hb
    · exact hmem
    · exact List.mem_of_mem_erase hb

/-- Such an order has it among the first, if fewer are strictly before it. -/
theorem exists_first_of_countP_lt {x : α} (hx : x ∈ l) (hlt : l.countP (fun y => ¬ r x y) < n) :
    ∃ first, IsFirst r n l first ∧ x ∈ first := by
  obtain ⟨pre, post, hperm, hsorted, hpre⟩ := exists_early (r := r) hx
  refine ⟨_, ⟨_, hperm, hsorted, rfl⟩, ?_⟩
  have hlength : pre.length < n := by
    have hall : ∀ y ∈ pre, decide (¬ r x y) = true := fun y hy => decide_eq_true (hpre y hy)
    rw [← hperm.countP_eq, List.countP_append, List.countP_eq_length.mpr hall] at hlt
    omega
  obtain ⟨k, hk⟩ : ∃ k, n - pre.length = k + 1 := ⟨_, (Nat.succ_pred_eq_of_pos (by omega)).symm⟩
  rw [List.take_append, List.mem_append, hk]
  exact .inr List.mem_cons_self

/-- The first elements have a property iff each element that has it not has as many strictly
    before it. -/
theorem forall_first_iff {p : α → Prop} :
    (∀ first, IsFirst r n l first → ∀ x ∈ first, p x) ↔
      ∀ x ∈ l, ¬ p x → n ≤ l.countP fun y => ¬ r x y := by
  refine ⟨fun h x hx hnot => ?_, fun h first hfirst x hx => ?_⟩
  · by_contra hfew
    obtain ⟨first, hfirst, hmem⟩ := exists_first_of_countP_lt hx (Nat.lt_of_not_le hfew)
    exact hnot (h first hfirst x hmem)
  · by_contra hnot
    have hcount := h x (hfirst.mem hx) hnot
    obtain ⟨l', hperm, hsorted, rfl⟩ := hfirst
    rw [← hperm.countP_eq] at hcount
    exact absurd (Arrangement.countP_lt_of_mem_take hsorted hx) (Nat.not_lt.mpr hcount)

/-- Cutting the first elements off where one fails leaves the first of the wanted ones: none that
    is not wanted or fails is among them; or the wanted ones are fewer, do not fail and come
    before all others, which begin with one that fails. -/
def CutsToFirst (r : α → α → Prop) [DecidableRel r] (wanted ok : α → Bool) (n : ℕ) (l : List α) :
    Prop :=
  (∀ x ∈ l, ¬ (wanted x = true ∧ ok x = true) → n ≤ l.countP fun y => ¬ r x y) ∨
    ((∀ x ∈ l, wanted x = true → ok x = true) ∧ (l.filter wanted).length < n ∧
      ∀ x ∈ l, ¬ wanted x = true → (∀ y ∈ l, wanted y = true → ¬ r x y) ∧
        (ok x = true → ∃ y ∈ l, ¬ ok y = true ∧ ¬ r x y))

instance instDecidableCutsToFirst (r : α → α → Prop) [DecidableRel r] (wanted ok : α → Bool)
    (n : ℕ) (l : List α) : Decidable (CutsToFirst r wanted ok n l) :=
  inferInstanceAs (Decidable (_ ∨ _))

omit [Std.Total r] [IsTrans α r] in
/-- Where all are wanted, those that fail have to come after as many as are asked for. -/
theorem cutsToFirst_iff_of_wanted {wanted ok : α → Bool} (hall : ∀ x ∈ l, wanted x = true) :
    CutsToFirst r wanted ok n l ↔ ∀ x ∈ l, ¬ ok x = true → n ≤ l.countP fun y => ¬ r x y := by
  constructor
  · rintro (h | ⟨hok, -, -⟩) x hx hfails
    · exact h x hx fun hboth => hfails hboth.2
    · exact absurd (hok x hx (hall x hx)) hfails
  · exact fun h => .inl fun x hx hnot => h x hx fun hok => hnot ⟨hall x hx, hok⟩

variable {wanted ok : α → Bool}

/-- Where all cuts leave what is wanted, the others come after it, and after one that fails. -/
theorem strictly_before_of_takeWhile_perm (hfew : (l.filter wanted).length < n)
    (hcuts : ∀ first, IsFirst r n l first → (first.takeWhile ok).Perm (l.filter wanted)) {x : α}
    (hx : x ∈ l) (hnot : ¬ wanted x = true) :
    (∀ y ∈ l, wanted y = true → ¬ r x y) ∧
      (ok x = true → ∃ y ∈ l, ¬ ok y = true ∧ ¬ r x y) := by
  obtain ⟨pre, post, hperm, hsorted, hpre⟩ := exists_early (r := r) hx
  have hcut := hcuts _ ⟨_, hperm, hsorted, rfl⟩
  have hbegins : ((pre ++ x :: post).take n).takeWhile ok <+: pre := by
    refine prefix_of_notMem ((List.takeWhile_prefix ok).trans (List.take_prefix n _)) ?_
    intro hin
    exact hnot (List.mem_filter.mp (hcut.mem_iff.mp hin)).2
  refine ⟨fun y hy hw => ?_, fun hok => ?_⟩
  · exact hpre y (hbegins.mem (hcut.mem_iff.mpr (List.mem_filter.mpr ⟨hy, hw⟩)))
  · by_contra hnone
    push Not at hnone
    have hall : ∀ y ∈ pre ++ [x], ok y = true := by
      intro y hy
      rcases List.mem_append.mp hy with hy | hy
      · by_contra hfails
        exact hpre y hy (hnone y (hperm.mem_iff.mp (List.mem_append_left _ hy)) hfails)
      · rw [List.mem_singleton.mp hy]
        exact hok
    -- then the cut is as long as the limit, or goes beyond the element
    have hlist : pre ++ x :: post = (pre ++ [x]) ++ post := by simp
    have hshort := hbegins.length_le
    have hcount := hcut.length_eq
    rw [hlist, List.take_append, List.takeWhile_append_of_pos fun y hy =>
      hall y (List.mem_of_mem_take hy), List.length_append, List.length_take,
      List.length_append, List.length_singleton] at hshort hcount
    omega

/-- Whichever way the ties go, the cut leaves the first wanted elements iff it is one of these. -/
theorem forall_takeWhile_iff :
    (∀ first, IsFirst r n l first → IsFirst r n (l.filter wanted) (first.takeWhile ok)) ↔
      CutsToFirst r wanted ok n l := by
  constructor
  · intro h
    by_cases hall : ∀ first, IsFirst r n l first → ∀ x ∈ first, wanted x = true ∧ ok x = true
    · exact .inl (forall_first_iff.mp hall)
    · push Not at hall
      obtain ⟨first, hfirst, x, hx, hnot⟩ := hall
      have hout : x ∉ first.takeWhile ok := fun hin =>
        hnot (List.mem_filter.mp ((h first hfirst).mem hin)).2 (List.mem_takeWhile_imp hin)
      -- an element that is wanted but cut off makes the wanted ones fewer than `n`
      obtain ⟨hfew, hcuts⟩ := takeWhile_perm_of_notMem h hfirst hx hout
      refine .inr ⟨fun y hy hw => ?_, hfew, fun y hy =>
        strictly_before_of_takeWhile_perm hfew hcuts hy⟩
      have hin := (hcuts first hfirst).mem_iff.mpr (List.mem_filter.mpr ⟨hy, hw⟩)
      exact List.mem_takeWhile_imp hin
  · rintro (hall | ⟨hok, hfew, hothers⟩) first hfirst
    · have hfine := forall_first_iff.mpr hall first hfirst
      rw [List.takeWhile_eq_self_iff.mpr fun x hx => (hfine x hx).2]
      exact hfirst.filter fun x hx => (hfine x hx).1
    · obtain ⟨l', hperm, hsorted, rfl⟩ := hfirst
      rw [takeWhile_take_eq_filter hperm hsorted hok hfew hothers]
      have hlength : (l'.filter wanted).length < n := (hperm.filter wanted).length_eq ▸ hfew
      exact ⟨_, hperm.filter wanted, hsorted.filter wanted,
        (List.take_of_length_le hlength.le).symm⟩

end AnyTies

end OwAnalytics
