/-
  OwAnalytics.Ap.NarrowerFilters

  A filter and the same filter with one more digit, in any mixture of upper and lower case.
  Twelve digits are looked up as a number, and fewer are compared with the text of a
  number, which has no upper-case letter: what the longer filter finds the shorter one
  may not.
-/

import OwAnalytics.Ap.PrefixQueries

namespace OwAnalytics.Ap

open Throwing PrefixSearch
open Venue (hexDigit? hexPrefix stoull16)

/-! ## The letters of a filter -/

/-- The text in lower case. -/
def toLower (f : Str) : Str := f.map Char.toLower

/-- The text has a hexadecimal digit in upper case. -/
def HasUpper (f : Str) : Prop := ∃ c ∈ f, 'A' ≤ c ∧ c ≤ 'F'

instance : DecidablePred HasUpper := fun f =>
  decidable_of_iff ((f.any fun c => 'A' ≤ c ∧ c ≤ 'F') = true) (by simp [HasUpper])

theorem hexDigit_cases {c : Char} (h : (hexDigit? c).isSome = true) :
    IsSerialDigit c ∨ 'A' ≤ c ∧ c ≤ 'F' := by
  unfold hexDigit? at h
  split_ifs at h with hdigit hlower hupper
  · exact .inl (.inl hdigit)
  · exact .inl (.inr hlower)
  · exact .inr hupper
  · cases h

theorem toLower_serialDigit {c : Char} (h : IsSerialDigit c) :
    c.toLower = c ∧ ¬ ('A' ≤ c ∧ c ≤ 'F') := by
  obtain ⟨v, hv, rfl⟩ := eq_serialDigit h
  interval_cases v <;> decide

theorem toLower_upperDigit {c : Char} (h : 'A' ≤ c ∧ c ≤ 'F') :
    hexDigit? c.toLower = hexDigit? c := by
  have hlow := toNat_le_of_le h.1
  have hhigh := toNat_le_of_le h.2
  have hall : ∀ k, 'A'.toNat ≤ k → k ≤ 'F'.toNat →
      hexDigit? (Char.ofNat k).toLower = hexDigit? (Char.ofNat k) := by
    intro k hk hk'
    have hA : 'A'.toNat = 65 := rfl
    have hF : 'F'.toNat = 70 := rfl
    rw [hA] at hk
    rw [hF] at hk'
    interval_cases k <;> decide
  have hchar := hall c.toNat hlow hhigh
  rwa [Char.ofNat_toNat] at hchar

theorem hexDigit?_toLower {c : Char} (h : (hexDigit? c).isSome = true) :
    hexDigit? c.toLower = hexDigit? c := by
  rcases hexDigit_cases h with hserial | hupper
  · rw [(toLower_serialDigit hserial).1]
  · exact toLower_upperDigit hupper

namespace IsFilter

variable {f : Str} {d : Char}

theorem not_hasUpper_iff (h : IsFilter f) : ¬ HasUpper f ↔ ∀ c ∈ f, IsSerialDigit c := by
  refine ⟨fun hnot c hc => ?_, ?_⟩
  · exact (hexDigit_cases (h.2 c hc)).resolve_right fun hupper => hnot ⟨c, hc, hupper⟩
  · rintro hall ⟨c, hc, hupper⟩
    exact (toLower_serialDigit (hall c hc)).2 hupper

theorem toLower_eq (h : IsFilter f) (hlower : ¬ HasUpper f) : toLower f = f := by
  have hall := h.not_hasUpper_iff.mp hlower
  calc toLower f = f.map id := List.map_congr_left fun c hc => (toLower_serialDigit (hall c hc)).1
    _ = f := List.map_id f

theorem toLower (h : IsFilter f) : IsFilter (toLower f) := by
  refine ⟨by rw [Ap.toLower, List.length_map]; exact h.1, fun c hc => ?_⟩
  obtain ⟨b, hb, rfl⟩ := List.mem_map.mp hc
  rw [hexDigit?_toLower (h.2 b hb)]
  exact h.2 b hb

/-- The number of a filter is that of its lower-case letters. -/
theorem lowest_toLower (h : IsFilter f) : lowest (Ap.toLower f) = lowest f := by
  have hdigits : ∀ g : Str, (∀ c ∈ g, (hexDigit? c).isSome = true) →
      hexPrefix (Ap.toLower g) = hexPrefix g := by
    intro g hg
    induction g with
    | nil => rfl
    | cons c g ih =>
        rw [List.forall_mem_cons] at hg
        rw [Ap.toLower, List.map_cons, hexPrefix, hexDigit?_toLower hg.1, hexPrefix]
        rw [Ap.toLower] at ih
        rw [ih hg.2]
  rw [lowest, lowest, hdigits f h.2, Ap.toLower, List.length_map]

theorem of_append (h : IsFilter (f ++ [d])) : IsFilter f := by
  have hlength := h.1
  rw [List.length_append, List.length_singleton] at hlength
  exact ⟨by omega, fun c hc => h.2 c (List.mem_append_left _ hc)⟩

/-- The numbers of the longer filter begin in the interval of the shorter one. -/
theorem lowest_append (h : IsFilter (f ++ [d])) :
    (lowest f).toNat ≤ (lowest (f ++ [d])).toNat ∧
      (lowest (f ++ [d])).toNat < (lowest f).toNat + 16 ^ (12 - f.length) := by
  obtain ⟨v, hv⟩ := Option.isSome_iff_exists.mp
    (h.2 d (List.mem_append_right _ (List.mem_singleton_self d)))
  have hlt : v < 16 := hexDigit?_lt hv
  have hlast : hexPrefix [d] = [v] := by
    rw [hexPrefix, hv]
    rfl
  have hlength := h.1
  rw [List.length_append, List.length_singleton] at hlength
  have hdigits : hexPrefix (f ++ [d]) = hexPrefix f ++ [v] := by
    rw [hexPrefix_append h.of_append.2, hlast]
  have hpow : 16 ^ (12 - f.length) = 16 ^ (12 - (f.length + 1)) * 16 := by
    rw [← Nat.pow_succ]
    congr 1
    omega
  rw [h.toNat_lowest.1, h.of_append.toNat_lowest.1, hdigits, hexValue_concat, List.length_append,
    List.length_singleton, hpow]
  -- the new digit counts for less than the place of the last one
  have hmul : 16 ^ (12 - (f.length + 1)) * v < 16 ^ (12 - (f.length + 1)) * 16 :=
    Nat.mul_lt_mul_of_pos_left hlt (Nat.pow_pos (by decide))
  rw [Nat.mul_add, ← Nat.mul_assoc]
  omega

/-- Upper-case letters are in the text of no number. -/
theorem run_eq_nil_of_hasUpper (h : IsFilter f) (hupper : HasUpper f) (lo : UInt64)
    (snArr : List UInt64) : run lo (begins f) snArr = [] := by
  rw [List.eq_nil_iff_forall_not_mem]
  intro n hn
  have hbegins := List.mem_takeWhile_imp hn
  exact h.not_hasUpper_iff.mpr (lower_of_begins hbegins) hupper

end IsFilter

/-! ## What the longer filter finds -/

/-- The first number that is not below the filter has it at the beginning of its text. -/
def Meets (f : Str) (snArr : List UInt64) : Prop :=
  ∃ n ∈ snArr, lowest f ≤ n ∧ begins f n = true ∧ ∀ m ∈ snArr, lowest f ≤ m → n ≤ m

/-- Eleven digits with an upper-case letter, and with one more the number is there. -/
def Loses (f : Str) (d : Char) (snArr : List UInt64) : Prop :=
  f.length = 11 ∧ HasUpper f ∧ lowest (f ++ [d]) ∈ snArr

section Found

variable {f : Str} {d : Char} {snArr : List UInt64} {howMany : Nat}

theorem found_of_short (hshort : f.length < 12) (hall : snArr.length ≤ howMany) :
    found f howMany snArr = run (lowest f) (begins f) snArr := by
  have hlength : (run (lowest f) (begins f) snArr).length ≤ snArr.length := run_sublist.length_le
  rw [found, if_neg (Nat.ne_of_lt hshort), List.take_of_length_le (by omega)]

theorem found_subset (f : Str) (howMany : Nat) (snArr : List UInt64) :
    found f howMany snArr ⊆ snArr := by
  unfold found
  split
  · split
    · rename_i hmem
      exact List.cons_subset.mpr ⟨hmem, List.nil_subset _⟩
    · exact List.nil_subset _
  · exact ((List.take_sublist _ _).trans run_sublist).subset

theorem found_ne_nil_iff (hsorted : snArr.Pairwise (· ≤ ·)) (hshort : f.length < 12)
    (hall : snArr.length ≤ howMany) : found f howMany snArr ≠ [] ↔ Meets f snArr := by
  rw [found_of_short hshort hall]
  exact run_ne_nil_iff hsorted

theorem found_of_hasUpper (h : IsFilter f) (hshort : f.length < 12) (hupper : HasUpper f) :
    found f howMany snArr = [] := by
  rw [found, if_neg (Nat.ne_of_lt hshort), h.run_eq_nil_of_hasUpper hupper, List.take_nil]

/-- A lower-case filter matches what lies between its number and that of a longer one. -/
theorem IsFilter.begins_of_between (h : IsFilter (f ++ [d])) (hlower : ¬ HasUpper f) {n : UInt64}
    (hlow : lowest f ≤ n) (hhigh : n ≤ lowest (f ++ [d])) : begins f n = true := by
  rw [UInt64.le_iff_toNat_le] at hlow hhigh
  have hlowest := h.lowest_append.2
  have hbound := h.of_append.toNat_lowest.2
  refine (h.of_append.begins_iff (h.of_append.not_hasUpper_iff.mp hlower) (by omega)).mpr ?_
  omega

theorem found_append_subset (h : IsFilter (f ++ [d])) (hsorted : snArr.Pairwise (· ≤ ·))
    (hall : snArr.length ≤ howMany) (hkept : ¬ Loses f d snArr) :
    found (f ++ [d]) howMany snArr ⊆ found f howMany snArr := by
  have hlength : (f ++ [d]).length = f.length + 1 := by
    rw [List.length_append, List.length_singleton]
  have hle := h.1
  rw [hlength] at hle
  have hlowest : lowest f ≤ lowest (f ++ [d]) :=
    UInt64.le_iff_toNat_le.mpr h.lowest_append.1
  have hshort : f.length < 12 := by omega
  rw [found_of_short hshort hall]
  by_cases hfull : f.length = 11
  · -- the longer filter is looked up as a number
    rw [found, if_pos (by omega)]
    split
    · rename_i hmem
      have hlower : ¬ HasUpper f := fun hupper => hkept ⟨hfull, hupper, hmem⟩
      rw [List.cons_subset, mem_run_iff hsorted]
      refine ⟨⟨hmem, hlowest, fun n _ hlow hhigh => ?_⟩, List.nil_subset _⟩
      exact h.begins_of_between hlower hlow hhigh
    · exact List.nil_subset _
  · -- both filters are compared with the texts
    rw [found_of_short (by omega) hall]
    by_cases hupper : HasUpper f
    · have hupper' : HasUpper (f ++ [d]) := by
        obtain ⟨c, hc, hletter⟩ := hupper
        exact ⟨c, List.mem_append_left _ hc, hletter⟩
      rw [h.run_eq_nil_of_hasUpper hupper']
      exact List.nil_subset _
    · refine run_subset_run hsorted hlowest (fun n => begins_append) fun n hlow hhigh => ?_
      exact h.begins_of_between hupper hlow (Std.le_of_lt hhigh)

/-- Whatever is made of the numbers, the longer filter finds no more iff the shorter one loses
    none. -/
theorem map_found_subset_iff (h : IsFilter (f ++ [d])) (hsorted : snArr.Pairwise (· ≤ ·))
    (hall : snArr.length ≤ howMany) (r : UInt64 → UInt64) :
    (found (f ++ [d]) howMany snArr).map r ⊆ (found f howMany snArr).map r ↔
      ¬ Loses f d snArr := by
  refine ⟨?_, fun hkept => List.map_subset r (found_append_subset h hsorted hall hkept)⟩
  rintro hsubset ⟨hfull, hupper, hmem⟩
  have hlength : (f ++ [d]).length = 12 := by
    rw [List.length_append, List.length_singleton, hfull]
  rw [found_of_hasUpper h.of_append (by omega) hupper, found, if_pos hlength,
    if_pos hmem] at hsubset
  exact absurd (hsubset List.mem_cons_self) List.not_mem_nil

/-- A filter and its lower-case letters find the same iff twelve digits are looked up, or there is
    no upper-case letter, or nothing to be found. -/
theorem map_found_toLower_iff (h : IsFilter f) (hsorted : snArr.Pairwise (· ≤ ·))
    (hall : snArr.length ≤ howMany) (r : UInt64 → UInt64) :
    (∀ n, n ∈ (found f howMany snArr).map r ↔ n ∈ (found (toLower f) howMany snArr).map r) ↔
      f.length = 12 ∨ ¬ HasUpper f ∨ ¬ Meets (toLower f) snArr := by
  have hlength : (toLower f).length = f.length := List.length_map _
  by_cases hfull : f.length = 12
  · -- the number is the same
    rw [found, found, hlength, if_pos hfull, h.lowest_toLower, if_pos hfull]
    exact iff_of_true (fun _ => Iff.rfl) (.inl hfull)
  · have hshort : f.length < 12 := Nat.lt_of_le_of_ne h.1 hfull
    rw [or_iff_right hfull]
    by_cases hupper : HasUpper f
    · -- nothing is found with the upper-case letter
      rw [or_iff_right (not_not.mpr hupper), found_of_hasUpper h hshort hupper,
        ← found_ne_nil_iff hsorted (by omega) hall, ne_eq, not_not, List.map_nil]
      refine ⟨fun hsame => ?_, fun hnil => by rw [hnil]; simp⟩
      rw [← List.map_eq_nil_iff, List.eq_nil_iff_forall_not_mem]
      exact fun n hn => List.not_mem_nil ((hsame n).mpr hn)
    · rw [h.toLower_eq hupper]
      exact iff_of_true (fun _ => Iff.rfl) (.inl hupper)

end Found

/-! ## The cache after operations on any texts -/

/-- The operations of the cache, with the texts they are given. -/
inductive TextOperation
  | addSerialNumber (venueId s : Str)
  | deleteSerialNumber (venueId s : Str)
  | onTimer (wifiClients : Option (List (Str × Str)))

/-- The operation on the cache. -/
def TextOperation.run : TextOperation → Computation WifiClientCache Unit
  | .addSerialNumber venueId s => WifiClientCache.addSerialNumber venueId s
  | .deleteSerialNumber venueId s => WifiClientCache.deleteSerialNumber venueId s
  | .onTimer wifiClients => WifiClientCache.onTimer wifiClients

namespace WifiClientCache

/-- What the operations leave, one after the other, whether they throw or not. -/
def reached (ops : List TextOperation) : WifiClientCache :=
  ops.foldl (fun cache op => op.run.attempt cache) fun _ => none

/-- The lists of every venue are in order. -/
def Sorted (cache : WifiClientCache) : Prop :=
  ∀ v, (cache.sns v).Pairwise (· ≤ ·) ∧ (cache.reverseSns v).Pairwise (· ≤ ·)

theorem sorted_empty : Sorted fun _ => none := fun _ => ⟨List.Pairwise.nil, List.Pairwise.nil⟩

theorem Sorted.update {cache : WifiClientCache} (h : cache.Sorted) (venueId : Str)
    {f : Cache → Cache}
    (hf : ∀ c : Cache, c.sns.Pairwise (· ≤ ·) → c.reverseSns.Pairwise (· ≤ ·) →
      (f c).sns.Pairwise (· ≤ ·) ∧ (f c).reverseSns.Pairwise (· ≤ ·)) :
    (cache.update venueId f).Sorted := by
  intro v
  by_cases hv : v = venueId
  · rw [hv, sns_update, reverseSns_update]
    exact hf _ (h venueId).1 (h venueId).2
  · have hsame : cache.update venueId f v = cache v := update_of_ne hv f
    rw [sns, reverseSns, hsame]
    exact h v

theorem pairwise_insert (n : UInt64) {ns : List UInt64} (h : ns.Pairwise (· ≤ ·)) :
    (insert n ns).Pairwise (· ≤ ·) := h.orderedInsert n ns

theorem sorted_addSerialNumber (venueId s : Str) :
    Computation.Keeps Sorted (addSerialNumber venueId s) := by
  unfold addSerialNumber
  refine Computation.keeps_bind (Computation.keeps_modify fun cache h => ?_) fun _ => ?_
  · exact h.update venueId fun c hsns hreverse => ⟨hsns, hreverse⟩
  refine Computation.keeps_bind (Computation.keeps_ofOption _ _) fun sn => ?_
  refine Computation.keeps_bind (Computation.keeps_get _) fun cache => ?_
  split
  · exact Computation.keeps_pure _ _
  refine Computation.keeps_bind (Computation.keeps_modify fun cache h => ?_) fun _ => ?_
  · exact h.update venueId fun c hsns hreverse => ⟨pairwise_insert sn hsns, hreverse⟩
  refine Computation.keeps_bind (Computation.keeps_ofOption _ _) fun rsn => ?_
  refine Computation.keeps_modify fun cache h => ?_
  exact h.update venueId fun c hsns hreverse => ⟨hsns, pairwise_insert rsn hreverse⟩

theorem sorted_deleteSerialNumber (venueId s : Str) :
    Computation.Keeps Sorted (deleteSerialNumber venueId s) := by
  unfold deleteSerialNumber
  refine Computation.keeps_bind (Computation.keeps_ofOption _ _) fun sn => ?_
  refine Computation.keeps_bind (Computation.keeps_get _) fun cache => ?_
  split
  · exact Computation.keeps_pure _ _
  split
  · refine Computation.keeps_bind (Computation.keeps_modify fun cache h => ?_) fun _ => ?_
    · exact h.update venueId fun c hsns hreverse => ⟨hsns.erase sn, hreverse⟩
    refine Computation.keeps_bind (Computation.keeps_ofOption _ _) fun rsn => ?_
    refine Computation.keeps_modify fun cache h => ?_
    exact h.update venueId fun c hsns hreverse => ⟨hsns, hreverse.erase rsn⟩
  · exact Computation.keeps_pure _ _

theorem sorted_run (op : TextOperation) : Computation.Keeps Sorted op.run := by
  cases op with
  | addSerialNumber venueId s => exact sorted_addSerialNumber venueId s
  | deleteSerialNumber venueId s => exact sorted_deleteSerialNumber venueId s
  | onTimer wifiClients =>
      cases wifiClients with
      | none => exact Computation.keeps_pure _ _
      | some macs =>
          refine Computation.keeps_bind (Computation.keeps_modify fun _ _ => sorted_empty) ?_
          exact fun _ => Computation.keeps_forEach fun mac _ => sorted_addSerialNumber _ _

theorem sorted_reached (ops : List TextOperation) : (reached ops).Sorted := by
  induction ops using List.reverseRecOn with
  | nil => exact sorted_empty
  | append_singleton ops op ih =>
      rw [reached, List.foldl_append]
      exact sorted_run op _ ih

/-! ## What `FindNumbers` finds -/

/-- As many numbers are asked for as there are in either list of the venue. -/
def Unlimited (cache : WifiClientCache) (venueId : Str) (howMany : UInt64) : Prop :=
  (cache.sns venueId).length ≤ howMany.toUInt32.toNat ∧
    (cache.reverseSns venueId).length ≤ howMany.toUInt32.toNat

/-- Every number found for the longer filter is found for the shorter one. -/
def FoundWithin (cache : WifiClientCache) (venueId : Str) (howMany : UInt64)
    (longer shorter : Str) : Prop :=
  ∃ xs ys, cache.findNumbers venueId longer 0 howMany = some xs ∧
    cache.findNumbers venueId shorter 0 howMany = some ys ∧ xs ⊆ ys

/-- The same numbers are found for both filters. -/
def FoundAlike (cache : WifiClientCache) (venueId : Str) (howMany : UInt64) (f g : Str) : Prop :=
  ∃ xs ys, cache.findNumbers venueId f 0 howMany = some xs ∧
    cache.findNumbers venueId g 0 howMany = some ys ∧ ∀ n, n ∈ xs ↔ n ∈ ys

section Unlimited

variable {cache : WifiClientCache} {venueId f g : Str} {d : Char} {howMany : UInt64}

theorem foundWithin_iff {xs ys : List UInt64}
    (hf : cache.findNumbers venueId f 0 howMany = some xs)
    (hg : cache.findNumbers venueId g 0 howMany = some ys) :
    FoundWithin cache venueId howMany f g ↔ xs ⊆ ys := by
  simp [FoundWithin, hf, hg]

theorem foundAlike_iff {xs ys : List UInt64}
    (hf : cache.findNumbers venueId f 0 howMany = some xs)
    (hg : cache.findNumbers venueId g 0 howMany = some ys) :
    FoundAlike cache venueId howMany f g ↔ ∀ n, n ∈ xs ↔ n ∈ ys := by
  simp [FoundAlike, hf, hg]

theorem Unlimited.findNumbers_nil (h : Unlimited cache venueId howMany) :
    cache.findNumbers venueId [] 0 howMany = some (cache.sns venueId) := by
  have hle : howMany.toUInt32.toNat ≤ howMany.toNat := by
    rw [UInt64.toNat_toUInt32]
    exact Nat.mod_le _ _
  exact findNumbers_all cache venueId (h.1.trans hle)

theorem findNumbers_star : cache.findNumbers venueId ['*'] 0 howMany = some [] := by
  unfold findNumbers
  cases cache venueId <;> rfl

/-- A number that the longer of two filters finds is lost iff the shorter one has eleven digits
    and an upper-case letter, and the longer one is the number. -/
theorem foundWithin_prefix_iff (hsorted : cache.Sorted) (hall : Unlimited cache venueId howMany)
    (h : IsFilter (f ++ [d])) :
    FoundWithin cache venueId howMany (f ++ [d]) f ↔ ¬ Loses f d (cache.sns venueId) := by
  have hlonger : cache.findNumbers venueId (f ++ [d]) 0 howMany =
      some (found (f ++ [d]) howMany.toUInt32.toNat (cache.sns venueId)) :=
    findNumbers_filter h (by simp)
  by_cases hnil : f = []
  · rw [hnil] at hlonger ⊢
    rw [foundWithin_iff hlonger hall.findNumbers_nil]
    refine iff_of_true (found_subset _ _ _) ?_
    rintro ⟨hlength, -⟩
    exact absurd hlength (by decide)
  · rw [foundWithin_iff hlonger (findNumbers_filter h.of_append hnil),
      ← map_found_subset_iff h (hsorted venueId).1 hall.1 id, List.map_id, List.map_id]

/-- Behind a star the same holds of the reversed list; and a star alone finds nothing. -/
theorem foundWithin_suffix_iff (hsorted : cache.Sorted) (hall : Unlimited cache venueId howMany)
    (h : IsFilter (d :: f)) :
    FoundWithin cache venueId howMany ('*' :: d :: f) ('*' :: f) ↔
      ¬ Loses f.reverse d (cache.reverseSns venueId) ∧
        ¬ (f = [] ∧ Meets [d] (cache.reverseSns venueId)) := by
  have hreverse : IsFilter (f.reverse ++ [d]) := List.reverse_cons ▸ h.reverse
  have hlonger : cache.findNumbers venueId ('*' :: d :: f) 0 howMany =
      some ((found (d :: f).reverse howMany.toUInt32.toNat (cache.reverseSns venueId)).map
        reverse) := findNumbers_starred h (by simp)
  rw [List.reverse_cons] at hlonger
  by_cases hnil : f = []
  · rw [hnil, List.reverse_nil, List.nil_append] at hlonger
    -- the bare star finds nothing, not even what the longer filter finds
    have hshort : ¬ Loses [] d (cache.reverseSns venueId) := by
      rintro ⟨hlength, -⟩
      exact absurd hlength (by decide)
    rw [hnil, foundWithin_iff hlonger findNumbers_star, List.reverse_nil, and_iff_right hshort,
      and_iff_right rfl, ← found_ne_nil_iff (hsorted venueId).2 (by simp) hall.2, ne_eq, not_not,
      List.subset_nil, List.map_eq_nil_iff]
  · have hf : IsFilter f :=
      (List.reverse_reverse f) ▸ (hreverse.of_append).reverse
    rw [foundWithin_iff hlonger (findNumbers_starred hf hnil),
      map_found_subset_iff hreverse (hsorted venueId).2 hall.2 reverse]
    simp [hnil]

theorem foundAlike_prefix_iff (hsorted : cache.Sorted) (hall : Unlimited cache venueId howMany)
    (h : IsFilter f) :
    FoundAlike cache venueId howMany f (toLower f) ↔
      f.length = 12 ∨ ¬ HasUpper f ∨ ¬ Meets (toLower f) (cache.sns venueId) := by
  by_cases hnil : f = []
  · rw [hnil]
    refine iff_of_true ?_ (.inr (.inl (by simp [HasUpper])))
    exact ⟨_, _, hall.findNumbers_nil, hall.findNumbers_nil, fun _ => Iff.rfl⟩
  · rw [foundAlike_iff (findNumbers_filter h hnil)
        (findNumbers_filter h.toLower (by simpa [toLower] using hnil)),
      ← map_found_toLower_iff h (hsorted venueId).1 hall.1 id, List.map_id, List.map_id]

theorem foundAlike_suffix_iff (hsorted : cache.Sorted) (hall : Unlimited cache venueId howMany)
    (h : IsFilter f) :
    FoundAlike cache venueId howMany ('*' :: f) ('*' :: toLower f) ↔
      f.length = 12 ∨ ¬ HasUpper f ∨
        ¬ Meets (toLower f.reverse) (cache.reverseSns venueId) := by
  by_cases hnil : f = []
  · rw [hnil]
    refine iff_of_true ?_ (.inr (.inl (by simp [HasUpper])))
    exact ⟨_, _, findNumbers_star, findNumbers_star, fun _ => Iff.rfl⟩
  · have hupper : HasUpper f.reverse ↔ HasUpper f := by
      simp [HasUpper]
    have hlower : (toLower f).reverse = toLower f.reverse := List.map_reverse.symm
    rw [foundAlike_iff (findNumbers_starred h hnil)
        (findNumbers_starred h.toLower (by simpa [toLower] using hnil)), hlower,
      map_found_toLower_iff h.reverse (hsorted venueId).2 hall.2 reverse, List.length_reverse,
      hupper]

end Unlimited

/-- After every run of the operations, on any texts, with as many numbers asked for as there are:
    a filter with one more digit finds no more than without it, and a filter finds what its
    lower-case letters find, iff no upper-case letter is compared with the text of a number that
    would be found without it; and a star alone has a number found with the one digit. -/
theorem narrower_filters_iff (ops : List TextOperation) (venueId : Str) {howMany : UInt64}
    (hall : Unlimited (reached ops) venueId howMany) :
    (∀ (f : Str) (d : Char), IsFilter (f ++ [d]) →
      (FoundWithin (reached ops) venueId howMany (f ++ [d]) f ↔
        ¬ Loses f d ((reached ops).sns venueId))) ∧
    (∀ (f : Str) (d : Char), IsFilter (d :: f) →
      (FoundWithin (reached ops) venueId howMany ('*' :: d :: f) ('*' :: f) ↔
        ¬ Loses f.reverse d ((reached ops).reverseSns venueId) ∧
          ¬ (f = [] ∧ Meets [d] ((reached ops).reverseSns venueId)))) ∧
    ∀ f : Str, IsFilter f →
      (FoundAlike (reached ops) venueId howMany f (toLower f) ↔
        f.length = 12 ∨ ¬ HasUpper f ∨ ¬ Meets (toLower f) ((reached ops).sns venueId)) ∧
      (FoundAlike (reached ops) venueId howMany ('*' :: f) ('*' :: toLower f) ↔
        f.length = 12 ∨ ¬ HasUpper f ∨
          ¬ Meets (toLower f.reverse) ((reached ops).reverseSns venueId)) := by
  have hsorted := sorted_reached ops
  refine ⟨fun f d h => ?_, fun f d h => ?_, fun f h => ⟨?_, ?_⟩⟩
  · exact foundWithin_prefix_iff hsorted hall h
  · exact foundWithin_suffix_iff hsorted hall h
  · exact foundAlike_prefix_iff hsorted hall h
  · exact foundAlike_suffix_iff hsorted hall h

/-- A venue with one station. -/
def oneStation : List TextOperation :=
  [.addSerialNumber "venue".toList "aabbccddeeff".toList]

theorem unlimited_oneStation : Unlimited (reached oneStation) "venue".toList 1 := by
  unfold Unlimited
  decide +kernel

/-- Eleven digits with an upper-case letter lose the station that all twelve find. -/
theorem narrower_filters_iff_oneStation :
    ¬ FoundWithin (reached oneStation) "venue".toList 1 ("aabbccddeeF".toList ++ ['f'])
      "aabbccddeeF".toList := by
  have hfilter : IsFilter ("aabbccddeeF".toList ++ ['f']) := by decide +kernel
  have hupper : HasUpper "aabbccddeeF".toList := by decide +kernel
  have hiff := (narrower_filters_iff oneStation _ unlimited_oneStation).1 _ _ hfilter
  rw [hiff, not_not]
  exact ⟨rfl, hupper, by decide +kernel⟩

theorem upper_case_digits_lose :
    ¬ ∀ (ops : List TextOperation) (venueId : Str) (howMany : UInt64),
      Unlimited (reached ops) venueId howMany →
      (∀ (f : Str) (d : Char), IsFilter (f ++ [d]) →
        FoundWithin (reached ops) venueId howMany (f ++ [d]) f) ∧
      (∀ (f : Str) (d : Char), IsFilter (d :: f) →
        FoundWithin (reached ops) venueId howMany ('*' :: d :: f) ('*' :: f)) ∧
      ∀ f : Str, IsFilter f → FoundAlike (reached ops) venueId howMany f (toLower f) ∧
        FoundAlike (reached ops) venueId howMany ('*' :: f) ('*' :: toLower f) := by
  intro h
  have htwelve : (reached oneStation).findNumbers "venue".toList
      ("aabbccddeeF".toList ++ ['f']) 0 1 = some [0xaabbccddeeff] := by decide +kernel
  have heleven : (reached oneStation).findNumbers "venue".toList "aabbccddeeF".toList 0 1 =
      some [] := by decide +kernel
  have hwithin := (h oneStation _ 1 unlimited_oneStation).1 "aabbccddeeF".toList 'f'
    (by decide +kernel)
  rw [foundWithin_iff htwelve heleven] at hwithin
  exact absurd (hwithin List.mem_cons_self) List.not_mem_nil

end WifiClientCache

end OwAnalytics.Ap
