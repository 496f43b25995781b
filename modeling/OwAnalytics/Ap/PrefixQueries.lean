/-
  OwAnalytics.Ap.PrefixQueries

  What `ReturnNumbers` finds in either list of a venue, and what `FindNumbers` makes of it
  for the two kinds of filter.  While the cache has stations only, a lower-case filter
  finds the numbers whose texts begin or end with it, as many as are asked for.
-/

import OwAnalytics.Ap.SearchTexts

namespace OwAnalytics.Ap

open Throwing PrefixSearch PairedIndex
open Venue (hexDigit? hexPrefix stoull16)

/-! ## One search -/

/-- What is found in the reversed list is turned round. -/
def turned (reverseResult : Bool) (found : List UInt64) : List UInt64 :=
  if reverseResult then found.map reverse else found

namespace WifiClientCache

variable {s : Str} {howMany : UInt32} {snArr : List UInt64} {reverseResult : Bool}

/-- Twelve characters are looked up as a number. -/
theorem returnNumbers_of_full (h : s.length = 12) :
    returnNumbers s howMany snArr reverseResult =
      (stoull16 s).map fun sn => turned reverseResult (if sn ∈ snArr then [sn] else []) := by
  rw [returnNumbers, if_pos h]
  cases stoull16 s with
  | none => rfl
  | some sn =>
      show some (if sn ∈ snArr then [if reverseResult then reverse sn else sn] else []) =
        some (turned reverseResult (if sn ∈ snArr then [sn] else []))
      by_cases hmem : sn ∈ snArr
      · rw [if_pos hmem, if_pos hmem]
        cases reverseResult <;> rfl
      · rw [if_neg hmem, if_neg hmem]
        cases reverseResult <;> rfl

/-- In either list fewer characters are compared with the text of the number that stands there. -/
theorem returnNumbers_of_short (h : s.length < 12) :
    returnNumbers s howMany snArr reverseResult =
      (stoull16 (s ++ List.replicate (12 - s.length) '0')).map fun sn =>
        turned reverseResult ((run sn (begins s) snArr).take howMany.toNat) := by
  have hfull : s.length ≠ 12 := by omega
  -- the reversed list is compared by texts that are turned round twice
  have htext : ∀ n : UInt64,
      (if reverseResult then (intToSerialNumber (reverse n)).reverse else intToSerialNumber n) =
        intToSerialNumber n := by
    intro n
    cases reverseResult with
    | false => rfl
    | true => exact (congrArg List.reverse (text_reverse n)).trans (List.reverse_reverse _)
  rw [returnNumbers, if_neg hfull, if_pos h]
  cases stoull16 (s ++ List.replicate (12 - s.length) '0') with
  | none => rfl
  | some sn =>
      show some _ = some _
      simp only [htext]
      rw [takeWhile_take, turned, run]
      rfl

theorem returnNumbers_of_long (h : 12 < s.length) :
    returnNumbers s howMany snArr reverseResult = some [] := by
  have hfull : s.length ≠ 12 := by omega
  have hshort : ¬ s.length < 12 := by omega
  rw [returnNumbers, if_neg hfull, if_neg hshort]

end WifiClientCache

/-! ## Filters of digits -/

/-- What a filter of digits finds in a list. -/
def found (f : Str) (howMany : Nat) (snArr : List UInt64) : List UInt64 :=
  if f.length = 12 then if lowest f ∈ snArr then [lowest f] else []
  else (run (lowest f) (begins f) snArr).take howMany

namespace WifiClientCache

variable {cache : WifiClientCache} {venueId f : Str} {startingOffset howMany : UInt64}

theorem returnNumbers_filter (hf : IsFilter f) (howMany : UInt32) (snArr : List UInt64)
    (reverseResult : Bool) :
    returnNumbers f howMany snArr reverseResult =
      some (turned reverseResult (found f howMany.toNat snArr)) := by
  have hpadded := hf.stoull16_padded
  rcases Nat.lt_or_eq_of_le hf.1 with hshort | hfull
  · rw [returnNumbers_of_short hshort, hpadded, found, if_neg (Nat.ne_of_lt hshort)]
    rfl
  · rw [hfull, Nat.sub_self, List.replicate_zero, List.append_nil] at hpadded
    rw [returnNumbers_of_full hfull, hpadded, found, if_pos hfull]
    rfl

/-- A venue that is not cached has nothing to be found. -/
theorem found_nil (f : Str) (howMany : Nat) : found f howMany [] = [] := by
  unfold found
  split
  · rfl
  · exact List.take_nil

theorem findNumbers_filter (hf : IsFilter f) (hne : f ≠ []) :
    cache.findNumbers venueId f startingOffset howMany =
      some (found f howMany.toUInt32.toNat (cache.sns venueId)) := by
  have hstar : ∀ rest, f ≠ '*' :: rest := by
    rintro rest rfl
    exact absurd (hf.2 '*' List.mem_cons_self) (by decide)
  unfold findNumbers sns
  cases cache venueId with
  | none => exact congrArg some (found_nil f _).symm
  | some c =>
      match f, hne, hstar with
      | d :: rest, _, hstar =>
        have hd : d ≠ '*' := fun h => hstar rest (h ▸ rfl)
        simp only [Option.getD_some]
        exact returnNumbers_filter hf _ _ false

theorem findNumbers_starred (hf : IsFilter f) (hne : f ≠ []) :
    cache.findNumbers venueId ('*' :: f) startingOffset howMany =
      some ((found f.reverse howMany.toUInt32.toNat (cache.reverseSns venueId)).map reverse) := by
  unfold findNumbers reverseSns
  cases cache venueId with
  | none =>
      show some [] = some ((found f.reverse howMany.toUInt32.toNat []).map reverse)
      rw [found_nil]
      rfl
  | some c =>
      have hempty : ¬ f.isEmpty = true := by simpa using hne
      simp only [if_neg hempty, Option.getD_some]
      exact returnNumbers_filter hf.reverse _ _ true

end WifiClientCache

/-! ## Lower-case filters -/

/-- One to twelve digits, and no letter of them upper-case. -/
structure IsLower (f : Str) : Prop where
  length : 1 ≤ f.length ∧ f.length ≤ 12
  digits : ∀ c ∈ f, IsSerialDigit c

namespace IsLower

variable {f : Str} {snArr : List UInt64}

theorem isFilter (h : IsLower f) : IsFilter f := by
  refine ⟨h.length.2, fun c hc => ?_⟩
  obtain ⟨v, hv, rfl⟩ := eq_serialDigit (h.digits c hc)
  rw [hexDigit?_serialDigit hv]
  rfl

theorem ne_nil (h : IsLower f) : f ≠ [] := by
  rintro rfl
  exact absurd h.length.1 (by decide)

theorem reverse (h : IsLower f) : IsLower f.reverse where
  length := by rw [List.length_reverse]; exact h.length
  digits := fun c hc => h.digits c (List.mem_reverse.mp hc)

/-- The numbers whose texts begin with the filter stand next to each other. -/
theorem run_eq_filter (h : IsLower f) (hascending : Ascending snArr)
    (hbelow : ∀ n ∈ snArr, n.toNat < 16 ^ 12) :
    run (lowest f) (begins f) snArr = snArr.filter (begins f) := by
  refine PrefixSearch.run_eq_filter (ascending_iff.mp hascending).1 ?_ ?_
  · intro n hn hbegins
    rw [UInt64.le_iff_toNat_le]
    exact ((h.isFilter.begins_iff h.digits (hbelow n hn)).mp hbegins).1
  · intro m hm n hn hlow hle hbegins
    rw [UInt64.le_iff_toNat_le] at hlow hle
    have hhigh := ((h.isFilter.begins_iff h.digits (hbelow n hn)).mp hbegins).2
    refine (h.isFilter.begins_iff h.digits (hbelow m hm)).mpr ⟨hlow, ?_⟩
    omega

/-- Twelve digits are the text of one number. -/
theorem begins_iff_of_full (h : IsLower f) (hfull : f.length = 12) {n : UInt64}
    (hn : n.toNat < 16 ^ 12) : begins f n = true ↔ n = lowest f := by
  rw [h.isFilter.begins_iff h.digits hn, hfull, ← UInt64.toNat_inj]
  omega

/-- As many as are asked for, of the numbers whose texts begin with the filter. -/
theorem found_eq (h : IsLower f) (hascending : Ascending snArr)
    (hbelow : ∀ n ∈ snArr, n.toNat < 16 ^ 12) {howMany : Nat} (hpos : 1 ≤ howMany) :
    found f howMany snArr = (snArr.filter (begins f)).take howMany := by
  rw [found]
  by_cases hfull : f.length = 12
  · -- one number at most has the whole text
    have hfilter : snArr.filter (begins f) = snArr.filter fun n => decide (n = lowest f) := by
      refine List.filter_congr fun n hn => ?_
      rw [Bool.eq_iff_iff, h.begins_iff_of_full hfull (hbelow n hn), decide_eq_true_eq]
    rw [if_pos hfull, hfilter, List.filter_eq, hascending.nodup.count]
    by_cases hmem : lowest f ∈ snArr
    · rw [if_pos hmem, if_pos hmem, List.take_of_length_le hpos, List.replicate_one]
    · rw [if_neg hmem, if_neg hmem, List.replicate_zero, List.take_nil]
  · rw [if_neg hfull, h.run_eq_filter hascending hbelow]

end IsLower

/-! ## The numbers of a venue, read backwards -/

theorem toNat_reverse_lt (n : UInt64) : (reverse n).toNat < 16 ^ 12 := by
  obtain ⟨us, vs, h⟩ := exists_digits n
  have hlt := hexValue_lt h.reverse.last_lt
  have hvalue := h.reverse.value
  rw [hexValue_zeros_append] at hvalue
  rwa [h.reverse.length_last, ← hvalue] at hlt

theorem Station.toNat_number_lt (s : Station) : s.number.toNat < 16 ^ 12 := by
  have hlength := (length_hexPrefix s.property.2).trans s.property.1
  rw [s.number_eq, toNat_ofNat_hexValue (hexPrefix_lt _) hlength]
  exact (stoull16_station s.property).1

/-- The text of the number ends with the filter. -/
def ends (f : Str) (n : UInt64) : Bool := f.isSuffixOf (intToSerialNumber n)

theorem ends_reverse (f : Str) (n : UInt64) : ends f (reverse n) = begins f.reverse n := by
  rw [Bool.eq_iff_iff, begins_iff, ends, List.isSuffixOf_iff_suffix, text_reverse,
    ← List.reverse_prefix, List.reverse_reverse]

namespace WifiClientCache.Indexed

variable {cache : WifiClientCache} {venueId : Str}

theorem toNat_lt (h : cache.Indexed) : ∀ n ∈ cache.sns venueId, n.toNat < 16 ^ 12 := by
  intro n hn
  obtain ⟨s, rfl⟩ := h.station venueId n hn
  exact s.toNat_number_lt

theorem exists_reverse (h : cache.Indexed) {m : UInt64} (hm : m ∈ cache.reverseSns venueId) :
    ∃ n ∈ cache.sns venueId, reverse n = m ∧ reverse m = n := by
  obtain ⟨n, hn, rfl⟩ := (h.paired venueId).mem_images_iff.mp hm
  exact ⟨n, hn, rfl, h.reverse_reverse hn⟩

theorem toNat_reverse_lt (h : cache.Indexed) :
    ∀ m ∈ cache.reverseSns venueId, m.toNat < 16 ^ 12 := by
  intro m hm
  obtain ⟨n, -, rfl, -⟩ := h.exists_reverse hm
  exact Ap.toNat_reverse_lt n

/-- Turned round, the reversed list has the numbers of the venue. -/
theorem map_reverse_perm (h : cache.Indexed) :
    ((cache.reverseSns venueId).map reverse).Perm (cache.sns venueId) := by
  have hpaired := h.paired venueId
  -- turned round, a number of the list is that of its station again
  have hnodup : ((cache.reverseSns venueId).map reverse).Nodup := by
    refine hpaired.images.nodup.map_on fun m hm m' hm' heq => ?_
    obtain ⟨n, -, rfl, hn⟩ := h.exists_reverse hm
    obtain ⟨n', -, rfl, hn'⟩ := h.exists_reverse hm'
    rw [hn, hn'] at heq
    rw [heq]
  refine (List.perm_ext_iff_of_nodup hnodup hpaired.keys.nodup).mpr fun n => ?_
  rw [List.mem_map]
  refine ⟨?_, fun hn => ⟨reverse n, hpaired.mem_images hn, h.reverse_reverse hn⟩⟩
  rintro ⟨m, hm, rfl⟩
  obtain ⟨n, hn, -, heq⟩ := h.exists_reverse hm
  rwa [heq]

/-- They come in the order of their texts from the end. -/
theorem map_reverse_pairwise (h : cache.Indexed) :
    ((cache.reverseSns venueId).map reverse).Pairwise fun m n =>
      (intToSerialNumber m).reverse < (intToSerialNumber n).reverse := by
  rw [List.pairwise_map]
  refine (h.paired venueId).images.imp_of_mem fun {m n} hm hn hlt => ?_
  rw [text_reverse, text_reverse, List.reverse_reverse, List.reverse_reverse]
  exact (text_lt_text_iff (h.toNat_reverse_lt m hm) (h.toNat_reverse_lt n hn)).mpr hlt

end WifiClientCache.Indexed

/-- After every run of the operations, a lower-case filter finds the first numbers of the venue
    whose texts begin with it, as many as are asked for; and behind a star those whose texts end
    with it, in the order of their texts from the end.  No number is found twice. -/
theorem searches_by_text (ops : List CacheOperation) :
    ∃ cache : WifiClientCache,
      Computation.forEach ops CacheOperation.run (fun _ => none) = (some (), cache) ∧
      ∀ venueId : Str, Ascending (cache.sns venueId) ∧
        ∃ fromEnd : List UInt64, fromEnd.Perm (cache.sns venueId) ∧
          (fromEnd.Pairwise fun m n =>
            (intToSerialNumber m).reverse < (intToSerialNumber n).reverse) ∧
          ∀ (f : Str) (howMany : UInt64), IsLower f →
            1 ≤ howMany.toNat → howMany.toNat ≤ 2 ^ 32 - 1 →
            cache.findNumbers venueId f 0 howMany =
              some (((cache.sns venueId).filter fun n =>
                f.isPrefixOf (intToSerialNumber n)).take howMany.toNat) ∧
            cache.findNumbers venueId ('*' :: f) 0 howMany =
              some ((fromEnd.filter fun n =>
                f.isSuffixOf (intToSerialNumber n)).take howMany.toNat) := by
  obtain ⟨cache, hrun, hindexed, -⟩ := WifiClientCache.indexed_forEach ops
  refine ⟨cache, hrun, fun venueId => ?_⟩
  have hpaired := hindexed.paired venueId
  refine ⟨hpaired.keys, _, hindexed.map_reverse_perm, hindexed.map_reverse_pairwise, ?_⟩
  intro f howMany hf hpos hle
  -- no more are asked for than the narrower type holds
  have hnarrow : howMany.toUInt32.toNat = howMany.toNat := by
    rw [UInt64.toNat_toUInt32, Nat.mod_eq_of_lt (by omega)]
  refine ⟨?_, ?_⟩
  · have hbegin : begins f = fun n => f.isPrefixOf (intToSerialNumber n) := by
      funext n
      rw [Bool.eq_iff_iff, begins_iff, List.isPrefixOf_iff_prefix]
    rw [WifiClientCache.findNumbers_filter hf.isFilter hf.ne_nil, hnarrow,
      hf.found_eq hpaired.keys hindexed.toNat_lt hpos, hbegin]
  · have hends : begins f.reverse = ends f ∘ reverse := by
      funext n
      exact (ends_reverse f n).symm
    rw [WifiClientCache.findNumbers_starred hf.isFilter hf.ne_nil, hnarrow,
      hf.reverse.found_eq hpaired.images hindexed.toNat_reverse_lt hpos, hends, List.map_take,
      ← List.filter_map]
    rfl

end OwAnalytics.Ap
