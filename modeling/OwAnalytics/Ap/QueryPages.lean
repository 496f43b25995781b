/-
  OwAnalytics.Ap.QueryPages

  `FindNumbers` as `DoGet` pages through a venue with it.  All numbers of the venue are
  listed page by page, but a search passes no starting offset on to `ReturnNumbers`, and
  of the limit only its lower half: every page of a search begins at the first match.
-/

import OwAnalytics.Ap.FilterText
import OwAnalytics.Lib.Paging

namespace OwAnalytics.Ap.WifiClientCache

open PrefixSearch Throwing
open Venue (stoull16)

/-! ## What is looked for -/

/-- `FindNumbers` looks nothing up: it lists the venue, or there is nothing to be found. -/
def Unsearched (cache : WifiClientCache) (venueId filter : Str) : Prop :=
  cache venueId = none ∨ searchText filter = [] ∨ 12 < (searchText filter).length

/-- The numbers of the list that the filter matches, from where the search begins. -/
def matching (cache : WifiClientCache) (venueId filter : Str) : Option (List UInt64) :=
  let s := searchText filter
  let snArr := cache.searchList venueId filter
  (stoull16 (s ++ List.replicate (12 - s.length) '0')).map fun sn =>
    turned (filter.head? = some '*')
      (if s.length = 12 then if sn ∈ snArr then [sn] else [] else run sn (begins s) snArr)

variable {cache : WifiClientCache} {venueId filter : Str}

/-- Unsearched, all is listed from the offset on, as many as are asked for. -/
theorem findNumbers_of_unsearched (h : Unsearched cache venueId filter)
    (startingOffset howMany : UInt64) :
    cache.findNumbers venueId filter startingOffset howMany =
      some (((cache.listed venueId filter).drop startingOffset.toNat).take howMany.toNat) := by
  cases hcache : cache venueId with
  | none =>
      have hnil : cache.listed venueId filter = [] := by
        rw [listed, sns, hcache, Option.getD_none]
        split <;> rfl
      rw [findNumbers, hcache, hnil, List.drop_nil, List.take_nil]
  | some c =>
      rw [findNumbers_of_cached (by rw [hcache]; rfl)]
      split
      · rfl
      · rename_i hne
        rcases h with hnone | hnil | hlong
        · rw [hcache] at hnone
          cases hnone
        · exact absurd hnil hne
        -- a filter of more than twelve digits is not searched for
        · have hfilter : filter ≠ [] := by
            rintro rfl
            exact absurd hlong (by decide)
          rw [returnNumbers_of_long hlong, listed, if_neg hfilter, List.drop_nil, List.take_nil]

theorem turned_take (reverseResult : Bool) (found : List UInt64) (k : Nat) :
    turned reverseResult (found.take k) = (turned reverseResult found).take k := by
  cases reverseResult with
  | false => rfl
  | true => exact List.map_take

/-- Searched, the matches come from the first one on, up to the lower half of the limit; and the
    one match that twelve characters have comes whatever the limit. -/
theorem findNumbers_of_searched (h : ¬ Unsearched cache venueId filter)
    (startingOffset howMany : UInt64) :
    cache.findNumbers venueId filter startingOffset howMany =
      (cache.matching venueId filter).map fun found =>
        if (searchText filter).length = 12 then found else found.take howMany.toUInt32.toNat := by
  rw [Unsearched, not_or, not_or, ← ne_eq, Option.ne_none_iff_isSome, Nat.not_lt] at h
  obtain ⟨hcached, hne, hlength⟩ := h
  rw [findNumbers_of_cached hcached, if_neg hne, matching]
  rcases Nat.lt_or_eq_of_le hlength with hshort | hfull
  · simp only [returnNumbers_of_short hshort, if_neg (Nat.ne_of_lt hshort), turned_take,
      Option.map_map]
    rfl
  · simp only [returnNumbers_of_full hfull, hfull, Nat.sub_self, List.replicate_zero,
      List.append_nil, Option.map_map]
    rfl

/-! ## Pages -/

/-- What is found is the slice, at most `limit` long and beginning at the offset, of all that is
    found when `n` numbers are asked for. -/
def IsPage (cache : WifiClientCache) (venueId filter : Str) (n offset limit : UInt64) : Prop :=
  ∃ full, cache.findNumbers venueId filter 0 n = some full ∧
    cache.findNumbers venueId filter offset limit =
      some ((full.drop offset.toNat).take limit.toNat)

/-- The pages of one limit, as many as it takes, are together all that is found when `n` numbers
    are asked for. -/
def ArePages (cache : WifiClientCache) (venueId filter : Str) (n limit : UInt64) : Prop :=
  ∃ (full : List UInt64) (page : Nat → List UInt64),
    cache.findNumbers venueId filter 0 n = some full ∧
    (∀ k, k * limit.toNat < 2 ^ 64 →
      cache.findNumbers venueId filter (UInt64.ofNat (k * limit.toNat)) limit = some (page k)) ∧
    ∀ last, last * limit.toNat < 2 ^ 64 → full.length ≤ (last + 1) * limit.toNat →
      (List.range (last + 1)).flatMap page = full

/-- When a search shows the slice of its matches: for twelve characters at the offset 0, if the
    limit has room for the match; for fewer, when the lower half of the limit leaves as many of
    the matches as the slice has, and those at the offset repeat the first ones. -/
def MatchesAt (full : Prop) [Decidable full] (found : List UInt64) (n offset limit : UInt64) :
    Prop :=
  if full then found = [] ∨ offset = 0 ∧ found.length ≤ limit.toNat
  else
    min found.length (limit.toNat % 2 ^ 32) =
        min (min found.length (n.toNat % 2 ^ 32) - offset.toNat) limit.toNat ∧
      ∀ i < min found.length (limit.toNat % 2 ^ 32), found[i]? = found[i + offset.toNat]?

/-- When pages of a search are all matches: only without matches, or without a lower half of both
    the limit and the number asked for. -/
def MatchesOnPages (full : Prop) [Decidable full] (found : List UInt64) (n limit : UInt64) : Prop :=
  found = [] ∨ ¬ full ∧ limit.toNat % 2 ^ 32 = 0 ∧ n.toNat % 2 ^ 32 = 0

theorem length_listed_le : (cache.listed venueId filter).length ≤ (cache.sns venueId).length := by
  rw [listed]
  split
  · exact Nat.le_refl _
  · exact Nat.zero_le _

variable {n : UInt64}

/-- All that is listed. -/
theorem findNumbers_all_of_unsearched (h : Unsearched cache venueId filter)
    (hn : n.toNat = (cache.sns venueId).length) :
    cache.findNumbers venueId filter 0 n = some (cache.listed venueId filter) := by
  have hle : (cache.listed venueId filter).length ≤ n.toNat := hn ▸ length_listed_le
  rw [findNumbers_of_unsearched h, UInt64.toNat_zero, List.drop_zero, List.take_of_length_le hle]

theorem isPage_of_unsearched (h : Unsearched cache venueId filter)
    (hn : n.toNat = (cache.sns venueId).length) (offset limit : UInt64) :
    IsPage cache venueId filter n offset limit :=
  ⟨_, findNumbers_all_of_unsearched h hn, findNumbers_of_unsearched h offset limit⟩

theorem arePages_of_unsearched (h : Unsearched cache venueId filter)
    (hn : n.toNat = (cache.sns venueId).length) (limit : UInt64) :
    ArePages cache venueId filter n limit := by
  refine ⟨_, fun k => ((cache.listed venueId filter).drop (k * limit.toNat)).take limit.toNat,
    findNumbers_all_of_unsearched h hn, fun k hk => ?_, fun last _ hlast => ?_⟩
  · rw [findNumbers_of_unsearched h, UInt64.toNat_ofNat_of_lt' hk]
  · rw [flatMap_slices, List.take_of_length_le hlast]

/-- A search shows the slice of the matches iff they are so many, and repeat. -/
theorem isPage_iff_of_searched (h : ¬ Unsearched cache venueId filter) (offset limit : UInt64) :
    IsPage cache venueId filter n offset limit ↔
      ∃ found, cache.matching venueId filter = some found ∧
        MatchesAt ((searchText filter).length = 12) found n offset limit := by
  rw [IsPage]
  simp only [findNumbers_of_searched h]
  cases hmatching : cache.matching venueId filter with
  | none => simp
  | some found =>
      simp only [Option.map_some, Option.some.injEq, exists_eq_left', MatchesAt,
        UInt64.toNat_toUInt32]
      split
      · -- the match is on every page
        rw [← UInt64.toNat_inj, UInt64.toNat_zero, ← List.length_eq_zero_iff]
        refine ⟨fun heq => ?_, ?_⟩
        · have hlength := congrArg List.length heq
          rw [List.length_take, List.length_drop] at hlength
          omega
        · rintro (hnil | ⟨hoffset, hle⟩)
          · rw [List.length_eq_zero_iff] at hnil
            rw [hnil, List.drop_nil, List.take_nil]
          · rw [hoffset, List.drop_zero, List.take_of_length_le hle]
      · exact take_eq_slice_iff found _ _ _ _

/-- When a page behind the first match is right although a search shows the first ones again: when
    nothing matches, or when nothing is on the page and nothing is shown. -/
def EmptyBehind (found : List UInt64) (n offset limit : UInt64) : Prop :=
  found = [] ∨ limit.toNat % 2 ^ 32 = 0 ∧
    (min found.length (n.toNat % 2 ^ 32) ≤ offset.toNat ∨ limit = 0)

/-- Where no number is listed twice, a page behind the first match is right only if nothing is on
    it. -/
theorem isPage_iff_of_nodup (h : ¬ Unsearched cache venueId filter)
    (hshort : (searchText filter).length < 12) {found : List UInt64}
    (hmatching : cache.matching venueId filter = some found) (hnodup : found.Nodup)
    {offset : UInt64} (hoffset : offset ≠ 0) (limit : UInt64) :
    IsPage cache venueId filter n offset limit ↔ EmptyBehind found n offset limit := by
  have hpos : offset.toNat ≠ 0 := fun h0 => hoffset (UInt64.toNat_inj.mp h0)
  rw [isPage_iff_of_searched h, hmatching]
  simp only [Option.some.injEq, exists_eq_left', MatchesAt, if_neg (Nat.ne_of_lt hshort)]
  -- the slice and what is shown have both no element
  have hempty : EmptyBehind found n offset limit ↔
      min found.length (limit.toNat % 2 ^ 32) = 0 ∧
        min (min found.length (n.toNat % 2 ^ 32) - offset.toNat) limit.toNat = 0 := by
    rw [EmptyBehind, ← List.length_eq_zero_iff, ← UInt64.toNat_inj, UInt64.toNat_zero]
    omega
  rw [hempty]
  constructor
  · rintro ⟨hlength, hrepeat⟩
    have hzero : min found.length (limit.toNat % 2 ^ 32) = 0 := by
      by_contra hsome
      -- the first match would be listed again at the offset
      have hfirst := hrepeat 0 (by omega)
      have hlt : 0 < found.length := by omega
      rw [Nat.zero_add] at hfirst
      exact hpos ((List.getElem?_inj hlt hnodup).mp hfirst).symm
    exact ⟨hzero, hlength ▸ hzero⟩
  · rintro ⟨hzero, hslice⟩
    refine ⟨hzero.trans hslice.symm, fun i hi => ?_⟩
    rw [hzero] at hi
    exact absurd hi (Nat.not_lt_zero i)

/-- Pages of any size reach the end of a short list, and the offset behind them is one still. -/
theorem exists_last_page {length size : Nat} (hpos : 1 ≤ size) (hsize : size < 2 ^ 64)
    (hlength : length ≤ 2 ^ 32) :
    ∃ last, length ≤ (last + 1) * size ∧ (last + 1) * size < 2 ^ 64 := by
  have hdiv := Nat.div_add_mod length size
  have hmod := Nat.mod_lt length hpos
  have hmul : (length / size + 1) * size = size * (length / size) + size := by
    rw [Nat.succ_mul, Nat.mul_comm]
  refine ⟨length / size, by omega, ?_⟩
  rcases Nat.lt_or_ge length size with hone | hmany
  · rw [Nat.div_eq_of_lt hone, Nat.zero_add, Nat.one_mul]
    exact hsize
  · omega

/-- Where every page is the same, pages are all that is found iff nothing is. -/
theorem arePages_iff_of_same {limit : UInt64} (hlimit : 1 ≤ limit.toNat) {same full : List UInt64}
    (hsame : ∀ offset, cache.findNumbers venueId filter offset limit = some same)
    (hfull : cache.findNumbers venueId filter 0 n = some full) (hlength : full.length ≤ 2 ^ 32) :
    ArePages cache venueId filter n limit ↔ same = [] ∧ full = [] := by
  rw [ArePages]
  refine ⟨?_, ?_⟩
  · rintro ⟨full', page, hfull', hpage, hpages⟩
    obtain rfl : full = full' := Option.some.inj (hfull.symm.trans hfull')
    -- whatever its offset, a page is the first one
    have hpage : ∀ k, k * limit.toNat < 2 ^ 64 → page k = same := fun k hk =>
      Option.some.inj ((hpage k hk).symm.trans (hsame _))
    -- a last page, and one behind it
    obtain ⟨last, hreach, hbehind⟩ := exists_last_page hlimit limit.toNat_lt hlength
    have hle : last * limit.toNat ≤ (last + 1) * limit.toNat :=
      Nat.mul_le_mul_right _ (Nat.le_succ last)
    have hmore : (last + 1) * limit.toNat ≤ (last + 1 + 1) * limit.toNat :=
      Nat.mul_le_mul_right _ (Nat.le_succ _)
    have hfirst := hpages last (by omega) hreach
    have hnext := hpages (last + 1) hbehind (by omega)
    rw [List.range_succ, List.flatMap_append, hfirst, List.flatMap_singleton, hpage _ hbehind,
      List.append_right_eq_self] at hnext
    refine ⟨hnext, ?_⟩
    rw [← hfirst, List.flatMap_eq_nil_iff]
    intro k hk
    have hklast : k ≤ last := Nat.le_of_lt_succ (List.mem_range.mp hk)
    have hmul : k * limit.toNat ≤ last * limit.toNat := Nat.mul_le_mul_right _ hklast
    rw [hpage k (by omega), hnext]
  · rintro ⟨rfl, rfl⟩
    refine ⟨[], fun _ => [], hfull, fun k _ => hsame _, fun last _ _ => ?_⟩
    rw [List.flatMap_eq_nil_iff]
    exact fun _ _ => rfl

/-- Twelve characters match one number at most. -/
theorem length_matching_le (hfull : (searchText filter).length = 12) {found : List UInt64}
    (h : cache.matching venueId filter = some found) : found.length ≤ 1 := by
  rw [matching] at h
  obtain ⟨sn, -, rfl⟩ := Option.map_eq_some_iff.mp h
  have hturned : ∀ (reverseResult : Bool) (xs : List UInt64),
      (turned reverseResult xs).length = xs.length := by
    intro reverseResult xs
    cases reverseResult with
    | false => rfl
    | true => exact List.length_map reverse
  rw [hturned, if_pos hfull]
  split
  · exact Nat.le_refl 1
  · exact Nat.zero_le 1

theorem arePages_iff_of_searched (h : ¬ Unsearched cache venueId filter) {limit : UInt64}
    (hlimit : 1 ≤ limit.toNat) :
    ArePages cache venueId filter n limit ↔
      ∃ found, cache.matching venueId filter = some found ∧
        MatchesOnPages ((searchText filter).length = 12) found n limit := by
  have hfind := findNumbers_of_searched h
  cases hmatching : cache.matching venueId filter with
  | none =>
      refine iff_of_false ?_ (by simp)
      rintro ⟨full, page, hfull, -⟩
      rw [hfind, hmatching] at hfull
      cases hfull
  | some found =>
      simp only [hmatching, Option.map_some] at hfind
      simp only [Option.some.injEq, exists_eq_left', MatchesOnPages]
      by_cases hfull : (searchText filter).length = 12
      -- a whole serial number has one match at most, and is found on every page
      · have hone := length_matching_le hfull hmatching
        simp only [if_pos hfull] at hfind
        rw [arePages_iff_of_same hlimit (fun offset => hfind offset limit) (hfind 0 n) (by omega)]
        simp [hfull]
      -- the matches of any other filter are cut at `n`, narrowed to 32 bits
      · have hlength : (found.take n.toUInt32.toNat).length ≤ 2 ^ 32 := by
          rw [List.length_take]
          have hlt := n.toUInt32.toNat_lt
          omega
        simp only [if_neg hfull] at hfind
        rw [arePages_iff_of_same hlimit (fun offset => hfind offset limit) (hfind 0 n) hlength,
          List.take_eq_nil_iff, List.take_eq_nil_iff, UInt64.toNat_toUInt32, UInt64.toNat_toUInt32]
        simp only [hfull, not_false_eq_true, true_and]
        tauto

/-- A page is the slice of what is found when as many numbers are asked for as the venue has, and
    the pages of one limit are together all of it, iff nothing is looked up, or the filter is a
    number and its matches are as few, or repeat, as the page needs.  Where no number is listed
    twice, fewer than twelve characters show a page behind the first match only if it is empty. -/
theorem pages_iff (cache : WifiClientCache) (venueId filter : Str) {n : UInt64}
    (hn : n.toNat = (cache.sns venueId).length) :
    (∀ offset limit : UInt64, IsPage cache venueId filter n offset limit ↔
      Unsearched cache venueId filter ∨ ∃ found, cache.matching venueId filter = some found ∧
        MatchesAt ((searchText filter).length = 12) found n offset limit) ∧
    (∀ limit : UInt64, 1 ≤ limit.toNat → (ArePages cache venueId filter n limit ↔
      Unsearched cache venueId filter ∨ ∃ found, cache.matching venueId filter = some found ∧
        MatchesOnPages ((searchText filter).length = 12) found n limit)) ∧
    ∀ found, ¬ Unsearched cache venueId filter → (searchText filter).length < 12 →
      cache.matching venueId filter = some found → found.Nodup →
        ∀ offset limit : UInt64, offset ≠ 0 →
          (IsPage cache venueId filter n offset limit ↔ EmptyBehind found n offset limit) := by
  refine ⟨?_, ?_, fun found h hshort hmatching hnodup offset limit hoffset =>
    isPage_iff_of_nodup h hshort hmatching hnodup hoffset limit⟩
  · intro offset limit
    by_cases h : Unsearched cache venueId filter
    · exact iff_of_true (isPage_of_unsearched h hn offset limit) (.inl h)
    · rw [or_iff_right h]
      exact isPage_iff_of_searched h offset limit
  · intro limit hlimit
    by_cases h : Unsearched cache venueId filter
    · exact iff_of_true (arePages_of_unsearched h hn limit) (.inl h)
    · rw [or_iff_right h]
      exact arePages_iff_of_searched h hlimit

/-- A venue after the stations `aabbccddee01` and `aabbccddee02` have been added. -/
def twoStations : WifiClientCache :=
  (Computation.forEach ["aabbccddee01".toList, "aabbccddee02".toList]
    (addSerialNumber "venue".toList) fun _ => none).2

/-- The first page of the filter `aa` is right; the second is not, and pages of one number are not
    all that is found. -/
theorem pages_iff_twoStations :
    IsPage twoStations "venue".toList "aa".toList 2 0 1 ∧
      ¬ IsPage twoStations "venue".toList "aa".toList 2 1 1 ∧
      ¬ ArePages twoStations "venue".toList "aa".toList 2 1 := by
  have hn : (2 : UInt64).toNat = (twoStations.sns "venue".toList).length := by decide +kernel
  have hmatching : twoStations.matching "venue".toList "aa".toList =
      some [0xaabbccddee01, 0xaabbccddee02] := by decide +kernel
  have hcached : (twoStations "venue".toList).isSome = true := by decide +kernel
  obtain ⟨hpage, hpages, hbehind⟩ := pages_iff twoStations "venue".toList "aa".toList hn
  have hsearched : ¬ Unsearched twoStations "venue".toList "aa".toList := by
    rintro (hnone | hnil | hlong)
    · rw [hnone] at hcached
      cases hcached
    · exact absurd hnil (by decide)
    · exact absurd hlong (by decide)
  refine ⟨(hpage 0 1).mpr (.inr ⟨_, hmatching, ?_⟩), ?_, ?_⟩
  · unfold MatchesAt
    decide
  · rw [hbehind _ hsearched (by decide) hmatching (by decide) 1 1 (by decide)]
    unfold EmptyBehind
    decide
  · rw [hpages 1 (by decide), or_iff_right hsearched, hmatching]
    rintro ⟨found, hfound, hnone⟩
    obtain rfl := Option.some.inj hfound
    unfold MatchesOnPages at hnone
    exact absurd hnone (by decide)

/-- The second page shows both of the stations. -/
theorem second_page_repeats :
    ¬ ∀ (cache : WifiClientCache) (venueId filter : Str) (n : UInt64),
      n.toNat = (cache.sns venueId).length →
      (∀ offset limit : UInt64, IsPage cache venueId filter n offset limit) ∧
        ∀ limit : UInt64, 1 ≤ limit.toNat → ArePages cache venueId filter n limit := by
  intro h
  have hn : (2 : UInt64).toNat = (twoStations.sns "venue".toList).length := by decide +kernel
  have hfull : twoStations.findNumbers "venue".toList "aa".toList 0 2 =
      some [0xaabbccddee01, 0xaabbccddee02] := by decide +kernel
  have hsecond : twoStations.findNumbers "venue".toList "aa".toList 1 2 =
      some [0xaabbccddee01, 0xaabbccddee02] := by decide +kernel
  obtain ⟨full, hfull', hpage⟩ := (h twoStations _ _ 2 hn).1 1 2
  obtain rfl := Option.some.inj (hfull.symm.trans hfull')
  rw [hsecond] at hpage
  exact absurd hpage (by decide)

end OwAnalytics.Ap.WifiClientCache
