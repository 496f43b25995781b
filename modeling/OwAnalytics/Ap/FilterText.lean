/-
  OwAnalytics.Ap.FilterText

  The filters of `FindNumbers` as numbers: which texts `std::stoull` takes for one, and
  so for which filters the search throws.  A filter is padded with zeros to twelve
  characters, so one that has nothing but blanks and a sign is a number as well, unless
  it has twelve characters of its own.
-/

import OwAnalytics.Ap.Json
import OwAnalytics.Ap.PrefixQueries

namespace OwAnalytics.Ap

open Venue (hexDigit? hexPrefix stoull16)

/-! ## Texts that are numbers -/

/-- What stands after `0x`, where a digit follows. -/
def afterBase : Str → Str
  | '0' :: x :: c :: rest =>
    if (x = 'x' ∨ x = 'X') ∧ (hexDigit? c).isSome then c :: rest else '0' :: x :: c :: rest
  | s => s

theorem stoull16_eq (s : Str) :
    stoull16 s =
      let digits := hexPrefix (afterBase (signed s).2)
      if digits.isEmpty ∨ 2 ^ 64 ≤ hexValue digits then none
      else
        some (if (signed s).1 then -UInt64.ofNat (hexValue digits)
          else UInt64.ofNat (hexValue digits)) := by
  have hbase : ∀ t : Str, afterBase t =
      match t with
      | '0' :: x :: c :: rest =>
        if (x = 'x' ∨ x = 'X') ∧ (hexDigit? c).isSome then c :: rest else t
      | _ => t := by
    intro t
    unfold afterBase
    split <;> rfl
  unfold stoull16 signed
  simp only [hbase]
  rfl

/-- A digit is what a number begins with. -/
def BeginsWithDigit (s : Str) : Prop := ∃ c ∈ s.head?, (hexDigit? c).isSome = true

instance (s : Str) : Decidable (BeginsWithDigit s) :=
  match s with
  | [] => isFalse nofun
  | c :: _ => decidable_of_iff ((hexDigit? c).isSome = true)
      ⟨fun h => ⟨c, rfl, h⟩, fun ⟨_, hd, h⟩ => Option.some.inj hd ▸ h⟩

theorem hexPrefix_ne_nil_iff {s : Str} : hexPrefix s ≠ [] ↔ BeginsWithDigit s := by
  cases s with
  | nil => exact iff_of_false (fun h => h rfl) nofun
  | cons c rest =>
      rw [hexPrefix]
      cases hc : hexDigit? c with
      | none =>
          refine iff_of_false (fun h => h rfl) ?_
          rintro ⟨d, hd, hdigit⟩
          rw [← Option.some.inj hd, hc] at hdigit
          cases hdigit
      | some v => exact iff_of_true (List.cons_ne_nil _ _) ⟨c, rfl, by rw [hc]; rfl⟩

/-- The digit before the `x` is one, too. -/
theorem beginsWithDigit_afterBase {s : Str} :
    BeginsWithDigit (afterBase s) ↔ BeginsWithDigit s := by
  unfold afterBase
  split
  · rename_i x c rest
    split
    · rename_i hbase
      exact iff_of_true ⟨c, rfl, hbase.2⟩ ⟨'0', rfl, rfl⟩
    · rfl
  · rfl

theorem length_afterBase_le (s : Str) : (afterBase s).length ≤ s.length := by
  unfold afterBase
  split
  · split
    · simp only [List.length_cons]
      omega
    · exact Nat.le_refl _
  · exact Nat.le_refl _

theorem length_signed_le (s : Str) : (signed s).2.length ≤ s.length := by
  have hdrop := List.length_dropWhile_le
    (fun c => [' ', '\t', '\n', '\x0b', '\x0c', '\r'].contains c) s
  unfold signed
  generalize s.dropWhile (fun c => [' ', '\t', '\n', '\x0b', '\x0c', '\r'].contains c) = t at *
  split
  · exact (Nat.le_succ _).trans hdrop
  · exact (Nat.le_succ _).trans hdrop
  · exact hdrop

theorem length_hexPrefix_le (s : Str) : (hexPrefix s).length ≤ s.length := by
  induction s with
  | nil => exact Nat.le_refl _
  | cons c rest ih =>
      rw [hexPrefix]
      split
      · exact Nat.succ_le_succ ih
      · exact Nat.zero_le _

/-- Twelve characters have no more than 64 bits, so all that is needed is a digit. -/
theorem stoull16_isSome_iff {s : Str} (h : s.length ≤ 12) :
    (stoull16 s).isSome = true ↔ BeginsWithDigit (signed s).2 := by
  have hlength : (hexPrefix (afterBase (signed s).2)).length ≤ 12 :=
    (length_hexPrefix_le _).trans ((length_afterBase_le _).trans ((length_signed_le s).trans h))
  have hlt := hexValue_lt (hexPrefix_lt (afterBase (signed s).2))
  have hpow : 16 ^ (hexPrefix (afterBase (signed s).2)).length ≤ 16 ^ 12 :=
    Nat.pow_le_pow_right (by decide) hlength
  have hfits : ¬ 2 ^ 64 ≤ hexValue (hexPrefix (afterBase (signed s).2)) := by omega
  rw [← beginsWithDigit_afterBase, ← hexPrefix_ne_nil_iff, stoull16_eq, ne_eq, ← List.isEmpty_iff]
  dsimp only
  by_cases hempty : (hexPrefix (afterBase (signed s).2)).isEmpty = true
  · rw [if_pos (.inl hempty)]
    exact iff_of_false Bool.false_ne_true fun hne => hne hempty
  · rw [if_neg (not_or.mpr ⟨hempty, hfits⟩)]
    exact iff_of_true rfl hempty

/-- Behind blanks and a sign zeros are digits. -/
theorem signed_append_zero (s rest : Str) :
    (signed (s ++ '0' :: rest)).2 = (signed s).2 ++ '0' :: rest := by
  -- the zeros come after the blanks that are dropped
  have hdrop : (s ++ '0' :: rest).dropWhile
      (fun c => [' ', '\t', '\n', '\x0b', '\x0c', '\r'].contains c) =
        s.dropWhile (fun c => [' ', '\t', '\n', '\x0b', '\x0c', '\r'].contains c) ++
          '0' :: rest := by
    rw [List.dropWhile_append]
    split
    · rename_i hblank
      rw [List.isEmpty_iff.mp hblank]
      rfl
    · rfl
  unfold signed
  rw [hdrop]
  generalize s.dropWhile (fun c => [' ', '\t', '\n', '\x0b', '\x0c', '\r'].contains c) = t
  match t with
  | [] => rfl
  | c :: t =>
    by_cases hminus : c = '-'
    · rw [hminus]
      rfl
    · by_cases hplus : c = '+'
      · rw [hplus]
        rfl
      · simp [hminus, hplus]

/-! ## The search -/

/-- The text that is looked for: behind a star, the filter read backwards. -/
def searchText : Str → Str
  | '*' :: rest => rest.reverse
  | s => s

/-- The text is padded to a number, or it is too long to be looked for. -/
def Convertible (s : Str) : Prop :=
  12 < s.length ∨ BeginsWithDigit (signed s).2 ∨ (signed s).2 = [] ∧ s.length < 12

instance (s : Str) : Decidable (Convertible s) := inferInstanceAs (Decidable (_ ∨ _ ∨ _ ∧ _))

theorem returnNumbers_isSome_iff {s : Str} {howMany : UInt32} {snArr : List UInt64}
    {reverseResult : Bool} :
    (WifiClientCache.returnNumbers s howMany snArr reverseResult).isSome = true ↔
      Convertible s := by
  unfold Convertible
  rcases Nat.lt_trichotomy s.length 12 with hshort | hfull | hlong
  · obtain ⟨k, hk⟩ : ∃ k, 12 - s.length = k + 1 := ⟨11 - s.length, by omega⟩
    have hpadded : s ++ List.replicate (12 - s.length) '0' =
        s ++ '0' :: List.replicate k '0' := by
      rw [hk, List.replicate_succ]
    have hlength : (s ++ '0' :: List.replicate k '0').length ≤ 12 := by
      rw [List.length_append, List.length_cons, List.length_replicate]
      omega
    -- a digit of the padded text is one of the filter, or the first zero
    have hhead : BeginsWithDigit ((signed s).2 ++ '0' :: List.replicate k '0') ↔
        BeginsWithDigit (signed s).2 ∨ (signed s).2 = [] := by
      cases (signed s).2 with
      | nil => exact iff_of_true ⟨'0', rfl, rfl⟩ (.inr rfl)
      | cons c rest => simp [BeginsWithDigit]
    rw [WifiClientCache.returnNumbers_of_short hshort, Option.isSome_map, hpadded,
      stoull16_isSome_iff hlength, signed_append_zero, hhead, or_iff_right (Nat.lt_asymm hshort),
      and_iff_left hshort]
  · have hnot : ¬ s.length < 12 := by omega
    have hnot' : ¬ 12 < s.length := by omega
    rw [WifiClientCache.returnNumbers_of_full hfull, Option.isSome_map,
      stoull16_isSome_iff (Nat.le_of_eq hfull), or_iff_right hnot', iff_def]
    exact ⟨.inl, fun h => h.resolve_right fun hempty => hnot hempty.2⟩
  · rw [WifiClientCache.returnNumbers_of_long hlong]
    exact iff_of_true rfl (.inl hlong)

namespace WifiClientCache

/-- The numbers of the venue if there is no filter, and none otherwise. -/
def listed (cache : WifiClientCache) (venueId filter : Str) : List UInt64 :=
  if filter = [] then cache.sns venueId else []

/-- The list that is searched. -/
def searchList (cache : WifiClientCache) (venueId filter : Str) : List UInt64 :=
  if filter.head? = some '*' then cache.reverseSns venueId else cache.sns venueId

variable {cache : WifiClientCache} {venueId filter : Str}

/-- A cached venue is listed, or one of its lists is searched. -/
theorem findNumbers_of_cached (h : (cache venueId).isSome = true)
    (startingOffset howMany : UInt64) :
    cache.findNumbers venueId filter startingOffset howMany =
      if searchText filter = [] then
        some (((cache.listed venueId filter).drop startingOffset.toNat).take howMany.toNat)
      else
        returnNumbers (searchText filter) howMany.toUInt32 (cache.searchList venueId filter)
          (filter.head? = some '*') := by
  obtain ⟨c, hc⟩ := Option.isSome_iff_exists.mp h
  unfold findNumbers listed searchList sns reverseSns
  simp only [hc, Option.getD_some]
  -- a star is dropped, and what follows it, if anything does, is read backwards
  match filter with
  | [] =>
    rw [listNumbers_eq, Nat.sub_zero]
    rfl
  | [d] =>
    by_cases hd : d = '*'
    · rw [hd]
      simp [searchText]
    · simp [searchText, hd]
  | d :: e :: rest =>
    by_cases hd : d = '*'
    · rw [hd]
      simp [searchText]
    · simp [searchText, hd]

end WifiClientCache

/-- The search throws for a venue that is cached and a filter that is no number. -/
theorem findNumbers_isSome_iff {cache : WifiClientCache} {venueId filter : Str}
    {offset howMany : UInt64} :
    (cache.findNumbers venueId filter offset howMany).isSome = true ↔
      ((cache venueId).isSome = true → Convertible (searchText filter)) := by
  cases hcache : cache venueId with
  | none =>
      rw [WifiClientCache.findNumbers, hcache]
      exact iff_of_true rfl nofun
  | some c =>
      have hcached : (some c).isSome = true := rfl
      rw [WifiClientCache.findNumbers_of_cached (by rw [hcache]; rfl), imp_iff_right hcached]
      split
      · rename_i hnil
        rw [hnil]
        exact iff_of_true rfl (.inr (.inr ⟨rfl, by decide⟩))
      · exact returnNumbers_isSome_iff

end OwAnalytics.Ap
