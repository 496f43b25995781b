/-
  OwAnalytics.Ap.CacheLookup

  The lookups of `WifiClientCache` (`WifiClientCache.h`, `WifiClientCache.cpp`): whether
  a number is cached for a venue, and the numbers of a venue, all of them or those
  whose text begins or ends as asked for.  And what the cache holds after a list of
  stations has been added to it.
-/

import OwAnalytics.Ap.DeviceIdentity

namespace OwAnalytics.Ap

open Throwing
open Venue (hexDigit? hexPrefix stoull16)

/-! ## The lookups -/

/-- The loop of `Reverse`. -/
def reverseLoop : Nat → UInt64 → UInt64 → UInt64
  | 0, res, _ => res
  | i + 1, res, n => reverseLoop i ((res <<< 4) + (n &&& 0xf)) (n >>> 4)

/-- `Reverse`: the last twelve digits, read backwards. -/
def reverse (n : UInt64) : UInt64 := reverseLoop 16 0 n >>> 16

namespace WifiClientCache

/-- `NumberExists`. -/
def numberExists (cache : WifiClientCache) (venueId : Str) (serialNumber : UInt64) : Bool :=
  match cache venueId with
  | none => false
  | some c => serialNumber ∈ c.sns

/-- `ReturnNumbers`; a text that does not begin with a number throws. -/
def returnNumbers (s : Str) (howMany : UInt32) (snArr : List UInt64) (reverseResult : Bool) :
    Option (List UInt64) :=
  if s.length = 12 then do
    let sn ← stoull16 s
    return if sn ∈ snArr then [if reverseResult then reverse sn else sn] else []
  else if s.length < 12 then do
    let sn ← stoull16 (s ++ List.replicate (12 - s.length) '0')
    let tsn (n : UInt64) : Str :=
      if reverseResult then (intToSerialNumber (reverse n)).reverse else intToSerialNumber n
    let found := ((snArr.dropWhile (· < sn)).take howMany.toNat).takeWhile fun n =>
      s == (tsn n).take s.length
    return if reverseResult then found.map reverse else found
  else some []

/-- The loop of `FindNumbers` over all numbers of a venue. -/
def listNumbers (startingOffset : Nat) : Nat → Nat → List UInt64 → List UInt64
  | _, _, [] => []
  | offset, howMany, n :: rest =>
    if howMany = 0 then []
    else if startingOffset ≤ offset then
      n :: listNumbers startingOffset (offset + 1) (howMany - 1) rest
    else listNumbers startingOffset (offset + 1) howMany rest

/-- `FindNumbers`; the conversion of `HowMany` to `uint` drops the upper half. -/
def findNumbers (cache : WifiClientCache) (venueId serialNumber : Str)
    (startingOffset howMany : UInt64) : Option (List UInt64) :=
  match cache venueId with
  | none => some []
  | some c =>
    match serialNumber with
    | [] => some (listNumbers startingOffset.toNat 0 howMany.toNat c.sns)
    | '*' :: rest =>
      if rest.isEmpty then some []
      else returnNumbers rest.reverse howMany.toUInt32 c.reverseSns true
    | _ => returnNumbers serialNumber howMany.toUInt32 c.sns false

theorem numberExists_iff (cache : WifiClientCache) (venueId : Str) (n : UInt64) :
    cache.numberExists venueId n = true ↔ n ∈ cache.sns venueId := by
  unfold numberExists sns
  cases cache venueId with
  | none => simp
  | some c => simp

/-- The loop lists as many as it is asked for, from the starting offset on. -/
theorem listNumbers_eq (startingOffset offset howMany : Nat) (l : List UInt64) :
    listNumbers startingOffset offset howMany l =
      (l.drop (startingOffset - offset)).take howMany := by
  induction l generalizing offset howMany with
  | nil => simp [listNumbers]
  | cons n rest ih =>
      rw [listNumbers]
      by_cases hzero : howMany = 0
      · rw [if_pos hzero, hzero, List.take_zero]
      · obtain ⟨k, rfl⟩ := Nat.exists_eq_add_one_of_ne_zero hzero
        rw [if_neg hzero, ih, ih]
        by_cases hstart : startingOffset ≤ offset
        · rw [if_pos hstart, Nat.sub_eq_zero_of_le hstart,
            Nat.sub_eq_zero_of_le (Nat.le_succ_of_le hstart)]
          rfl
        · have hnext : startingOffset - offset = startingOffset - (offset + 1) + 1 := by omega
          rw [if_neg hstart, hnext, List.drop_succ_cons]

/-- The numbers of a venue, when enough of them are asked for. -/
theorem findNumbers_all (cache : WifiClientCache) (venueId : Str) {howMany : UInt64}
    (h : (cache.sns venueId).length ≤ howMany.toNat) :
    cache.findNumbers venueId [] 0 howMany = some (cache.sns venueId) := by
  unfold sns at h ⊢
  unfold findNumbers
  cases hcache : cache venueId with
  | none => rfl
  | some c =>
      rw [hcache] at h
      simp only [UInt64.toNat_zero, listNumbers_eq, Nat.sub_zero, List.drop_zero]
      exact congrArg some (List.take_of_length_le h)

end WifiClientCache

/-! ## Stations -/

/-- Twelve hexadecimal digits, in either case. -/
def IsStation (s : Str) : Prop := s.length = 12 ∧ ∀ c ∈ s, (hexDigit? c).isSome = true

/-- The text of a station. -/
abbrev Station := {s : Str // IsStation s}

theorem hexDigit?_lt {c : Char} {v : Nat} (h : hexDigit? c = some v) : v < 16 := by
  unfold hexDigit? at h
  split_ifs at h with hdigit hlower hupper
  · obtain rfl := Option.some.inj h
    have hle := toNat_le_of_le hdigit.2
    have h9 : '9'.toNat = 57 := rfl
    have h0 : '0'.toNat = 48 := rfl
    omega
  · obtain rfl := Option.some.inj h
    have hle := toNat_le_of_le hlower.2
    have hf : 'f'.toNat = 102 := rfl
    have ha : 'a'.toNat = 97 := rfl
    omega
  · obtain rfl := Option.some.inj h
    have hle := toNat_le_of_le hupper.2
    have hF : 'F'.toNat = 70 := rfl
    have hA : 'A'.toNat = 65 := rfl
    omega

theorem hexPrefix_lt (s : Str) : ∀ v ∈ hexPrefix s, v < 16 := by
  induction s with
  | nil => simp [hexPrefix]
  | cons c rest ih =>
      rw [hexPrefix]
      cases hc : hexDigit? c with
      | none => simp
      | some v => exact List.forall_mem_cons.mpr ⟨hexDigit?_lt hc, ih⟩

theorem length_hexPrefix {s : Str} (h : ∀ c ∈ s, (hexDigit? c).isSome = true) :
    (hexPrefix s).length = s.length := by
  induction s with
  | nil => rfl
  | cons c rest ih =>
      rw [List.forall_mem_cons] at h
      obtain ⟨v, hv⟩ := Option.isSome_iff_exists.mp h.1
      rw [hexPrefix, hv, List.length_cons, List.length_cons, ih h.2]

/-- A station is read from its first digit to its last. -/
theorem stoull16_station {s : Str} (h : IsStation s) :
    hexValue (hexPrefix s) < 16 ^ 12 ∧
      stoull16 s = some (UInt64.ofNat (hexValue (hexPrefix s))) := by
  obtain ⟨hlen, hdigits⟩ := h
  -- no character is a blank, a sign or an `x`, so the text is read as it stands
  have hnot : ∀ c ∈ s, ∀ x : Char, hexDigit? x = none → c ≠ x := by
    rintro c hc x hx rfl
    have hsome := hdigits c hc
    rw [hx] at hsome
    cases hsome
  have hlength := length_hexPrefix hdigits
  have hlt := hexValue_lt (hexPrefix_lt s)
  rw [hlength, hlen] at hlt
  have hne : (hexPrefix s).isEmpty = false := by
    rw [List.isEmpty_eq_false_iff, ne_eq, ← List.length_eq_zero_iff]
    omega
  have hbig : ¬ 2 ^ 64 ≤ hexValue (hexPrefix s) := by
    omega
  refine ⟨hlt, ?_⟩
  rw [stoull16_of_plain, if_neg (not_or.mpr ⟨by simp [hne], hbig⟩)]
  · intro c hc
    rw [List.contains_eq_mem, decide_eq_false_iff_not]
    intro hmem
    simp only [List.mem_cons, List.not_mem_nil, or_false] at hmem
    rcases hmem with rfl | rfl | rfl | rfl | rfl | rfl
    all_goals exact hnot _ hc _ (by decide) rfl
  · exact fun c hc => ⟨hnot c hc '-' (by decide), hnot c hc '+' (by decide)⟩
  · exact fun c hc => ⟨hnot c hc 'x' (by decide), hnot c hc 'X' (by decide)⟩

/-- A station is a number. -/
theorem stoull16_isSome {s : Str} (h : IsStation s) : (stoull16 s).isSome = true := by
  rw [(stoull16_station h).2]
  rfl

theorem IsStation.reverse {s : Str} (h : IsStation s) : IsStation s.reverse :=
  ⟨by rw [List.length_reverse]; exact h.1, fun c hc => h.2 c (List.mem_reverse.mp hc)⟩

namespace Station

/-- The number of a station. -/
def number (s : Station) : UInt64 := (stoull16 s.val).get (stoull16_isSome s.property)

theorem stoull16_val (s : Station) : stoull16 s.val = some s.number := (Option.some_get _).symm

end Station

end OwAnalytics.Ap
