/-
  OwAnalytics.Ap.SearchTexts

  The texts that `ReturnNumbers` compares and the number it begins at.  A filter of
  digits is padded with zeros to the least number whose text begins with it, and the
  numbers whose texts begin with a lower-case filter are those of one interval.  The
  numbers of the reversed list are compared by texts that are turned round twice.
-/

import OwAnalytics.Ap.CacheIndex
import OwAnalytics.Lib.PrefixSearch

namespace OwAnalytics.Ap

open PrefixSearch
open Venue (hexDigit? hexPrefix stoull16)

/-! ## The digits of a number -/

theorem exists_hexValue (k : Nat) {n : Nat} (h : n < 16 ^ k) :
    ∃ vs : List Nat, vs.length = k ∧ (∀ v ∈ vs, v < 16) ∧ hexValue vs = n := by
  induction k generalizing n with
  | zero =>
      have hzero : n = 0 := by omega
      exact ⟨[], rfl, by simp, hzero.symm⟩
  | succ k ih =>
      have hrest : n / 16 < 16 ^ k := by
        rw [Nat.pow_succ] at h
        omega
      -- the last digit is what the division leaves
      obtain ⟨vs, hlength, hvs, hvalue⟩ := ih hrest
      refine ⟨vs ++ [n % 16], by simp [hlength], ?_, ?_⟩
      · rw [List.forall_mem_append, List.forall_mem_singleton]
        exact ⟨hvs, Nat.mod_lt _ (by decide)⟩
      · rw [hexValue_concat, hvalue]
        omega

theorem hexValue_eq_ofDigits (vs : List Nat) : hexValue vs = Nat.ofDigits 16 vs.reverse := by
  induction vs using List.reverseRecOn with
  | nil => rfl
  | append_singleton vs v ih =>
      rw [hexValue_concat, List.reverse_append, List.reverse_singleton, List.singleton_append,
        Nat.ofDigits_cons, ← ih]
      exact Nat.add_comm _ _

/-- So many digits have one number. -/
theorem hexValue_inj {us vs : List Nat} (hlength : us.length = vs.length) (hus : ∀ u ∈ us, u < 16)
    (hvs : ∀ v ∈ vs, v < 16) : hexValue us = hexValue vs ↔ us = vs := by
  refine ⟨fun h => List.reverse_injective ?_, fun h => h ▸ rfl⟩
  rw [hexValue_eq_ofDigits, hexValue_eq_ofDigits] at h
  exact Nat.ofDigits_inj_of_len_eq (by decide) (by simpa using hlength)
    (fun u hu => hus u (List.mem_reverse.mp hu)) (fun v hv => hvs v (List.mem_reverse.mp hv)) h

/-- The first digits are what is left of the number without the others. -/
theorem hexValue_take {vs : List Nat} (hvs : ∀ v ∈ vs, v < 16) (k : Nat) :
    hexValue (vs.take k) = hexValue vs / 16 ^ (vs.length - k) := by
  have hrest : ∀ v ∈ vs.drop k, v < 16 := fun v hv => hvs v (List.mem_of_mem_drop hv)
  have hlast := hexValue_lt hrest
  have hvalue := hexValue_append (vs.take k) (vs.drop k)
  rw [List.take_append_drop, List.length_drop] at hvalue
  rw [List.length_drop] at hlast
  rw [hvalue, Nat.mul_add_div (Nat.pow_pos (by decide)), Nat.div_eq_of_lt hlast, Nat.add_zero]

/-- The sixteen digits of a number, and the twelve of them that are written. -/
structure Digits (n : UInt64) (us vs : List Nat) : Prop where
  length_first : us.length = 4
  length_last : vs.length = 12
  first_lt : ∀ u ∈ us, u < 16
  last_lt : ∀ v ∈ vs, v < 16
  value : n.toNat = hexValue (us ++ vs)

theorem exists_digits (n : UInt64) : ∃ us vs, Digits n us vs := by
  obtain ⟨ws, hlength, hws, hvalue⟩ := exists_hexValue 16 n.toNat_lt
  refine ⟨ws.take 4, ws.drop 4, ?_, ?_, ?_, ?_, ?_⟩
  · rw [List.length_take, hlength]
    rfl
  · rw [List.length_drop, hlength]
  · exact fun u hu => hws u (List.mem_of_mem_take hu)
  · exact fun v hv => hws v (List.mem_of_mem_drop hv)
  · rw [List.take_append_drop, hvalue]

namespace Digits

variable {n : UInt64} {us vs : List Nat}

theorem text (h : Digits n us vs) : intToSerialNumber n = vs.map serialDigit := by
  have hwritten := serialDigits_hexValue us h.last_lt h.value []
  rwa [h.length_last, List.append_nil] at hwritten

theorem reverse (h : Digits n us vs) :
    Digits (Ap.reverse n) (List.replicate 4 0) vs.reverse where
  length_first := List.length_replicate
  length_last := by rw [List.length_reverse, h.length_last]
  first_lt := by decide
  last_lt := fun v hv => h.last_lt v (List.mem_reverse.mp hv)
  value := by
    have hlast := toNat_ofNat_hexValue (fun v hv => h.last_lt v (List.mem_reverse.mp hv))
      (List.length_reverse.trans h.length_last)
    rw [reverse_eq h.first_lt h.last_lt ⟨h.length_first, h.length_last⟩ h.value, hlast,
      hexValue_zeros_append]

/-- A number of twelve digits is that of its last ones. -/
theorem value_last (h : Digits n us vs) (hn : n.toNat < 16 ^ 12) : n.toNat = hexValue vs := by
  have hvalue := h.value
  rw [hexValue_append, h.length_last] at hvalue
  omega

end Digits

/-- Whatever the number, `Reverse` turns its text round. -/
theorem text_reverse (n : UInt64) :
    intToSerialNumber (reverse n) = (intToSerialNumber n).reverse := by
  obtain ⟨us, vs, h⟩ := exists_digits n
  rw [h.text, h.reverse.text, List.map_reverse]

/-! ## The order of the texts -/

theorem map_serialDigit_lt_iff {us vs : List Nat} (hlength : us.length = vs.length)
    (hus : ∀ u ∈ us, u < 16) (hvs : ∀ v ∈ vs, v < 16) :
    us.map serialDigit < vs.map serialDigit ↔ hexValue us < hexValue vs := by
  have hchar : ∀ u < 16, ∀ v < 16, (serialDigit u < serialDigit v ↔ u < v) := by decide
  have hsame : ∀ u < 16, ∀ v < 16, (serialDigit u = serialDigit v ↔ u = v) := by decide
  induction us generalizing vs with
  | nil =>
      rw [List.length_nil, eq_comm, List.length_eq_zero_iff] at hlength
      rw [hlength]
      exact iff_of_false (List.lt_irrefl []) (Nat.lt_irrefl _)
  | cons u us ih =>
      obtain ⟨v, vs, rfl⟩ := List.exists_cons_of_length_eq_add_one hlength.symm
      rw [List.forall_mem_cons] at hus hvs
      have hrest : us.length = vs.length := Nat.succ.inj hlength
      have ih := ih hrest hus.2 hvs.2
      have hu := hexValue_lt hus.2
      have hv := hexValue_lt hvs.2
      have hfirst : ∀ (w : Nat) (ws : List Nat),
          hexValue (w :: ws) = 16 ^ ws.length * w + hexValue ws := by
        intro w ws
        rw [← List.singleton_append, hexValue_append]
        simp [hexValue]
      rw [List.map_cons, List.map_cons, List.cons_lt_cons_iff, hchar u hus.1 v hvs.1,
        hsame u hus.1 v hvs.1, hfirst, hfirst, hrest]
      simp only [ih]
      rw [hrest] at hu
      -- the first digit decides, or it is the same
      rcases Nat.lt_trichotomy u v with hlt | heq | hgt
      · have hmul : 16 ^ vs.length * (u + 1) ≤ 16 ^ vs.length * v := Nat.mul_le_mul_left _ hlt
        rw [Nat.mul_succ] at hmul
        exact iff_of_true (.inl hlt) (by omega)
      · simp [heq]
      · have hmul : 16 ^ vs.length * (v + 1) ≤ 16 ^ vs.length * u := Nat.mul_le_mul_left _ hgt
        rw [Nat.mul_succ] at hmul
        refine iff_of_false ?_ (by omega)
        rintro (hlt | ⟨heq, -⟩)
        · exact absurd hlt (Nat.lt_asymm hgt)
        · exact absurd heq (Nat.ne_of_gt hgt)

/-- Numbers of twelve digits are in the order of their texts. -/
theorem text_lt_text_iff {m n : UInt64} (hm : m.toNat < 16 ^ 12) (hn : n.toNat < 16 ^ 12) :
    intToSerialNumber m < intToSerialNumber n ↔ m < n := by
  obtain ⟨_, us, hus⟩ := exists_digits m
  obtain ⟨_, vs, hvs⟩ := exists_digits n
  rw [hus.text, hvs.text, map_serialDigit_lt_iff (hus.length_last.trans hvs.length_last.symm)
    hus.last_lt hvs.last_lt, UInt64.lt_iff_toNat_lt, hus.value_last hm, hvs.value_last hn]

/-! ## Filters of digits -/

/-- At most twelve hexadecimal digits, in either case. -/
def IsFilter (f : Str) : Prop := f.length ≤ 12 ∧ ∀ c ∈ f, (hexDigit? c).isSome = true

instance : DecidablePred IsFilter := fun f =>
  decidable_of_iff (f.length ≤ 12 ∧ (f.all fun c => (hexDigit? c).isSome) = true)
    (and_congr_right fun _ => List.all_eq_true)

/-- The number of the filter with zeros behind it. -/
def lowest (f : Str) : UInt64 := UInt64.ofNat (16 ^ (12 - f.length) * hexValue (hexPrefix f))

/-- The text of the number begins with the filter. -/
def begins (f : Str) (n : UInt64) : Bool := f == (intToSerialNumber n).take f.length

theorem begins_iff {f : Str} {n : UInt64} : begins f n = true ↔ f <+: intToSerialNumber n := by
  rw [begins, beq_iff_eq, List.prefix_iff_eq_take]

theorem begins_append {f g : Str} {n : UInt64} (h : begins (f ++ g) n = true) :
    begins f n = true :=
  begins_iff.mpr ((List.prefix_append f g).trans (begins_iff.mp h))

namespace IsFilter

variable {f : Str}

theorem reverse (h : IsFilter f) : IsFilter f.reverse :=
  ⟨by rw [List.length_reverse]; exact h.1, fun c hc => h.2 c (List.mem_reverse.mp hc)⟩

theorem toNat_lowest (h : IsFilter f) :
    (lowest f).toNat = 16 ^ (12 - f.length) * hexValue (hexPrefix f) ∧
      (lowest f).toNat + 16 ^ (12 - f.length) ≤ 16 ^ 12 := by
  have hvalue := hexValue_lt (hexPrefix_lt f)
  rw [length_hexPrefix h.2] at hvalue
  have hmul : 16 ^ (12 - f.length) * (hexValue (hexPrefix f) + 1) ≤
      16 ^ (12 - f.length) * 16 ^ f.length := Nat.mul_le_mul_left _ hvalue
  -- the zeros behind the digits make up twelve
  rw [← Nat.pow_add, Nat.sub_add_cancel h.1, Nat.mul_succ] at hmul
  have hpos : 0 < 16 ^ (12 - f.length) := Nat.pow_pos (by decide)
  have hsize : UInt64.size = 2 ^ 64 := rfl
  have heq : (lowest f).toNat = 16 ^ (12 - f.length) * hexValue (hexPrefix f) :=
    UInt64.toNat_ofNat_of_lt' (by omega)
  exact ⟨heq, heq ▸ hmul⟩

/-- The filter is padded to the number of a station. -/
theorem stoull16_padded (h : IsFilter f) :
    stoull16 (f ++ List.replicate (12 - f.length) '0') = some (lowest f) := by
  have hzeros : hexPrefix (List.replicate (12 - f.length) '0') =
      List.replicate (12 - f.length) 0 := by
    have hzero : ∀ v ∈ List.replicate (12 - f.length) 0, v < 16 := by
      intro v hv
      rw [List.eq_of_mem_replicate hv]
      decide
    have hwritten := hexPrefix_serialDigits hzero
    rwa [List.map_replicate] at hwritten
  have hstation : IsStation (f ++ List.replicate (12 - f.length) '0') := by
    refine ⟨?_, ?_⟩
    · rw [List.length_append, List.length_replicate, Nat.add_sub_cancel' h.1]
    · rw [List.forall_mem_append]
      exact ⟨h.2, fun c hc => by rw [List.eq_of_mem_replicate hc]; decide⟩
  rw [(stoull16_station hstation).2, hexPrefix_append h.2, hzeros, hexValue_append, hexValue_zeros,
    List.length_replicate, Nat.add_zero, lowest]

/-- A number has the text of a lower-case filter at its beginning iff it lies in the interval
    above the least one. -/
theorem begins_iff (h : IsFilter f) (hlower : ∀ c ∈ f, IsSerialDigit c) {n : UInt64}
    (hn : n.toNat < 16 ^ 12) :
    begins f n = true ↔
      (lowest f).toNat ≤ n.toNat ∧ n.toNat < (lowest f).toNat + 16 ^ (12 - f.length) := by
  obtain ⟨ws, hws, rfl⟩ := eq_map_serialDigit hlower
  obtain ⟨us, vs, hn'⟩ := exists_digits n
  rw [h.toNat_lowest.1, hexPrefix_serialDigits hws, List.length_map, hn'.value_last hn]
  have hlength : ws.length ≤ 12 := List.length_map serialDigit ▸ h.1
  have htake : (vs.take ws.length).length = ws.length := by
    rw [List.length_take, hn'.length_last, Nat.min_eq_left hlength]
  have hvs : ∀ v ∈ vs.take ws.length, v < 16 := fun v hv =>
    hn'.last_lt v (List.mem_of_mem_take hv)
  have hbegins : begins (ws.map serialDigit) n = true ↔ ws = vs.take ws.length := by
    rw [begins, beq_iff_eq, hn'.text, List.length_map, ← List.map_take]
    refine ⟨fun heq => ?_, fun heq => congrArg (List.map serialDigit) heq⟩
    have hread := congrArg hexPrefix heq
    rwa [hexPrefix_serialDigits hws, hexPrefix_serialDigits hvs] at hread
  have hpos : 0 < 16 ^ (12 - ws.length) := Nat.pow_pos (by decide)
  -- the first digits are the number divided by the interval
  rw [hbegins, ← hexValue_inj htake.symm hws hvs, hexValue_take hn'.last_lt, hn'.length_last,
    eq_comm, Nat.div_eq_iff hpos, Nat.mul_comm]
  omega

/-- There is no upper-case letter in a text that a number begins with. -/
theorem lower_of_begins {n : UInt64} (h : begins f n = true) : ∀ c ∈ f, IsSerialDigit c := by
  intro c hc
  have hbegin := Ap.begins_iff.mp h
  exact (isSerialText_intToSerialNumber n).2 c (hbegin.subset hc)

end IsFilter

end OwAnalytics.Ap
