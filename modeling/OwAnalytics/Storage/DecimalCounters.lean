/-
  OwAnalytics.Storage.DecimalCounters

  The two readers of decimal counters, `ParseDecimalUint64` for the values of a query and
  `OptionalUint64FromJson` for the counters kept in JSON: they take the same texts, return
  the number the text denotes, and compute nothing that does not fit 64 bits on the way.
-/

import OwAnalytics.Storage.JsonText

namespace OwAnalytics

open Boards

namespace DecimalCounters

/-! ## The arithmetic of one digit -/

/-- The largest 64-bit number. -/
def maxUint64 : UInt64 := 18446744073709551615

/-- The digit a character stands for. -/
def digitOf (c : Char) : UInt64 := UInt64.ofNat (c.toNat - '0'.toNat)

/-- What is computed for the digit is what it is without the bound on the numbers: the room that
    the guard leaves before the digit, and, once the guard is passed, the product and the sum. -/
structure Exact (parsed : UInt64) (c : Char) : Prop where
  room : (maxUint64 - digitOf c).toNat = 2 ^ 64 - 1 - (c.toNat - '0'.toNat)
  product : ¬ (maxUint64 - digitOf c) / 10 < parsed → (parsed * 10).toNat = parsed.toNat * 10
  sum : ¬ (maxUint64 - digitOf c) / 10 < parsed →
    (parsed * 10 + digitOf c).toNat = parsed.toNat * 10 + (c.toNat - '0'.toNat)

theorem exact_of_isDigit (parsed : UInt64) {c : Char} (hc : c.isDigit = true) :
    Exact parsed c := by
  have hlt : c.toNat - '0'.toNat < 10 := Calendar.digit_lt hc
  have hdigit : (digitOf c).toNat = c.toNat - '0'.toNat :=
    UInt64.toNat_ofNat_of_lt' (hlt.trans (by decide))
  have hmax : maxUint64.toNat = 2 ^ 64 - 1 := by decide
  have hten : (10 : UInt64).toNat = 10 := rfl
  have hroom : (maxUint64 - digitOf c).toNat = 2 ^ 64 - 1 - (c.toNat - '0'.toNat) := by
    rw [UInt64.toNat_sub_of_le, hmax, hdigit]
    rw [UInt64.le_iff_toNat_le, hmax, hdigit]
    omega
  -- the guard leaves room for one more digit
  have hfits : ¬ (maxUint64 - digitOf c) / 10 < parsed →
      parsed.toNat * 10 + (c.toNat - '0'.toNat) < 2 ^ 64 := by
    intro hguard
    rw [UInt64.lt_iff_toNat_lt, UInt64.toNat_div, hroom, hten] at hguard
    omega
  have hproduct : ¬ (maxUint64 - digitOf c) / 10 < parsed →
      (parsed * 10).toNat = parsed.toNat * 10 := by
    intro hguard
    have h := hfits hguard
    rw [UInt64.toNat_mul, hten]
    omega
  refine ⟨hroom, hproduct, fun hguard => ?_⟩
  have h := hfits hguard
  rw [UInt64.toNat_add, hproduct hguard, hdigit]
  omega

/-! ## The loops -/

/-- The loop reads the text character by character, and computes exactly at each digit it gets
    to, whatever was parsed before it. -/
structure NoWrap (loop : UInt64 → Str → Option UInt64) (text : Str) : Prop where
  resumes : ∀ before rest, text = before ++ rest →
    loop 0 text = (loop 0 before).bind fun parsed => loop parsed rest
  step : ∀ before c rest parsed, text = before ++ c :: rest → loop 0 before = some parsed →
    loop parsed (c :: rest) =
      if !c.isDigit then none
      else if (maxUint64 - digitOf c) / 10 < parsed then none
      else loop (parsed * 10 + digitOf c) rest
  exact : ∀ before c rest parsed, text = before ++ c :: rest → loop 0 before = some parsed →
    c.isDigit = true → Exact parsed c

theorem parseDigits_append (parsed : UInt64) (before rest : Str) :
    Mcp.parseDigits parsed (before ++ rest) =
      (Mcp.parseDigits parsed before).bind fun parsed => Mcp.parseDigits parsed rest := by
  induction before generalizing parsed with
  | nil => rfl
  | cons c before ih =>
      rw [List.cons_append, Mcp.parseDigits, Mcp.parseDigits]
      dsimp only
      split
      · rfl
      · split
        · rfl
        · exact ih _

theorem noWrap_parseDigits (text : Str) : NoWrap Mcp.parseDigits text where
  resumes := by
    rintro before rest rfl
    exact parseDigits_append 0 before rest
  step := by
    intro _ c rest parsed _ _
    rw [Mcp.parseDigits, Mcp.isDigit_eq]
    rfl
  exact := fun _ _ _ parsed _ _ hc => exact_of_isDigit parsed hc

theorem noWrap_parseCounter (text : Str) : NoWrap parseCounter text := by
  have hloop : parseCounter = Mcp.parseDigits := by
    funext parsed rest
    exact parseCounter_eq parsed rest
  rw [hloop]
  exact noWrap_parseDigits text

/-! ## The readers -/

theorem parseDecimalUint64_isSome_iff {text : Str} :
    (Mcp.parseDecimalUint64 text).isSome = true ↔
      text ≠ [] ∧ (∀ c ∈ text, c.isDigit = true) ∧ Nat.ofDigitChars 10 text 0 < 2 ^ 64 := by
  rw [Option.isSome_iff_exists]
  constructor
  · rintro ⟨n, hn⟩
    obtain ⟨hne, hdigits, hvalue⟩ := Mcp.parseDecimalUint64_eq_some_iff.mp hn
    exact ⟨hne, hdigits, by have := n.toNat_lt; omega⟩
  · rintro ⟨hne, hdigits, hlt⟩
    refine ⟨UInt64.ofNat (Nat.ofDigitChars 10 text 0), ?_⟩
    exact Mcp.parseDecimalUint64_eq_some_iff.mpr
      ⟨hne, hdigits, (UInt64.toNat_ofNat_of_lt' hlt).symm⟩

theorem parseDecimalUint64_toDigits (n : UInt64) :
    Mcp.parseDecimalUint64 (Nat.toDigits 10 n.toNat) = some n := by
  refine Mcp.parseDecimalUint64_eq_some_iff.mpr ⟨?_, ?_, Nat.ofDigitChars_ten_toDigits⟩
  · exact List.ne_nil_of_length_pos Nat.length_toDigits_pos
  · exact fun c hc => Nat.isDigit_of_mem_toDigits (by decide) (by decide) hc

/-- The reader of the JSON member is the reader of its text. -/
theorem optionalUint64FromJson_text {F : Type} (L : JsonLibrary F) {body d : Document F}
    {field : String} {text : Str} (hfind : body.find? field = some d)
    (htext : L.toString d = some text) :
    optionalUint64FromJson L body field = some (Mcp.parseDecimalUint64 text) := by
  have hread : optionalUint64FromJson L body field =
      (L.toString d).map fun value => if value.isEmpty then none else parseCounter 0 value := by
    rw [optionalUint64FromJson, hfind]
    cases d with
    | null => cases htext
    | _ => rfl
  rw [hread, htext, Option.map_some, parseCounter_eq, Mcp.parseDecimalUint64]

/-- Both readers take exactly the numerals of 64-bit numbers, return the number, and compute
    nothing that wraps. -/
theorem counters_decode (text : Str) :
    ((Mcp.parseDecimalUint64 text).isSome = true ↔
      text ≠ [] ∧ (∀ c ∈ text, c.isDigit = true) ∧ Nat.ofDigitChars 10 text 0 < 2 ^ 64) ∧
    (∀ n, Mcp.parseDecimalUint64 text = some n → n.toNat = Nat.ofDigitChars 10 text 0) ∧
    (∀ n : UInt64, text = Nat.toDigits 10 n.toNat → Mcp.parseDecimalUint64 text = some n) ∧
    (∀ {F : Type} (L : JsonLibrary F) (body d : Document F) (field : String),
      body.find? field = some d → L.toString d = some text →
        optionalUint64FromJson L body field = some (Mcp.parseDecimalUint64 text)) ∧
    NoWrap Mcp.parseDigits text ∧ NoWrap parseCounter text := by
  refine ⟨parseDecimalUint64_isSome_iff, fun n hn => ?_, ?_, ?_, noWrap_parseDigits text,
    noWrap_parseCounter text⟩
  · obtain ⟨-, -, hvalue⟩ := Mcp.parseDecimalUint64_eq_some_iff.mp hn
    exact hvalue.symm
  · rintro n rfl
    exact parseDecimalUint64_toDigits n
  · exact fun L _ _ _ hfind htext => optionalUint64FromJson_text L hfind htext

/-- The counter of an object that was written with zeros before it. -/
theorem counters_decode_member :
    optionalUint64FromJson JsonText.library
      (.obj [("rx_bytes".toList, .str "007".toList)]) "rx_bytes" =
        some (Mcp.parseDecimalUint64 "007".toList) :=
  (counters_decode "007".toList).2.2.2.1 JsonText.library _ (.str "007".toList) "rx_bytes" rfl rfl

end DecimalCounters

end OwAnalytics
