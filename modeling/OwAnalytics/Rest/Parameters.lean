/-
  OwAnalytics.Rest.Parameters

  The parameters of a query string (`framework/RESTAPI_Handler.h`): `GetParameter` of a
  text and of a number, and `GetBoolParameter`.  `handleRequest` answers the exceptions
  of Poco; those of the standard library, which the conversion of a number throws, go
  past it.
-/

import OwAnalytics.Mcp.Admission

namespace OwAnalytics.Rest

/-! ## Exceptions -/

/-- What is thrown: an exception of Poco, or one of the standard library. -/
inductive Exception
  | poco
  | outOfRange
  | invalidArgument
deriving DecidableEq

/-- The result of code that may throw. -/
abbrev Result (α : Type) := Except Exception α

/-- `handleRequest`, with its answer to an exception it catches. -/
def handleRequest {α : Type} (badRequest : α) : Result α → Result α
  | .error .poco => .ok badRequest
  | result => result

/-- The exception is not made into an answer. -/
def Escapes {α : Type} (result : Result α) : Prop :=
  ∀ badRequest, ∃ e, handleRequest badRequest result = .error e

/-! ## Parameters -/

/-- `Parameters_`, in the order of the query string. -/
abbrev Parameters := List (Str × Str)

namespace Parameters

variable (parameters : Parameters)

/-- The value of the first parameter of a name. -/
def first? (name : Str) : Option Str := (parameters.find? fun p => p.1 == name).map Prod.snd

/-- `is_number`. -/
def isNumber (s : Str) : Bool := !s.isEmpty && s.all Char.isDigit

/-- `std::stoull` of digits. -/
def stoull (s : Str) : Result UInt64 :=
  let n := Nat.ofDigitChars 10 s 0
  if 2 ^ 64 ≤ n then .error .outOfRange else .ok (UInt64.ofNat n)

/-- `GetParameter` of a number. -/
def getNumber (name : Str) (default : UInt64) : Result UInt64 :=
  match parameters.first? name with
  | none => .ok default
  | some value => if !isNumber value then .ok default else stoull value

/-- `GetParameter` of a text. -/
def getText (name default : Str) : Str := (parameters.first? name).getD default

/-- `GetBoolParameter`. -/
def getBoolParameter (name : Str) (default : Bool) : Bool :=
  match parameters.first? name with
  | none => default
  | some value =>
    if value = "true".toList ∨ value = "false".toList then value = "true".toList else default

end Parameters

/-! ## What they throw -/

theorem escapes_error {α : Type} {e : Exception} (h : e ≠ .poco) :
    Escapes (.error e : Result α) := by
  intro badRequest
  cases e with
  | poco => exact absurd rfl h
  | outOfRange => exact ⟨.outOfRange, rfl⟩
  | invalidArgument => exact ⟨.invalidArgument, rfl⟩

theorem not_escapes_ok {α : Type} (a : α) : ¬ Escapes (.ok a : Result α) := by
  intro h
  obtain ⟨e, he⟩ := h a
  cases he

/-- The first value of the name is a numeral of a number that does not fit 64 bits. -/
def Oversized (parameters : Parameters) (name : Str) : Prop :=
  ∃ value n, parameters.first? name = some value ∧ Mcp.IsNumeral value n ∧ 2 ^ 64 ≤ n

/-- `GetParameter` returns the number of the first value where it is a numeral below `2 ^ 64`, and
    the default where it is not. -/
structure Exact (parameters : Parameters) (name : Str) : Prop where
  number : ∀ {value : Str} {n : ℕ}, parameters.first? name = some value →
    Mcp.IsNumeral value n → n < 2 ^ 64 →
      ∀ default, parameters.getNumber name default = .ok (UInt64.ofNat n)
  default : (¬ ∃ value n, parameters.first? name = some value ∧ Mcp.IsNumeral value n ∧
      n < 2 ^ 64) → ∀ default, parameters.getNumber name default = .ok default

theorem isNumber_iff {value : Str} :
    Parameters.isNumber value = true ↔ Mcp.IsNumeral value (Nat.ofDigitChars 10 value 0) := by
  simp [Parameters.isNumber, Mcp.IsNumeral]

/-- Of the three cases the last one throws. -/
theorem getNumber_cases (parameters : Parameters) (name : Str) :
    (∃ value n, parameters.first? name = some value ∧ Mcp.IsNumeral value n ∧ n < 2 ^ 64 ∧
      ∀ default, parameters.getNumber name default = .ok (UInt64.ofNat n)) ∨
    ((∀ value n, parameters.first? name = some value → ¬ Mcp.IsNumeral value n) ∧
      ∀ default, parameters.getNumber name default = .ok default) ∨
    (Oversized parameters name ∧
      ∀ default, parameters.getNumber name default = .error .outOfRange) := by
  cases hfirst : parameters.first? name with
  | none =>
      refine .inr (.inl ⟨nofun, fun default => ?_⟩)
      rw [Parameters.getNumber, hfirst]
  | some value =>
      by_cases hnumber : Parameters.isNumber value = true
      · have hnumeral := isNumber_iff.mp hnumber
        -- `stoull` throws from `2 ^ 64` on
        by_cases hfits : Nat.ofDigitChars 10 value 0 < 2 ^ 64
        · refine .inl ⟨value, _, rfl, hnumeral, hfits, fun default => ?_⟩
          rw [Parameters.getNumber, hfirst]
          dsimp only
          rw [hnumber, Parameters.stoull, if_neg (Nat.not_le.mpr hfits)]
          rfl
        · refine .inr (.inr ⟨⟨value, _, hfirst, hnumeral, Nat.not_lt.mp hfits⟩, fun default => ?_⟩)
          rw [Parameters.getNumber, hfirst]
          dsimp only
          rw [hnumber, Parameters.stoull, if_pos (Nat.not_lt.mp hfits)]
          rfl
      · refine .inr (.inl ⟨fun value' n hvalue hnumeral => hnumber ?_, fun default => ?_⟩)
        · obtain rfl := Option.some.inj hvalue
          obtain ⟨hne, hdigits, -⟩ := hnumeral
          exact isNumber_iff.mpr ⟨hne, hdigits, rfl⟩
        · rw [Parameters.getNumber, hfirst]
          dsimp only
          rw [Bool.not_eq_true] at hnumber
          rw [hnumber]
          rfl

/-- A number is read, or the conversion throws. -/
theorem getNumber_result (parameters : Parameters) (name : Str) (default : UInt64) :
    (Oversized parameters name ∧ parameters.getNumber name default = .error .outOfRange) ∨
    (¬ Oversized parameters name ∧ ∃ n, parameters.getNumber name default = .ok n) := by
  rcases getNumber_cases parameters name with ⟨value, n, hfirst, hnumeral, hlt, hnumber⟩ |
    ⟨hnone, hdefault⟩ | ⟨hover, herror⟩
  · refine .inr ⟨?_, _, hnumber default⟩
    rintro ⟨value', n', hfirst', hnumeral', hge⟩
    obtain rfl := Option.some.inj (hfirst.symm.trans hfirst')
    have hsame : n = n' := hnumeral.2.2.symm.trans hnumeral'.2.2
    omega
  · refine .inr ⟨?_, _, hdefault default⟩
    rintro ⟨value, n, hfirst, hnumeral, -⟩
    exact hnone value n hfirst hnumeral
  · exact .inl ⟨hover, herror default⟩

theorem escapes_getNumber_iff {parameters : Parameters} {name : Str} {default : UInt64} :
    Escapes (parameters.getNumber name default) ↔ Oversized parameters name := by
  rcases getNumber_result parameters name default with ⟨hover, herror⟩ | ⟨hfits, n, hok⟩
  · rw [herror]
    exact iff_of_true (escapes_error nofun) hover
  · rw [hok]
    exact iff_of_false (not_escapes_ok n) hfits

theorem exact_iff {parameters : Parameters} {name : Str} :
    Exact parameters name ↔ ¬ Oversized parameters name := by
  rcases getNumber_cases parameters name with ⟨value, n, hfirst, hnumeral, hlt, hnumber⟩ |
    ⟨hnone, hdefault⟩ | ⟨hover, herror⟩
  · refine iff_of_true ⟨fun hvalue hn _ default => ?_, fun hno => ?_⟩ ?_
    · obtain rfl := Option.some.inj (hfirst.symm.trans hvalue)
      rw [hnumber default, ← hnumeral.2.2, hn.2.2]
    · exact absurd ⟨value, n, hfirst, hnumeral, hlt⟩ hno
    · rcases getNumber_result parameters name 0 with ⟨-, herror⟩ | ⟨hfits, -⟩
      · rw [hnumber] at herror
        cases herror
      · exact hfits
  · refine iff_of_true ⟨fun hvalue hn => absurd hn (hnone _ _ hvalue), fun _ => hdefault⟩ ?_
    rintro ⟨value, n, hfirst, hnumeral, -⟩
    exact hnone value n hfirst hnumeral
  · -- the numeral is none below the bound, so the default is asked for
    refine iff_of_false (fun h => ?_) (not_not_intro hover)
    have hdefault : parameters.getNumber name 0 = .ok 0 := by
      refine h.default ?_ 0
      rintro ⟨value, n, hfirst, hnumeral, hlt⟩
      obtain ⟨value', n', hfirst', hnumeral', hge⟩ := hover
      obtain rfl := Option.some.inj (hfirst.symm.trans hfirst')
      have hsame : n = n' := hnumeral.2.2.symm.trans hnumeral'.2.2
      omega
    rw [herror] at hdefault
    cases hdefault

end OwAnalytics.Rest
