/-
  OwAnalytics.Ap.Json

  How `APStats.cpp` reads a parsed message: the conversions of `nlohmann::json` to C++
  types, `GetJSON` and its siblings, and the conversions of texts to numbers.
-/

import OwAnalytics.Document

namespace OwAnalytics

/-- The doubles: their arithmetic and the conversions from and to integers. -/
class Double (F : Type) extends Zero F, Add F, Mul F, Div F where
  lt : F → F → Bool
  ofUInt64 : UInt64 → F
  ofInt64 : Int64 → F
  toUInt64 : F → UInt64
  toInt64 : F → Int64
  toUInt32 : F → UInt32
  toUInt16 : F → UInt16

/-- Rationals as doubles without rounding. -/
instance instDoubleRat : Double ℚ where
  lt a b := decide (a < b)
  ofUInt64 n := n.toNat
  ofInt64 n := n.toInt
  toUInt64 x := UInt64.ofNat x.floor.toNat
  toInt64 x := Int64.ofInt (if 0 ≤ x then x.floor else x.ceil)
  toUInt32 x := UInt32.ofNat x.floor.toNat
  toUInt16 x := UInt16.ofNat x.floor.toNat

namespace Document

variable {F : Type}

/-! ## Conversions -/

section Numbers

variable [Double F]

/-- `get<uint64_t>()`; a value that is no number throws. -/
def getUInt64 : Document F → Option UInt64
  | unsigned n => some n
  | integer n => some n.toUInt64
  | float x => some (Double.toUInt64 x)
  | _ => none

/-- `get<int64_t>`. -/
def getInt64 : Document F → Option Int64
  | unsigned n => some n.toInt64
  | integer n => some n
  | float x => some (Double.toInt64 x)
  | _ => none

/-- `get<uint32_t>()`, which takes booleans too. -/
def getUInt32 : Document F → Option UInt32
  | unsigned n => some n.toUInt32
  | integer n => some n.toUInt64.toUInt32
  | float x => some (Double.toUInt32 x)
  | bool b => some (if b then 1 else 0)
  | _ => none

/-- `get<uint16_t>`. -/
def getUInt16 : Document F → Option UInt16
  | unsigned n => some n.toUInt16
  | integer n => some n.toUInt64.toUInt16
  | float x => some (Double.toUInt16 x)
  | bool b => some (if b then 1 else 0)
  | _ => none

/-- `get<double>`. -/
def getDouble : Document F → Option F
  | unsigned n => some (Double.ofUInt64 n)
  | integer n => some (Double.ofInt64 n)
  | float x => some x
  | _ => none

/-- `APStats::GetOptionalDoubleJSON`. -/
def getOptionalDoubleJSON (field : String) (doc : Document F) : Option F :=
  (doc.find? field).bind getDouble

end Numbers

/-- `get<bool>`. -/
def getBool : Document F → Option Bool
  | bool b => some b
  | _ => none

/-- `get<std::string>`. -/
def getString : Document F → Option Str
  | str s => some s
  | _ => none

/-- `is_array()` of a member, with its elements. -/
def array? (d : Document F) (field : String) : Option (List (Document F)) :=
  match d.find? field with
  | some (arr items) => some items
  | _ => none

/-- What `for (const auto &x : d)` goes through. -/
def elements : Document F → List (Document F)
  | null => []
  | arr items => items
  | obj fields => fields.map Prod.snd
  | d => [d]

/-! ## Members -/

/-- `GetJSON` of a type, with its conversion. -/
def getJSON {α : Type} (get : Document F → Option α) (field : String) (doc : Document F)
    (default : α) : Option α :=
  match doc.find? field with
  | none | some null => some default
  | some d => get d

/-- `GetJSON` of a member of a member. -/
def getJSON₂ {α : Type} (get : Document F → Option α) (field₁ field₂ : String) (doc : Document F)
    (default : α) : Option α :=
  match doc.find? field₁ with
  | none | some null => some default
  | some subDoc => getJSON get field₂ subDoc default

/-- `GetOptionalUInt64JSON`. -/
def getOptionalUInt64JSON (field : String) (doc : Document F) : Option UInt64 :=
  match doc.find? field with
  | some (unsigned n) => some n
  | some (integer n) => if 0 ≤ n then some n.toUInt64 else none
  | _ => none

/-- `GetOptionalStringJSON`. -/
def getOptionalStringJSON (field : String) (doc : Document F) : Str :=
  match doc.find? field with
  | some (str s) => s
  | some (unsigned n) => (toString n.toNat).toList
  | some (integer n) => (toString n.toInt).toList
  | _ => []

end Document

/-! ## Texts -/

/-- `mac_filter`. -/
def macFilter (m : Str) : Str := m.filter fun c => c ≠ ':' ∧ c ≠ '-'

/-- The tokens of `Poco::StringTokenizer`, the empty ones too. -/
def tokens (s : Str) (separator : Char) : List Str :=
  if s.isEmpty then [] else s.splitOn separator

/-- What stands after the blanks and the sign, and whether the sign is a minus. -/
def signed (s : Str) : Bool × Str :=
  match s.dropWhile fun c => [' ', '\t', '\n', '\x0b', '\x0c', '\r'].contains c with
  | '-' :: rest => (true, rest)
  | '+' :: rest => (false, rest)
  | rest => (false, rest)

/-- The number of the decimal digits a text begins with. -/
def decimal (s : Str) : Nat :=
  (s.takeWhile Char.isDigit).foldl (fun n c => 10 * n + (c.toNat - '0'.toNat)) 0

/-- `std::strtoull(s, nullptr, 10)`. -/
def strtoull (s : Str) : UInt64 :=
  let (negative, digits) := signed s
  if 2 ^ 64 ≤ decimal digits then UInt64.ofNat (2 ^ 64 - 1)
  else if negative then -UInt64.ofNat (decimal digits) else UInt64.ofNat (decimal digits)

/-- `std::strtol(s, nullptr, 10)`. -/
def strtol (s : Str) : Int64 :=
  let (negative, digits) := signed s
  let n : Int := decimal digits
  Int64.ofInt (if negative then max (-n) (-2 ^ 63) else min n (2 ^ 63 - 1))

end OwAnalytics
