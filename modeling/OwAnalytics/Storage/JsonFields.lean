/-
  OwAnalytics.Storage.JsonFields

  `RESTAPI_utils` over the JSON library: objects put together field by field
  (`field_to_json`), fields read back (`field_from_json`), and the texts of objects and
  of arrays of objects (`to_string`, `to_object`, `to_object_array`).  Of the library
  it is assumed that it reads what it writes, but for numbers, which may come back in
  another form: an integer that is not negative as an unsigned one, a double as
  whatever its numeral is read as.
-/

import OwAnalytics.Boards.Handler

namespace OwAnalytics

open Boards

variable {F : Type}

/-! ## Objects -/

namespace Document

/-- `Object::set`; the members stand in the order of their keys. -/
def setMember (k : Str) (v : Document F) : List (Str × Document F) → List (Str × Document F)
  | [] => [(k, v)]
  | e :: rest =>
    match compare k e.1 with
    | .lt => (k, v) :: e :: rest
    | .eq => (k, v) :: rest
    | .gt => e :: setMember k v rest

/-- The object after these fields have been set. -/
def object (fields : List (String × Document F)) : Document F :=
  obj (fields.foldl (fun members e => setMember e.1.toList e.2 members) [])

/-- The fields that are set. -/
def present (fields : List (String × Option (Document F))) : List (String × Document F) :=
  fields.filterMap fun e => e.2.map fun d => (e.1, d)

/-- The members of all objects stand in the order of their keys, each key once. -/
inductive Ordered : Document F → Prop
  | null : Ordered null
  | bool (b : Bool) : Ordered (bool b)
  | unsigned (n : UInt64) : Ordered (unsigned n)
  | integer (n : Int64) : Ordered (integer n)
  | float (x : F) : Ordered (float x)
  | str (s : Str) : Ordered (str s)
  | arr {items : List (Document F)} (h : ∀ d ∈ items, Ordered d) : Ordered (arr items)
  | obj {fields : List (Str × Document F)}
      (hkeys : fields.Pairwise fun a b => compare a.1 b.1 = .lt)
      (h : ∀ e ∈ fields, Ordered e.2) : Ordered (obj fields)

/-- Whether the value is a boolean. -/
def isBoolean : Document F → Bool
  | bool _ => true
  | _ => false

/-- `Var::isNumeric`, which holds of booleans too. -/
def isNumeric : Document F → Bool
  | bool _ => true
  | unsigned _ => true
  | integer _ => true
  | float _ => true
  | _ => false

section Reread

variable (number : F → Document F)

mutual

/-- The document with its numbers as they are read back. -/
def reread : Document F → Document F
  | null => null
  | bool b => bool b
  | unsigned n => unsigned n
  | integer n => if n < 0 then integer n else unsigned n.toUInt64
  | float x => number x
  | str s => str s
  | arr items => arr (rereadItems items)
  | obj fields => obj (rereadMembers fields)

/-- The values of an array, written and parsed again. -/
def rereadItems : List (Document F) → List (Document F)
  | [] => []
  | d :: rest => reread d :: rereadItems rest

/-- The members of an object, written and parsed again. -/
def rereadMembers : List (Str × Document F) → List (Str × Document F)
  | [] => []
  | e :: rest => (e.1, reread e.2) :: rereadMembers rest

end

theorem rereadItems_eq_map (items : List (Document F)) :
    rereadItems number items = items.map (reread number) := by
  induction items with
  | nil => rfl
  | cons d rest ih => rw [rereadItems, ih, List.map_cons]

theorem rereadMembers_eq_map (fields : List (Str × Document F)) :
    rereadMembers number fields = fields.map fun e => (e.1, reread number e.2) := by
  induction fields with
  | nil => rfl
  | cons e rest ih => rw [rereadMembers, ih, List.map_cons]

end Reread

end Document

/-! ## The library -/

/-- What is used of `Poco::JSON` and `Poco::Dynamic`: the conversions of values that are not empty,
    the parser, the stringifier, and what the numeral of a double is read as. -/
structure JsonLibrary (F : Type) extends Poco F where
  int64 : Document F → Option Int64
  double : Document F → Option F
  parse : Str → Option (Document F)
  stringify : Document F → Str
  number : F → Document F

namespace JsonLibrary

/-- What parsing the text of a value gives. -/
def reread (L : JsonLibrary F) : Document F → Document F := Document.reread L.number

/-- `Var::convert<int64_t>`. -/
def toInt64 (L : JsonLibrary F) : Document F → Option Int64
  | .null => none
  | d => L.int64 d

/-- `Var::convert<double>`. -/
def toDouble (L : JsonLibrary F) : Document F → Option F
  | .null => none
  | d => L.double d

/-- The library reads what it writes, and converts numbers to what they are. -/
structure Inverts (L : JsonLibrary F) : Prop where
  parse_nil : L.parse [] = none
  parse_brackets : L.parse "[]".toList = some (.arr [])
  parse_ordered : ∀ {text d}, L.parse text = some d → d.Ordered
  parse_stringify : ∀ {d}, d.Ordered → L.parse (L.stringify d) = some (L.reread d)
  uint64_unsigned : ∀ n, L.uint64 (.unsigned n) = some n
  int64_integer : ∀ n, L.int64 (L.reread (.integer n)) = some n
  double_number : ∀ x, L.toDouble (L.number x) = some x
  isNumeric_number : ∀ x, (L.number x).isNumeric = true ∧ (L.number x).isBoolean = false
  reread_number : ∀ x, L.reread (L.number x) = L.number x
  text_bool : ∀ b, L.text (.bool b) = some (if b then "true".toList else "false".toList)
  text_unsigned : ∀ n, L.text (.unsigned n) = some (Nat.toDigits 10 n.toNat)

end JsonLibrary

/-! ## Reading fields -/

section Fields

variable (L : JsonLibrary F) (body : Document F) (field : String)

/-- `field_from_json` of an `int64_t`. -/
def int64FromJson {R : Type} (set : R → Int64 → R) : Decoder R :=
  fieldFromJson body field L.toInt64 set

/-- `field_from_json` of a `double`. -/
def doubleFromJson {R : Type} (set : R → F → R) : Decoder R :=
  fieldFromJson body field L.toDouble set

/-- `field_from_json` of a record, whose `from_json` lets no exception out. -/
def objectFromJson {R α : Type} (decode : α → Document F → α) (get : R → α) (set : R → α → R) :
    Decoder R := fun r =>
  match body.find? field with
  | some (.obj fields) => (set r (decode (get r) (.obj fields)), true)
  | _ => (r, true)

/-- The loop of `OptionalUint64FromJson` over the digits. -/
def parseCounter : UInt64 → Str → Option UInt64
  | parsed, [] => some parsed
  | parsed, c :: rest =>
    if !c.isDigit then none
    else
      let digit := UInt64.ofNat (c.toNat - '0'.toNat)
      if (18446744073709551615 - digit) / 10 < parsed then none
      else parseCounter (parsed * 10 + digit) rest

/-- `OptionalUint64FromJson`; `none` where it throws. -/
def optionalUint64FromJson : Option (Option UInt64) :=
  match body.find? field with
  | none | some .null => some none
  | some d => (L.toString d).map fun value => if value.isEmpty then none else parseCounter 0 value

/-- An optional counter that is read into a record. -/
def counterFromJson {R : Type} (set : R → Option UInt64 → R) : Decoder R := fun r =>
  match optionalUint64FromJson L body field with
  | none => (r, false)
  | some value => (set r value, true)

/-- `OptionalDoubleFromJson`. -/
def optionalDoubleFromJson : Option F :=
  match body.find? field with
  | none | some .null => none
  | some d => if !d.isNumeric || d.isBoolean then none else L.toDouble d

end Fields

/-! ## Texts -/

section Texts

variable (L : JsonLibrary F)

/-- `to_string` of a vector. -/
def arrayToString (items : List (Document F)) : Str :=
  if items.isEmpty then "[]".toList else L.stringify (.arr items)

/-- `to_object`, with the record it starts from; `none` for an exception. -/
def toObject {R : Type} (decode : R → Document F → R) (result : R) (text : Str) : Option R :=
  if text.isEmpty then some result
  else
    match L.parse text with
    | some (.obj fields) => some (decode result (.obj fields))
    | _ => none

/-- `to_object_array`, which keeps what it has when it throws. -/
def toObjectArray {R : Type} (decode : Document F → R) (text : Str) : List R :=
  if text.isEmpty then []
  else
    match L.parse text with
    | some (.arr items) => (pushObjects decode (fun rs r => rs ++ [r]) items []).1
    | _ => []

end Texts

end OwAnalytics
