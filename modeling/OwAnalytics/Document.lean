/-
  OwAnalytics.Document

  Parsed JSON documents with their numbers, as `nlohmann::json` and `Poco::JSON` hand
  them out, over any type of doubles.
-/

import OwAnalytics.Objects

namespace OwAnalytics

/-- A document.  The members of an object stand in the order of its keys, each key once. -/
inductive Document (F : Type)
  | null
  | bool (b : Bool)
  | unsigned (n : UInt64)
  /-- A negative integer. -/
  | integer (n : Int64)
  | float (x : F)
  | str (s : Str)
  | arr (items : List (Document F))
  | obj (fields : List (Str × Document F))

namespace Document

variable {F : Type}

/-- The member of an object. -/
def find? : Document F → String → Option (Document F)
  | obj fields, field => fields.lookup field.toList
  | _, _ => none

/-- `has`. -/
def contains (d : Document F) (field : String) : Bool := (d.find? field).isSome

end Document

end OwAnalytics
