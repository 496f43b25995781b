/-
  OwAnalytics.Boards.Handler

  What `RESTAPI_board_handler::DoPost` and `DoPut` make of a request body: the
  decoding of a board (`from_json` of `BoardInfo`, `ObjectInfo`, `VenueInfo` and
  `NoteInfo`), `CreateObjectInfo`, `UpdateObjectInfo` and `MergeNotes`, and the checks
  of the handlers.  A decoder that throws in the middle leaves the fields before it
  set, and most callers do not look at whether it did.
-/

import OwAnalytics.Document
import OwAnalytics.Venue.BoardRequests

namespace OwAnalytics.Boards

open AnalyticsObjects ProvObjects SecurityObjects
open Venue (firstVenue)
open Venue.BoardRequests (hasExactlyOneVenue)

/-- What the JSON library makes of a value that is neither empty nor a string (its text) and of a
    value that is not empty (an integer); `none` for an exception. -/
structure Poco (F : Type) where
  text : Document F → Option Str
  uint64 : Document F → Option UInt64

variable {F : Type}

namespace Poco

/-- `Var::toString`. -/
def toString (p : Poco F) : Document F → Option Str
  | .null => none
  | .str s => some s
  | d => p.text d

/-- `Var::convert<uint64_t>`. -/
def toUInt64 (p : Poco F) : Document F → Option UInt64
  | .null => none
  | d => p.uint64 d

end Poco

/-! ## Decoding -/

/-- A decoder of a record: the record after it, and whether nothing was thrown. -/
abbrev Decoder (R : Type) := R → R × Bool

/-- One decoder after the other, up to the first that throws. -/
def inTurn {R : Type} : List (Decoder R) → Decoder R
  | [], r => (r, true)
  | d :: rest, r =>
      match d r with
      | (r, true) => inTurn rest r
      | (r, false) => (r, false)

/-- What each decoder keeps, all of them keep. -/
theorem inTurn_invariant {R : Type} {P : R → Prop} {ds : List (Decoder R)}
    (hds : ∀ d ∈ ds, ∀ r, P r → P (d r).1) {r : R} (hr : P r) : P (inTurn ds r).1 := by
  induction ds generalizing r with
  | nil => exact hr
  | cons d rest ih =>
      have hd : P (d r).1 := hds d List.mem_cons_self r hr
      cases hstep : d r with
      | mk r' ok =>
          rw [hstep] at hd
          cases ok with
          | true =>
              simp only [inTurn, hstep]
              exact ih (fun e he => hds e (List.mem_cons_of_mem _ he)) hd
          | false =>
              simp only [inTurn, hstep]
              exact hd

/-- The objects of an array, each decoded and pushed; an element that is no object throws. -/
def pushObjects {F R α : Type} (item : Document F → α) (push : R → α → R) :
    List (Document F) → Decoder R
  | [], r => (r, true)
  | d :: rest, r =>
      match d with
      | .obj _ => pushObjects item push rest (push r (item d))
      | _ => (r, false)

theorem pushObjects_invariant {R α : Type} {item : Document F → α} {push : R → α → R}
    {P : R → Prop} (hpush : ∀ r a, P r → P (push r a)) (items : List (Document F)) {r : R}
    (hr : P r) : P (pushObjects item push items r).1 := by
  induction items generalizing r with
  | nil => exact hr
  | cons d rest ih =>
      cases d with
      | obj fields => exact ih (hpush r _ hr)
      | null => exact hr
      | bool b => exact hr
      | unsigned n => exact hr
      | integer n => exact hr
      | float x => exact hr
      | str s => exact hr
      | arr items => exact hr

/-- The values of an array, each converted and pushed; one that does not convert throws. -/
def pushValues {F R α : Type} (convert : Document F → Option α) (push : R → α → R) :
    List (Document F) → Decoder R
  | [], r => (r, true)
  | d :: rest, r =>
      match convert d with
      | some a => pushValues convert push rest (push r a)
      | none => (r, false)

theorem pushValues_invariant {R α : Type} {convert : Document F → Option α} {push : R → α → R}
    {P : R → Prop} (hpush : ∀ r a, P r → P (push r a)) (items : List (Document F)) {r : R}
    (hr : P r) : P (pushValues convert push items r).1 := by
  induction items generalizing r with
  | nil => exact hr
  | cons d rest ih =>
      rw [pushValues]
      cases convert d with
      | some a => exact ih (hpush r a hr)
      | none => exact hr

section Fields

variable (p : Poco F) (body : Document F) (field : String)

/-- `field_from_json` of a value with this conversion. -/
def fieldFromJson {R α : Type} (convert : Document F → Option α) (set : R → α → R) : Decoder R :=
  fun r =>
    match body.find? field with
    | none | some .null => (r, true)
    | some d =>
        match convert d with
        | some a => (set r a, true)
        | none => (r, false)

/-- A field is set or left alone. -/
theorem fieldFromJson_cases {R α : Type} (convert : Document F → Option α) (set : R → α → R)
    (r : R) : (fieldFromJson body field convert set r).1 = r ∨
      ∃ a, (fieldFromJson body field convert set r).1 = set r a := by
  unfold fieldFromJson
  split
  · exact .inl rfl
  · exact .inl rfl
  · split
    · exact .inr ⟨_, rfl⟩
    · exact .inl rfl

/-- `field_from_json` of a string. -/
def stringFromJson {R : Type} (set : R → Str → R) : Decoder R :=
  fieldFromJson body field p.toString set

/-- `field_from_json` of a `uint64_t`. -/
def uint64FromJson {R : Type} (set : R → UInt64 → R) : Decoder R :=
  fieldFromJson body field p.toUInt64 set

/-- `field_from_json` of a `bool`. -/
def boolFromJson {R : Type} (set : R → Bool → R) : Decoder R :=
  fieldFromJson body field (fun d => (p.toString d).map (· == "true".toList)) set

/-- `field_from_json` of a vector. -/
def vectorFromJson {R α : Type} (item : Document F → α) (push : R → α → R) : Decoder R :=
  fun r =>
    match body.find? field with
    | some (.arr items) => pushObjects item push items r
    | _ => (r, true)

/-- `field_from_json` of a list of tags. -/
def tagsFromJson {R : Type} (push : R → UInt64 → R) : Decoder R :=
  fun r =>
    match body.find? field with
    | some (.arr items) => pushValues p.toUInt64 push items r
    | _ => (r, true)

end Fields

variable (p : Poco F)

/-- `NoteInfo::from_json`. -/
def NoteInfo.fromJson (d : Document F) : NoteInfo × Bool :=
  inTurn
    [uint64FromJson p d "created" fun n created => { n with created },
      stringFromJson p d "createdBy" fun n createdBy => { n with createdBy },
      stringFromJson p d "note" fun n note => { n with note }] {}

/-- `VenueInfo::from_json`. -/
def VenueInfo.fromJson (d : Document F) : VenueInfo × Bool :=
  inTurn
    [stringFromJson p d "id" fun v id => { v with id },
      stringFromJson p d "name" fun v name => { v with name },
      stringFromJson p d "description" fun v description => { v with description },
      uint64FromJson p d "retention" fun v retention => { v with retention },
      uint64FromJson p d "interval" fun v interval => { v with interval },
      boolFromJson p d "monitorSubVenues" fun v monitorSubVenues => { v with monitorSubVenues }] {}

/-- `ObjectInfo::from_json`. -/
def ObjectInfo.fromJson (d : Document F) : ObjectInfo × Bool :=
  inTurn
    [stringFromJson p d "id" fun i id => { i with id },
      stringFromJson p d "name" fun i name => { i with name },
      stringFromJson p d "description" fun i description => { i with description },
      uint64FromJson p d "created" fun i created => { i with created },
      uint64FromJson p d "modified" fun i modified => { i with modified },
      vectorFromJson d "notes" (fun n => (NoteInfo.fromJson p n).1)
        fun i note => { i with notes := i.notes ++ [note] },
      tagsFromJson p d "tags" fun i tag => { i with tags := i.tags ++ [tag] }] {}

/-- `BoardInfo::from_json`; it does not look at the result for `info`. -/
def BoardInfo.fromJson (d : Document F) : Option BoardInfo :=
  let board : BoardInfo := { info := (ObjectInfo.fromJson p d).1 }
  match vectorFromJson d "venueList" (fun v => (VenueInfo.fromJson p v).1)
      (fun (b : BoardInfo) venue => { b with venueList := b.venueList ++ [venue] }) board with
  | (board, true) => some board
  | (_, false) => none

/-! ## Object information -/

/-- `if (O->has(field)) v = O->get(field).toString()`. -/
def overwrite (d : Document F) (field : String) (v : Str) : Option Str :=
  match d.find? field with
  | some value => p.toString value
  | none => some v

/-- `CreateObjectInfo`, its result and the information it leaves; `none` for an exception. -/
def createObjectInfo (d : Document F) (email : Str) (now : UInt64) (uuid : Str) (i : ObjectInfo) :
    Option (Bool × ObjectInfo) := do
  let i := { i with name := ← overwrite p d "name" i.name }
  if i.name.isEmpty then return (false, i)
  let i := { i with description := ← overwrite p d "description" i.description }
  let notes := (i.notes.filter fun n => !n.note.isEmpty).map fun n =>
    { created := now, createdBy := email, note := n.note }
  return (true, { i with notes, modified := now, created := now, id := uuid })

/-- `MergeNotes`: the objects at the head of the array, as their texts are parsed again. -/
def mergeNotes (d : Document F) (email : Str) (now : UInt64) (notes : List NoteInfo) :
    List NoteInfo :=
  match d.find? "notes" with
  | some (.arr items) =>
      let objects := items.takeWhile fun
        | .obj _ => true
        | _ => false
      notes ++ objects.map fun n =>
        { created := now, createdBy := email, note := (NoteInfo.fromJson p n).1.note }
  | _ => notes

/-- `UpdateObjectInfo`, its result and the information it leaves; `none` for an exception. -/
def updateObjectInfo (d : Document F) (email : Str) (now : UInt64) (i : ObjectInfo) :
    Option (Bool × ObjectInfo) := do
  let i := { i with name := ← overwrite p d "name" i.name }
  if i.name.isEmpty then return (false, i)
  let i := { i with description := ← overwrite p d "description" i.description }
  return (true, { i with notes := mergeNotes p d email now i.notes, modified := now })

/-! ## The handlers -/

/-- The board `DoPost` goes on with; `none` where it answers with an error. -/
def acceptPost (d : Document F) (email : Str) (now : UInt64) (uuid : Str) : Option BoardInfo := do
  let newObject ← BoardInfo.fromJson p d
  if !hasExactlyOneVenue newObject then none
  else
    -- The result is not looked at.
    let (_, info) ← createObjectInfo p d email now uuid newObject.info
    return { newObject with info }

/-- The board `DoPut` goes on with, given the stored one; `none` where it answers with an error. -/
def acceptPut (d : Document F) (email : Str) (now : UInt64) (existing : BoardInfo) :
    Option BoardInfo := do
  let newObject ← BoardInfo.fromJson p d
  let (_, info) ← updateObjectInfo p d email now existing.info
  let existing := { existing with info }
  if d.contains "venueList" then
    if !hasExactlyOneVenue newObject then none
    else if !hasExactlyOneVenue existing then none
    else if (firstVenue newObject).id ≠ (firstVenue existing).id then none
    else return { existing with venueList := newObject.venueList }
  else return existing

/-! ## What an update keeps -/

variable {p} {d : Document F} {email : Str} {now : UInt64}

theorem updateObjectInfo_id {i i' : ObjectInfo} {ok : Bool}
    (h : updateObjectInfo p d email now i = some (ok, i')) : i'.id = i.id := by
  unfold updateObjectInfo at h
  obtain ⟨name, -, h⟩ := Option.bind_eq_some_iff.mp h
  dsimp only at h
  split at h
  · cases h
    rfl
  · obtain ⟨description, -, h⟩ := Option.bind_eq_some_iff.mp h
    cases h
    rfl

/-- `DoPut` changes neither the id of a board nor its venue. -/
theorem acceptPut_keeps {existing b : BoardInfo} (h : acceptPut p d email now existing = some b) :
    b.info.id = existing.info.id ∧ (firstVenue b).id = (firstVenue existing).id := by
  unfold acceptPut at h
  obtain ⟨newObject, -, h⟩ := Option.bind_eq_some_iff.mp h
  obtain ⟨⟨ok, info⟩, hinfo, h⟩ := Option.bind_eq_some_iff.mp h
  have hid : info.id = existing.info.id := updateObjectInfo_id hinfo
  dsimp only at h
  split at h
  · split at h
    · cases h
    · split at h
      · cases h
      · split at h
        · cases h
        · rename_i hvenue
          obtain rfl := Option.some.inj h
          exact ⟨hid, not_not.mp hvenue⟩
  · obtain rfl := Option.some.inj h
    exact ⟨hid, rfl⟩

end OwAnalytics.Boards
