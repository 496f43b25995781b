/-
  OwAnalytics.Boards.Codec

  A board as JSON (`to_json` of `BoardInfo`, `ObjectInfo`, `VenueInfo` and `NoteInfo`)
  and as a record of its table (`storage/storage_boards.cpp`), where its notes are the
  text of an array.  The JSON is read back as it was written.  The table keeps no tags
  and one venue, and what it keeps is read back as it was written.
-/

import OwAnalytics.Boards.Handler
import OwAnalytics.Storage.Boards
import OwAnalytics.Storage.JsonText

namespace OwAnalytics.Boards

open AnalyticsObjects ProvObjects SecurityObjects Document
open Storage (BoardRow)

variable {F : Type}

/-! ## JSON -/

/-- `NoteInfo::to_json`. -/
def NoteInfo.toJson (n : NoteInfo) : Document F :=
  object
    [("created", .unsigned n.created), ("createdBy", .str n.createdBy), ("note", .str n.note)]

/-- `VenueInfo::to_json`. -/
def VenueInfo.toJson (v : VenueInfo) : Document F :=
  object
    [("id", .str v.id), ("name", .str v.name), ("description", .str v.description),
      ("retention", .unsigned v.retention), ("interval", .unsigned v.interval),
      ("monitorSubVenues", .bool v.monitorSubVenues)]

/-- `BoardInfo::to_json`, with the fields of `ObjectInfo::to_json` before its own. -/
def BoardInfo.toJson (b : BoardInfo) : Document F :=
  object
    [("id", .str b.info.id), ("name", .str b.info.name), ("description", .str b.info.description),
      ("created", .unsigned b.info.created), ("modified", .unsigned b.info.modified),
      ("notes", .arr (b.info.notes.map NoteInfo.toJson)),
      ("tags", .arr (b.info.tags.map .unsigned)),
      ("venueList", .arr (b.venueList.map VenueInfo.toJson))]

theorem NoteInfo.toJson_obj (n : NoteInfo) :
    ∃ members, (NoteInfo.toJson n : Document F) = .obj members :=
  ⟨_, rfl⟩

theorem VenueInfo.toJson_obj (v : VenueInfo) :
    ∃ members, (VenueInfo.toJson v : Document F) = .obj members :=
  ⟨_, rfl⟩

theorem NoteInfo.ordered_toJson (n : NoteInfo) : (NoteInfo.toJson n : Document F).Ordered :=
  Ordered.object (by simp)

theorem VenueInfo.ordered_toJson (v : VenueInfo) : (VenueInfo.toJson v : Document F).Ordered :=
  Ordered.object (by simp)

theorem BoardInfo.ordered_toJson (b : BoardInfo) : (BoardInfo.toJson b : Document F).Ordered := by
  have hnotes : ∀ d ∈ b.info.notes.map (NoteInfo.toJson (F := F)), d.Ordered := by
    rintro d hd
    obtain ⟨n, -, rfl⟩ := List.mem_map.mp hd
    exact NoteInfo.ordered_toJson n
  have hvenues : ∀ d ∈ b.venueList.map (VenueInfo.toJson (F := F)), d.Ordered := by
    rintro d hd
    obtain ⟨v, -, rfl⟩ := List.mem_map.mp hd
    exact VenueInfo.ordered_toJson v
  have htags : ∀ d ∈ b.info.tags.map (Document.unsigned (F := F)), d.Ordered := by
    rintro d hd
    obtain ⟨tag, -, rfl⟩ := List.mem_map.mp hd
    exact .unsigned tag
  apply Ordered.object
  simp only [List.forall_mem_cons, List.not_mem_nil, false_imp_iff, implies_true, and_true]
  exact ⟨.str _, .str _, .str _, .unsigned _, .unsigned _, .arr hnotes, .arr htags, .arr hvenues⟩

variable {L : JsonLibrary F}

theorem NoteInfo.fromJson_toJson (hL : L.Inverts) (n : NoteInfo) :
    NoteInfo.fromJson L.toPoco (L.reread (NoteInfo.toJson n)) = (n, true) := by
  obtain ⟨body, hbody⟩ : ∃ body, body = L.reread (NoteInfo.toJson n) := ⟨_, rfl⟩
  have h := JsonLibrary.find?_reread hbody (List.Subset.refl _) (by dsimp only [List.map]; decide)
  simp only [List.forall_mem_cons] at h
  obtain ⟨hcreated, hcreatedBy, hnote, -⟩ := h
  rw [← hbody, NoteInfo.fromJson]
  simp only [inTurn, uint64FromJson_eq hL hcreated, stringFromJson_eq hcreatedBy,
    stringFromJson_eq hnote]

theorem VenueInfo.fromJson_toJson (hL : L.Inverts) (v : VenueInfo) :
    VenueInfo.fromJson L.toPoco (L.reread (VenueInfo.toJson v)) = (v, true) := by
  obtain ⟨body, hbody⟩ : ∃ body, body = L.reread (VenueInfo.toJson v) := ⟨_, rfl⟩
  have h := JsonLibrary.find?_reread hbody (List.Subset.refl _) (by dsimp only [List.map]; decide)
  simp only [List.forall_mem_cons] at h
  obtain ⟨hid, hname, hdescription, hretention, hinterval, hmonitor, -⟩ := h
  rw [← hbody, VenueInfo.fromJson]
  simp only [inTurn, stringFromJson_eq hid, stringFromJson_eq hname,
    stringFromJson_eq hdescription, uint64FromJson_eq hL hretention,
    uint64FromJson_eq hL hinterval, boolFromJson_eq hL hmonitor]

/-- What a vector is read as that was written element by element. -/
theorem map_fromJson {α : Type} {write : α → Document F} {read : Document F → α × Bool}
    (h : ∀ a, read (L.reread (write a)) = (a, true)) (as : List α) :
    (as.map write).map (fun d => (read (L.reread d)).1) = as := by
  rw [List.map_map]
  conv_rhs => rw [← List.map_id as]
  exact List.map_congr_left fun a _ => by rw [Function.comp_apply, h, id]

/-- A loop that pushes what it is given. -/
theorem foldl_set {R α : Type} {set : R → α → R} (get : R → List α) (build : R → List α → R)
    (hset : ∀ r a, set r a = build r (get r ++ [a])) (hget : ∀ r as, get (build r as) = as)
    (hbuild : ∀ r as as', build (build r as) as' = build r as') (hself : ∀ r, build r (get r) = r)
    (as : List α) (r : R) : as.foldl set r = build r (get r ++ as) := by
  induction as generalizing r with
  | nil => rw [List.foldl_nil, List.append_nil, hself]
  | cons a as ih =>
    rw [List.foldl_cons, ih, hset, hget, hbuild, List.append_assoc, List.singleton_append]

theorem BoardInfo.fromJson_toJson (hL : L.Inverts) (b : BoardInfo) :
    BoardInfo.fromJson L.toPoco (L.reread (BoardInfo.toJson b)) = some b := by
  obtain ⟨body, hbody⟩ : ∃ body, body = L.reread (BoardInfo.toJson b) := ⟨_, rfl⟩
  have h := JsonLibrary.find?_reread hbody (List.Subset.refl _) (by dsimp only [List.map]; decide)
  simp only [List.forall_mem_cons] at h
  obtain ⟨hid, hname, hdescription, hcreated, hmodified, hnotes, htags, hvenues, -⟩ := h
  have hnoteObjects : ∀ d ∈ b.info.notes.map (NoteInfo.toJson (F := F)),
      ∃ members, d = .obj members := by
    intro d hd
    obtain ⟨n, -, rfl⟩ := List.mem_map.mp hd
    exact NoteInfo.toJson_obj n
  have hvenueObjects : ∀ d ∈ b.venueList.map (VenueInfo.toJson (F := F)),
      ∃ members, d = .obj members := by
    intro d hd
    obtain ⟨v, -, rfl⟩ := List.mem_map.mp hd
    exact VenueInfo.toJson_obj v
  have hinfo : (ObjectInfo.fromJson L.toPoco body).1 = b.info := by
    rw [ObjectInfo.fromJson]
    simp only [inTurn, stringFromJson_eq hid, stringFromJson_eq hname,
      stringFromJson_eq hdescription, uint64FromJson_eq hL hcreated,
      uint64FromJson_eq hL hmodified, vectorFromJson_eq hnotes hnoteObjects,
      tagsFromJson_eq hL htags]
    -- a list is pushed element by element onto the empty one
    rw [map_fromJson (NoteInfo.fromJson_toJson hL),
      foldl_set (fun i : ObjectInfo => i.notes) (fun i notes => { i with notes })
        (fun _ _ => rfl) (fun _ _ => rfl) (fun _ _ _ => rfl) (fun _ => rfl),
      foldl_set (fun i : ObjectInfo => i.tags) (fun i tags => { i with tags })
        (fun _ _ => rfl) (fun _ _ => rfl) (fun _ _ _ => rfl) (fun _ => rfl)]
    rfl
  rw [← hbody, BoardInfo.fromJson, vectorFromJson_eq hvenues hvenueObjects,
    map_fromJson (VenueInfo.fromJson_toJson hL),
    foldl_set (fun b : BoardInfo => b.venueList)
      (fun b venueList => { b with venueList })
      (fun _ _ => rfl) (fun _ _ => rfl) (fun _ _ _ => rfl) (fun _ => rfl), hinfo]
  rfl

/-! ## Records -/

/-- `BoardDBRecordType`, with the text of the notes. -/
structure BoardRecord where
  id : Str := []
  name : Str := []
  description : Str := []
  notes : Str := []
  created : UInt64 := 0
  modified : UInt64 := 0
  venueId : Str := []
  venueName : Str := []
  venueDescription : Str := []
  retention : UInt64 := 0
  interval : UInt64 := 0
  monitorSubVenues : Bool := false

namespace BoardRecord

variable (L)

/-- The notes of a record, as `to_object_array` reads them. -/
def noteInfos (r : BoardRecord) : List NoteInfo :=
  toObjectArray L (fun d => (NoteInfo.fromJson L.toPoco d).1) r.notes

/-- `Convert` of a record. -/
def toBoard (r : BoardRecord) : BoardInfo where
  info :=
    { id := r.id
      name := r.name
      description := r.description
      notes := r.noteInfos L
      created := r.created
      modified := r.modified }
  venueList :=
    if r.venueId.isEmpty then []
    else
      [{ id := r.venueId
         name := r.venueName
         description := r.venueDescription
         retention := r.retention
         interval := r.interval
         monitorSubVenues := r.monitorSubVenues }]

/-- `Convert` of a board. -/
def ofBoard (b : BoardInfo) : BoardRecord :=
  let venue := b.venueList.headD {}
  { id := b.info.id
    name := b.info.name
    description := b.info.description
    notes := arrayToString L (b.info.notes.map NoteInfo.toJson)
    created := b.info.created
    modified := b.info.modified
    venueId := venue.id
    venueName := venue.name
    venueDescription := venue.description
    retention := venue.retention
    interval := venue.interval
    monitorSubVenues := venue.monitorSubVenues }

/-- The row a record stands for. -/
def row (r : BoardRecord) : BoardRow where
  id := r.id
  name := r.name
  description := r.description
  notes := r.noteInfos L
  created := r.created
  modified := r.modified
  venueId := r.venueId
  venueName := r.venueName
  venueDescription := r.venueDescription
  retention := r.retention
  interval := r.interval
  monitorSubVenues := r.monitorSubVenues

variable {L}

/-- The notes are read as they were written. -/
theorem noteInfos_ofBoard (hL : L.Inverts) (b : BoardInfo) :
    (ofBoard L b).noteInfos L = b.info.notes := by
  have hobjects : ∀ d ∈ b.info.notes.map (NoteInfo.toJson (F := F)),
      ∃ members, d = .obj members := by
    intro d hd
    obtain ⟨n, -, rfl⟩ := List.mem_map.mp hd
    exact NoteInfo.toJson_obj n
  have hordered : ∀ d ∈ b.info.notes.map (NoteInfo.toJson (F := F)), d.Ordered := by
    intro d hd
    obtain ⟨n, -, rfl⟩ := List.mem_map.mp hd
    exact NoteInfo.ordered_toJson n
  show toObjectArray L _ (arrayToString L (b.info.notes.map NoteInfo.toJson)) = _
  rw [toObjectArray_arrayToString hL hobjects hordered,
    map_fromJson (NoteInfo.fromJson_toJson hL)]

theorem row_ofBoard (hL : L.Inverts) (b : BoardInfo) :
    (ofBoard L b).row L = BoardRow.ofBoard b := by
  unfold row
  rw [noteInfos_ofBoard hL]
  rfl

end BoardRecord

/-- A board that a table can hold: it has no tags, and no venue or one with an id. -/
structure Storable (b : BoardInfo) : Prop where
  tags : b.info.tags = []
  venues : b.venueList = [] ∨ ∃ v, b.venueList = [v] ∧ v.id ≠ []

/-- What is left of a board in its table: its tags are lost, and so are its venues but for the
    first one, if that has an id. -/
theorem toBoard_ofBoard (hL : L.Inverts) (b : BoardInfo) :
    (BoardRecord.ofBoard L b).toBoard L =
      { info := { b.info with tags := [] }
        venueList :=
          if (b.venueList.headD {}).id.isEmpty then [] else [b.venueList.headD {}] } := by
  unfold BoardRecord.toBoard
  rw [BoardRecord.noteInfos_ofBoard hL]
  rfl

theorem Storable.toBoard_ofBoard (hL : L.Inverts) {b : BoardInfo} (h : Storable b) :
    (BoardRecord.ofBoard L b).toBoard L = b := by
  rw [Boards.toBoard_ofBoard hL, ← h.tags]
  obtain ⟨info, venueList⟩ := b
  rcases h.venues with hnone | ⟨v, hone, hid⟩
  · obtain rfl : venueList = [] := hnone
    rfl
  · obtain rfl : venueList = [v] := hone
    rw [List.headD_cons, if_neg (by simpa using hid)]

/-- A board without tags and with one venue, or none, survives its table and no other does; and a
    client that decodes the text of an answer has the board that was answered, tags and all. -/
theorem board_round_trip (hL : L.Inverts) (b : BoardInfo) :
    (Storable b ↔ (BoardRecord.ofBoard L b).toBoard L = b) ∧
      ∃ d, L.parse (L.stringify (BoardInfo.toJson b)) = some d ∧
        BoardInfo.fromJson L.toPoco d = some b := by
  refine ⟨⟨fun h => h.toBoard_ofBoard hL, fun hsame => ?_⟩, _,
    hL.parse_stringify (BoardInfo.ordered_toJson b), BoardInfo.fromJson_toJson hL b⟩
  rw [toBoard_ofBoard hL] at hsame
  refine ⟨(congrArg (fun b : BoardInfo => b.info.tags) hsame).symm, ?_⟩
  -- what is read has one venue at most
  have hvenues := congrArg BoardInfo.venueList hsame
  dsimp only at hvenues
  split at hvenues
  · exact .inl hvenues.symm
  · rename_i hid
    exact .inr ⟨_, hvenues.symm, by simpa using hid⟩

/-- A board with a note and a venue comes back from its table, and one with a tag from the text of
    its answer only. -/
theorem board_round_trip_library :
    let b : BoardInfo :=
      { info := { id := ['b'], notes := [{ created := 7, note := "a \"quoted\" note".toList }] }
        venueList := [{ id := ['v'], retention := 3600, monitorSubVenues := true }] }
    let tagged : BoardInfo := { b with info := { b.info with tags := [1] } }
    (BoardRecord.ofBoard JsonText.library b).toBoard JsonText.library = b ∧
      (BoardRecord.ofBoard JsonText.library tagged).toBoard JsonText.library ≠ tagged ∧
      ∃ d, JsonText.library.parse (JsonText.library.stringify (BoardInfo.toJson tagged)) = some d ∧
        BoardInfo.fromJson JsonText.library.toPoco d = some tagged := by
  intro b tagged
  refine ⟨(board_round_trip JsonText.inverts_library b).1.mp ⟨rfl, .inr ⟨_, rfl, by decide⟩⟩,
    fun hsame => ?_, (board_round_trip JsonText.inverts_library tagged).2⟩
  have htags := ((board_round_trip JsonText.inverts_library tagged).1.mpr hsame).tags
  cases htags

end OwAnalytics.Boards
