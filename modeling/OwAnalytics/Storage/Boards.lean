/-
  OwAnalytics.Storage.Boards

  The boards table (`storage/storage_boards.cpp`): its rows, the conversions between
  rows and boards, and the statements of `ORM::DB` the board handlers run, each of
  them atomic.  The notes of a row stand for the text they are written to.
-/

import OwAnalytics.Objects

namespace OwAnalytics.Storage

open AnalyticsObjects

/-- `BoardDBRecordType`. -/
structure BoardRow where
  id : Str := []
  name : Str := []
  description : Str := []
  notes : List SecurityObjects.NoteInfo := []
  created : UInt64 := 0
  modified : UInt64 := 0
  venueId : Str := []
  venueName : Str := []
  venueDescription : Str := []
  retention : UInt64 := 0
  interval : UInt64 := 0
  monitorSubVenues : Bool := false
deriving DecidableEq

namespace BoardRow

/-- `Convert` of a row; a row without a venue id is a board without venues. -/
def toBoard (r : BoardRow) : BoardInfo where
  info :=
    { id := r.id
      name := r.name
      description := r.description
      notes := r.notes
      created := r.created
      modified := r.modified }
  venueList :=
    if r.venueId.isEmpty then []
    else
      [{ id := r.venueId
         name := r.venueName
         description := r.venueDescription
         retention := r.retention
         interval := r.interval
         monitorSubVenues := r.monitorSubVenues }]

/-- `Convert` of a board, of which the first venue is stored. -/
def ofBoard (b : BoardInfo) : BoardRow :=
  let venue := b.venueList.headD {}
  { id := b.info.id
    name := b.info.name
    description := b.info.description
    notes := b.info.notes
    created := b.info.created
    modified := b.info.modified
    venueId := venue.id
    venueName := venue.name
    venueDescription := venue.description
    retention := venue.retention
    interval := venue.interval
    monitorSubVenues := venue.monitorSubVenues }

/-- A stored board is read back as it was stored, but for the other columns of a venue without an
    id. -/
theorem ofBoard_toBoard (r : BoardRow) (h : r.venueId ≠ []) : ofBoard r.toBoard = r := by
  have hempty : r.venueId.isEmpty = false := by simpa using h
  simp [ofBoard, toBoard, hempty]

@[simp] theorem id_toBoard (r : BoardRow) : r.toBoard.info.id = r.id := rfl

@[simp] theorem id_ofBoard (b : BoardInfo) : (ofBoard b).id = b.info.id := rfl

/-- The venue of a row survives the conversions. -/
@[simp] theorem venueId_ofBoard_toBoard (r : BoardRow) :
    (ofBoard r.toBoard).venueId = r.venueId := by
  by_cases h : r.venueId = []
  · simp [ofBoard, toBoard, h]
  · rw [ofBoard_toBoard r h]

end BoardRow

/-- `BoardVenueRecord`. -/
structure BoardVenueRecord where
  boardId : Str := []
  venueId : Str := []
  retention : UInt64 := 0
  interval : UInt64 := 0
  monitorSubVenues : Bool := false
deriving DecidableEq

namespace BoardsDB

/-- `GetRecord`, by the id of the board. -/
def getRecord (rows : List BoardRow) (id : Str) : Option BoardInfo :=
  (rows.find? fun r => r.id == id).map BoardRow.toBoard

/-- `CreateRecord`; the id is the primary key. -/
def createRecord (rows : List BoardRow) (b : BoardInfo) : Option (List BoardRow) :=
  if rows.any fun r => r.id == b.info.id then none else some (rows ++ [BoardRow.ofBoard b])

/-- `UpdateRecord`; it succeeds also where no row has the id. -/
def updateRecord (rows : List BoardRow) (id : Str) (b : BoardInfo) : List BoardRow :=
  rows.map fun r => if r.id == id then BoardRow.ofBoard b else r

/-- `DeleteRecord`, by the id of the board. -/
def deleteRecord (rows : List BoardRow) (id : Str) : List BoardRow :=
  rows.filter fun r => r.id != id

/-- `FindBoardsByVenue`: the first hundred boards of the venue, none for an empty id. -/
def findBoardsByVenue (rows : List BoardRow) (venueId : Str) : List BoardInfo :=
  if venueId.isEmpty then []
  else ((rows.filter fun r => r.venueId == venueId).take 100).map BoardRow.toBoard

/-- `FindBoardVenueRecordsByVenue`, for the rows of the same query. -/
def findBoardVenueRecordsByVenue (rows : List BoardRow) (venueId : Str) : List BoardVenueRecord :=
  if venueId.isEmpty then []
  else
    ((rows.filter fun r => r.venueId == venueId).take 100).map fun r =>
      { boardId := r.id
        venueId := r.venueId
        retention := r.retention
        interval := r.interval
        monitorSubVenues := r.monitorSubVenues }

end BoardsDB

end OwAnalytics.Storage
