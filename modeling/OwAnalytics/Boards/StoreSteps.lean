/-
  OwAnalytics.Boards.StoreSteps

  The handlers as one call each, over the table with its texts, and the storage steps
  they take while others are at work, over the rows: a request that nothing comes
  between is a run of its steps, and a script of requests is one of their interleavings.
-/

import OwAnalytics.Boards.OneBoard
import OwAnalytics.Boards.Store

namespace OwAnalytics.Boards

open AnalyticsObjects Storage Transitions
open Venue (firstVenue)
open Venue.BoardRequests (hasExactlyOneVenue)

variable {F : Type} {L : JsonLibrary F} {records : List BoardRecord}

/-! ## Records and rows -/

namespace BoardTable

/-- The rows that records stand for. -/
def rows (L : JsonLibrary F) (records : List BoardRecord) : List BoardRow :=
  records.map (BoardRecord.row L)

theorem getRecord_rows (records : List BoardRecord) (id : Str) :
    BoardsDB.getRecord (rows L records) id = getRecord L records id := by
  rw [BoardsDB.getRecord, rows, List.find?_map, Option.map_map]
  rfl

theorem createRecord_rows (hL : L.Inverts) (records : List BoardRecord) (b : BoardInfo) :
    BoardsDB.createRecord (rows L records) b = (createRecord L records b).map (rows L) := by
  have hused : ((rows L records).any fun r => r.id == b.info.id) =
      records.any fun r => r.id == b.info.id := List.any_map
  unfold BoardsDB.createRecord createRecord
  rw [hused]
  split
  · rfl
  · rw [Option.map_some, rows, rows, List.map_append, List.map_singleton,
      BoardRecord.row_ofBoard hL]

theorem updateRecord_rows (hL : L.Inverts) (records : List BoardRecord) (id : Str) (b : BoardInfo) :
    BoardsDB.updateRecord (rows L records) id b = rows L (updateRecord L records id b) := by
  unfold BoardsDB.updateRecord updateRecord rows
  rw [List.map_map, List.map_map]
  refine List.map_congr_left fun r _ => ?_
  show (if r.id == id then BoardRow.ofBoard b else r.row L) =
    (if r.id == id then BoardRecord.ofBoard L b else r).row L
  split
  · exact (BoardRecord.row_ofBoard hL b).symm
  · rfl

theorem deleteRecord_rows (records : List BoardRecord) (id : Str) :
    BoardsDB.deleteRecord (rows L records) id = rows L (deleteRecord records id) :=
  List.filter_map

theorem findBoardsByVenue_rows (records : List BoardRecord) (venueId : Str) :
    BoardsDB.findBoardsByVenue (rows L records) venueId = findBoardsByVenue L records venueId := by
  unfold BoardsDB.findBoardsByVenue findBoardsByVenue rows
  rw [List.filter_map, ← List.map_take, List.map_map]
  rfl

end BoardTable

namespace BoardHandler

variable {works : Statement → Bool} {id : Str} {body : Option (Document F)} {email uuid : Str}
  {now : UInt64}

/-! ## What is accepted -/

/-- What `DoPost` makes of the table, with the board it goes on with. -/
def storePost (L : JsonLibrary F) (works : Statement → Bool) (records : List BoardRecord)
    (b : BoardInfo) : List BoardRecord :=
  if works .findBoardsByVenue ∧ BoardTable.findBoardsByVenue L records (firstVenue b).id = [] then
    (if works .createRecord then BoardTable.createRecord L records b else none).getD records
  else records

/-- The board `DoPost` goes on with is the accepted one. -/
theorem snd_doPost :
    (doPost L works records id body email now uuid).2 =
      match if id.isEmpty then none
        else body.bind fun d => acceptPost L.toPoco d email now uuid with
      | none => records
      | some b => storePost L works records b := by
  unfold doPost
  split
  · rfl
  cases body with
  | none => rfl
  | some d =>
      rw [Option.bind_some, Option.bind_some, acceptPost]
      cases BoardInfo.fromJson L.toPoco d with
      | none => rfl
      | some newObject =>
          simp only [Option.map_some, Option.bind_eq_bind, Option.bind_some]
          split
          · rfl
          cases createObjectInfo L.toPoco d email now uuid newObject.info with
          | none => rfl
          | some result =>
              simp only [Option.bind_some, Option.pure_def, storePost]
              cases works .findBoardsByVenue with
              | false => rfl
              | true =>
                  simp only [Bool.not_true, Bool.false_eq_true, if_false, true_and]
                  -- what was found matters only in whether it is empty
                  generalize BoardTable.findBoardsByVenue L records _ = found
                  cases found with
                  | cons b rest => simp
                  | nil =>
                      simp only [List.isEmpty_nil, Bool.not_true, Bool.false_eq_true, if_false,
                        if_true]
                      generalize (if works .createRecord = true then _ else none) = created
                      cases created with
                      | none => rfl
                      | some records' => rfl

/-- The board `DoPut` goes on with is the accepted one. -/
theorem snd_doPut :
    (doPut L works records id body email now).2 =
      match if id.isEmpty then none
        else (getRecord L works .getRecord records id).bind fun existing =>
          body.bind fun d => acceptPut L.toPoco d email now existing with
      | none => records
      | some b =>
        if works .updateRecord then BoardTable.updateRecord L records b.info.id b else records := by
  unfold doPut
  split
  · rfl
  cases getRecord L works .getRecord records id with
  | none => rfl
  | some existing =>
      cases body with
      | none => rfl
      | some d =>
          rw [Option.bind_some, Option.bind_some, Option.bind_some, acceptPut]
          cases BoardInfo.fromJson L.toPoco d with
          | none => rfl
          | some newObject =>
              simp only [Option.map_some, Option.bind_eq_bind, Option.bind_some]
              cases updateObjectInfo L.toPoco d email now existing.info with
              | none => rfl
              | some result =>
                  simp only [Option.bind_some, Option.pure_def, putVenues]
                  -- the three checks of the venues, and the update
                  by_cases hput : d.contains "venueList" = true
                  · have hone : hasExactlyOneVenue { existing with info := result.2 } =
                        hasExactlyOneVenue existing := rfl
                    have hvenue : firstVenue { existing with info := result.2 } =
                        firstVenue existing := rfl
                    simp only [if_pos hput, hone, hvenue]
                    by_cases hnew : (!hasExactlyOneVenue newObject) = true
                    · simp only [if_pos hnew]
                    by_cases hold : (!hasExactlyOneVenue existing) = true
                    · simp only [if_neg hnew, if_pos hold]
                    by_cases hmoved : (firstVenue newObject).id ≠ (firstVenue existing).id
                    · simp only [if_neg hnew, if_neg hold, if_pos hmoved]
                    · simp only [if_neg hnew, if_neg hold, if_neg hmoved]
                      cases works .updateRecord <;> rfl
                  · simp only [if_neg hput]
                    cases works .updateRecord <;> rfl

/-! ## Steps -/

/-- The table with one request at work at most. -/
def atWork (rows : List BoardRow) (used : List Str) (createMutex : Option Nat)
    (r : OneBoard.Request F) : OneBoard.State F where
  rows := rows
  createMutex := createMutex
  requests := Function.update (fun _ => .idle) 0 r
  used := used

section AtWork

variable {p : Poco F} {rows : List BoardRow} {used : List Str} {b : BoardInfo}

theorem requests_atWork (createMutex : Option Nat) (r : OneBoard.Request F) :
    (atWork rows used createMutex r).requests 0 = r := by
  show Function.update (fun _ => OneBoard.Request.idle) 0 r 0 = r
  exact Function.update_self _ _ _

theorem setRequest_atWork (createMutex : Option Nat) (r r' : OneBoard.Request F) :
    (atWork rows used createMutex r).setRequest 0 r' = atWork rows used createMutex r' := by
  rw [OneBoard.State.setRequest, atWork, atWork, Function.update_idem]

theorem start_atWork (r : OneBoard.Request F) :
    (atWork rows used none .idle).start 0 r = some (atWork rows used none r) := by
  rw [OneBoard.State.start, requests_atWork, setRequest_atWork]

/-- A board goes through the create lock, and comes out stored or refused. -/
theorem canReach_of_lock (works : Statement → Bool) (b : BoardInfo) :
    CanReach (OneBoard.State.step p)
      (fun t => ∃ used', t = atWork
        (if works .findBoardsByVenue ∧ BoardsDB.findBoardsByVenue rows (firstVenue b).id = [] then
          (if works .createRecord then BoardsDB.createRecord rows b else none).getD rows
        else rows) used' none .idle)
      (atWork rows used none (.lock b)) := by
  have hlock : (atWork rows used none (.lock b)).step p (.request 0 true) =
      some (atWork rows used (some 0) (.findBoardsByVenue b)) := by
    simp only [OneBoard.State.step, OneBoard.State.stepRequest, requests_atWork, setRequest_atWork]
    rfl
  refine canReach_step hlock ?_
  by_cases hfree : works .findBoardsByVenue = true ∧
      BoardsDB.findBoardsByVenue rows (firstVenue b).id = []
  · have hfind : (atWork rows used (some 0) (.findBoardsByVenue b)).step p
        (.request 0 (works .findBoardsByVenue)) =
          some (atWork rows used (some 0) (.createRecord b)) := by
      simp only [OneBoard.State.step, OneBoard.State.stepRequest, requests_atWork,
        setRequest_atWork]
      exact if_pos hfree
    refine canReach_step hfind ?_
    rw [if_pos hfree]
    -- the record is created, or the statement fails
    have hcreate : ∃ used', (atWork rows used (some 0) (.createRecord b)).step p
        (.request 0 (works .createRecord)) =
          some (atWork ((if works .createRecord then BoardsDB.createRecord rows b else none).getD
            rows) used' none .idle) := by
      simp only [OneBoard.State.step, OneBoard.State.stepRequest, requests_atWork,
        setRequest_atWork]
      rw [show (atWork rows used (some 0) (.createRecord b)).rows = rows from rfl]
      cases if works .createRecord then BoardsDB.createRecord rows b else none with
      | none => exact ⟨used, rfl⟩
      | some rows' => exact ⟨b.info.id :: used, rfl⟩
    obtain ⟨used', hcreate⟩ := hcreate
    exact canReach_step hcreate (canReach_here ⟨used', rfl⟩)
  · have hfind : (atWork rows used (some 0) (.findBoardsByVenue b)).step p
        (.request 0 (works .findBoardsByVenue)) = some (atWork rows used none .idle) := by
      simp only [OneBoard.State.step, OneBoard.State.stepRequest, requests_atWork,
        setRequest_atWork]
      exact if_neg hfree
    rw [if_neg hfree]
    exact canReach_step hfind (canReach_here ⟨used, rfl⟩)

/-- A board that was accepted for an update is written, or the statement fails. -/
theorem canReach_of_update (hL : L.Inverts) (works : Statement → Bool)
    (records : List BoardRecord) (b : BoardInfo) :
    CanReach (OneBoard.State.step p)
      (fun t => ∃ used', t = atWork (BoardTable.rows L
        (if works .updateRecord then BoardTable.updateRecord L records b.info.id b else records))
        used' none .idle)
      (atWork (BoardTable.rows L records) used none (.updateRecord b)) := by
  refine canReach_step (a := .request 0 (works .updateRecord)) ?_ (canReach_here ⟨used, rfl⟩)
  simp only [OneBoard.State.step, OneBoard.State.stepRequest, requests_atWork, setRequest_atWork]
  cases works .updateRecord with
  | false => rfl
  | true =>
      rw [if_pos rfl, if_pos rfl, ← BoardTable.updateRecord_rows hL]
      rfl

/-- A board that was found is deleted, or the statement fails. -/
theorem canReach_of_delete (works : Statement → Bool) (records : List BoardRecord) (id : Str) :
    CanReach (OneBoard.State.step p)
      (fun t => ∃ used', t = atWork (BoardTable.rows L
        (if works .deleteRecord then BoardTable.deleteRecord records id else records))
        used' none .idle)
      (atWork (BoardTable.rows L records) used none (.deleteRecord id)) := by
  refine canReach_step (a := .request 0 (works .deleteRecord)) ?_ (canReach_here ⟨used, rfl⟩)
  simp only [OneBoard.State.step, OneBoard.State.stepRequest, requests_atWork, setRequest_atWork]
  cases works .deleteRecord with
  | false => rfl
  | true =>
      rw [if_pos rfl, if_pos rfl, ← BoardTable.deleteRecord_rows]
      rfl

end AtWork

/-- The boards `DoPost` stores, over the rows. -/
theorem rows_storePost (hL : L.Inverts) (b : BoardInfo) :
    BoardTable.rows L (storePost L works records b) =
      if works .findBoardsByVenue ∧
          BoardsDB.findBoardsByVenue (BoardTable.rows L records) (firstVenue b).id = [] then
        (if works .createRecord then BoardsDB.createRecord (BoardTable.rows L records) b
          else none).getD (BoardTable.rows L records)
      else BoardTable.rows L records := by
  rw [BoardTable.findBoardsByVenue_rows, BoardTable.createRecord_rows hL, storePost]
  split
  · cases works .createRecord with
    | false => rfl
    | true =>
        rw [if_pos rfl, if_pos rfl, Option.getD_map]
  · rfl

/-- A request that nothing comes between is a run of its steps. -/
theorem canReach_handle (hL : L.Inverts) (works : Statement → Bool) (records : List BoardRecord)
    (used : List Str) (request : Request F) :
    CanReach (OneBoard.State.step L.toPoco)
      (fun t => ∃ used', t =
        atWork (BoardTable.rows L (handle L works records request).2) used' none .idle)
      (atWork (BoardTable.rows L records) used none .idle) := by
  cases request with
  | get id => exact canReach_here ⟨used, rfl⟩
  | list forVenue query => exact canReach_here ⟨used, rfl⟩
  | post id body email now uuid =>
      rw [handle, snd_doPost]
      cases haccept : if id.isEmpty then none
          else body.bind fun d => acceptPost L.toPoco d email now uuid with
      | none => exact canReach_here ⟨used, rfl⟩
      | some b =>
          obtain ⟨d, hd⟩ : ∃ d, acceptPost L.toPoco d email now uuid = some b := by
            split at haccept
            · cases haccept
            · obtain ⟨d, -, hd⟩ := Option.bind_eq_some_iff.mp haccept
              exact ⟨d, hd⟩
          dsimp only
          rw [rows_storePost hL]
          have hpost : (atWork (BoardTable.rows L records) used none .idle).step L.toPoco
              (.post 0 d email now uuid) =
                some (atWork (BoardTable.rows L records) used none (.lock b)) := by
            rw [OneBoard.State.step, hd]
            exact start_atWork _
          exact canReach_step hpost (canReach_of_lock works b)
  | put id body email now =>
      rw [handle, snd_doPut]
      cases haccept : if id.isEmpty then none
          else (getRecord L works .getRecord records id).bind fun existing =>
            body.bind fun d => acceptPut L.toPoco d email now existing with
      | none => exact canReach_here ⟨used, rfl⟩
      | some b =>
          obtain ⟨existing, d, hexisting, hd⟩ : ∃ existing d,
              getRecord L works .getRecord records id = some existing ∧
                acceptPut L.toPoco d email now existing = some b := by
            split at haccept
            · cases haccept
            · obtain ⟨existing, hexisting, hbody⟩ := Option.bind_eq_some_iff.mp haccept
              obtain ⟨d, -, hd⟩ := Option.bind_eq_some_iff.mp hbody
              exact ⟨existing, d, hexisting, hd⟩
          refine canReach_step (a := .put 0 id d email now) (start_atWork _) ?_
          -- the board is read, and the body merged into it
          have hread : (atWork (BoardTable.rows L records) used none
              (.getRecordToUpdate id d email now)).step L.toPoco (.request 0 (works .getRecord)) =
                some (atWork (BoardTable.rows L records) used none (.updateRecord b)) := by
            simp only [OneBoard.State.step, OneBoard.State.stepRequest, requests_atWork,
              setRequest_atWork]
            rw [show (atWork (BoardTable.rows L records) used none
              (.getRecordToUpdate id d email now)).rows = BoardTable.rows L records from rfl,
              BoardTable.getRecord_rows, ← getRecord, hexisting, Option.bind_some, hd]
          exact canReach_step hread (canReach_of_update hL works records b)
  | delete id =>
      rw [handle, doDelete]
      split
      · exact canReach_here ⟨used, rfl⟩
      split
      · exact canReach_here ⟨used, rfl⟩
      · rename_i existing hexisting
        refine canReach_step (a := .delete 0 id) (start_atWork _) ?_
        have hread : (atWork (BoardTable.rows L records) used none
            (.getRecordToDelete id)).step L.toPoco (.request 0 (works .getRecord)) =
              some (atWork (BoardTable.rows L records) used none (.deleteRecord id)) := by
          simp only [OneBoard.State.step, OneBoard.State.stepRequest, requests_atWork,
            setRequest_atWork]
          rw [show (atWork (BoardTable.rows L records) used none
            (.getRecordToDelete id)).rows = BoardTable.rows L records from rfl,
            BoardTable.getRecord_rows, ← getRecord, hexisting]
        exact canReach_step hread (canReach_of_delete works records id)

/-- Requests one after the other are one of the interleavings of their steps. -/
theorem canReach_run (hL : L.Inverts) (script : Script F) (records : List BoardRecord)
    (used : List Str) :
    CanReach (OneBoard.State.step L.toPoco)
      (fun t => ∃ used', t = atWork (BoardTable.rows L (run L records script).2) used' none .idle)
      (atWork (BoardTable.rows L records) used none .idle) := by
  induction script generalizing records used with
  | nil => exact canReach_here ⟨used, rfl⟩
  | cons e rest ih =>
      refine (canReach_handle hL e.1 records used e.2).trans ?_
      rintro t ⟨used', rfl⟩
      exact ih (handle L e.1 records e.2).2 used'

end BoardHandler

end OwAnalytics.Boards
