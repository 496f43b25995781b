/-
  OwAnalytics.Boards.Store

  The boards as clients see them: requests to `RESTAPI_board_handler` and
  `RESTAPI_board_list_handler`, one after the other, over the table with its texts.
  Whatever statements fail that a handler notices, a board is read as it was last
  answered, and a board that was deleted is not found.
-/

import OwAnalytics.Boards.Codec
import OwAnalytics.Rest.Gate
import OwAnalytics.Storage.Iterate

namespace OwAnalytics.Boards

open AnalyticsObjects ProvObjects SecurityObjects Document
open Rest (Msg)
open Venue (firstVenue)
open Venue.BoardRequests (hasExactlyOneVenue)

variable {F : Type}

/-! ## Statements -/

namespace BoardTable

variable (L : JsonLibrary F)

/-- `GetRecord`. -/
def getRecord (records : List BoardRecord) (id : Str) : Option BoardInfo :=
  (records.find? fun r => r.id == id).map (BoardRecord.toBoard L)

/-- `CreateRecord`; the id is the primary key. -/
def createRecord (records : List BoardRecord) (b : BoardInfo) : Option (List BoardRecord) :=
  if records.any fun r => r.id == b.info.id then none
  else some (records ++ [BoardRecord.ofBoard L b])

/-- `UpdateRecord`; it succeeds also where no record has the id. -/
def updateRecord (records : List BoardRecord) (id : Str) (b : BoardInfo) : List BoardRecord :=
  records.map fun r => if r.id == id then BoardRecord.ofBoard L b else r

/-- `DeleteRecord`. -/
def deleteRecord (records : List BoardRecord) (id : Str) : List BoardRecord :=
  records.filter fun r => r.id != id

/-- `FindBoardsByVenue`, a page of at most 100. -/
def findBoardsByVenue (records : List BoardRecord) (venueId : Str) : List BoardInfo :=
  if venueId.isEmpty then []
  else ((records.filter fun r => r.venueId == venueId).take 100).map (BoardRecord.toBoard L)

/-- The table as `Iterate` finds it. -/
def db (records : List BoardRecord) (succeeds : Nat → Bool) : ORM.DB BoardRecord BoardInfo where
  rows := records
  convert r := some (r.toBoard L)
  succeeds := succeeds

end BoardTable

/-! ## Requests and replies -/

namespace BoardHandler

/-- The statements a handler sends. -/
inductive Statement
  | getRecord
  | findBoardsByVenue
  | createRecord
  | updateRecord
  | deleteRecord
  /-- `GetRecord` of what has been written. -/
  | readBack
  | page (offset : Nat)
  | count

/-- A request, with the user, the clock and the id that is made. -/
inductive Request (F : Type)
  | get (id : Str)
  | post (id : Str) (body : Option (Document F)) (email : Str) (now : UInt64) (uuid : Str)
  | put (id : Str) (body : Option (Document F)) (email : Str) (now : UInt64)
  | delete (id : Str)
  /-- `DoGet` of the list. -/
  | list (forVenue : Str) (query : Rest.QueryBlock)

/-- What a client is answered. -/
inductive Reply (F : Type)
  | object (d : Document F)
  | boards (ds : List (Document F))
  | count (n : UInt64)
  | ok
  | notFound
  | badRequest (e : Msg) (extra : Str)
  | internalError (e : Msg)

namespace Errors

/-- `RESTAPI::Errors::MissingUUID`. -/
def missingUUID : Msg := ⟨1000, "Missing UUID.".toList⟩

/-- `RESTAPI::Errors::InvalidJSONDocument`. -/
def invalidJSONDocument : Msg := ⟨1003, "Invalid JSON document.".toList⟩

/-- `RESTAPI::Errors::UnknownId`. -/
def unknownId : Msg := ⟨1009, "Unknown UUID.".toList⟩

/-- `RESTAPI::Errors::RecordNotCreated`. -/
def recordNotCreated : Msg := ⟨1011, "Record could not be created.".toList⟩

/-- `RESTAPI::Errors::RecordNotUpdated`. -/
def recordNotUpdated : Msg := ⟨1012, "Record could not be updated.".toList⟩

/-- `RESTAPI::Errors::VenueMustExist`. -/
def venueMustExist : Msg := ⟨1023, "Venue does not exist.".toList⟩

end Errors

/-! ## Handlers -/

section Handlers

variable (L : JsonLibrary F) (works : Statement → Bool) (records : List BoardRecord)

/-- `GetRecord`, where a statement that fails finds nothing. -/
def getRecord (st : Statement) (records : List BoardRecord) (id : Str) : Option BoardInfo :=
  if works st then BoardTable.getRecord L records id else none

/-- `ReturnObject` of the board that is read back; it is answered also if it is not found. -/
def answerBack (records : List BoardRecord) (id : Str) : Reply F :=
  .object (BoardInfo.toJson ((getRecord L works .readBack records id).getD {}))

/-- `RESTAPI_board_handler::DoGet`. -/
def doGet (id : Str) : Reply F :=
  if id.isEmpty then .badRequest Errors.missingUUID []
  else
    match getRecord L works .getRecord records id with
    | none => .notFound
    | some b => .object (BoardInfo.toJson b)

/-- `RESTAPI_board_handler::DoDelete`: its reply, and the table after it. -/
def doDelete (id : Str) : Reply F × List BoardRecord :=
  if id.isEmpty then (.badRequest Errors.missingUUID [], records)
  else
    match getRecord L works .getRecord records id with
    | none => (.notFound, records)
    | some _ =>
      -- whether the statement fails is not looked at
      (.ok, if works .deleteRecord then BoardTable.deleteRecord records id else records)

/-- `RESTAPI_board_handler::DoPost`: its reply, and the table after it. -/
def doPost (id : Str) (body : Option (Document F)) (email : Str) (now : UInt64) (uuid : Str) :
    Reply F × List BoardRecord :=
  if id.isEmpty then (.badRequest Errors.missingUUID [], records)
  else
    match body.bind fun d => (BoardInfo.fromJson L.toPoco d).map (d, ·) with
    | none => (.badRequest Errors.invalidJSONDocument [], records)
    | some (d, newObject) =>
      if !hasExactlyOneVenue newObject then (.badRequest Errors.venueMustExist [], records)
      else
        match createObjectInfo L.toPoco d email now uuid newObject.info with
        | none => (.badRequest Rest.Errors.internalError [], records)
        | some (_, info) =>
          let newObject := { newObject with info }
          if !works .findBoardsByVenue then
            (.internalError Errors.recordNotCreated, records)
          else if !(BoardTable.findBoardsByVenue L records (firstVenue newObject).id).isEmpty then
            (.badRequest Errors.recordNotCreated
              "Venue is already assigned to another board".toList, records)
          else
            match if works .createRecord then BoardTable.createRecord L records newObject
              else none with
            | none => (.internalError Errors.recordNotCreated, records)
            | some records => (answerBack L works records newObject.info.id, records)

/-- The venues `DoPut` goes on with, or its error. -/
def putVenues (d : Document F) (newObject existing : BoardInfo) :
    Except (Reply F) (List VenueInfo) :=
  if d.contains "venueList" then
    if !hasExactlyOneVenue newObject then .error (.badRequest Errors.venueMustExist [])
    else if !hasExactlyOneVenue existing then .error (.badRequest Errors.venueMustExist [])
    else if (firstVenue newObject).id ≠ (firstVenue existing).id then
      .error (.badRequest Errors.recordNotUpdated "Venue reassignment is not supported".toList)
    else .ok newObject.venueList
  else .ok existing.venueList

/-- `RESTAPI_board_handler::DoPut`: its reply, and the table after it. -/
def doPut (id : Str) (body : Option (Document F)) (email : Str) (now : UInt64) :
    Reply F × List BoardRecord :=
  if id.isEmpty then (.badRequest Errors.missingUUID [], records)
  else
    match getRecord L works .getRecord records id with
    | none => (.notFound, records)
    | some existing =>
      match body.bind fun d => (BoardInfo.fromJson L.toPoco d).map (d, ·) with
      | none => (.badRequest Errors.invalidJSONDocument [], records)
      | some (d, newObject) =>
        match updateObjectInfo L.toPoco d email now existing.info with
        | none => (.badRequest Rest.Errors.internalError [], records)
        | some (_, info) =>
          match putVenues d newObject existing with
          | .error reply => (reply, records)
          | .ok venueList =>
            if works .updateRecord then
              let records := BoardTable.updateRecord L records info.id { info, venueList }
              (answerBack L works records info.id, records)
            else (.internalError Errors.recordNotUpdated, records)

/-- The callback of `RESTAPI_board_list_handler::DoGet`. -/
def collect (venueId : Str) (boards : List BoardInfo) (b : BoardInfo) : List BoardInfo × Bool :=
  (if b.venueList.any fun v => v.id == venueId then boards ++ [b] else boards, true)

/-- The table as it is gone through page by page. -/
def pages : ORM.DB BoardRecord BoardInfo :=
  BoardTable.db L records fun offset => works (.page offset)

/-- `ReturnRecordList`. -/
def returnRecordList (select : List Str) : Reply F :=
  match select.mapM (getRecord L works .getRecord records) with
  | some boards => .boards (boards.map BoardInfo.toJson)
  | none => .badRequest Errors.unknownId []

/-- `ListHandler`; a page that fails is answered as an empty one. -/
def listHandler (query : Rest.QueryBlock) : Reply F :=
  if query.select ≠ [] then returnRecordList L works records query.select
  else if query.countOnly then
    .count (if works .count then UInt64.ofNat records.length else 0)
  else
    .boards ((((pages L works records).getRecords (fun _ => true) query.offset.toNat
      query.limit.toNat).getD []).map BoardInfo.toJson)

/-- `RESTAPI_board_list_handler::DoGet`. -/
def doGetList (forVenue : Str) (query : Rest.QueryBlock) : Reply F :=
  if forVenue ≠ [] then
    .boards (((pages L works records).iterate (fun _ => true) (collect forVenue) []).map
      BoardInfo.toJson)
  else listHandler L works records query

/-- A request: its reply, and the table after it. -/
def handle : Request F → Reply F × List BoardRecord
  | .get id => (doGet L works records id, records)
  | .post id body email now uuid => doPost L works records id body email now uuid
  | .put id body email now => doPut L works records id body email now
  | .delete id => doDelete L works records id
  | .list forVenue query => (doGetList L works records forVenue query, records)

end Handlers

/-! ## What clients know -/

/-- The representations of the boards by their ids. -/
abbrev Known (F : Type) := Str → Option (Document F)

/-- What the table holds. -/
def known (L : JsonLibrary F) (records : List BoardRecord) : Known F :=
  fun id => (BoardTable.getRecord L records id).map BoardInfo.toJson

/-- The id a representation shows. -/
def idOf (d : Document F) : Option Str :=
  match d.find? "id" with
  | some (.str id) => some id
  | _ => none

/-- What clients learn from a reply to a request that writes. -/
def learn (m : Known F) : Request F → Reply F → Known F
  | .post .., .object d => (idOf d).elim m fun id => Function.update m id (some d)
  | .put id .., .object d => Function.update m id (some d)
  | .delete id, .ok => Function.update m id none
  | _, _ => m

/-- The statements work whose failure is not answered. -/
def Careful (works : Statement → Bool) : Request F → Prop
  | .post .. => works .readBack = true
  | .put .. => works .readBack = true
  | .delete _ => works .deleteRecord = true
  | _ => True

/-! ### Statements and what they leave known -/

variable {L : JsonLibrary F} {works : Statement → Bool} {records : List BoardRecord}

theorem idOf_toJson (b : BoardInfo) : idOf (BoardInfo.toJson b : Document F) = some b.info.id := by
  have hfind : (BoardInfo.toJson b : Document F).find? "id" = some (.str b.info.id) := by
    refine find?_object List.mem_cons_self fun x hx hkey => ?_
    simp only [List.mem_cons, List.not_mem_nil, or_false] at hx
    rcases hx with rfl | rfl | rfl | rfl | rfl | rfl | rfl | rfl
    · rfl
    -- no other field has this name
    all_goals simp at hkey
  rw [idOf, hfind]

theorem id_ofBoard (b : BoardInfo) : (BoardRecord.ofBoard L b).id = b.info.id := rfl

theorem id_of_getRecord {id : Str} {b : BoardInfo}
    (h : BoardTable.getRecord L records id = some b) :
    b.info.id = id := by
  obtain ⟨r, hr, rfl⟩ := Option.map_eq_some_iff.mp h
  have hkey := List.find?_some hr
  exact beq_iff_eq.mp hkey

/-- A board that is read from its table has no tags. -/
theorem tags_of_getRecord {id : Str} {b : BoardInfo}
    (h : BoardTable.getRecord L records id = some b) : b.info.tags = [] := by
  obtain ⟨r, -, rfl⟩ := Option.map_eq_some_iff.mp h
  rfl

theorem getRecord_createRecord {records' : List BoardRecord} {b : BoardInfo}
    (h : BoardTable.createRecord L records b = some records') (id : Str) :
    BoardTable.getRecord L records' id =
      if id = b.info.id then some ((BoardRecord.ofBoard L b).toBoard L)
      else BoardTable.getRecord L records id := by
  unfold BoardTable.createRecord at h
  split at h
  · cases h
  · rename_i hfresh
    obtain rfl := Option.some.inj h
    unfold BoardTable.getRecord
    rw [List.find?_append]
    by_cases hid : id = b.info.id
    · -- the id was free
      have hnone : records.find? (fun r => r.id == id) = none := by
        rw [List.find?_eq_none]
        intro r hr hsame
        exact hfresh (List.any_eq_true.mpr ⟨r, hr, hid ▸ hsame⟩)
      rw [hnone, if_pos hid, Option.none_or, List.find?_cons_of_pos]
      · rfl
      · exact beq_iff_eq.mpr hid.symm
    · rw [if_neg hid, List.find?_cons_of_neg, List.find?_nil, Option.or_none]
      exact fun hsame => hid (beq_iff_eq.mp hsame).symm

theorem getRecord_updateRecord {id : Str} {b : BoardInfo} (hid : b.info.id = id) (id' : Str) :
    BoardTable.getRecord L (BoardTable.updateRecord L records id b) id' =
      if id' = id then
        (BoardTable.getRecord L records id).map fun _ => (BoardRecord.ofBoard L b).toBoard L
      else BoardTable.getRecord L records id' := by
  unfold BoardTable.getRecord BoardTable.updateRecord
  rw [List.find?_map]
  by_cases hsame : id' = id
  · subst hsame
    rw [if_pos rfl]
    -- the new row has the id of the old one, so the search ends at the same place
    have hkeys : ((fun r : BoardRecord => r.id == id') ∘
        fun r => if r.id == id' then BoardRecord.ofBoard L b else r) = fun r => r.id == id' := by
      funext r
      by_cases hr : (r.id == id') = true
      · rw [Function.comp_apply, if_pos hr, hr]
        exact beq_iff_eq.mpr hid
      · rw [Function.comp_apply, if_neg hr]
    rw [hkeys]
    cases hfind : records.find? fun r => r.id == id' with
    | none => rfl
    | some r =>
      have hr := List.find?_some hfind
      simp only [Option.map_some, hr, if_true]
  · rw [if_neg hsame]
    have hkeys : ((fun r : BoardRecord => r.id == id') ∘
        fun r => if r.id == id then BoardRecord.ofBoard L b else r) = fun r => r.id == id' := by
      funext r
      by_cases hr : (r.id == id) = true
      · rw [Function.comp_apply, if_pos hr, id_ofBoard, hid, beq_iff_eq.mp hr]
      · rw [Function.comp_apply, if_neg hr]
    rw [hkeys]
    cases hfind : records.find? fun r => r.id == id' with
    | none => rfl
    | some r =>
      have hr : ¬ (r.id == id) = true := by
        intro hr
        have hkey := List.find?_some hfind
        exact hsame ((beq_iff_eq.mp hkey).symm.trans (beq_iff_eq.mp hr))
      simp only [Option.map_some, if_neg hr]

theorem getRecord_deleteRecord (id id' : Str) :
    BoardTable.getRecord L (BoardTable.deleteRecord records id) id' =
      if id' = id then none else BoardTable.getRecord L records id' := by
  unfold BoardTable.getRecord BoardTable.deleteRecord
  rw [List.find?_filter]
  by_cases hsame : id' = id
  · subst hsame
    rw [if_pos rfl, List.find?_eq_none.mpr]
    · rfl
    · intro r _ h
      simp only [bne_iff_ne, beq_iff_eq, decide_eq_true_eq] at h
      exact h.1 h.2
  · rw [if_neg hsame]
    congr 2
    funext r
    by_cases hr : r.id = id'
    · simp [hr, hsame]
    · simp [hr]

theorem known_of_getRecord {records' : List BoardRecord} {id : Str} {b : BoardInfo}
    (hat : BoardTable.getRecord L records' id = some b)
    (helse : ∀ id' ≠ id,
      BoardTable.getRecord L records' id' = BoardTable.getRecord L records id') :
    known L records' = Function.update (known L records) id (some (BoardInfo.toJson b)) := by
  funext id'
  by_cases hid : id' = id
  · subst hid
    rw [Function.update_self, known, hat, Option.map_some]
  · rw [Function.update_of_ne hid, known, known, helse id' hid]

/-! ### What a handler can do -/

variable {id : Str} {body : Option (Document F)} {email : Str} {now : UInt64} {uuid : Str}

/-- `DoPost` refuses, or creates one board and reads it back. -/
theorem doPost_cases (L : JsonLibrary F) (works : Statement → Bool) (records : List BoardRecord)
    (id : Str) (body : Option (Document F)) (email : Str) (now : UInt64) (uuid : Str) :
    (∃ reply, (∀ d, reply ≠ .object d) ∧
      doPost L works records id body email now uuid = (reply, records)) ∨
    ∃ b records', BoardTable.createRecord L records b = some records' ∧
      doPost L works records id body email now uuid =
        (answerBack L works records' b.info.id, records') := by
  unfold doPost
  split
  · exact .inl ⟨_, fun _ => by simp, rfl⟩
  split
  · exact .inl ⟨_, fun _ => by simp, rfl⟩
  split
  · exact .inl ⟨_, fun _ => by simp, rfl⟩
  split
  · exact .inl ⟨_, fun _ => by simp, rfl⟩
  dsimp only
  split
  · exact .inl ⟨_, fun _ => by simp, rfl⟩
  split
  · exact .inl ⟨_, fun _ => by simp, rfl⟩
  split
  · exact .inl ⟨_, fun _ => by simp, rfl⟩
  · rename_i records' hcreated
    -- the last statement worked
    split at hcreated
    · exact .inr ⟨_, records', hcreated, rfl⟩
    · exact absurd hcreated (by simp)

/-- `DoPut` refuses, or updates the board it was asked for and reads it back. -/
theorem doPut_cases (L : JsonLibrary F) (works : Statement → Bool) (records : List BoardRecord)
    (id : Str) (body : Option (Document F)) (email : Str) (now : UInt64) :
    (∃ reply, (∀ d, reply ≠ .object d) ∧
      doPut L works records id body email now = (reply, records)) ∨
    ∃ existing b, BoardTable.getRecord L records id = some existing ∧ b.info.id = id ∧
      doPut L works records id body email now =
        (answerBack L works (BoardTable.updateRecord L records id b) id,
          BoardTable.updateRecord L records id b) := by
  unfold doPut
  split
  · exact .inl ⟨_, fun _ => by simp, rfl⟩
  split
  · exact .inl ⟨_, fun _ => by simp, rfl⟩
  rename_i existing hexisting
  split
  · exact .inl ⟨_, fun _ => by simp, rfl⟩
  rename_i d newObject hbody
  split
  · exact .inl ⟨_, fun _ => by simp, rfl⟩
  rename_i ok info hinfo
  split
  · rename_i reply hvenues
    refine .inl ⟨reply, fun _ => ?_, rfl⟩
    unfold putVenues at hvenues
    -- every error of the venues is a bad request
    split at hvenues
    · split at hvenues
      · cases hvenues; simp
      · split at hvenues
        · cases hvenues; simp
        · split at hvenues
          · cases hvenues; simp
          · cases hvenues
    · cases hvenues
  rename_i venueList hvenues
  split
  · unfold getRecord at hexisting
    split at hexisting
    · have hid : info.id = id :=
        (updateObjectInfo_id hinfo).trans (id_of_getRecord hexisting)
      exact .inr ⟨existing, { info, venueList }, hexisting, hid, by rw [hid]⟩
    · cases hexisting
  · exact .inl ⟨_, fun _ => by simp, rfl⟩

/-- `DoDelete` refuses, or answers that the board is gone. -/
theorem doDelete_cases (L : JsonLibrary F) (works : Statement → Bool) (records : List BoardRecord)
    (id : Str) :
    (∃ reply, reply ≠ .ok ∧ doDelete L works records id = (reply, records)) ∨
      doDelete L works records id =
        (.ok, if works .deleteRecord then BoardTable.deleteRecord records id else records) := by
  unfold doDelete
  split
  · exact .inl ⟨_, by simp, rfl⟩
  split
  · exact .inl ⟨_, by simp, rfl⟩
  · exact .inr rfl

/-- The board that is read back is answered as it is known from then on. -/
theorem answerBack_eq (hreads : works .readBack = true) {b : BoardInfo}
    (h : BoardTable.getRecord L records id = some b) :
    answerBack L works records id = .object (BoardInfo.toJson b) := by
  rw [answerBack, getRecord, if_pos hreads, h, Option.getD_some]

/-- What is in the table after a request is what was in it before and what the reply tells. -/
theorem known_handle {request : Request F} (hcareful : Careful works request) :
    known L (handle L works records request).2 =
      learn (known L records) request (handle L works records request).1 := by
  cases request with
  | get id => rfl
  | list forVenue query => rfl
  | post id body email now uuid =>
    show known L (doPost L works records id body email now uuid).2 =
      learn _ (.post id body email now uuid) (doPost L works records id body email now uuid).1
    obtain ⟨reply, hreply, heq⟩ | ⟨b, records', hcreated, heq⟩ :=
      doPost_cases L works records id body email now uuid
    · rw [heq]
      cases reply with
      | object d => exact absurd rfl (hreply d)
      | _ => rfl
    -- the board that was created is the one found at its id
    · have hat := getRecord_createRecord hcreated b.info.id
      rw [if_pos rfl] at hat
      rw [heq, answerBack_eq hcareful hat, learn, idOf_toJson]
      apply known_of_getRecord hat
      intro id' hid
      rw [getRecord_createRecord hcreated, if_neg hid]
  | put id body email now =>
    show known L (doPut L works records id body email now).2 =
      learn _ (.put id body email now) (doPut L works records id body email now).1
    obtain ⟨reply, hreply, heq⟩ | ⟨existing, b, hexisting, hid, heq⟩ :=
      doPut_cases L works records id body email now
    · rw [heq]
      cases reply with
      | object d => exact absurd rfl (hreply d)
      | _ => rfl
    · have hat : BoardTable.getRecord L (BoardTable.updateRecord L records id b) id =
          some ((BoardRecord.ofBoard L b).toBoard L) := by
        rw [getRecord_updateRecord hid, if_pos rfl, hexisting, Option.map_some]
      rw [heq, answerBack_eq hcareful hat, learn]
      apply known_of_getRecord hat
      intro id' hother
      rw [getRecord_updateRecord hid, if_neg hother]
  | delete id =>
    show known L (doDelete L works records id).2 =
      learn _ (.delete id) (doDelete L works records id).1
    obtain ⟨reply, hreply, heq⟩ | heq := doDelete_cases L works records id
    · rw [heq]
      cases reply with
      | ok => exact absurd rfl hreply
      | _ => rfl
    · have hworks : works .deleteRecord = true := hcareful
      rw [heq, if_pos hworks, learn]
      funext id'
      by_cases hid : id' = id
      · rw [hid, Function.update_self, known, getRecord_deleteRecord, if_pos rfl, Option.map_none]
      · rw [Function.update_of_ne hid, known, getRecord_deleteRecord, if_neg hid, known]

/-! ## Runs -/

/-- Requests, each with the statements that work for it. -/
abbrev Script (F : Type) := List ((Statement → Bool) × Request F)

/-- What clients have asked and were answered. -/
abbrev Transcript (F : Type) := List (Request F × Reply F)

/-- The requests one after the other: what was answered, and the table after them. -/
def run (L : JsonLibrary F) : List BoardRecord → Script F → Transcript F × List BoardRecord
  | records, [] => ([], records)
  | records, (works, request) :: rest =>
      let (reply, records) := handle L works records request
      let (transcript, records) := run L records rest
      ((request, reply) :: transcript, records)

/-- What a transcript tells, starting with what is known. -/
def told (m : Known F) (transcript : Transcript F) : Known F :=
  transcript.foldl (fun m e => learn m e.1 e.2) m

/-- The table holds what its clients were told. -/
theorem known_run (records : List BoardRecord) {script : Script F}
    (hcareful : ∀ e ∈ script, Careful e.1 e.2) :
    known L (run L records script).2 = told (known L records) (run L records script).1 := by
  induction script generalizing records with
  | nil => rfl
  | cons e rest ih =>
    have hfirst : known L (handle L e.1 records e.2).2 =
        learn (known L records) e.2 (handle L e.1 records e.2).1 :=
      known_handle (hcareful e List.mem_cons_self)
    have hrest := ih (handle L e.1 records e.2).2 fun x hx => hcareful x (List.mem_cons_of_mem _ hx)
    show known L (run L (handle L e.1 records e.2).2 rest).2 =
      told (learn (known L records) e.2 (handle L e.1 records e.2).1)
        (run L (handle L e.1 records e.2).2 rest).1
    rw [hrest, hfirst]

/-- No two records have the same id. -/
def Keyed (records : List BoardRecord) : Prop := (records.map BoardRecord.id).Nodup

theorem keyed_createRecord {b : BoardInfo} {records' : List BoardRecord}
    (hkeyed : Keyed records) (h : BoardTable.createRecord L records b = some records') :
    Keyed records' := by
  unfold BoardTable.createRecord at h
  split at h
  · cases h
  · rename_i hfresh
    obtain rfl := Option.some.inj h
    unfold Keyed
    rw [List.map_append, List.map_singleton, List.nodup_append]
    refine ⟨hkeyed, List.nodup_singleton _, fun id hid id' hid' hsame => hfresh ?_⟩
    obtain ⟨r, hr, rfl⟩ := List.mem_map.mp hid
    rw [List.mem_singleton.mp hid', id_ofBoard] at hsame
    exact List.any_eq_true.mpr ⟨r, hr, beq_iff_eq.mpr hsame⟩

theorem keyed_updateRecord {b : BoardInfo} (hkeyed : Keyed records) (hid : b.info.id = id) :
    Keyed (BoardTable.updateRecord L records id b) := by
  -- the ids stay as they are
  have hids : (BoardTable.updateRecord L records id b).map BoardRecord.id =
      records.map BoardRecord.id := by
    rw [BoardTable.updateRecord, List.map_map]
    apply List.map_congr_left
    intro r _
    by_cases hr : (r.id == id) = true
    · rw [Function.comp_apply, if_pos hr, id_ofBoard, hid, beq_iff_eq.mp hr]
    · rw [Function.comp_apply, if_neg hr]
  rw [Keyed, hids]
  exact hkeyed

theorem keyed_deleteRecord (hkeyed : Keyed records) : Keyed (BoardTable.deleteRecord records id) :=
  hkeyed.sublist (List.filter_sublist.map _)

theorem keyed_handle {request : Request F} (hkeyed : Keyed records) :
    Keyed (handle L works records request).2 := by
  cases request with
  | get id => exact hkeyed
  | list forVenue query => exact hkeyed
  | post id body email now uuid =>
    show Keyed (doPost L works records id body email now uuid).2
    obtain ⟨reply, -, heq⟩ | ⟨b, records', hcreated, heq⟩ :=
      doPost_cases L works records id body email now uuid
    · rw [heq]
      exact hkeyed
    · rw [heq]
      exact keyed_createRecord hkeyed hcreated
  | put id body email now =>
    show Keyed (doPut L works records id body email now).2
    obtain ⟨reply, -, heq⟩ | ⟨existing, b, -, hid, heq⟩ :=
      doPut_cases L works records id body email now
    · rw [heq]
      exact hkeyed
    · rw [heq]
      exact keyed_updateRecord hkeyed hid
  | delete id =>
    show Keyed (doDelete L works records id).2
    obtain ⟨reply, -, heq⟩ | heq := doDelete_cases L works records id
    · rw [heq]
      exact hkeyed
    · rw [heq]
      dsimp only
      split
      · exact keyed_deleteRecord hkeyed
      · exact hkeyed

theorem keyed_run (L : JsonLibrary F) (script : Script F) (hkeyed : Keyed records) :
    Keyed (run L records script).2 := by
  induction script generalizing records with
  | nil => exact hkeyed
  | cons e rest ih =>
    show Keyed (run L (handle L e.1 records e.2).2 rest).2
    exact ih (keyed_handle hkeyed)

/-! ## Reading -/

/-- The ids in the venue list a representation shows. -/
def venuesOf (d : Document F) : List Str :=
  match d.find? "venueList" with
  | some (.arr items) => items.filterMap idOf
  | _ => []

theorem venuesOf_toJson (b : BoardInfo) :
    venuesOf (BoardInfo.toJson b : Document F) = b.venueList.map VenueInfo.id := by
  have hfind : (BoardInfo.toJson b : Document F).find? "venueList" =
      some (.arr (b.venueList.map VenueInfo.toJson)) := by
    refine find?_object (by simp) fun x hx hkey => ?_
    simp only [List.mem_cons, List.not_mem_nil, or_false] at hx
    -- only the last of the members is called `venueList`
    rcases hx with rfl | rfl | rfl | rfl | rfl | rfl | rfl | rfl
    case inr.inr.inr.inr.inr.inr.inr => rfl
    all_goals simp at hkey
  have hid : ∀ v : VenueInfo, idOf (VenueInfo.toJson v : Document F) = some v.id := by
    intro v
    have hfind : (VenueInfo.toJson v : Document F).find? "id" = some (.str v.id) := by
      refine find?_object List.mem_cons_self fun x hx hkey => ?_
      simp only [List.mem_cons, List.not_mem_nil, or_false] at hx
      rcases hx with rfl | rfl | rfl | rfl | rfl | rfl
      · rfl
      all_goals simp at hkey
    rw [idOf, hfind]
  rw [venuesOf, hfind]
  show (b.venueList.map VenueInfo.toJson).filterMap idOf = _
  rw [List.filterMap_map]
  conv_lhs => arg 1; rw [show idOf ∘ VenueInfo.toJson = fun v => some v.id from funext hid]
  rw [List.filterMap_eq_map']

/-- The boards of a table, in its order. -/
def boards (L : JsonLibrary F) (records : List BoardRecord) : List BoardInfo :=
  records.map (BoardRecord.toBoard L)

/-- In a table with keys, `GetRecord` finds the boards that are in it. -/
theorem mem_boards_iff (hkeyed : Keyed records) {b : BoardInfo} :
    b ∈ boards L records ↔ BoardTable.getRecord L records b.info.id = some b := by
  constructor
  · intro hb
    obtain ⟨r, hr, rfl⟩ := List.mem_map.mp hb
    -- no two rows share an id, so the first row with this id is the row
    have hfind : records.find? (fun x => x.id == r.id) = some r := by
      clear hb
      induction records with
      | nil => exact absurd hr List.not_mem_nil
      | cons x rest ih =>
        have hnodup := List.nodup_cons.mp hkeyed
        rcases List.mem_cons.mp hr with rfl | hrest
        · exact List.find?_cons_of_pos (beq_iff_eq.mpr rfl)
        · rw [List.find?_cons_of_neg, ih hnodup.2 hrest]
          intro hsame
          exact hnodup.1 (beq_iff_eq.mp hsame ▸ List.mem_map_of_mem hrest)
    show (records.find? fun x => x.id == r.id).map (BoardRecord.toBoard L) = _
    rw [hfind, Option.map_some]
  · intro hb
    obtain ⟨r, hr, rfl⟩ := Option.map_eq_some_iff.mp hb
    exact List.mem_map_of_mem (List.mem_of_find?_eq_some hr)

theorem visit_collect (venueId : Str) (seen bs : List BoardInfo) :
    (Pager.visit (collect venueId) seen bs).1 =
      seen ++ bs.filter fun b => b.venueList.any fun v => v.id == venueId := by
  induction bs generalizing seen with
  | nil => rw [Pager.visit, List.filter_nil, List.append_nil]
  | cons b rest ih =>
    rw [Pager.visit, collect]
    dsimp only
    rw [ih]
    by_cases hvenue : (b.venueList.any fun v => v.id == venueId) = true
    · rw [List.filter_cons, if_pos hvenue, if_pos hvenue, List.append_assoc, List.singleton_append]
    · rw [List.filter_cons, if_neg hvenue, if_neg hvenue]

/-- The list of the boards of a venue, if all pages are read. -/
theorem doGetList_venue {forVenue : Str} (hvenue : forVenue ≠ [])
    (hpages : ∀ offset, works (.page offset) = true) (query : Rest.QueryBlock) :
    doGetList L works records forVenue query =
      .boards (((boards L records).filter fun b => b.venueList.any fun v => v.id == forVenue).map
        BoardInfo.toJson) := by
  have hreadable : (pages L works records).Readable fun _ => true :=
    ⟨hpages, fun _ _ => rfl⟩
  have hrecords : (pages L works records).records (fun _ => true) = boards L records := by
    show (records.filter fun _ => true).filterMap (fun r => some (r.toBoard L)) = _
    rw [List.filter_true, List.filterMap_eq_map']
    rfl
  rw [doGetList, if_pos hvenue, ORM.DB.iterate, Pager.iterate_eq_visit, hreadable.visited_eq,
    hrecords, visit_collect, List.nil_append]

/-- The boards with these ids, if they are read. -/
theorem returnRecordList_eq (hreads : works .getRecord = true) (select : List Str) :
    returnRecordList L works records select =
      match select.mapM (known L records) with
      | some ds => .boards ds
      | none => .badRequest Errors.unknownId [] := by
  have hmapM : select.mapM (known L records) =
      (select.mapM (BoardTable.getRecord L records)).map (List.map BoardInfo.toJson) := by
    induction select with
    | nil => rfl
    | cons id rest ih =>
      rw [List.mapM_cons, List.mapM_cons, ih, known]
      cases BoardTable.getRecord L records id with
      | none => rfl
      | some b => cases rest.mapM (BoardTable.getRecord L records) <;> rfl
  have hget : getRecord L works .getRecord records = BoardTable.getRecord L records := by
    funext id
    rw [getRecord, if_pos hreads]
  rw [returnRecordList, hget, hmapM]
  cases select.mapM (BoardTable.getRecord L records) <;> rfl

/-- Whatever is asked and whichever statements fail, as long as a board that was written is read
    back and no deletion fails unnoticed: afterwards each board is read, alone and among others,
    as it was last answered to whoever wrote it, and the list of a venue shows the boards that
    were last answered with it, each once. -/
theorem reads_last_answer (L : JsonLibrary F) (script : Script F)
    (hcareful : ∀ e ∈ script, Careful e.1 e.2) (works : Statement → Bool)
    (hreads : works .getRecord = true) (hpages : ∀ offset, works (.page offset) = true)
    (query : Rest.QueryBlock) :
    let transcript := (run L [] script).1
    let records := (run L [] script).2
    let last := told (fun _ => none) transcript
    (∀ id ≠ [], (handle L works records (.get id)).1 =
      match last id with
      | some d => .object d
      | none => .notFound) ∧
    (query.select ≠ [] → (handle L works records (.list [] query)).1 =
      match query.select.mapM last with
      | some ds => .boards ds
      | none => .badRequest Errors.unknownId []) ∧
    ∀ venue ≠ [], ∃ ds, (handle L works records (.list venue query)).1 = .boards ds ∧
      (ds.map idOf).Nodup ∧
      ∀ d, d ∈ ds ↔ ∃ id, last id = some d ∧ venue ∈ venuesOf d := by
  intro transcript records last
  have hknown : known L records = last := known_run [] hcareful
  have hkeyed : Keyed records := keyed_run L script List.nodup_nil
  refine ⟨?_, ?_, ?_⟩
  · intro id hid
    show doGet L works records id = _
    rw [doGet, if_neg (by simpa using hid), getRecord, if_pos hreads, ← hknown, known]
    cases BoardTable.getRecord L records id <;> rfl
  · intro hselect
    show doGetList L works records [] query = _
    rw [doGetList, if_neg (not_not.mpr rfl), listHandler, if_pos hselect,
      returnRecordList_eq hreads, hknown]
  · intro venue hvenue
    refine ⟨_, doGetList_venue hvenue hpages query, ?_, fun d => ?_⟩
    · -- the ids are those of the records
      rw [List.map_map]
      have hids : ∀ bs : List BoardInfo,
          bs.map (idOf ∘ BoardInfo.toJson (F := F)) = (bs.map fun b => b.info.id).map some := by
        intro bs
        rw [List.map_map]
        exact List.map_congr_left fun b _ => idOf_toJson b
      rw [hids]
      apply List.Nodup.map (Option.some_injective _)
      refine List.Nodup.sublist (List.filter_sublist.map _) ?_
      rw [boards, List.map_map]
      exact hkeyed
    · constructor
      · intro hd
        obtain ⟨b, hb, rfl⟩ := List.mem_map.mp hd
        obtain ⟨hmem, hany⟩ := List.mem_filter.mp hb
        refine ⟨b.info.id, ?_, ?_⟩
        · rw [← hknown, known, (mem_boards_iff hkeyed).mp hmem, Option.map_some]
        · obtain ⟨v, hv, hsame⟩ := List.any_eq_true.mp hany
          rw [venuesOf_toJson, ← beq_iff_eq.mp hsame]
          exact List.mem_map_of_mem hv
      · rintro ⟨id, hlast, hmem⟩
        rw [← hknown, known] at hlast
        obtain ⟨b, hb, rfl⟩ := Option.map_eq_some_iff.mp hlast
        rw [venuesOf_toJson] at hmem
        obtain ⟨v, hv, hsame⟩ := List.mem_map.mp hmem
        apply List.mem_map_of_mem
        refine List.mem_filter.mpr ⟨?_, List.any_eq_true.mpr ⟨v, hv, beq_iff_eq.mpr hsame⟩⟩
        rw [mem_boards_iff hkeyed, id_of_getRecord hb]
        exact hb

/-- A board is created, an update of it fails, and another one is deleted. -/
def threeRequests : Script Int64 :=
  [(fun _ => true, .post ['n'] (some (BoardInfo.toJson
      { info := { name := ['a'] }, venueList := [{ id := ['v'] }] })) ['u'] 5 ['b']),
    (fun | .updateRecord => false | _ => true, .put ['b'] (some (.obj [])) ['u'] 6),
    (fun _ => true, .delete ['c'])]

theorem reads_last_answer_threeRequests :
    (handle JsonText.library (fun _ => true) (run JsonText.library [] threeRequests).2
        (.get ['b'])).1 =
      match told (fun _ => none) (run JsonText.library [] threeRequests).1 ['b'] with
      | some d => .object d
      | none => .notFound := by
  have hcareful : ∀ e ∈ threeRequests, Careful e.1 e.2 := by
    simp [threeRequests, Careful]
  exact (reads_last_answer JsonText.library threeRequests hcareful (fun _ => true) rfl
    (fun _ => rfl) {}).1 ['b'] (by decide)

end BoardHandler

end OwAnalytics.Boards
