/-
  OwAnalytics.Venue.BoardRequests

  The life of a board across threads: `RESTAPI_board_handler::DoPost` and `DoDelete`,
  the sweeps of `VenueCoordinator::run`, the reconcile timer and the workers of the
  watchers.  A step is one access to the database, or one stretch under the
  coordinator's mutex, which a sweep and the timer keep from their first to their
  last board.  Whether a database call succeeds is part of the label.
-/

import OwAnalytics.Venue.Coordinator

namespace OwAnalytics.Venue.BoardRequests

open Transitions AnalyticsObjects

/-! ## Helpers of the handler -/

/-- `HasExactlyOneVenue`. -/
def hasExactlyOneVenue (board : BoardInfo) : Bool :=
  board.venueList.length == 1 && !(firstVenue board).id.isEmpty

/-- `ProvObjects::CreateObjectInfo`, as far as the id goes: without a name it returns before it sets
    the id, and the handler does not look at the result. -/
def createObjectInfo (info : ProvObjects.ObjectInfo) (uuid : Str) : ProvObjects.ObjectInfo :=
  if info.name.isEmpty then info else { info with id := uuid }

/-- `BoardsToWatch_.insert`: the set is ordered by the ids and keeps what it has. -/
def insertBoard (b : BoardInfo) : List BoardInfo → List BoardInfo
  | [] => [b]
  | x :: rest =>
      if b.info.id < x.info.id then b :: x :: rest
      else if b.info.id = x.info.id then x :: rest
      else x :: insertBoard b rest

/-! ## Threads -/

/-- The database calls of `RetireBoard`, after its `StopBoard`. -/
inductive RetireStep
  | boards
  | timePoints
  | events

/-- What the holder of the coordinator's mutex still has to do. -/
inductive Task
  /-- `run`: the boards of `BoardsToWatch_` it has not looked at. -/
  | sweep (todo : List BoardInfo)
  /-- `onReconcileTimer`: the watchers it has not updated. -/
  | reconcile (todo : List Str)

/-- Who has the coordinator's mutex. -/
inductive Holder
  | free
  /-- `run` is in `GetBoardList`, which reads the table in batches. -/
  | listing (offset : Nat)
  | working (task : Task)
  | retiring (id : Str) (steps : List RetireStep) (task : Task)

/-- A request, before the step of that name. -/
inductive Request
  | idle
  | getRecord (id : Str)
  | stopBoard (id : Str)
  | deleteRecord (id : Str)
  | deleteTimePoints (id : Str)
  | deleteEvents (id : Str)
  | findBoardsByVenue (b : BoardInfo)
  | createRecord (b : BoardInfo)
  | addBoard (id : Str)

/-- The tables, the coordinator and the requests under way. -/
structure State where
  boards : List BoardInfo := []
  /-- The `boardId` of each time point that is stored. -/
  timePoints : List Str := []
  /-- The `board_id` of each availability event that is stored. -/
  events : List Str := []
  coordinator : VenueCoordinator := {}
  boardsToWatch : List BoardInfo := []
  holder : Holder := .free
  /-- The request that has `BoardCreateMutex`. -/
  createMutex : Option Nat := none
  requests : Nat → Request := fun _ => .idle
  /-- The boards of the `DoDelete`s that have answered `OK`. -/
  deleted : List Str := []

/-- What the coordinator's thread or a request does next. -/
inductive Label
  /-- `run` wakes up and locks the mutex. -/
  | wake
  | getBoardList (ok : Bool)
  /-- `run` looks at its next board, or is through with all of them. -/
  | sweep (prov : Prov) (gone : Bool) (this : WatcherPtr)
  /-- The timer locks the mutex. -/
  | timer
  | reconcile (ok : Bool) (prov : Prov)
  | retire (ok : Bool)
  | doDelete (n : Nat) (id : Str)
  | doPost (n : Nat) (body : BoardInfo) (uuid : Str)
  /-- A request goes on. -/
  | request (n : Nat) (ok : Bool)
  /-- The worker of a board's watcher stores a time point or an availability event. -/
  | storeTimePoint (id : Str)
  | storeEvent (id : Str)

namespace State

/-- `GetRecord` of `BoardsDB`, by the id. -/
def getRecord (s : State) (id : Str) : Option BoardInfo :=
  s.boards.find? fun b => b.info.id == id

/-- A request gets on to another point. -/
def setRequest (s : State) (n : Nat) (r : Request) : State :=
  { s with requests := Function.update s.requests n r }

/-- The row of the board is deleted. -/
def deleteBoard (s : State) (id : Str) : State :=
  { s with boards := s.boards.filter fun b => b.info.id != id }

/-- The time points of the board are deleted. -/
def deleteTimePoints (s : State) (id : Str) : State :=
  { s with timePoints := s.timePoints.filter fun boardId => boardId != id }

/-- The availability events of the board are deleted. -/
def deleteEvents (s : State) (id : Str) : State :=
  { s with events := s.events.filter fun boardId => boardId != id }

/-- `GetRecords(Offset, Batch)`. -/
def batch (s : State) (offset : Nat) : List BoardInfo := (s.boards.drop offset).take 50

/-- `BoardsToWatch_`, a batch of records having been inserted. -/
def listed (s : State) (offset : Nat) : List BoardInfo :=
  (s.batch offset).foldl (fun l b => insertBoard b l) s.boardsToWatch

/-- The deletions of `RetireBoard`, in the source's order. -/
def retireSteps : List RetireStep := [.boards, .timePoints, .events]

/-- After `StartBoard` or `UpdateBoard` has asked for the devices of a board: a venue that is gone
    has the board retired, once in `GetDevicesForBoard` and once by its caller. -/
def afterDevices (b : BoardInfo) (prov : Prov) (task : Task) : Holder :=
  let answer := prov (firstVenue b).id (firstVenue b).monitorSubVenues
  if !answer.success && !answer.venueExists then
    .retiring b.info.id (retireSteps ++ retireSteps) task
  else .working task

/-! ## Steps of the coordinator -/

/-- `GetBoardList`: a page of fifty boards at a time, and a page that cannot be read ends it. -/
def stepGetBoardList (s : State) (ok : Bool) : Option State :=
  match s.holder with
  | .listing offset =>
      if ok then
        if (s.batch offset).length < 50 then
          some { s with
            boardsToWatch := s.listed offset
            holder := .working (.sweep (s.listed offset)) }
        else some { s with boardsToWatch := s.listed offset, holder := .listing (offset + 50) }
      else some { s with holder := .working (.sweep s.boardsToWatch) }
  | _ => none

/-- The loop of `run` over the boards to watch. -/
def stepSweep (s : State) (prov : Prov) (gone : Bool) (this : WatcherPtr) : Option State :=
  match s.holder with
  | .working (.sweep []) => some { s with holder := .free }
  | .working (.sweep (b :: todo)) =>
      if !s.coordinator.watching b.info.id then do
        let coordinator ← s.coordinator.step (.startBoard b prov this)
        pure { s with
          coordinator
          holder :=
            if b.venueList.isEmpty then .working (.sweep todo)
            else afterDevices b prov (.sweep todo) }
      else if gone then do
        let coordinator ← s.coordinator.step (.retireBoard b)
        pure { s with coordinator, holder := .retiring b.info.id retireSteps (.sweep todo) }
      else some { s with holder := .working (.sweep todo) }
  | _ => none

/-- The loop of `onReconcileTimer` over the boards that are watched. -/
def stepReconcile (s : State) (ok : Bool) (prov : Prov) : Option State :=
  match s.holder with
  | .working (.reconcile []) => some { s with holder := .free }
  | .working (.reconcile (id :: todo)) => do
      let record := if ok then s.getRecord id else none
      let coordinator ← s.coordinator.step (.updateBoard id record prov)
      pure { s with
        coordinator
        holder :=
          match record with
          | some b => afterDevices b prov (.reconcile todo)
          | none => .working (.reconcile todo) }
  | _ => none

/-- A deletion of `RetireBoard`, which may fail and is not looked at. -/
def stepRetire (s : State) (ok : Bool) : Option State :=
  match s.holder with
  | .retiring _ [] task => some { s with holder := .working task }
  | .retiring id (step :: steps) task =>
      let s := { s with holder := .retiring id steps task }
      if ok then
        match step with
        | .boards => some (s.deleteBoard id)
        | .timePoints => some (s.deleteTimePoints id)
        | .events => some (s.deleteEvents id)
      else some s
  | _ => none

/-! ## Steps of the requests -/

/-- A request goes on; `DoDelete` ignores whether its database calls succeed. -/
def stepRequest (s : State) (n : Nat) (ok : Bool) : Option State :=
  match s.requests n with
  | .idle => none
  | .getRecord id =>
      if ok && (s.getRecord id).isSome then some (s.setRequest n (.stopBoard id))
      else some (s.setRequest n .idle)
  | .stopBoard id =>
      match s.holder with
      | .free => do
          let coordinator ← s.coordinator.step (.stopBoard id)
          pure ({ s with coordinator }.setRequest n (.deleteRecord id))
      | _ => none
  | .deleteRecord id =>
      some ((if ok then s.deleteBoard id else s).setRequest n (.deleteTimePoints id))
  | .deleteTimePoints id =>
      some ((if ok then s.deleteTimePoints id else s).setRequest n (.deleteEvents id))
  | .deleteEvents id =>
      some ({ (if ok then s.deleteEvents id else s) with deleted := id :: s.deleted }.setRequest n
        .idle)
  | .findBoardsByVenue b =>
      if s.createMutex.isSome then none
      else if !ok || s.boards.any fun x => (firstVenue x).id == (firstVenue b).id then
        some (s.setRequest n .idle)
      else some ({ s with createMutex := some n }.setRequest n (.createRecord b))
  | .createRecord b =>
      if ok && (s.getRecord b.info.id).isNone then
        some ({ s with createMutex := none, boards := s.boards ++ [b] }.setRequest n
          (.addBoard b.info.id))
      else some ({ s with createMutex := none }.setRequest n .idle)
  | .addBoard id =>
      match s.holder with
      | .free =>
          let boardsToWatch :=
            match if ok then s.getRecord id else none with
            | some b => insertBoard b s.boardsToWatch
            | none => s.boardsToWatch
          some ({ s with boardsToWatch }.setRequest n .idle)
      | _ => none

/-- A step of the coordinator's thread or of a request, if it is enabled. -/
def step (s : State) : Label → Option State
  | .wake =>
      match s.holder with
      | .free => some { s with holder := .listing 0, boardsToWatch := [] }
      | _ => none
  | .getBoardList ok => s.stepGetBoardList ok
  | .sweep prov gone this => s.stepSweep prov gone this
  | .timer =>
      match s.holder with
      | .free => some { s with holder := .working (.reconcile s.coordinator.watchers.keys) }
      | _ => none
  | .reconcile ok prov => s.stepReconcile ok prov
  | .retire ok => s.stepRetire ok
  | .doDelete n id =>
      match s.requests n with
      | .idle => if id.isEmpty then none else some (s.setRequest n (.getRecord id))
      | _ => none
  | .doPost n body uuid =>
      match s.requests n with
      | .idle =>
          if hasExactlyOneVenue body then
            some (s.setRequest n
              (.findBoardsByVenue { body with info := createObjectInfo body.info uuid }))
          else none
      | _ => none
  | .request n ok => s.stepRequest n ok
  | .storeTimePoint id =>
      match s.coordinator.watchers[id]? with
      | some w => some { s with timePoints := s.timePoints ++ [w.boardId] }
      | none => none
  | .storeEvent id =>
      match s.coordinator.watchers[id]? with
      | some w => some { s with events := s.events ++ [w.boardId] }
      | none => none

end State

/-- The service starts on any tables. -/
def system : System State Label where
  init s := ∃ boards timePoints events, s = { boards, timePoints, events }
  step s a s' := s.step a = some s'

end OwAnalytics.Venue.BoardRequests
