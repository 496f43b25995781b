/-
  OwAnalytics.Venue.Provisioning

  What `SDK::Prov::Venue::GetDevices` makes of an answer of the provisioning service,
  and what the coordinator makes of that: `GetDevicesForBoard`, `StartBoard` and
  `UpdateBoard` with the tables a retired board is deleted from.  Of the three
  outcomes (a list, the venue is gone, no answer) the SDK gives the second back as an
  empty list.
-/

import OwAnalytics.Lib.Readers
import OwAnalytics.Venue.Coordinator
import OwAnalytics.Venue.Messages

namespace OwAnalytics.Venue

open Transitions AnalyticsObjects SortedMerge

/-! ## The SDK -/

/-- What `OpenAPIRequestGet::Do` comes back with: the status, and the document of a body. -/
structure HttpAnswer where
  status : Nat
  body : Json := .obj []

/-- `Var::toString()`: an empty value throws.  The text of a value that is not a string is the
    library's, or an exception. -/
def varToString (text : Json → Option Str) : Json → Option Str
  | .str s => some s
  | .null => none
  | j => text j

/-- `field_from_json` of a string, when its value does not matter: whether it throws. -/
def readsString (text : Json → Option Str) (body : Json) (field : String) : Option Unit :=
  match body.find? field with
  | none | some .null => some ()
  | some j => (varToString text j).map fun _ => ()

/-- `VenueDeviceList::from_json`, for its `devices`; `none` where it returns false. -/
def venueDeviceListFromJson (text : Json → Option Str) (body : Json) : Option (List Str) := do
  readsString text body "id"
  readsString text body "name"
  readsString text body "description"
  match body.find? "devices" with
  | some (.arr items) => items.mapM (varToString text)
  | _ => some []

/-- What `GetDevices` gives back: its result, `DeviceList.devices` and `VenueExists`. -/
structure DevicesAnswer where
  result : Bool
  devices : List Str := []
  venueExists : Bool := true
deriving DecidableEq

/-- `SDK::Prov::Venue::GetDevices`. -/
def getDevices (text : Json → Option Str) (http : HttpAnswer) : DevicesAnswer :=
  if http.status = 200 then
    match venueDeviceListFromJson text http.body with
    | some devices => { result := true, devices }
    | none => { result := false }
  else if http.status = 404 then { result := true, venueExists := false }
  else { result := false }

/-- A 404 comes back as a success without devices. -/
theorem getDevices_notFound {text : Json → Option Str} {http : HttpAnswer}
    (h : http.status = 404) :
    getDevices text http = { result := true, devices := [], venueExists := false } := by
  rw [getDevices, h]
  rfl

/-- A failure comes without devices and never says that the venue is gone. -/
theorem getDevices_failure {text : Json → Option Str} {http : HttpAnswer}
    (h : (getDevices text http).result = false) : getDevices text http = { result := false } := by
  unfold getDevices at h ⊢
  by_cases h200 : http.status = 200
  · rw [if_pos h200] at h ⊢
    cases hdevices : venueDeviceListFromJson text http.body with
    | none => rfl
    | some devices => simp [hdevices] at h
  · rw [if_neg h200] at h ⊢
    split
    · rename_i h404
      rw [if_pos h404] at h
      cases h
    · rfl

/-! ## The coordinator and the tables -/

/-- The coordinator, with the boards, the `boardId` of each time point and the `board_id` of each
    availability event that are stored. -/
structure Service where
  coordinator : VenueCoordinator := {}
  boards : List BoardInfo := []
  timePoints : List Str := []
  events : List Str := []

namespace Service

/-- `RetireBoard`, its deletions succeeding. -/
def retireBoard (s : Service) (b : BoardInfo) : Service where
  coordinator := s.coordinator.retireBoard b
  boards := s.boards.filter fun x => x.info.id != b.info.id
  timePoints := s.timePoints.filter fun boardId => boardId != b.info.id
  events := s.events.filter fun boardId => boardId != b.info.id

/-- `GetDevicesForBoard`: the devices, if there are any to work with; `none` for an exception,
    which `SerialNumberToInt` throws. -/
def getDevicesForBoard (s : Service) (b : BoardInfo) (answer : DevicesAnswer) :
    Option (Option (List Serial) × Service) :=
  if answer.result then
    (answer.devices.mapM serialNumberToInt).map fun devices => (some (sortUnique devices), s)
  else if !answer.venueExists then some (none, s.retireBoard b)
  else some (none, s)

/-- `StartBoard`. -/
def startBoard (s : Service) (b : BoardInfo) (answer : DevicesAnswer) (this : WatcherPtr) :
    Option (Bool × Service) :=
  if b.venueList.isEmpty then some (true, s)
  else
    (s.getDevicesForBoard b answer).map fun
      | (some devices, s) =>
          (true, { s with coordinator := s.coordinator.startWatcher b devices this })
      | (none, s) => (false, if !answer.venueExists then s.retireBoard b else s)

/-- `GetRecord` of `BoardsDB`, by the id. -/
def getRecord (s : Service) (id : Str) : Option BoardInfo :=
  s.boards.find? fun b => b.info.id == id

/-- `UpdateBoard`; `found` says whether the database answers. -/
def updateBoard (s : Service) (id : Str) (found : Bool) (answer : DevicesAnswer) :
    Option Service :=
  match if found then s.getRecord id else none with
  | none => some s
  | some b =>
      (s.getDevicesForBoard b answer).map fun
        | (some devices, s) => { s with coordinator := s.coordinator.updateWatcher id devices }
        | (none, s) => if !answer.venueExists then s.retireBoard b else s

end Service

/-! ## The coordinator's own steps -/

/-- The answer as the coordinator's steps take it, the serial numbers as integers. -/
def DevicesAnswer.toProv (answer : DevicesAnswer) : Option Prov :=
  if answer.result then
    (answer.devices.mapM serialNumberToInt).map fun devices _ _ =>
      { success := true, devices, venueExists := answer.venueExists }
  else some fun _ _ => { success := false, venueExists := answer.venueExists }

namespace Service

variable {s : Service} {b : BoardInfo} {answer : DevicesAnswer}

theorem getDevicesForBoard_coordinator {prov : Prov} (hprov : answer.toProv = some prov) :
    ∃ devices venueExists t, s.getDevicesForBoard b answer = some (devices, t) ∧
      venueExists = answer.venueExists ∧
      s.coordinator.getDevicesForBoard b prov = (devices, venueExists, t.coordinator) := by
  unfold DevicesAnswer.toProv at hprov
  unfold getDevicesForBoard
  split at hprov
  · rename_i hresult
    obtain ⟨devices, hdevices, rfl⟩ := Option.map_eq_some_iff.mp hprov
    refine ⟨some (sortUnique devices), answer.venueExists, s, ?_, rfl, ?_⟩
    · rw [if_pos hresult, hdevices]
      rfl
    · simp [VenueCoordinator.getDevicesForBoard]
  · rename_i hresult
    obtain rfl := Option.some.inj hprov
    -- a venue that is gone has the board retired on the way
    cases he : answer.venueExists with
    | false =>
        refine ⟨none, false, s.retireBoard b, by simp [hresult], rfl, ?_⟩
        simp [VenueCoordinator.getDevicesForBoard, retireBoard]
    | true =>
        refine ⟨none, true, s, by simp [hresult], rfl, ?_⟩
        simp [VenueCoordinator.getDevicesForBoard]

/-- Where nothing is thrown, `StartBoard` is the coordinator's step of that name. -/
theorem startBoard_coordinator {prov : Prov} (hprov : answer.toProv = some prov)
    (this : WatcherPtr) :
    (s.startBoard b answer this).map (fun r => (r.1, r.2.coordinator))
      = some (s.coordinator.startBoard b prov this) := by
  obtain ⟨devices, venueExists, t, hget, hexists, hcoordinator⟩ :=
    getDevicesForBoard_coordinator (s := s) (b := b) hprov
  unfold startBoard VenueCoordinator.startBoard
  split
  · rfl
  · rw [hget, hcoordinator]
    cases devices with
    | some devices => rfl
    | none =>
        subst hexists
        cases answer.venueExists <;> rfl

/-- So is `UpdateBoard`, with the record of the table. -/
theorem updateBoard_coordinator {prov : Prov} (hprov : answer.toProv = some prov) (id : Str)
    (found : Bool) :
    (s.updateBoard id found answer).map coordinator
      = some (s.coordinator.updateBoard id (if found then s.getRecord id else none) prov) := by
  unfold updateBoard VenueCoordinator.updateBoard
  cases (if found then s.getRecord id else none) with
  | none => rfl
  | some b =>
      obtain ⟨devices, venueExists, t, hget, hexists, hcoordinator⟩ :=
        getDevicesForBoard_coordinator (s := s) (b := b) hprov
      simp only [hget, hcoordinator, Option.map_some]
      cases devices with
      | some devices => rfl
      | none =>
          subst hexists
          cases answer.venueExists <;> rfl

end Service

end OwAnalytics.Venue
