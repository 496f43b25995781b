/-
  OwAnalytics.Venue.VanishedVenue

  What the coordinator does about a venue the provisioning service does not know.
  `GetDevices` reports a 404 as a success without devices, so that the retire
  branches of `GetDevicesForBoard`, `StartBoard` and `UpdateBoard` are never taken.
  An answer that is no list of devices may pass for an empty one as well.
-/

import OwAnalytics.Venue.Provisioning

namespace OwAnalytics.Venue

open Transitions AnalyticsObjects Readers

/-! ## The answers that are failures -/

/-- The texts `from_json` reads before the devices can be read. -/
def ReadableHead (text : Json → Option Str) (body : Json) : Prop :=
  ∀ field ∈ ["id", "name", "description"], (readsString text body field).isSome = true

/-- A list of devices: an array of texts, in a body that can be read up to it. -/
structure ListsDevices (text : Json → Option Str) (http : HttpAnswer) : Prop where
  status : http.status = 200
  head : ReadableHead text http.body
  devices : ∃ items, http.body.find? "devices" = some (.arr items) ∧
    ∀ item ∈ items, (varToString text item).isSome = true

/-- A venue with nothing where its devices should be, or something else than an array. -/
structure LacksList (text : Json → Option Str) (http : HttpAnswer) : Prop where
  status : http.status = 200
  head : ReadableHead text http.body
  devices : ∀ items, http.body.find? "devices" ≠ some (.arr items)

/-- Any other failure than a venue that is gone: no list of devices has been got. -/
def Unavailable (text : Json → Option Str) (http : HttpAnswer) : Prop :=
  http.status ≠ 404 ∧ ¬ ListsDevices text http

/-- A board whose venue is gone is retired by `StartBoard`, where `run` calls it, and by
    `UpdateBoard`, where the board is stored; any other failure changes nothing. -/
structure RetiresVanished (text : Json → Option Str) (s : Service) (b : BoardInfo)
    (http : HttpAnswer) (this : WatcherPtr) : Prop where
  start : http.status = 404 → s.coordinator.watching b.info.id = false →
    ∃ ok, s.startBoard b (getDevices text http) this = some (ok, s.retireBoard b)
  update : http.status = 404 → s.getRecord b.info.id = some b →
    s.updateBoard b.info.id true (getDevices text http) = some (s.retireBoard b)
  startUnavailable : Unavailable text http → s.coordinator.watching b.info.id = false →
    ∃ ok, s.startBoard b (getDevices text http) this = some (ok, s)
  updateUnavailable : Unavailable text http → ∀ found,
    s.updateBoard b.info.id found (getDevices text http) = some s

/-- The board has a venue, and one of the two asks for its devices. -/
def Asks (s : Service) (b : BoardInfo) : Prop :=
  b.venueList ≠ [] ∧
    (s.coordinator.watching b.info.id = false ∨ s.getRecord b.info.id = some b)

variable {text : Json → Option Str} {s : Service} {b : BoardInfo} {http : HttpAnswer}
  {this : WatcherPtr}

/-! ## What becomes of a failure -/

theorem readableHead_iff {body : Json} :
    ReadableHead text body ↔ (readsString text body "id").isSome = true ∧
      (readsString text body "name").isSome = true ∧
      (readsString text body "description").isSome = true := by
  simp [ReadableHead]

/-- A body that can be read up to its devices goes by these. -/
theorem venueDeviceListFromJson_of_head {body : Json} (h : ReadableHead text body) :
    venueDeviceListFromJson text body =
      match body.find? "devices" with
      | some (.arr items) => items.mapM (varToString text)
      | _ => some [] := by
  obtain ⟨hid, hname, hdescription⟩ := readableHead_iff.mp h
  obtain ⟨_, hid⟩ := Option.isSome_iff_exists.mp hid
  obtain ⟨_, hname⟩ := Option.isSome_iff_exists.mp hname
  obtain ⟨_, hdescription⟩ := Option.isSome_iff_exists.mp hdescription
  rw [venueDeviceListFromJson, hid, hname, hdescription]
  rfl

/-- A body that cannot is no answer. -/
theorem venueDeviceListFromJson_of_not_head {body : Json} (h : ¬ ReadableHead text body) :
    venueDeviceListFromJson text body = none := by
  rw [readableHead_iff] at h
  rw [venueDeviceListFromJson]
  cases hid : readsString text body "id" with
  | none => rfl
  | some _ =>
      cases hname : readsString text body "name" with
      | none => rfl
      | some _ =>
          cases hdescription : readsString text body "description" with
          | none => rfl
          | some _ => simp [hid, hname, hdescription] at h

/-- A venue that lacks its devices has none. -/
theorem LacksList.getDevices_eq (h : LacksList text http) :
    getDevices text http = { result := true, devices := [] } := by
  have hlist : venueDeviceListFromJson text http.body = some [] := by
    rw [venueDeviceListFromJson_of_head h.head]
    split
    · rename_i items hitems
      exact absurd hitems (h.devices items)
    · rfl
  rw [getDevices, if_pos h.status, hlist]

/-- Any other answer without a list is none to work with. -/
theorem getDevices_failed (h : Unavailable text http) (hlacks : ¬ LacksList text http) :
    getDevices text http = { result := false } := by
  obtain ⟨h404, hlists⟩ := h
  by_cases h200 : http.status = 200
  · have hnone : venueDeviceListFromJson text http.body = none := by
      by_cases hhead : ReadableHead text http.body
      · rw [venueDeviceListFromJson_of_head hhead]
        split
        · -- Some item does not convert, or it would be a list.
          rename_i items hitems
          rw [← Option.not_isSome_iff_eq_none, isSome_mapM]
          exact fun hall => hlists ⟨h200, hhead, items, hitems, hall⟩
        · rename_i hdevices
          exact absurd ⟨h200, hhead, hdevices⟩ hlacks
      · exact venueDeviceListFromJson_of_not_head hhead
    rw [getDevices, if_pos h200, hnone]
  · rw [getDevices, if_neg h200, if_neg h404]

/-- A venue that lacks its devices is no list of devices, and not gone. -/
theorem LacksList.unavailable (h : LacksList text http) : Unavailable text http := by
  refine ⟨fun h404 => ?_, fun hlists => ?_⟩
  · rw [h.status] at h404
    cases h404
  · obtain ⟨items, hitems, -⟩ := hlists.devices
    exact h.devices items hitems

theorem startBoard_failed (h : getDevices text http = { result := false }) :
    ∃ ok, s.startBoard b (getDevices text http) this = some (ok, s) := by
  rw [h]
  by_cases hvenue : b.venueList.isEmpty
  · exact ⟨true, by simp [Service.startBoard, hvenue]⟩
  · exact ⟨false, by simp [Service.startBoard, Service.getDevicesForBoard, hvenue]⟩

theorem updateBoard_failed (h : getDevices text http = { result := false }) (id : Str)
    (found : Bool) : s.updateBoard id found (getDevices text http) = some s := by
  rw [h]
  unfold Service.updateBoard
  cases (if found then s.getRecord id else none) with
  | none => rfl
  | some b => rfl

/-! ## What becomes of an empty list -/

/-- What a venue that is gone and one that lacks its devices come back as. -/
structure Emptied (text : Json → Option Str) (http : HttpAnswer) : Prop where
  result : (getDevices text http).result = true
  devices : (getDevices text http).devices = []

theorem emptied_notFound (h : http.status = 404) : Emptied text http := by
  refine ⟨?_, ?_⟩ <;> rw [getDevices_notFound h]

theorem LacksList.emptied (h : LacksList text http) : Emptied text http := by
  refine ⟨?_, ?_⟩ <;> rw [h.getDevices_eq]

theorem getDevicesForBoard_emptied (h : Emptied text http) (s : Service) (b : BoardInfo) :
    s.getDevicesForBoard b (getDevices text http) = some (some [], s) := by
  rw [Service.getDevicesForBoard, if_pos h.result, h.devices]
  rfl

/-- `StartBoard` makes a watcher without devices. -/
theorem startBoard_emptied (h : Emptied text http) (hvenue : b.venueList ≠ []) :
    s.startBoard b (getDevices text http) this
      = some (true, { s with coordinator := s.coordinator.startWatcher b [] this }) := by
  have hempty : b.venueList.isEmpty = false := by simpa using hvenue
  simp only [Service.startBoard, hempty, Bool.false_eq_true, if_false,
    getDevicesForBoard_emptied h, Option.map_some]

/-- `UpdateBoard` takes all devices from the watcher. -/
theorem updateBoard_emptied (h : Emptied text http) {b' : BoardInfo}
    (hrecord : s.getRecord b.info.id = some b') :
    s.updateBoard b.info.id true (getDevices text http)
      = some { s with coordinator := s.coordinator.updateWatcher b.info.id [] } := by
  simp only [Service.updateBoard, if_true, hrecord, getDevicesForBoard_emptied h, Option.map_some]

/-- The new watcher makes the board a watched one. -/
theorem watching_startWatcher (c : VenueCoordinator) (b : BoardInfo) (devices : List Serial)
    (this : WatcherPtr) : (c.startWatcher b devices this).watching b.info.id = true := by
  show ((c.existingBoards.insert b.info.id devices)[b.info.id]?).isSome = true
  rw [Std.ExtTreeMap.getElem?_insert_self]
  rfl

/-- The list of a watched board stays as it is only where it is empty already. -/
theorem updateWatcher_nil_eq_iff {c : VenueCoordinator} {id : Str}
    (hwatching : c.watching id = true) :
    c.updateWatcher id [] = c ↔ c.existingBoards[id]? = some [] := by
  obtain ⟨existing, hexisting⟩ := Option.isSome_iff_exists.mp hwatching
  refine ⟨?_, ?_⟩
  · intro hsame
    by_cases hnil : existing = []
    · rw [hexisting, hnil]
    · have hinserted : (c.updateWatcher id []).existingBoards[id]? = some [] := by
        rw [VenueCoordinator.updateWatcher, hexisting]
        simp only [ne_eq, hnil, not_false_eq_true, if_true]
        split <;> exact Std.ExtTreeMap.getElem?_insert_self
      rwa [hsame] at hinserted
  · intro hnil
    rw [VenueCoordinator.updateWatcher, hnil]
    simp

/-! ## When a board is retired or left alone -/

/-- Neither retires the board of a venue that is gone. -/
theorem not_retiresVanished (hasks : Asks s b) (h : http.status = 404) :
    ¬ RetiresVanished text s b http this := by
  intro hretires
  obtain ⟨hvenue, hwatching | hrecord⟩ := hasks
  · obtain ⟨ok, hstart⟩ := hretires.start h hwatching
    rw [startBoard_emptied (emptied_notFound h) hvenue] at hstart
    have hcoordinator : s.coordinator.startWatcher b [] this = s.coordinator.stopBoard b.info.id :=
      congrArg (fun r => r.2.coordinator) (Option.some.inj hstart)
    -- The board has a watcher on the one side only: `StopBoard` never adds an entry.
    have hknown := watching_startWatcher s.coordinator b [] this
    rw [hcoordinator] at hknown
    have hsame : (s.coordinator.stopBoard b.info.id).watching b.info.id
        = s.coordinator.watching b.info.id := by
      unfold VenueCoordinator.stopBoard
      split <;> rfl
    rw [hsame, hwatching] at hknown
    cases hknown
  · have hupdate := hretires.update h hrecord
    rw [updateBoard_emptied (emptied_notFound h) hrecord] at hupdate
    have hboards := congrArg Service.boards (Option.some.inj hupdate)
    change s.boards = (s.retireBoard b).boards at hboards
    -- The record is still there.
    have hmem : b ∈ s.boards := List.mem_of_find?_eq_some hrecord
    rw [hboards] at hmem
    have hne := (List.mem_filter.mp hmem).2
    simp at hne

/-- A venue that lacks its devices leaves a board alone iff it is watched without devices. -/
theorem existing_nil_of_lacksList (hasks : Asks s b) (h : LacksList text http)
    (hretires : RetiresVanished text s b http this) :
    s.coordinator.existingBoards[b.info.id]? = some [] := by
  obtain ⟨hvenue, hasked⟩ := hasks
  cases hwatching : s.coordinator.watching b.info.id with
  | false =>
      obtain ⟨ok, hstart⟩ := hretires.startUnavailable h.unavailable hwatching
      rw [startBoard_emptied h.emptied hvenue] at hstart
      have hcoordinator : s.coordinator.startWatcher b [] this = s.coordinator :=
        congrArg (fun r => r.2.coordinator) (Option.some.inj hstart)
      have hknown := watching_startWatcher s.coordinator b [] this
      rw [hcoordinator, hwatching] at hknown
      cases hknown
  | true =>
      have hrecord := hasked.resolve_left (by simp [hwatching])
      have hupdate := hretires.updateUnavailable h.unavailable true
      rw [updateBoard_emptied h.emptied hrecord] at hupdate
      exact (updateWatcher_nil_eq_iff hwatching).mp
        (congrArg Service.coordinator (Option.some.inj hupdate))

theorem updateBoard_lacksList (h : LacksList text http)
    (hempty : s.coordinator.existingBoards[b.info.id]? = some []) (found : Bool) :
    s.updateBoard b.info.id found (getDevices text http) = some s := by
  have hwatching : s.coordinator.watching b.info.id = true := by
    rw [VenueCoordinator.watching, hempty]
    rfl
  cases found with
  | false => rfl
  | true =>
      cases hrecord : s.getRecord b.info.id with
      | none => simp [Service.updateBoard, hrecord]
      | some b' =>
          rw [updateBoard_emptied h.emptied hrecord,
            (updateWatcher_nil_eq_iff hwatching).mpr hempty]

/-- The coordinator does what it should about the answer iff the answer is not a 404, and a venue
    without its devices is that of a board that is watched without any. -/
theorem retiresVanished_iff (hasks : Asks s b) :
    RetiresVanished text s b http this ↔
      http.status ≠ 404 ∧
        (LacksList text http → s.coordinator.existingBoards[b.info.id]? = some []) := by
  refine ⟨?_, ?_⟩
  · intro hretires
    exact ⟨fun h => not_retiresVanished hasks h hretires,
      fun h => existing_nil_of_lacksList hasks h hretires⟩
  · rintro ⟨h404, hempty⟩
    refine ⟨fun h => absurd h h404, fun h => absurd h h404, fun hfails hwatching => ?_,
      fun hfails found => ?_⟩
    · by_cases hlacks : LacksList text http
      · rw [VenueCoordinator.watching, hempty hlacks] at hwatching
        cases hwatching
      · exact startBoard_failed (getDevices_failed hfails hlacks)
    · by_cases hlacks : LacksList text http
      · exact updateBoard_lacksList hlacks (hempty hlacks) found
      · exact updateBoard_failed (getDevices_failed hfails hlacks) _ found

/-! ## A board whose venue goes away -/

/-- A stored board with the device 1, as it was started. -/
def boardOfOneDevice : BoardInfo := { info := { id := ['a'] }, venueList := [{ id := ['v'] }] }

/-- The reconcile timer updates the board when its venue is gone: the watcher stays without its
    device, and the board stays stored. -/
theorem vanished_venue_emptied :
    ∃ c s', run VenueCoordinator.step {}
        [.startBoard boardOfOneDevice (fun _ _ => { success := true, devices := [1] }) 7] = some c ∧
      Service.updateBoard { coordinator := c, boards := [boardOfOneDevice] } ['a'] true
        (getDevices (fun _ => none) { status := 404 }) = some s' ∧
      (c.watchers[['a']]?).map VenueWatcher.serialNumbers = some [1] ∧
      (s'.coordinator.watchers[['a']]?).map VenueWatcher.serialNumbers = some [] ∧
      s'.boards = [boardOfOneDevice] ∧
      ¬ RetiresVanished (fun _ => none) { coordinator := c, boards := [boardOfOneDevice] }
        boardOfOneDevice { status := 404 } 9 := by
  have hrun : (run VenueCoordinator.step {}
      [.startBoard boardOfOneDevice (fun _ _ => { success := true, devices := [1] }) 7]).map
      (fun c => [(c.watchers[['a']]?).map VenueWatcher.serialNumbers,
        ((c.updateWatcher ['a'] []).watchers[['a']]?).map VenueWatcher.serialNumbers])
      = some [some [1], some []] := by
    -- the 404 leaves the list empty, and the watcher is given this list
    decide +kernel
  obtain ⟨c, hc, hvalues⟩ := Option.map_eq_some_iff.mp hrun
  simp only [List.cons.injEq, and_true] at hvalues
  refine ⟨c, _, hc, rfl, hvalues.1, hvalues.2, rfl, ?_⟩
  exact not_retiresVanished ⟨by simp [boardOfOneDevice], .inr rfl⟩ rfl

/-- The board is watched with its device.  An answer 503 leaves it alone, and a venue without a
    list of devices does not. -/
theorem retiresVanished_iff_watched :
    ∃ c, run VenueCoordinator.step {}
        [.startBoard boardOfOneDevice (fun _ _ => { success := true, devices := [1] }) 7] = some c ∧
      RetiresVanished (fun _ => none) { coordinator := c, boards := [boardOfOneDevice] }
        boardOfOneDevice { status := 503 } 9 ∧
      ¬ RetiresVanished (fun _ => none) { coordinator := c, boards := [boardOfOneDevice] }
        boardOfOneDevice { status := 200 } 9 := by
  have hrun : (run VenueCoordinator.step {}
      [.startBoard boardOfOneDevice (fun _ _ => { success := true, devices := [1] }) 7]).map
      (fun c => c.existingBoards[(['a'] : Str)]?) = some (some [1]) := by
    decide +kernel
  obtain ⟨c, hc, hexisting⟩ := Option.map_eq_some_iff.mp hrun
  have hasks : Asks { coordinator := c, boards := [boardOfOneDevice] } boardOfOneDevice :=
    ⟨by simp [boardOfOneDevice], .inr rfl⟩
  refine ⟨c, hc, (retiresVanished_iff hasks).mpr ⟨by decide, fun h => ?_⟩, fun h => ?_⟩
  · exact absurd h.status (by decide)
  · have hlacks : LacksList (fun _ => none) { status := 200 } :=
      ⟨rfl, readableHead_iff.mpr ⟨rfl, rfl, rfl⟩, fun items hitems => by cases hitems⟩
    have hempty := ((retiresVanished_iff hasks).mp h).2 hlacks
    exact absurd (hexisting.symm.trans hempty) (by decide)

end OwAnalytics.Venue
