/-
  OwAnalytics.Mcp.Endpoints

  `DoGet` of the summaries of memory, temperature, RSSI and availability.  The first
  three go through the same checks and fetch the rows of the device with a limit; they
  differ in the columns they read, in the text of one error and in the calculation.  The
  last one counts events and has no limit.
-/

import OwAnalytics.Lib.Hull
import OwAnalytics.Lib.Words
import OwAnalytics.Mcp.Admission
import OwAnalytics.Mcp.Memory.Summary
import OwAnalytics.Mcp.RouterId
import OwAnalytics.Mcp.Rssi.Summary
import OwAnalytics.Mcp.Temperature.Summary
import OwAnalytics.Storage.AvailabilityEvents
import OwAnalytics.Storage.RecordsBySerial

namespace OwAnalytics

namespace AnalyticsObjects

/-- `McpGatewayAvailabilityData`. -/
structure McpGatewayAvailabilityData where
  gwUuid : Str := []
  offlineEventCount : UInt64 := 0
deriving DecidableEq

/-- `McpGatewayAvailabilitySummary`. -/
structure McpGatewayAvailabilitySummary where
  data : McpGatewayAvailabilityData := {}
  info : McpMemorySummaryMeta := {}
deriving DecidableEq

end AnalyticsObjects

namespace Mcp

open AnalyticsObjects TimePointDB
open Ap (DeviceAvailabilityEvent DeviceTimePoint)
open Bandwidth (Resolved routerNotFound)
open Storage (DeviceAvailabilityEventsDB.OfflineCount)

/-! ## The checks -/

/-- One request, with everything it meets on its way. -/
structure Request where
  authorization : Option Str
  /-- The answer of the security service to a token. -/
  isAuthorized : Str → Bool
  routerId : Str
  parameters : List (Str × Str)
  clockSkewSeconds : UInt64 := 300
  configuredMaxSamples : UInt64 := 10000
  nowAtWindow : UInt64
  nowAtRetention : UInt64
  /-- `RouterIdResolver::Resolve`. -/
  resolve : Str → Answer Resolved

/-- The checks all windowed endpoints begin with. -/
def prepare (P : Platform) (req : Request) : Answer (Window × Resolved) := do
  authenticateBearerToken req.isAuthorized req.authorization
  validateRouterId req.routerId
  let window ← validateWindowQuery P req.parameters req.nowAtWindow req.clockSkewSeconds
  let resolved ← req.resolve req.routerId
  refuseIf (resolved.retention = 0) routerNotFound
  validateRetention window resolved.retention req.nowAtRetention req.clockSkewSeconds
  return (window, resolved)

/-- The checks on the number of samples. -/
def sampleLimit (req : Request) (window : Window) (resolved : Resolved) : Answer UInt64 := do
  let maxSamples ← validateConfiguredMaxSamples req.configuredMaxSamples
  validateExpectedSampleCount window resolved.interval maxSamples
  return maxSamples

/-- The bandwidth endpoint begins with the same checks. -/
theorem doGet_bandwidth (P : Platform) (call : Bandwidth.Call) :
    let req : Request :=
      { authorization := call.authorization, isAuthorized := call.isAuthorized
        routerId := call.routerId, parameters := call.parameters
        clockSkewSeconds := call.clockSkewSeconds
        configuredMaxSamples := call.configuredMaxSamples, nowAtWindow := call.nowAtWindow
        nowAtRetention := call.nowAtRetention, resolve := call.resolve }
    ∀ summary, Bandwidth.doGet P call = .ok summary →
      ∃ window resolved maxSamples, prepare P req = .ok (window, resolved) ∧
        sampleLimit req window resolved = .ok maxSamples := by
  intro req summary h
  -- a summary is answered only when none of the checks before it has failed
  obtain ⟨_, hauth, h⟩ := Answer.bind_ok h
  obtain ⟨_, hrouter, h⟩ := Answer.bind_ok h
  obtain ⟨window, hwindow, h⟩ := Answer.bind_ok h
  obtain ⟨resolved, hresolved, h⟩ := Answer.bind_ok h
  obtain ⟨_, hfound, h⟩ := Answer.bind_ok h
  obtain ⟨_, hretention, h⟩ := Answer.bind_ok h
  obtain ⟨maxSamples, hmax, h⟩ := Answer.bind_ok h
  obtain ⟨_, hcount, -⟩ := Answer.bind_ok h
  refine ⟨window, resolved, maxSamples, ?_, ?_⟩
  · unfold prepare
    simp only [Answer.bind_ok_iff]
    exact ⟨_, hauth, _, hrouter, _, hwindow, _, hresolved, _, hfound, _, hretention, rfl⟩
  · unfold sampleLimit
    simp only [Answer.bind_ok_iff]
    exact ⟨_, hmax, _, hcount, rfl⟩

/-- A window that passed the checks has an hour or more. -/
theorem lt_of_prepare {P : Platform} {req : Request} {window : Window} {resolved : Resolved}
    (h : prepare P req = .ok (window, resolved)) : window.startTime < window.endTime := by
  unfold prepare at h
  obtain ⟨_, -, h⟩ := Answer.bind_ok h
  obtain ⟨_, -, h⟩ := Answer.bind_ok h
  obtain ⟨w, hwindow, h⟩ := Answer.bind_ok h
  obtain ⟨r, -, h⟩ := Answer.bind_ok h
  obtain ⟨_, -, h⟩ := Answer.bind_ok h
  obtain ⟨_, -, h⟩ := Answer.bind_ok h
  obtain ⟨rfl, rfl⟩ := Prod.mk.inj (Except.ok.inj h)
  exact validateWindowQuery_ok hwindow

theorem pos_of_sampleLimit {req : Request} {window : Window} {resolved : Resolved}
    {maxSamples : UInt64} (h : sampleLimit req window resolved = .ok maxSamples) :
    0 < maxSamples := by
  unfold sampleLimit at h
  obtain ⟨configured, hconfigured, h⟩ := Answer.bind_ok h
  obtain ⟨_, -, h⟩ := Answer.bind_ok h
  obtain rfl := Except.ok.inj h
  obtain ⟨-, hpos, -⟩ := validateConfiguredMaxSamples_ok hconfigured
  rw [UInt64.le_iff_toNat_le] at hpos
  rw [UInt64.lt_iff_toNat_lt]
  exact hpos

/-- A token is what follows `Bearer ` in the header. -/
theorem extractBearerToken_ok_iff {authorization : Option Str} {token : Str} :
    extractBearerToken authorization = .ok token ↔
      authorization = some (bearerPrefix ++ token) ∧ token ≠ [] := by
  unfold extractBearerToken
  cases authorization with
  | none => simp
  | some value =>
    dsimp only
    by_cases hprefix : bearerPrefix <+: value
    · obtain ⟨rest, rfl⟩ := hprefix
      simp only [List.isPrefixOf_iff_prefix, List.prefix_append, not_true_eq_false, false_or,
        List.length_append, Nat.add_eq_left, List.length_eq_zero_iff, Option.some_inj,
        List.append_cancel_left_eq, List.drop_left]
      by_cases hempty : rest = []
      · rw [if_pos hempty]
        subst hempty
        simp only [reduceCtorEq, false_iff, not_and, not_not]
        exact Eq.symm
      · rw [if_neg hempty, Except.ok.injEq]
        exact ⟨fun h => ⟨h, h ▸ hempty⟩, And.left⟩
    · rw [if_pos (.inl (mt List.isPrefixOf_iff_prefix.mp hprefix))]
      simp only [reduceCtorEq, false_iff, Option.some_inj, not_and]
      intro h
      exact absurd ⟨token, h.symm⟩ hprefix

theorem authenticateBearerToken_ok_iff {isAuthorized : Str → Bool} {authorization : Option Str} :
    authenticateBearerToken isAuthorized authorization = .ok () ↔
      ∃ token, authorization = some (bearerPrefix ++ token) ∧ token ≠ [] ∧
        isAuthorized token = true := by
  unfold authenticateBearerToken
  simp only [Answer.bind_ok_iff, extractBearerToken_ok_iff, refuseIf_ok_iff, Bool.not_eq_false,
    and_assoc]

/-- The checks that pass are those of the admission, and those of the token and the router. -/
theorem passes_iff {P : Platform} {req : Request} {window : Window} {resolved : Resolved}
    {maxSamples : UInt64} :
    (prepare P req = .ok (window, resolved) ∧ sampleLimit req window resolved = .ok maxSamples) ↔
      authenticateBearerToken req.isAuthorized req.authorization = .ok () ∧
        validateRouterId req.routerId = .ok () ∧ req.resolve req.routerId = .ok resolved ∧
        admission P req.parameters req.nowAtWindow req.nowAtRetention req.clockSkewSeconds
          resolved.retention resolved.interval req.configuredMaxSamples = .ok window ∧
        maxSamples = req.configuredMaxSamples := by
  unfold prepare sampleLimit admission
  simp only [Answer.bind_ok_iff]
  constructor
  · rintro ⟨⟨_, hauth, _, hrouter, w, hwindow, r, hresolve, _, hfound, _, hretention, hpair⟩,
      m, hmax, _, hcount, hm⟩
    obtain ⟨rfl, rfl⟩ := Prod.mk.inj (Except.ok.inj hpair)
    obtain rfl := Except.ok.inj hm
    obtain ⟨rfl, -⟩ := validateConfiguredMaxSamples_ok hmax
    exact ⟨hauth, hrouter, hresolve,
      ⟨_, hwindow, _, hfound, _, hretention, _, hmax, _, hcount, rfl⟩, rfl⟩
  · rintro ⟨hauth, hrouter, hresolve,
      ⟨w, hwindow, _, hfound, _, hretention, m, hmax, _, hcount, hw⟩, rfl⟩
    obtain rfl := Except.ok.inj hw
    obtain ⟨rfl, -⟩ := validateConfiguredMaxSamples_ok hmax
    exact ⟨⟨_, hauth, _, hrouter, _, hwindow, _, hresolve, _, hfound, _, hretention, rfl⟩,
      _, hmax, _, hcount, rfl⟩

/-! ## The endpoints with a limit -/

/-- What such an endpoint does its own way. -/
structure Endpoint (F : Type) [Zero F] (α : Type) where
  selection : Selection
  queryFailed : Error
  calculate : List (DeviceTimePoint F) → Window → α

section Endpoints

variable {F : Type} [Zero F]

namespace Endpoint

/-- `RESTAPI_device_memory_summary_handler`. -/
def memory (P : Platform) (p : ℕ) : Endpoint F McpGatewayMemorySummary where
  selection := .resource
  queryFailed := setError .internalServerError "memory_summary_query_failed"
    "Unable to retrieve gateway memory history"
  calculate := calculateMemorySummary P p

/-- `RESTAPI_device_radio_temperature_summary_handler`. -/
def radioTemperature (P : Platform) : Endpoint ℚ McpGatewayWifiTemperatureSummary where
  selection := .radio
  queryFailed := setError .internalServerError "radio_temperature_summary_query_failed"
    "Unable to retrieve gateway radio temperature history"
  calculate := calculateRadioTemperatureSummary P

/-- `RESTAPI_device_rssi_summary_handler`. -/
def rssi (P : Platform) : Endpoint F McpClientRssiQualitySummary where
  selection := .ssid
  queryFailed := setError .internalServerError "wifi_client_rssi_query_failed"
    "Unable to retrieve Wi-Fi client RSSI history"
  calculate := calculateDeviceRssiQualitySummary P

variable {α : Type}

/-- The query for the rows of the device in the window, one more than the limit. -/
def query (req : Request) (window : Window) (resolved : Resolved) (maxSamples : UInt64) :
    Query where
  boardId := resolved.resolvedBoardId
  serialNumber := req.routerId
  startTime := window.startTime
  endTime := window.endTime
  maxRecords := maxSamples

/-- `DoGet`; `none` for an exception. -/
def doGet (L : JsonLibrary F) (P : Platform) (e : Endpoint F α) (req : Request)
    (db : RecordTable) : Option (Answer α) :=
  match prepare P req with
  | .error err => some (.error err)
  | .ok (window, resolved) =>
    match sampleLimit req window resolved with
    | .error err => some (.error err)
    | .ok maxSamples =>
      (e.selection.run L db (query req window resolved maxSamples)).map fun s =>
        if s.answer = false then .error e.queryFailed
        else if s.limitExceeded then .error exceedsMaxSamples
        else .ok (e.calculate s.recs window)

/-! ## What the endpoints are for -/

/-- The points of the device in the window, in the order of time. -/
def points (L : JsonLibrary F) (e : Endpoint F α) (rows : List Record) :
    List (DeviceTimePoint F) :=
  (rows.insertionSort rowLe).filterMap fun row => (e.selection.point L row).join

/-- The answer of an endpoint, without statements, limits of statements and exceptions: a request
    that passes the checks gets the calculation on all rows of the device in the window, unless
    there are more than it may have. -/
def respond (L : JsonLibrary F) (P : Platform) (e : Endpoint F α) (req : Request)
    (db : RecordTable) : Answer α := do
  let (window, resolved) ← prepare P req
  let maxSamples ← sampleLimit req window resolved
  let rows := db.matching (query req window resolved maxSamples)
  refuseIf (rows.length > maxSamples.toNat) exceedsMaxSamples
  return e.calculate (e.points L rows) window

variable {L : JsonLibrary F}

/-- Rows that all give a point are the points, one by one. -/
theorem filterMap_of_forall₂ {s : Selection} {rows : List Record} {ps : List (DeviceTimePoint F)}
    (h : List.Forall₂ (fun row p => s.point L row = some (some p)) rows ps) :
    rows.filterMap (fun row => (s.point L row).join) = ps := by
  induction h with
  | nil => rfl
  | cons hp _ ih => rw [List.filterMap_cons, hp, Option.join_some, ih]

theorem run_eq {s : Selection} {db : RecordTable} {q : Query}
    (hrows : ∀ row ∈ db.rows, row.WellFormed L) (hlt : q.startTime < q.endTime)
    (hmax : 0 < q.maxRecords) (hsucceeds : db.succeeds (.bySerial q) = true) :
    ∃ result, s.run L db q = some result ∧ result.answer = true ∧
      (q.maxRecords.toNat < (db.matching q).length → result.limitExceeded = true) ∧
      (¬ q.maxRecords.toNat < (db.matching q).length →
        result.limitExceeded = false ∧
          result.recs = ((db.matching q).insertionSort rowLe).filterMap
            fun row => (s.point L row).join) := by
  have hwindow : ¬ q.endTime ≤ q.startTime := UInt64.not_le.mpr hlt
  obtain ⟨hpoints, hcleared⟩ := s.run_of_lt (L := L) db hwindow hsucceeds
  have hexceeds : db.Exceeds q ↔ q.maxRecords.toNat < (db.matching q).length :=
    RecordTable.exceeds_iff.trans (and_iff_right hmax)
  obtain ⟨ps, hps, hforall⟩ := exists_convertRows (db.rawRecords q) fun row hrow =>
    Selection.exists_point (s := s) (hrows row (RecordTable.mem_of_mem_rawRecords hrow))
  -- too many rows: the flag is set, and of the four selections one clears its list besides
  by_cases hmany : db.Exceeds q
  · have hmore := hexceeds.mp hmany
    by_cases hssid : s = .ssid
    · exact ⟨_, hcleared hmany hssid, rfl, fun _ => rfl, fun hnot => absurd hmore hnot⟩
    · refine ⟨_, (hpoints (.inr hssid)).trans (by rw [hps]; rfl), rfl,
        fun _ => decide_eq_true hmany, fun hnot => absurd hmore hnot⟩
  · refine ⟨_, (hpoints (.inl hmany)).trans (by rw [hps]; rfl), rfl,
      fun hmore => absurd (hexceeds.mpr hmore) hmany, fun _ => ⟨decide_eq_false hmany, ?_⟩⟩
    rw [← RecordTable.rawRecords_of_not_exceeds hmany, filterMap_of_forall₂ hforall]

/-- The selection and its limit are invisible: where the rows can be read and the statement does
    not fail, the handler answers what the endpoint is for. -/
theorem doGet_eq_respond (P : Platform) (e : Endpoint F α) (req : Request) {db : RecordTable}
    (hrows : ∀ row ∈ db.rows, row.WellFormed L)
    (hsucceeds : ∀ q, db.succeeds (.bySerial q) = true) :
    e.doGet L P req db = some (e.respond L P req db) := by
  unfold doGet respond
  cases hprepare : prepare P req with
  | error err => rfl
  | ok passed =>
    obtain ⟨window, resolved⟩ := passed
    dsimp only [bind, Except.bind]
    cases hlimit : sampleLimit req window resolved with
    | error err => rfl
    | ok maxSamples =>
      -- the checks leave a window that is not empty and a limit above 0
      have hlt := lt_of_prepare hprepare
      have hpos := pos_of_sampleLimit hlimit
      obtain ⟨result, hrun, hanswer, hmany, hfew⟩ :=
        run_eq (s := e.selection) (q := query req window resolved maxSamples) hrows hlt hpos
          (hsucceeds _)
      dsimp only
      rw [hrun, Option.map_some, hanswer, if_neg (by decide)]
      by_cases hexceeds :
          maxSamples.toNat < (db.matching (query req window resolved maxSamples)).length
      · rw [hmany hexceeds, refuseIf, if_pos hexceeds]
        rfl
      · obtain ⟨hflag, hrecs⟩ := hfew hexceeds
        rw [hflag, hrecs, refuseIf, if_neg hexceeds]
        rfl

theorem respond_ok_iff {P : Platform} {e : Endpoint F α} {req : Request} {db : RecordTable}
    {answer : α} :
    e.respond L P req db = .ok answer ↔
      ∃ window resolved maxSamples,
        (prepare P req = .ok (window, resolved) ∧
          sampleLimit req window resolved = .ok maxSamples) ∧
        (db.matching (query req window resolved maxSamples)).length ≤ maxSamples.toNat ∧
        answer = e.calculate (e.points L (db.matching (query req window resolved maxSamples)))
          window := by
  unfold respond
  simp only [Answer.bind_ok_iff, Prod.exists, refuseIf_ok_iff, gt_iff_lt, not_lt]
  constructor
  · rintro ⟨window, resolved, hprepare, maxSamples, hlimit, _, hcount, hanswer⟩
    exact ⟨window, resolved, maxSamples, ⟨hprepare, hlimit⟩, hcount, (Except.ok.inj hanswer).symm⟩
  · rintro ⟨window, resolved, maxSamples, ⟨hprepare, hlimit⟩, hcount, rfl⟩
    exact ⟨window, resolved, hprepare, maxSamples, hlimit, (), hcount, rfl⟩

/-- A summary is the calculation over all rows of the device in the window, and a request gets one
    iff it has a token that is accepted, a router that is resolved, a window that the retention of
    its board holds, and no more rows than it may have.  No request ends in an exception. -/
theorem answers_iff {P : Platform} (hP : P.Gregorian) (e : Endpoint F α) (req : Request)
    {db : RecordTable} (hrows : ∀ row ∈ db.rows, row.WellFormed L)
    (hsucceeds : ∀ q, db.succeeds (.bySerial q) = true)
    (hnow : req.nowAtWindow ≤ req.nowAtRetention) :
    e.doGet L P req db ≠ none ∧ ∀ answer, e.doGet L P req db = some (.ok answer) ↔
      ∃ (token : Str) (resolved : Resolved) (window : Window) (i : Instant) (numeral : Str)
        (T H : ℕ),
        req.authorization = some (bearerPrefix ++ token) ∧ token ≠ [] ∧
        req.isAuthorized token = true ∧ validateRouterId req.routerId = .ok () ∧
        req.resolve req.routerId = .ok resolved ∧
        AreParameters req.parameters i.text numeral ∧ (T : ℤ) = i.seconds ∧ IsNumeral numeral H ∧
        Meets req.nowAtWindow.toNat req.nowAtRetention.toNat req.clockSkewSeconds.toNat
          resolved.retention.toNat resolved.interval.toNat req.configuredMaxSamples.toNat T H ∧
        window.startTime.toNat = T - 3600 * H ∧ window.endTime.toNat = T ∧
        window.lookbackHours.toNat = H ∧
        (db.matching (query req window resolved req.configuredMaxSamples)).length ≤
          req.configuredMaxSamples.toNat ∧
        answer = e.calculate
          (e.points L (db.matching (query req window resolved req.configuredMaxSamples)))
          window := by
  rw [e.doGet_eq_respond P req hrows hsucceeds]
  refine ⟨Option.some_ne_none _, fun answer => ?_⟩
  rw [Option.some_inj, respond_ok_iff]
  simp only [passes_iff, admission_iff_meets hP req.parameters hnow, authenticateBearerToken_ok_iff]
  constructor
  · rintro ⟨window, resolved, maxSamples,
      ⟨⟨token, htoken, hne, hauth⟩, hrouter, hresolve,
        ⟨i, numeral, T, H, hparams, hT, hH, hmeets, hstart, hend, hhours⟩, rfl⟩, hcount, rfl⟩
    exact ⟨token, resolved, window, i, numeral, T, H, htoken, hne, hauth, hrouter, hresolve,
      hparams, hT, hH, hmeets, hstart, hend, hhours, hcount, rfl⟩
  · rintro ⟨token, resolved, window, i, numeral, T, H, htoken, hne, hauth, hrouter, hresolve,
      hparams, hT, hH, hmeets, hstart, hend, hhours, hcount, rfl⟩
    exact ⟨window, resolved, _,
      ⟨⟨token, htoken, hne, hauth⟩, hrouter, hresolve,
        ⟨i, numeral, T, H, hparams, hT, hH, hmeets, hstart, hend, hhours⟩, rfl⟩, hcount, rfl⟩

end Endpoint

end Endpoints

/-! ## The endpoint without a limit -/

section Availability

open Storage.DeviceAvailabilityEventsDB

/-- `CalculateGatewayAvailabilitySummary`. -/
def calculateGatewayAvailabilitySummary (P : Platform) (routerId : Str) (requested : Window)
    (count : OfflineCount) : McpGatewayAvailabilitySummary where
  data := { gwUuid := routerId, offlineEventCount := count.offlineCount }
  info :=
    { requestedWindow :=
        { startTime := formatTimestamp P requested.startTime
          endTime := formatTimestamp P requested.endTime }
      observedWindow :=
        { startTime := count.observedStartTime.map (formatTimestamp P)
          endTime := count.observedEndTime.map (formatTimestamp P) } }

/-- The answer for a query that fails. -/
def availabilityQueryFailed : Error :=
  setError .internalServerError "availability_query_failed"
    "Unable to retrieve gateway availability history"

/-- `RESTAPI_device_availability_summary_handler::DoGet`; `succeeds` where the statement does. -/
def doGet_availability (P : Platform) (req : Request) (rows : List DeviceAvailabilityEvent)
    (succeeds : Bool) : Answer McpGatewayAvailabilitySummary := do
  let (window, resolved) ← prepare P req
  -- an empty window is counted without a statement
  refuseIf (window.startTime < window.endTime ∧ succeeds = false) availabilityQueryFailed
  return calculateGatewayAvailabilitySummary P req.routerId window
    (countOfflineEventsByBoardAndSerial rows resolved.resolvedBoardId req.routerId
      window.startTime window.endTime)

/-- The moments of the offline events, as intervals. -/
def moments (rows : List DeviceAvailabilityEvent) (boardId serialNumber : Str)
    (startTime endTime : UInt64) : Set (ℕ × ℕ) :=
  {s | ∃ r ∈ offlineEvents rows boardId serialNumber startTime endTime,
    s = (r.eventTime.toNat, r.eventTime.toNat)}

/-- The least and the greatest of some times, and the hull they are. -/
theorem exists_hull {events : List DeviceAvailabilityEvent} (hne : events ≠ []) :
    ∃ first last : UInt64, (events.map (·.eventTime)).min? = some first ∧
      (events.map (·.eventTime)).max? = some last ∧
      Hull.IsHull {s | ∃ r ∈ events, s = (r.eventTime.toNat, r.eventTime.toNat)}
        (first.toNat, last.toNat) := by
  have htimes : events.map (·.eventTime) ≠ [] := fun h => hne (List.map_eq_nil_iff.mp h)
  obtain ⟨first, hfirst⟩ := Option.isSome_iff_exists.mp (List.isSome_min?_of_ne_nil htimes)
  obtain ⟨last, hlast⟩ := Option.isSome_iff_exists.mp (List.isSome_max?_of_ne_nil htimes)
  obtain ⟨hfirstMem, hle⟩ := List.min?_eq_some_iff.mp hfirst
  obtain ⟨hlastMem, hge⟩ := List.max?_eq_some_iff.mp hlast
  refine ⟨first, last, hfirst, hlast, ?_, ?_⟩
  · rintro s ⟨r, hr, rfl⟩
    have hmem := List.mem_map_of_mem (f := (·.eventTime)) hr
    exact ⟨UInt64.le_iff_toNat_le.mp (hle _ hmem), UInt64.le_iff_toNat_le.mp (hge _ hmem)⟩
  · intro j hj
    obtain ⟨r, hr, rfl⟩ := List.mem_map.mp hfirstMem
    obtain ⟨r', hr', rfl⟩ := List.mem_map.mp hlastMem
    exact ⟨(hj _ ⟨r, hr, rfl⟩).1, (hj _ ⟨r', hr', rfl⟩).2⟩

/-- What is observed is the hull of the events. -/
theorem encloses_moments {rows : List DeviceAvailabilityEvent} (hlength : rows.length < 2 ^ 64)
    (boardId serialNumber : Str) {startTime endTime : UInt64} (hlt : startTime < endTime) :
    ∃ observed : Option (UInt64 × UInt64),
      countOfflineEventsByBoardAndSerial rows boardId serialNumber startTime endTime =
        { offlineCount := UInt64.ofNat
            (offlineEvents rows boardId serialNumber startTime endTime).length
          observedStartTime := observed.map Prod.fst
          observedEndTime := observed.map Prod.snd } ∧
      Hull.Encloses (moments rows boardId serialNumber startTime endTime)
        (observed.map fun o => (o.1.toNat, o.2.toNat)) := by
  unfold countOfflineEventsByBoardAndSerial moments
  rw [if_neg (UInt64.not_le.mpr hlt)]
  generalize hevents : offlineEvents rows boardId serialNumber startTime endTime = events
  have hfits : events.length < 2 ^ 64 :=
    lt_of_le_of_lt (hevents ▸ List.length_filter_le _ _) hlength
  by_cases hempty : events = []
  · subst hempty
    refine ⟨none, rfl, ?_⟩
    show {s | ∃ r ∈ [], s = _} = ∅
    simp
  · obtain ⟨first, last, hfirst, hlast, hhull⟩ := exists_hull hempty
    -- the count is compared with 0 as 64 bits, so the length has to fit
    have hpos : UInt64.ofNat events.length > 0 := by
      have hlength := List.length_pos_iff.mpr hempty
      rw [gt_iff_lt, UInt64.lt_iff_toNat_lt, UInt64.toNat_ofNat_of_lt' hfits]
      exact hlength
    refine ⟨some (first, last), ?_, ?_, hhull⟩
    · simp only [if_pos hpos, hfirst, hlast]
      rfl
    · obtain ⟨r, hr⟩ := List.exists_mem_of_ne_nil events hempty
      exact ⟨_, r, hr, rfl⟩

/-- The observed window of an interval of moments. -/
def observedWindow (P : Platform) (observed : Option (ℕ × ℕ)) : McpObservedWindow where
  startTime := observed.map fun i => formatTimestamp P (UInt64.ofNat i.1)
  endTime := observed.map fun i => formatTimestamp P (UInt64.ofNat i.2)

/-- An answer counts the events and shows their hull. -/
theorem doGet_availability_ok {P : Platform} {req : Request} {rows : List DeviceAvailabilityEvent}
    {succeeds : Bool} {summary : McpGatewayAvailabilitySummary} (hlength : rows.length < 2 ^ 64)
    (h : doGet_availability P req rows succeeds = .ok summary) :
    ∃ window resolved, prepare P req = .ok (window, resolved) ∧ ∃ observed,
      Hull.Encloses (moments rows resolved.resolvedBoardId req.routerId window.startTime
        window.endTime) observed ∧
      summary.info.observedWindow = observedWindow P observed ∧
      summary.data.offlineEventCount.toNat = (offlineEvents rows resolved.resolvedBoardId
        req.routerId window.startTime window.endTime).length := by
  unfold doGet_availability at h
  obtain ⟨⟨window, resolved⟩, hprepare, h⟩ := Answer.bind_ok h
  obtain ⟨_, -, h⟩ := Answer.bind_ok h
  obtain rfl := Except.ok.inj h
  obtain ⟨observed, hcount, hencloses⟩ :=
    encloses_moments hlength resolved.resolvedBoardId req.routerId (lt_of_prepare hprepare)
  refine ⟨window, resolved, hprepare, _, hencloses, ?_, ?_⟩
  · dsimp only [calculateGatewayAvailabilitySummary]
    rw [hcount]
    cases observed with
    | none => rfl
    | some o =>
      simp only [observedWindow, Option.map_some, UInt64.ofNat_toNat]
  · dsimp only [calculateGatewayAvailabilitySummary]
    rw [hcount]
    exact UInt64.toNat_ofNat_of_lt' (lt_of_le_of_lt (List.length_filter_le _ _) hlength)

/-- A request that passes the checks is answered where the statement succeeds. -/
theorem doGet_availability_of_prepare {P : Platform} {req : Request} {window : Window}
    {resolved : Resolved} (h : prepare P req = .ok (window, resolved))
    (rows : List DeviceAvailabilityEvent) :
    doGet_availability P req rows true =
      .ok (calculateGatewayAvailabilitySummary P req.routerId window
        (countOfflineEventsByBoardAndSerial rows resolved.resolvedBoardId req.routerId
          window.startTime window.endTime)) := by
  unfold doGet_availability
  rw [h]
  dsimp only [bind, Except.bind]
  rw [refuseIf, if_neg fun hfails => Bool.false_ne_true hfails.2.symm]
  rfl

/-- The moments of adjacent windows are those of the whole. -/
theorem moments_union (rows : List DeviceAvailabilityEvent) (boardId serialNumber : Str)
    {a b c : UInt64} (hab : a ≤ b) (hbc : b ≤ c) :
    moments rows boardId serialNumber a b ∪ moments rows boardId serialNumber b c =
      moments rows boardId serialNumber a c := by
  rw [UInt64.le_iff_toNat_le] at hab hbc
  ext s
  simp only [moments, offlineEvents, List.mem_filter, decide_eq_true_eq, UInt64.le_iff_toNat_le,
    UInt64.lt_iff_toNat_lt, Set.mem_union, Set.mem_ofPred_eq]
  constructor
  · rintro (⟨r, ⟨hr, hboard, hserial, htype, hlo, hhi⟩, rfl⟩ |
      ⟨r, ⟨hr, hboard, hserial, htype, hlo, hhi⟩, rfl⟩)
    · exact ⟨r, ⟨hr, hboard, hserial, htype, hlo, by omega⟩, rfl⟩
    · exact ⟨r, ⟨hr, hboard, hserial, htype, by omega, hhi⟩, rfl⟩
  · rintro ⟨r, ⟨hr, hboard, hserial, htype, hlo, hhi⟩, rfl⟩
    rcases Nat.lt_or_ge r.eventTime.toNat b.toNat with hbefore | hafter
    · exact .inl ⟨r, ⟨hr, hboard, hserial, htype, hlo, hbefore⟩, rfl⟩
    · exact .inr ⟨r, ⟨hr, hboard, hserial, htype, hafter, hhi⟩, rfl⟩

/-- A client may ask in parts: of three requests about a router, two for adjacent windows and one
    for both, the counts of the two add up to that of the whole, and what the whole shows as
    observed is the hull of what the two show. -/
theorem availability_adjacent (P : Platform) {req₁ req₂ req : Request}
    {rows : List DeviceAvailabilityEvent} (hlength : rows.length < 2 ^ 64) {resolved : Resolved}
    {w₁ w₂ w : Window} (hsame₁ : req₁.routerId = req.routerId)
    (hsame₂ : req₂.routerId = req.routerId) (h₁ : prepare P req₁ = .ok (w₁, resolved))
    (h₂ : prepare P req₂ = .ok (w₂, resolved)) (h : prepare P req = .ok (w, resolved))
    (hstart : w₁.startTime = w.startTime) (htouch : w₁.endTime = w₂.startTime)
    (hend : w₂.endTime = w.endTime) {s₁ s₂ s : McpGatewayAvailabilitySummary}
    (hs₁ : doGet_availability P req₁ rows true = .ok s₁)
    (hs₂ : doGet_availability P req₂ rows true = .ok s₂)
    (hs : doGet_availability P req rows true = .ok s) :
    s.data.offlineEventCount.toNat =
        s₁.data.offlineEventCount.toNat + s₂.data.offlineEventCount.toNat ∧
      ∃ observed₁ observed₂ : Option (ℕ × ℕ),
        Hull.Encloses (moments rows resolved.resolvedBoardId req.routerId w₁.startTime w₁.endTime)
          observed₁ ∧
        Hull.Encloses (moments rows resolved.resolvedBoardId req.routerId w₂.startTime w₂.endTime)
          observed₂ ∧
        s₁.info.observedWindow = observedWindow P observed₁ ∧
        s₂.info.observedWindow = observedWindow P observed₂ ∧
        s.info.observedWindow = observedWindow P (Hull.widen observed₁ observed₂) := by
  obtain ⟨v₁, r₁, hv₁, o₁, ho₁, hwindow₁, hcount₁⟩ := doGet_availability_ok hlength hs₁
  obtain ⟨v₂, r₂, hv₂, o₂, ho₂, hwindow₂, hcount₂⟩ := doGet_availability_ok hlength hs₂
  obtain ⟨v, r, hv, o, ho, hwindow, hcount⟩ := doGet_availability_ok hlength hs
  -- the windows of the three answers are those the requests were prepared with
  obtain ⟨rfl, rfl⟩ := Prod.mk.inj (Except.ok.inj (h₁.symm.trans hv₁))
  obtain ⟨rfl, rfl⟩ := Prod.mk.inj (Except.ok.inj (h₂.symm.trans hv₂))
  obtain ⟨rfl, rfl⟩ := Prod.mk.inj (Except.ok.inj (h.symm.trans hv))
  rw [hsame₁] at ho₁ hcount₁
  rw [hsame₂] at ho₂ hcount₂
  have hab : w.startTime ≤ w₂.startTime := by
    rw [← hstart, ← htouch]
    exact UInt64.le_of_lt (lt_of_prepare h₁)
  have hbc : w₂.startTime ≤ w.endTime := by
    rw [← hend]
    exact UInt64.le_of_lt (lt_of_prepare h₂)
  refine ⟨?_, o₁, o₂, ho₁, ho₂, hwindow₁, hwindow₂, ?_⟩
  · rw [hcount, hcount₁, hcount₂, hstart, htouch, hend]
    exact (length_offlineEvents_add rows resolved.resolvedBoardId req.routerId hab hbc).symm
  · rw [hwindow]
    congr 1
    apply ho.unique
    rw [← moments_union rows resolved.resolvedBoardId req.routerId hab hbc]
    rw [hstart, htouch] at ho₁
    rw [hend] at ho₂
    exact ho₁.union ho₂

end Availability

/-! ## A request at every limit of the checks -/

/-- The last seven hours of the first day. -/
def secondDayWindow : Window := ⟨61200, 86400, 7⟩

/-- What the router of the request is resolved to. -/
def secondDayResolved : Resolved where
  routerId := ['s']
  resolvedBoardId := ['b']
  resolvedVenueId := ['v']
  retention := 25200
  interval := 0
  monitorSubVenues := false

/-- A request for the seven hours before the second day. -/
def secondDayRequest : Request where
  authorization := some "Bearer t".toList
  isAuthorized token := token == ['t']
  routerId := ['s']
  parameters := secondDayParameters
  clockSkewSeconds := 10
  configuredMaxSamples := 420
  nowAtWindow := 86390
  nowAtRetention := 86400
  resolve _ := .ok secondDayResolved

/-- A table with two rows in the window, of one time, and one at its end. -/
def secondDayRows : RecordTable where
  rows := [emptyRow ['y'] 70000, emptyRow ['x'] 70000, emptyRow ['z'] 86400]
  nodup_id := by decide
  length_lt := by decide
  succeeds _ := true

namespace Endpoint

theorem answers_iff_second_day :
    (Endpoint.rssi .posix).doGet JsonText.library .posix secondDayRequest secondDayRows =
      some (.ok (calculateDeviceRssiQualitySummary .posix
        ((Endpoint.rssi .posix).points JsonText.library (secondDayRows.matching
          (query secondDayRequest secondDayWindow secondDayResolved 420)))
        secondDayWindow)) := by
  refine ((answers_iff Platform.gregorian_posix (Endpoint.rssi .posix) secondDayRequest
    ?rows (fun _ => rfl) (by decide)).2 _).mpr ⟨['t'], secondDayResolved, secondDayWindow,
      secondDay, "007".toList, 86400, 7, rfl, by decide, rfl, rfl, rfl, ?_,
      secondDay_seconds.symm, isNumeral_seven, ?_, by decide, by decide, by decide, by decide, rfl⟩
  case rows =>
    intro row hrow
    simp only [secondDayRows, List.mem_cons, List.not_mem_nil, or_false] at hrow
    rcases hrow with rfl | rfl | rfl <;> exact wellFormed_emptyRow _ _ _
  · rw [secondDay_text]
    exact List.Perm.swap _ _ _
  · exact
      { positive := by decide
        lookback := by decide
        epoch := by decide
        notAhead := by decide
        retained := by decide
        configured := by decide
        samples := by decide }

end Endpoint

/-- The request for another window. -/
def secondDayRequestFor (lookbackHours timestampTill : String) : Request :=
  { secondDayRequest with
    parameters := [("lookbackHours".toList, lookbackHours.toList),
      ("timestampTill".toList, timestampTill.toList)] }

/-- The router went offline before and after 20:00:00. -/
def secondDayEvents : List DeviceAvailabilityEvent :=
  [65000, 70000, 80000].map fun t =>
    { id := [], boardId := ['b'], serialNumber := ['s'], eventType := "offline".toList
      eventTime := t, reason := [], connectionIp := [], sessionId := [], eventId := []
      idempotencyKey := [] }

theorem prepare_early : prepare .posix (secondDayRequestFor "3" "1970-01-01T20:00:00Z") =
    .ok (⟨61200, 72000, 3⟩, secondDayResolved) := by decide +kernel

theorem prepare_late : prepare .posix (secondDayRequestFor "4" "1970-01-02T00:00:00Z") =
    .ok (⟨72000, 86400, 4⟩, secondDayResolved) := by decide +kernel

theorem prepare_whole : prepare .posix (secondDayRequestFor "7" "1970-01-02T00:00:00Z") =
    .ok (⟨61200, 86400, 7⟩, secondDayResolved) := by decide +kernel

theorem availability_adjacent_second_day : ∃ s₁ s₂ s : McpGatewayAvailabilitySummary,
    doGet_availability .posix (secondDayRequestFor "3" "1970-01-01T20:00:00Z") secondDayEvents
      true = .ok s₁ ∧
    doGet_availability .posix (secondDayRequestFor "4" "1970-01-02T00:00:00Z") secondDayEvents
      true = .ok s₂ ∧
    doGet_availability .posix (secondDayRequestFor "7" "1970-01-02T00:00:00Z") secondDayEvents
      true = .ok s ∧
    s.data.offlineEventCount.toNat =
      s₁.data.offlineEventCount.toNat + s₂.data.offlineEventCount.toNat := by
  have hlength : secondDayEvents.length < 2 ^ 64 := by decide
  have hs₁ := doGet_availability_of_prepare prepare_early secondDayEvents
  have hs₂ := doGet_availability_of_prepare prepare_late secondDayEvents
  have hs := doGet_availability_of_prepare prepare_whole secondDayEvents
  exact ⟨_, _, _, hs₁, hs₂, hs,
    (availability_adjacent .posix hlength (by rfl) (by rfl) prepare_early prepare_late
      prepare_whole (by rfl) (by rfl) (by rfl) hs₁ hs₂ hs).1⟩

end Mcp

end OwAnalytics
