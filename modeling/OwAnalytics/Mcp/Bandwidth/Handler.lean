/-
  OwAnalytics.Mcp.Bandwidth.Handler

  `RESTAPI_device_bandwidth_consumption_handler::DoGet`
  (`RESTAPI/RESTAPI_device_bandwidth_consumption_handler.cpp`): the checks, the
  three selections and the calculation, in the order of the source.  What lies
  outside the repository (the security service, the provisioning service behind
  the router id, the clock and the configuration) is part of the call.
-/

import OwAnalytics.Storage.TimePoints

namespace OwAnalytics.Mcp.Bandwidth

open AnalyticsObjects Storage

/-- `RouterIdResolver::Result`. -/
structure Resolved where
  routerId : Str := []
  resolvedBoardId : Str := []
  resolvedVenueId : Str := []
  retention : UInt64 := 0
  interval : UInt64 := 0
  monitorSubVenues : Bool := false
deriving DecidableEq

/-- One request, with everything it meets on its way. -/
structure Call where
  authorization : Option Str
  /-- The answer of the security service to a token. -/
  isAuthorized : Str → Bool
  routerId : Str
  parameters : List (Str × Str)
  /-- `allowed.clock_skew.seconds`. -/
  clockSkewSeconds : UInt64 := 300
  /-- `mcp.max_samples`. -/
  configuredMaxSamples : UInt64 := 10000
  /-- The three readings of the clock. -/
  nowAtWindow : UInt64
  nowAtRetention : UInt64
  nowAtBoundary : UInt64
  /-- `RouterIdResolver::Resolve`. -/
  resolve : Str → Answer Resolved
  db : TimePointDB

/-- The answer for a router without a board. -/
def routerNotFound : Error := setError .notFound "not_found" "Router was not found"

/-- The answer for a query that fails. -/
def queryFailed : Error :=
  setError .internalServerError "wifi_client_usage_query_failed"
    "Unable to retrieve Wi-Fi client usage history"

/-- The earliest time the start boundary may have. -/
def retentionStart (now retention : UInt64) : UInt64 :=
  if now > retention then now - retention else 0

/-- `DoGet`. -/
def doGet (P : Platform) (call : Call) : Answer McpDeviceBandwidthConsumptionSummary := do
  authenticateBearerToken call.isAuthorized call.authorization
  validateRouterId call.routerId
  let window ← validateWindowQuery P call.parameters call.nowAtWindow call.clockSkewSeconds
  let resolved ← call.resolve call.routerId
  refuseIf (resolved.retention = 0) routerNotFound
  validateRetention window resolved.retention call.nowAtRetention call.clockSkewSeconds
  let maxSamples ← validateConfiguredMaxSamples call.configuredMaxSamples
  validateExpectedSampleCount window resolved.interval maxSamples
  let (records, limitExceeded) ← orError queryFailed <|
    call.db.selectRecordsBySerial resolved.resolvedBoardId call.routerId
      window.startTime window.endTime maxSamples
  refuseIf (limitExceeded = true) exceedsMaxSamples
  let startBoundary ← orError queryFailed <|
    call.db.selectLatestRecordAtOrBeforeBySerial resolved.resolvedBoardId call.routerId
      (retentionStart call.nowAtBoundary resolved.retention) window.startTime
  let endBoundary ← orError queryFailed <|
    call.db.selectEarliestRecordAtOrAfterBySerial resolved.resolvedBoardId call.routerId
      window.endTime
  return calculateBandwidthConsumptionSummary P
    (records ++ startBoundary.toList ++ endBoundary.toList) window

/-- What an accepted request was resolved to and which rows it fetched. -/
structure Accepted (P : Platform) (call : Call) where
  window : Window
  resolved : Resolved
  records : List DeviceTimePoint
  startBoundary : Option DeviceTimePoint
  endBoundary : Option DeviceTimePoint
  window_ok : validateWindowQuery P call.parameters call.nowAtWindow call.clockSkewSeconds
    = .ok window
  resolved_ok : call.resolve call.routerId = .ok resolved
  mem_records : ∀ row, row ∈ records ↔
    row ∈ call.db.deviceRows resolved.resolvedBoardId call.routerId ∧
      window.startTime ≤ row.timestamp ∧ row.timestamp < window.endTime
  startBoundary_ok : call.db.selectLatestRecordAtOrBeforeBySerial resolved.resolvedBoardId
    call.routerId (retentionStart call.nowAtBoundary resolved.retention) window.startTime
    = some startBoundary
  endBoundary_ok : call.db.selectEarliestRecordAtOrAfterBySerial resolved.resolvedBoardId
    call.routerId window.endTime = some endBoundary

/-- The records an accepted request calculates from. -/
def Accepted.fetched {P : Platform} {call : Call} (a : Accepted P call) : List DeviceTimePoint :=
  a.records ++ a.startBoundary.toList ++ a.endBoundary.toList

/-- A summary is the calculation on the rows the three selections return. -/
theorem doGet_ok {P : Platform} {call : Call} {summary : McpDeviceBandwidthConsumptionSummary}
    (h : doGet P call = .ok summary) :
    ∃ a : Accepted P call,
      summary = calculateBandwidthConsumptionSummary P a.fetched a.window := by
  -- The steps of the handler in their order; those that only refuse leave nothing behind.
  obtain ⟨_, -, h⟩ := Answer.bind_ok h
  obtain ⟨_, -, h⟩ := Answer.bind_ok h
  obtain ⟨window, hwindow, h⟩ := Answer.bind_ok h
  obtain ⟨resolved, hresolved, h⟩ := Answer.bind_ok h
  obtain ⟨_, -, h⟩ := Answer.bind_ok h
  obtain ⟨_, -, h⟩ := Answer.bind_ok h
  obtain ⟨maxSamples, hmax, h⟩ := Answer.bind_ok h
  obtain ⟨_, -, h⟩ := Answer.bind_ok h
  obtain ⟨⟨records, limitExceeded⟩, hrecords, h⟩ := Answer.bind_ok h
  dsimp only at h
  obtain ⟨_, hlimit, h⟩ := Answer.bind_ok h
  obtain ⟨startBoundary, hstart, h⟩ := Answer.bind_ok h
  obtain ⟨endBoundary, hend, hsummary⟩ := Answer.bind_ok h
  obtain ⟨-, hlow, hhigh⟩ := validateConfiguredMaxSamples_ok hmax
  have hpos : 0 < maxSamples := by
    rw [UInt64.le_iff_toNat_le] at hlow
    rw [UInt64.lt_iff_toNat_lt]
    exact hlow
  have hbound : maxSamples.toNat < 2 ^ 64 - 1 := by
    rw [UInt64.le_iff_toNat_le] at hhigh
    exact hhigh.trans_lt (by decide)
  -- A response was made, so the limit was not exceeded and the records are all there are.
  obtain rfl : limitExceeded = false := by
    simpa using refuseIf_ok hlimit
  exact ⟨⟨window, resolved, records, startBoundary, endBoundary, hwindow, hresolved,
    mem_selectRecordsBySerial hpos hbound (orError_ok hrecords),
    orError_ok hstart, orError_ok hend⟩, (Except.ok.inj hsummary).symm⟩

end OwAnalytics.Mcp.Bandwidth
