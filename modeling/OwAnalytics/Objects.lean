/-
  OwAnalytics.Objects

  The records of `RESTObjects/RESTAPI_AnalyticsObjects.h` that the analytics
  functions read and return, under the source's field names and defaults.
-/

import Mathlib

namespace OwAnalytics

/-- A `std::string`: its bytes in order, each written as the character with that code. -/
abbrev Str := List Char

instance instLawfulBEqStr : LawfulBEq Str := inferInstance

namespace SecurityObjects

/-- `NoteInfo`. -/
structure NoteInfo where
  created : UInt64 := 0
  createdBy : Str := []
  note : Str := []
deriving DecidableEq

end SecurityObjects

namespace ProvObjects

/-- `ObjectInfo`. -/
structure ObjectInfo where
  id : Str := []
  name : Str := []
  description : Str := []
  notes : List SecurityObjects.NoteInfo := []
  created : UInt64 := 0
  modified : UInt64 := 0
  tags : List UInt64 := []
deriving DecidableEq

end ProvObjects

namespace AnalyticsObjects

/-- A venue a board watches. -/
structure VenueInfo where
  id : Str := []
  name : Str := []
  description : Str := []
  retention : UInt64 := 0
  interval : UInt64 := 0
  monitorSubVenues : Bool := false
deriving DecidableEq

/-- `BoardInfo`. -/
structure BoardInfo where
  info : ProvObjects.ObjectInfo := {}
  venueList : List VenueInfo := []
deriving DecidableEq

/-- One Wi-Fi association inside an SSID of a device report. -/
structure UETimePoint where
  station : Str := []
  txBytes : UInt64 := 0
  rxBytes : UInt64 := 0
  txBytesPresent : Bool := false
  rxBytesPresent : Bool := false
deriving DecidableEq

/-- `SSIDTimePoint`, as far as the bandwidth summary reads it. -/
structure SSIDTimePoint where
  bssid : Str := []
  ssid : Str := []
  band : UInt64 := 0
  associations : List UETimePoint := []
deriving DecidableEq

/-- One stored report of a device. -/
structure DeviceTimePoint where
  id : Str := []
  boardId : Str := []
  timestamp : UInt64 := 0
  ssidData : List SSIDTimePoint := []
  serialNumber : Str := []
deriving DecidableEq

/-- `McpRequestedWindow`. -/
structure McpRequestedWindow where
  startTime : Str := []
  endTime : Str := []
deriving DecidableEq

/-- `McpObservedWindow`. -/
structure McpObservedWindow where
  startTime : Option Str := none
  endTime : Option Str := none
deriving DecidableEq

/-- The `meta` member every windowed summary carries. -/
structure McpMemorySummaryMeta where
  requestedWindow : McpRequestedWindow := {}
  observedWindow : McpObservedWindow := {}
deriving DecidableEq

/-- `McpClientUsageItem`. -/
structure McpClientUsageItem where
  mac : Str := []
  rxBytes : UInt64 := 0
  txBytes : UInt64 := 0
  totalBytes : UInt64 := 0
  dataConsumeRx : Str := []
  dataConsumeTx : Str := []
  totalDataUsage : Str := []
deriving DecidableEq

/-- `McpClientUsageSummaryData`. -/
structure McpClientUsageSummaryData where
  items : List McpClientUsageItem := []
  totalClients : Nat := 0
  truncated : Bool := false
deriving DecidableEq

/-- `McpDeviceBandwidthConsumptionSummary`. -/
structure McpDeviceBandwidthConsumptionSummary where
  data : McpClientUsageSummaryData := {}
  info : McpMemorySummaryMeta := {}
deriving DecidableEq

end AnalyticsObjects
end OwAnalytics
