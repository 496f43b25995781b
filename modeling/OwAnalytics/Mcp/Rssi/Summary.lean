/-
  OwAnalytics.Mcp.Rssi.Summary

  `CalculateDeviceRssiQualitySummary` (`RESTAPI/RESTAPI_mcp_helpers.h`): sort the
  signal strengths of the associations inside the window into four buckets for
  each client, and list the share of each bucket.

  A counter is incremented once for each association of the records, so it is a
  natural number; the percentages are rational numbers, rounded as `std::round`
  rounds.  `std::sort` is `List.insertionSort`: no two items have one MAC.
-/

import OwAnalytics.Ap.Json
import OwAnalytics.Ap.Objects
import OwAnalytics.Lib.Rounding
import OwAnalytics.Mcp.Bandwidth.Summary

namespace OwAnalytics

namespace AnalyticsObjects

/-- `McpClientRssiItem`. -/
structure McpClientRssiItem where
  mac : Str := []
  rssiExcellentPct : ℚ := 0
  rssiGoodPct : ℚ := 0
  rssiFairPct : ℚ := 0
  rssiPoorPct : ℚ := 0
  rssiTotalSamples : ℕ := 0
deriving DecidableEq

/-- `McpClientRssiQualitySummary`, its data and its meta. -/
structure McpClientRssiQualitySummary where
  requestedWindow : McpRequestedWindow := {}
  observedWindow : McpObservedWindow := {}
  items : List McpClientRssiItem := []
  totalClients : ℕ := 0
  truncated : Bool := false
deriving DecidableEq

end AnalyticsObjects

namespace Mcp

open AnalyticsObjects

namespace Rssi

/-- `RssiClientStats`. -/
structure RssiClientStats where
  excellent : ℕ := 0
  good : ℕ := 0
  fair : ℕ := 0
  poor : ℕ := 0
  hasSample : Bool := false
  observedStart : UInt64 := 0
  observedEnd : UInt64 := 0
deriving DecidableEq

/-- The statistics by the MACs of the clients. -/
abbrev ClientStatsByMac := Std.ExtTreeMap Str RssiClientStats compare

/-! ## The loop over the records -/

/-- The bucket of a valid signal strength is incremented. -/
def countRssi (stats : RssiClientStats) (rssi : Int64) : RssiClientStats :=
  if rssi ≥ -55 then { stats with excellent := stats.excellent + 1 }
  else if rssi ≥ -67 then { stats with good := stats.good + 1 }
  else if rssi ≥ -75 then { stats with fair := stats.fair + 1 }
  else { stats with poor := stats.poor + 1 }

/-- The observed times of a client widen by a time. -/
def observe (stats : RssiClientStats) (timestamp : UInt64) : RssiClientStats :=
  if !stats.hasSample then
    { stats with observedStart := timestamp, observedEnd := timestamp, hasSample := true }
  else
    { stats with
      observedStart := min stats.observedStart timestamp
      observedEnd := max stats.observedEnd timestamp }

variable {F : Type} [Zero F]

/-- The body of the innermost of the three loops. -/
def collectAssociation (record : Ap.DeviceTimePoint F) (clientStatsByMac : ClientStatsByMac)
    (assoc : Ap.UETimePoint F) : ClientStatsByMac :=
  match normalizeClientMac assoc.station with
  | none => clientStatsByMac
  | some mac =>
    if assoc.rssi > -1 || assoc.rssi < -127 then clientStatsByMac
    else
      clientStatsByMac.alter mac fun stats =>
        some (observe (countRssi (stats.getD {}) assoc.rssi) record.timestamp)

/-- The body of the loop over the records. -/
def collectRecord (requested : Window) (clientStatsByMac : ClientStatsByMac)
    (record : Ap.DeviceTimePoint F) : ClientStatsByMac :=
  if !timestampInHalfOpenWindow record.timestamp requested then clientStatsByMac
  else
    record.ssidData.foldl
      (fun m ssid => ssid.associations.foldl (collectAssociation record) m) clientStatsByMac

/-- The loops over the records. -/
def clientStatsByMac (records : List (Ap.DeviceTimePoint F)) (requested : Window) :
    ClientStatsByMac :=
  records.foldl (collectRecord requested) ∅

/-! ## The response -/

/-- `RoundTwoDecimals`. -/
def roundTwoDecimals (value : ℚ) : ℚ := Rounding.roundTo 100 value

/-- `TotalSamples`. -/
def RssiClientStats.totalSamples (stats : RssiClientStats) : ℕ :=
  stats.excellent + stats.good + stats.fair + stats.poor

/-- The item of a client, with its percentages. -/
def makeItem (mac : Str) (stats : RssiClientStats) : McpClientRssiItem where
  mac := mac
  rssiExcellentPct := roundTwoDecimals (stats.excellent * 100 / stats.totalSamples)
  rssiGoodPct := roundTwoDecimals (stats.good * 100 / stats.totalSamples)
  rssiFairPct := roundTwoDecimals (stats.fair * 100 / stats.totalSamples)
  rssiPoorPct := roundTwoDecimals (stats.poor * 100 / stats.totalSamples)
  rssiTotalSamples := stats.totalSamples

/-- The order of the items. -/
def itemLe (a b : McpClientRssiItem) : Prop := (compare a.mac b.mac).isLE

instance : DecidableRel itemLe := fun a b =>
  inferInstanceAs (Decidable ((compare a.mac b.mac).isLE = true))

/-- The items of all clients, in the order of the response. -/
def allItems (stats : ClientStatsByMac) : List McpClientRssiItem :=
  ((stats.toList.filter fun entry => entry.2.totalSamples ≠ 0).map
    fun entry => makeItem entry.1 entry.2).insertionSort itemLe

/-- The body of the loop that widens the observed window over the returned items. -/
def widenObserved (stats : ClientStatsByMac) (observed : Option (UInt64 × UInt64))
    (item : McpClientRssiItem) : Option (UInt64 × UInt64) :=
  match stats[item.mac]? with
  | none => observed
  | some s =>
    if !s.hasSample then observed
    else match observed with
      | none => some (s.observedStart, s.observedEnd)
      | some (start, stop) => some (min start s.observedStart, max stop s.observedEnd)

/-- The response built from the statistics of all clients. -/
def summarize (P : Platform) (requested : Window) (stats : ClientStatsByMac) :
    McpClientRssiQualitySummary :=
  let all := allItems stats
  let items := if all.length > 500 then all.take 500 else all
  let observed := items.foldl (widenObserved stats) none
  { requestedWindow :=
      { startTime := formatTimestamp P requested.startTime
        endTime := formatTimestamp P requested.endTime }
    observedWindow :=
      { startTime := observed.map fun o => formatTimestamp P o.1
        endTime := observed.map fun o => formatTimestamp P o.2 }
    items
    totalClients := all.length
    truncated := all.length > 500 }

end Rssi

/-- `CalculateDeviceRssiQualitySummary`. -/
def calculateDeviceRssiQualitySummary {F : Type} [Zero F] (P : Platform)
    (records : List (Ap.DeviceTimePoint F)) (requested : Window) : McpClientRssiQualitySummary :=
  Rssi.summarize P requested (Rssi.clientStatsByMac records requested)

/-! ## A record to run the summary on -/

namespace Rssi

/-- A record of one SSID with one association for each signal strength. -/
def point (timestamp : UInt64) (station : String) (rssi : List Int64) : Ap.DeviceTimePoint ℚ where
  timestamp := timestamp
  ssidData :=
    [{ ssid := "main".toList
       associations := rssi.map fun r => { station := station.toList, rssi := r } }]

example : (calculateDeviceRssiQualitySummary Platform.posix
      [point 1200 "28:39:26:a1:7c:a5" [-50, -60, -70, 0], point 2000 "2839.26a1.7ca5" [-80]]
      { startTime := 1000, endTime := 2000 }).items
    = [{ mac := "28:39:26:a1:7c:a5".toList, rssiExcellentPct := 33.33, rssiGoodPct := 33.33,
         rssiFairPct := 33.33, rssiTotalSamples := 3 }] := by
  decide +kernel

end Rssi

end Mcp
end OwAnalytics
