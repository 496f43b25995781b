/-
  OwAnalytics.Mcp.Temperature.Summary

  `CalculateRadioTemperatureSummary` (`RESTAPI/RESTAPI_mcp_helpers.h`): one pass
  over the records of the window keeps the statistics of the 2.4 GHz and of the
  5 GHz radios and one observed interval for both.

  A temperature is a rational number, so it is always finite; sums and means are
  exact.  A band counts its samples, of which there is one for a radio of a record
  at most, by a natural number.
-/

import OwAnalytics.Ap.Json
import OwAnalytics.Ap.Objects
import OwAnalytics.Lib.Running
import OwAnalytics.Mcp.Bandwidth.Summary

namespace OwAnalytics

namespace AnalyticsObjects

/-- `McpGatewayWifiTemperatureSummaryData`. -/
structure McpGatewayWifiTemperatureSummaryData where
  minWifiTemp24G : Option ℚ := none
  maxWifiTemp24G : Option ℚ := none
  avgWifiTemp24G : Option ℚ := none
  latestWifiTemp24G : Option ℚ := none
  minWifiTemp5G : Option ℚ := none
  maxWifiTemp5G : Option ℚ := none
  avgWifiTemp5G : Option ℚ := none
  latestWifiTemp5G : Option ℚ := none
deriving DecidableEq

/-- `McpGatewayWifiTemperatureSummary`. -/
structure McpGatewayWifiTemperatureSummary where
  data : McpGatewayWifiTemperatureSummaryData := {}
  info : McpMemorySummaryMeta := {}
deriving DecidableEq

end AnalyticsObjects

namespace Mcp

open AnalyticsObjects

namespace Temperature

/-- `BandStats`. -/
structure BandStats where
  min : Option ℚ := none
  max : Option ℚ := none
  latest : Option ℚ := none
  latestTimestamp : UInt64 := 0
  sum : ℚ := 0
  count : ℕ := 0
deriving DecidableEq

/-- The `AddSample` lambda. -/
def BandStats.addSample (stats : BandStats) (value : ℚ) (timestamp : UInt64) : BandStats where
  min := Running.lower stats.min value
  max := Running.raise stats.max value
  latest :=
    if stats.latest.isNone || timestamp ≥ stats.latestTimestamp then some value
    else stats.latest
  latestTimestamp :=
    if stats.latest.isNone || timestamp ≥ stats.latestTimestamp then timestamp
    else stats.latestTimestamp
  sum := stats.sum + value
  count := stats.count + 1

/-- What the loop over the radios of a record changes. -/
structure RadioLoop where
  band2G : BandStats := {}
  band5G : BandStats := {}
  recordContributed : Bool := false
deriving DecidableEq

/-- The body of the loop over the radios of a record. -/
def addRadio (timestamp : UInt64) (r : RadioLoop) (radio : Ap.RadioTimePoint ℚ) : RadioLoop :=
  if radio.band ≠ 2 && radio.band ≠ 5 then r
  else
    match radio.temperature with
    | none => r
    | some value =>
      if value < -40 || value > 125 then r
      else if radio.band = 2 then
        { r with band2G := r.band2G.addSample value timestamp, recordContributed := true }
      else
        { r with band5G := r.band5G.addSample value timestamp, recordContributed := true }

/-- The registers of the loop over the records. -/
structure Registers where
  band2G : BandStats := {}
  band5G : BandStats := {}
  anyValidSample : Bool := false
  observedStartTimestamp : UInt64 := 0
  observedEndTimestamp : UInt64 := 0
deriving DecidableEq

/-- The observed window widens by a time. -/
def Registers.observe (r : Registers) (timestamp : UInt64) : Registers :=
  if !r.anyValidSample then
    { r with
      observedStartTimestamp := timestamp
      observedEndTimestamp := timestamp
      anyValidSample := true }
  else
    { r with
      observedStartTimestamp := min r.observedStartTimestamp timestamp
      observedEndTimestamp := max r.observedEndTimestamp timestamp }

/-- The body of the loop over the records. -/
def addRecord (requested : Window) (r : Registers) (record : Ap.DeviceTimePoint ℚ) : Registers :=
  if !timestampInHalfOpenWindow record.timestamp requested then r
  else
    let s := record.radioData.foldl (addRadio record.timestamp)
      { band2G := r.band2G, band5G := r.band5G }
    let r := { r with band2G := s.band2G, band5G := s.band5G }
    if s.recordContributed then r.observe record.timestamp else r

/-- The loop over the records. -/
def run (records : List (Ap.DeviceTimePoint ℚ)) (requested : Window) : Registers :=
  records.foldl (addRecord requested) {}

/-- The mean of a band, as it is written into the summary. -/
def BandStats.avg (stats : BandStats) : ℚ := stats.sum / stats.count

/-- The response built from the registers. -/
def summarize (P : Platform) (requested : Window) (r : Registers) :
    McpGatewayWifiTemperatureSummary where
  data :=
    { minWifiTemp24G := if r.band2G.count > 0 then r.band2G.min else none
      maxWifiTemp24G := if r.band2G.count > 0 then r.band2G.max else none
      avgWifiTemp24G := if r.band2G.count > 0 then some r.band2G.avg else none
      latestWifiTemp24G := if r.band2G.count > 0 then r.band2G.latest else none
      minWifiTemp5G := if r.band5G.count > 0 then r.band5G.min else none
      maxWifiTemp5G := if r.band5G.count > 0 then r.band5G.max else none
      avgWifiTemp5G := if r.band5G.count > 0 then some r.band5G.avg else none
      latestWifiTemp5G := if r.band5G.count > 0 then r.band5G.latest else none }
  info :=
    { requestedWindow :=
        { startTime := formatTimestamp P requested.startTime
          endTime := formatTimestamp P requested.endTime }
      observedWindow :=
        if r.anyValidSample then
          { startTime := some (formatTimestamp P r.observedStartTimestamp)
            endTime := some (formatTimestamp P r.observedEndTimestamp) }
        else {} }

end Temperature

/-- `CalculateRadioTemperatureSummary`. -/
def calculateRadioTemperatureSummary (P : Platform) (records : List (Ap.DeviceTimePoint ℚ))
    (requested : Window) : McpGatewayWifiTemperatureSummary :=
  Temperature.summarize P requested (Temperature.run records requested)

/-! ## Records to run the summary on -/

namespace Temperature

/-- A record with one radio for each band and temperature. -/
def point (timestamp : UInt64) (radios : List (UInt64 × Option ℚ)) : Ap.DeviceTimePoint ℚ where
  timestamp := timestamp
  radioData := radios.map fun r => { band := r.1, temperature := r.2 }

example : (calculateRadioTemperatureSummary Platform.posix
      [point 1100 [(2, some 62), (5, some 56)], point 1300 [(2, some 70), (5, some 65)],
        point 1200 [(2, some 68), (5, some 60)], point 2000 [(2, some 55)]]
      { startTime := 1000, endTime := 2000 }).data
    = { minWifiTemp24G := some 62, maxWifiTemp24G := some 70, avgWifiTemp24G := some (200 / 3),
        latestWifiTemp24G := some 70, minWifiTemp5G := some 56, maxWifiTemp5G := some 65,
        avgWifiTemp5G := some (181 / 3), latestWifiTemp5G := some 65 } := by
  decide +kernel

end Temperature

end Mcp
end OwAnalytics
