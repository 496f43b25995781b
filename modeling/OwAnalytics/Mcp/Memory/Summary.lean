/-
  OwAnalytics.Mcp.Memory.Summary

  `CalculateMemorySummary` (`RESTAPI/RESTAPI_mcp_helpers.h`): least, greatest,
  mean and latest free memory of the records that carry a consistent value, and
  the interval of their timestamps.

  The sum is a `long double` of `p` significant bits, so casts, additions and the
  division round to nearest, ties to even; `p` is 64 where `long double` is the
  80-bit extended format.  `Count` is incremented once for each record, so it is a
  natural number.
-/

import OwAnalytics.Ap.Json
import OwAnalytics.Ap.Objects
import OwAnalytics.Lib.Significand
import OwAnalytics.Mcp.Bandwidth.Summary

namespace OwAnalytics

namespace AnalyticsObjects

/-- `McpMemorySummaryData`. -/
structure McpMemorySummaryData where
  minMemfree : Option UInt64 := none
  maxMemfree : Option UInt64 := none
  avgMemfree : Option UInt64 := none
  latestMemfree : Option UInt64 := none
deriving DecidableEq

/-- `McpGatewayMemorySummary`. -/
structure McpGatewayMemorySummary where
  data : McpMemorySummaryData := {}
  info : McpMemorySummaryMeta := {}
deriving DecidableEq

end AnalyticsObjects

namespace Mcp

open AnalyticsObjects Significand

namespace Memory

/-- The locals of the function, with the members of the summary the loop writes. -/
structure Registers where
  data : McpMemorySummaryData := {}
  observedWindow : McpObservedWindow := {}
  count : ℕ := 0
  sum : ℚ := 0
  latestTimestamp : UInt64 := 0
  observedStartTimestamp : UInt64 := 0
  observedEndTimestamp : UInt64 := 0
  latestId : Str := []
deriving DecidableEq

/-- The value of a record that enters the summary. -/
def validFree (resource : Ap.DeviceResourceTimePoint) : Option UInt64 :=
  match resource.memoryFree with
  | none => none
  | some free =>
    match resource.memoryTotal with
    | none => some free
    | some total => if free > total then none else some free

/-- The branch for the first valid record. -/
def first (P : Platform) (r : Registers) (timestamp : UInt64) (id : Str) (free : UInt64) :
    Registers :=
  { r with
    data := { r.data with
      minMemfree := some free, maxMemfree := some free, latestMemfree := some free }
    observedWindow :=
      { startTime := some (formatTimestamp P timestamp)
        endTime := some (formatTimestamp P timestamp) }
    latestTimestamp := timestamp
    observedStartTimestamp := timestamp
    observedEndTimestamp := timestamp
    latestId := id }

/-- The extremes, for a later record. -/
def widen (r : Registers) (free : UInt64) : Registers :=
  { r with
    data := { r.data with
      minMemfree := some (min (r.data.minMemfree.getD 0) free)
      maxMemfree := some (max (r.data.maxMemfree.getD 0) free) } }

/-- The two ends of the observed window, for a later record. -/
def observeStart (P : Platform) (r : Registers) (timestamp : UInt64) : Registers :=
  if timestamp < r.observedStartTimestamp then
    { r with
      observedWindow := { r.observedWindow with startTime := some (formatTimestamp P timestamp) }
      observedStartTimestamp := timestamp }
  else r

/-- The end of the observed window moves to a later time. -/
def observeEnd (P : Platform) (r : Registers) (timestamp : UInt64) : Registers :=
  if timestamp > r.observedEndTimestamp then
    { r with
      observedWindow := { r.observedWindow with endTime := some (formatTimestamp P timestamp) }
      observedEndTimestamp := timestamp }
  else r

/-- The latest value, for a later record. -/
def updateLatest (r : Registers) (timestamp : UInt64) (id : Str) (free : UInt64) : Registers :=
  if timestamp > r.latestTimestamp ||
      (timestamp == r.latestTimestamp &&
        (compare id r.latestId == .gt ||
          (id.isEmpty && r.latestId.isEmpty && free > r.data.latestMemfree.getD 0))) then
    { r with
      data := { r.data with latestMemfree := some free }
      latestTimestamp := timestamp
      latestId := id }
  else r

/-- `Sum += static_cast<long double>(Free); ++Count`. -/
def accumulate (p : ℕ) (r : Registers) (free : UInt64) : Registers :=
  { r with
    sum := roundBits p (r.sum + roundBits p free.toNat)
    count := r.count + 1 }

variable {F : Type} [Zero F]

/-- The body of the loop. -/
def addRecord (P : Platform) (p : ℕ) (r : Registers) (record : Ap.DeviceTimePoint F) :
    Registers :=
  match validFree record.resourceData with
  | none => r
  | some free =>
    let r :=
      if r.count = 0 then first P r record.timestamp record.id free
      else
        updateLatest
          (observeEnd P (observeStart P (widen r free) record.timestamp) record.timestamp)
          record.timestamp record.id free
    accumulate p r free

/-- The loop over the records. -/
def run (P : Platform) (p : ℕ) (records : List (Ap.DeviceTimePoint F)) : Registers :=
  records.foldl (addRecord P p) {}

/-- `Average`, before it is converted. -/
def average (p : ℕ) (r : Registers) : ℤ :=
  ⌊roundBits p (roundBits p (r.sum / roundBits p r.count) + 1 / 2)⌋

/-- The mean that is written into the summary. -/
def avgMemfree (p : ℕ) (r : Registers) : UInt64 :=
  if (average p r : ℚ) > roundBits p (2 ^ 64 - 1) then UInt64.ofNat (2 ^ 64 - 1)
  else UInt64.ofNat (average p r).toNat

end Memory

/-- `CalculateMemorySummary`. -/
def calculateMemorySummary {F : Type} [Zero F] (P : Platform) (p : ℕ)
    (records : List (Ap.DeviceTimePoint F)) (requested : Window) : McpGatewayMemorySummary :=
  let r := Memory.run P p records
  { data :=
      if r.count > 0 then { r.data with avgMemfree := some (Memory.avgMemfree p r) } else r.data
    info :=
      { requestedWindow :=
          { startTime := formatTimestamp P requested.startTime
            endTime := formatTimestamp P requested.endTime }
        observedWindow := r.observedWindow } }

/-! ## Records to run the summary on -/

namespace Memory

/-- A record with the given memory values. -/
def point (timestamp : UInt64) (free total : Option UInt64) (id : String) :
    Ap.DeviceTimePoint ℚ where
  timestamp := timestamp
  id := id.toList
  resourceData := { memoryFree := free, memoryTotal := total }

example : (calculateMemorySummary Platform.posix 64
      [point 100 none (some 1000) "a", point 200 (some 500) (some 400) "b",
        point 300 (some 500) none "c", point 400 (some 600) (some 1000) "d"] {}).data
    = { minMemfree := some 500, maxMemfree := some 600, avgMemfree := some 550,
        latestMemfree := some 600 } := by
  decide +kernel

end Memory

end Mcp
end OwAnalytics
