/-
  OwAnalytics.Mcp.Bandwidth.Summary

  `CalculateBandwidthConsumptionSummary` (`RESTAPI/RESTAPI_mcp_helpers.h`), as
  the source computes it: group the associations of all records into counter
  streams, sort and deduplicate each stream, add the differences of its
  consecutive counters to the totals of its client, and list the clients that
  were seen inside the window.

  `std::map` is an `ExtTreeMap`, which is iterated in key order.  `std::sort`
  is `List.insertionSort`: samples that its comparator does not separate are
  equal, so every sorting algorithm returns the same list.
-/

import OwAnalytics.Mcp.Mac
import OwAnalytics.Mcp.Time

namespace OwAnalytics.Mcp

open AnalyticsObjects

/-- A requested window; times are in seconds since the epoch. -/
structure Window where
  startTime : UInt64 := 0
  endTime : UInt64 := 0
  lookbackHours : UInt64 := 0
deriving DecidableEq

/-- `TimestampInHalfOpenWindow`. -/
def timestampInHalfOpenWindow (timestamp : UInt64) (requested : Window) : Bool :=
  requested.startTime ≤ timestamp && timestamp < requested.endTime

/-- `uint64_t` addition that stops at the largest value. -/
def saturatingAdd (left right : UInt64) : UInt64 :=
  if UInt64.ofNat (2 ^ 64 - 1) - left < right then UInt64.ofNat (2 ^ 64 - 1) else left + right

namespace Bandwidth

/-- The two counters of an association. -/
inductive Direction where
  | rx
  | tx
deriving DecidableEq

instance : Fintype Direction where
  elems := {.rx, .tx}
  complete d := by cases d <;> decide

/-- One association as seen in one record. -/
structure Sample where
  timestamp : UInt64
  rx : Option UInt64
  tx : Option UInt64
  id : Str
  inWindow : Bool
deriving DecidableEq

/-- The counter of a sample in a direction. -/
def Sample.counter (s : Sample) : Direction → Option UInt64
  | .rx => s.rx
  | .tx => s.tx

/-- The last sample of a stream that carried a counter. -/
structure CounterSample where
  timestamp : UInt64
  value : UInt64
  inWindow : Bool
deriving DecidableEq

/-- What separates the counters of one client from each other. -/
structure StreamKey where
  mac : Str
  bssid : Str
  ssid : Str
  band : UInt64
deriving DecidableEq

/-- `StreamKey::operator<`. -/
def StreamKey.cmp : StreamKey → StreamKey → Ordering :=
  compareLex (compareOn mac) (compareLex (compareOn bssid)
    (compareLex (compareOn ssid) (compareOn band)))

instance : Std.TransCmp StreamKey.cmp :=
  inferInstanceAs (Std.TransCmp (compareLex _ (compareLex _ (compareLex _ _))))

instance : Std.LawfulEqCmp StreamKey.cmp where
  eq_of_compare {a b} h := by
    simp only [StreamKey.cmp, compareLex, compareOn, Ordering.then_eq_eq,
      Std.LawfulEqCmp.compare_eq_iff_eq] at h
    obtain ⟨hmac, hbssid, hssid, hband⟩ := h
    cases a
    cases b
    simp_all

/-- `ClientTotals`. -/
structure ClientTotals where
  rx : UInt64 := 0
  tx : UInt64 := 0
  hasInWindowObservation : Bool := false
  hasCalculableSegment : Bool := false
  observedStart : UInt64 := 0
  observedEnd : UInt64 := 0
deriving DecidableEq

/-- The total of a direction. -/
def ClientTotals.total (t : ClientTotals) : Direction → UInt64
  | .rx => t.rx
  | .tx => t.tx

/-- The total of a direction is set. -/
def ClientTotals.setTotal (t : ClientTotals) (d : Direction) (v : UInt64) : ClientTotals :=
  match d with
  | .rx => { t with rx := v }
  | .tx => { t with tx := v }

/-- The samples by their streams. -/
abbrev Streams := Std.ExtTreeMap StreamKey (List Sample) StreamKey.cmp

/-- The totals by the MACs of the clients. -/
abbrev TotalsByMac := Std.ExtTreeMap Str ClientTotals compare

/-! ## Grouping the associations into streams -/

/-- The sample an association contributes to its stream. -/
def makeSample (requested : Window) (record : DeviceTimePoint) (assoc : UETimePoint) : Sample where
  timestamp := record.timestamp
  rx := if assoc.rxBytesPresent then some assoc.rxBytes else none
  tx := if assoc.txBytesPresent then some assoc.txBytes else none
  id := record.id
  inWindow := timestampInHalfOpenWindow record.timestamp requested

/-- The body of the innermost of the three collecting loops. -/
def collectAssociation (requested : Window) (record : DeviceTimePoint) (ssid : SSIDTimePoint)
    (streams : Streams) (assoc : UETimePoint) : Streams :=
  match normalizeClientMac assoc.station with
  | none => streams
  | some mac =>
    let key : StreamKey := { mac, bssid := ssid.bssid, ssid := ssid.ssid, band := ssid.band }
    streams.alter key fun samples =>
      some (samples.getD [] ++ [makeSample requested record assoc])

/-- The loops over the records, their SSIDs and their associations. -/
def collectStreams (records : List DeviceTimePoint) (requested : Window) : Streams :=
  records.foldl (fun streams record =>
    record.ssidData.foldl (fun streams ssid =>
      ssid.associations.foldl (collectAssociation requested record ssid) streams) streams) ∅

/-! ## One stream -/

/-- The order `Samples` is sorted by: timestamp, then id, rx and tx. -/
def Sample.cmp : Sample → Sample → Ordering :=
  compareLex (compareOn Sample.timestamp) (compareLex (compareOn Sample.id)
    (compareLex (compareOn Sample.rx) (compareOn Sample.tx)))

/-- The order the samples of a stream are sorted by. -/
def Sample.le (a b : Sample) : Prop := (Sample.cmp a b).isLE

instance : DecidableRel Sample.le := fun a b => inferInstanceAs (Decidable ((Sample.cmp a b).isLE))

/-- The rest of the deduplicating loop once `current` opens a run of equal timestamps:
    `conflict` is set when a later sample of the run has other counters. -/
def dedupeRun (current : Sample) (conflict : Bool) : List Sample → List Sample
  | [] => if conflict then [] else [current]
  | next :: rest =>
    if next.timestamp = current.timestamp then
      dedupeRun current (conflict || next.rx != current.rx || next.tx != current.tx) rest
    else
      (if conflict then [] else [current]) ++ dedupeRun next false rest

/-- The deduplicating loop: one sample for each run of equal timestamps without conflict. -/
def dedupe : List Sample → List Sample
  | [] => []
  | current :: rest => dedupeRun current false rest

/-- `MarkObservedSegment`. -/
def markObservedSegment (totals : ClientTotals) (start stop : UInt64) : ClientTotals :=
  if !totals.hasCalculableSegment then
    { totals with observedStart := start, observedEnd := stop, hasCalculableSegment := true }
  else
    { totals with
      observedStart := min totals.observedStart start
      observedEnd := max totals.observedEnd stop }

/-- `ApplyCounterSample` on the counter `d` of the sample `current`. -/
def applyCounterSample (d : Direction) (previous : Option CounterSample) (current : Sample)
    (totals : ClientTotals) : Option CounterSample × ClientTotals :=
  match current.counter d with
  | none => (previous, totals)
  | some value =>
    let currentCounter : CounterSample :=
      { timestamp := current.timestamp, value, inWindow := current.inWindow }
    match previous with
    | none => (some currentCounter, totals)
    | some prev =>
      if (prev.inWindow || currentCounter.inWindow) && prev.value ≤ currentCounter.value then
        let total := saturatingAdd (totals.total d) (currentCounter.value - prev.value)
        (some currentCounter,
          markObservedSegment (totals.setTotal d total) prev.timestamp currentCounter.timestamp)
      else (some currentCounter, totals)

/-- The registers of the loop over the deduplicated samples. -/
structure Registers where
  previousRx : Option CounterSample := none
  previousTx : Option CounterSample := none
  totals : ClientTotals
deriving DecidableEq

/-- The body of the loop over the deduplicated samples. -/
def applySample (r : Registers) (current : Sample) : Registers :=
  let (previousRx, totals) := applyCounterSample .rx r.previousRx current r.totals
  let (previousTx, totals) := applyCounterSample .tx r.previousTx current totals
  { previousRx, previousTx, totals }

/-- A sample in the window makes its client one that was observed. -/
def markObservation (totals : ClientTotals) (s : Sample) : ClientTotals :=
  if s.inWindow then { totals with hasInWindowObservation := true } else totals

/-- What a deduplicated stream adds to the totals of its client. -/
def applyStream (totals : ClientTotals) (deduped : List Sample) : ClientTotals :=
  let totals := deduped.foldl markObservation totals
  if deduped.length < 2 then totals
  else (deduped.foldl applySample { totals }).totals

/-! ## All streams -/

/-- The body of the loop over the streams. -/
def processStream (totalsByMac : TotalsByMac) (stream : StreamKey × List Sample) : TotalsByMac :=
  let deduped := dedupe (stream.2.insertionSort Sample.le)
  totalsByMac.alter stream.1.mac fun totals => some (applyStream (totals.getD {}) deduped)

/-- The totals of all clients: the streams one after the other. -/
def totalsByMac (records : List DeviceTimePoint) (requested : Window) : TotalsByMac :=
  (collectStreams records requested).toList.foldl processStream ∅

/-! ## The response -/

/-- The item of a client. -/
def makeItem (P : Platform) (mac : Str) (totals : ClientTotals) : McpClientUsageItem where
  mac := mac
  rxBytes := totals.rx
  txBytes := totals.tx
  totalBytes := saturatingAdd totals.rx totals.tx
  dataConsumeRx := formatDecimalMB P totals.rx
  dataConsumeTx := formatDecimalMB P totals.tx
  totalDataUsage := formatDecimalMB P (saturatingAdd totals.rx totals.tx)

/-- The order of the items: total bytes descending, then MAC ascending. -/
def itemLe (a b : McpClientUsageItem) : Prop :=
  if a.totalBytes ≠ b.totalBytes then b.totalBytes < a.totalBytes else (compare a.mac b.mac).isLE

instance : DecidableRel itemLe := fun a b => by unfold itemLe; infer_instance

/-- The clients seen inside the window, in the order of the response. -/
def allItems (P : Platform) (totals : TotalsByMac) : List McpClientUsageItem :=
  ((totals.toList.filter fun entry => entry.2.hasInWindowObservation).map
    fun entry => makeItem P entry.1 entry.2).insertionSort itemLe

/-- The most items a response carries. -/
def maxItems : Nat := 500

/-- The body of the loop that widens the observed window over the returned items. -/
def widenObserved (totals : TotalsByMac) (observed : Option (UInt64 × UInt64))
    (item : McpClientUsageItem) : Option (UInt64 × UInt64) :=
  match totals[item.mac]? with
  | none => observed
  | some t =>
    if !t.hasCalculableSegment then observed
    else match observed with
      | none => some (t.observedStart, t.observedEnd)
      | some (start, stop) => some (min start t.observedStart, max stop t.observedEnd)

/-- The response built from the totals of all clients. -/
def summarize (P : Platform) (requested : Window) (totals : TotalsByMac) :
    McpDeviceBandwidthConsumptionSummary :=
  let all := allItems P totals
  let items := if all.length > maxItems then all.take maxItems else all
  let observed := items.foldl (widenObserved totals) none
  { data := { items, totalClients := all.length, truncated := all.length > maxItems }
    info :=
      { requestedWindow :=
          { startTime := formatTimestamp P requested.startTime
            endTime := formatTimestamp P requested.endTime }
        observedWindow :=
          { startTime := observed.map fun o => formatTimestamp P o.1
            endTime := observed.map fun o => formatTimestamp P o.2 } } }

end Bandwidth

/-- `CalculateBandwidthConsumptionSummary`. -/
def calculateBandwidthConsumptionSummary (P : Platform) (records : List DeviceTimePoint)
    (requested : Window) : McpDeviceBandwidthConsumptionSummary :=
  Bandwidth.summarize P requested (Bandwidth.totalsByMac records requested)

/-! ## Records to run the summary on -/

namespace Bandwidth

/-- An association with the given counters. -/
def assoc (station : String) (rx tx : Option UInt64) : UETimePoint where
  station := station.toList
  rxBytes := rx.getD 0
  rxBytesPresent := rx.isSome
  txBytes := tx.getD 0
  txBytesPresent := tx.isSome

/-- A record with one SSID. -/
def point (timestamp : UInt64) (associations : List UETimePoint)
    (bssid : String := "aa:bb:cc:dd:ee:ff") : DeviceTimePoint where
  timestamp := timestamp
  ssidData := [{ bssid := bssid.toList, ssid := "main".toList, band := 5, associations }]

/-- A window of a thousand seconds. -/
def oneWindow : Window where
  startTime := 1000
  endTime := 2000
  lookbackHours := 1

/-- The three spellings of one MAC, one record each. -/
def cumulativeRecords : List DeviceTimePoint :=
  [point 1000 [assoc "E25195ED0F28" (some 1000) (some 500)],
    point 1300 [assoc "e2:51:95:ed:0f:28" (some 1600) (some 700)],
    point 1600 [assoc "e2-51-95-ed-0f-28" (some 2200) (some 900)]]

/-- The item of that client. -/
def cumulativeItem : McpClientUsageItem where
  mac := "e2:51:95:ed:0f:28".toList
  rxBytes := 1200
  txBytes := 400
  totalBytes := 1600
  dataConsumeRx := "0.00 MB".toList
  dataConsumeTx := "0.00 MB".toList
  totalDataUsage := "0.00 MB".toList

example : calculateBandwidthConsumptionSummary Platform.posix cumulativeRecords oneWindow
    = { data := { items := [cumulativeItem], totalClients := 1, truncated := false }
        info :=
          { requestedWindow :=
              { startTime := "1970-01-01T00:16:40Z".toList
                endTime := "1970-01-01T00:33:20Z".toList }
            observedWindow :=
              { startTime := some "1970-01-01T00:16:40Z".toList
                endTime := some "1970-01-01T00:26:40Z".toList } } } := by
  decide +kernel

end Bandwidth

end OwAnalytics.Mcp
