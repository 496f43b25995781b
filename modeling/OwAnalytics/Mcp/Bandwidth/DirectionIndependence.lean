/-
  OwAnalytics.Mcp.Bandwidth.DirectionIndependence

  How far the bytes reported for one direction depend on the counters of the
  other.  Both directions share the conflict test of the deduplicating loop: a
  timestamp is dropped when two of its samples differ in either counter.  The
  test is the only channel between them.
-/

import OwAnalytics.Mcp.Bandwidth.Response

namespace OwAnalytics.Mcp.Bandwidth

open AnalyticsObjects Grouping TimeSeries

/-- The other direction. -/
def Direction.other : Direction → Direction
  | .rx => .tx
  | .tx => .rx

/-! ## Records without one of the counters -/

/-- The association without its counter `d`. -/
def eraseAssociation (d : Direction) (assoc : UETimePoint) : UETimePoint :=
  match d with
  | .rx => { assoc with rxBytes := 0, rxBytesPresent := false }
  | .tx => { assoc with txBytes := 0, txBytesPresent := false }

/-- The record without the counters `d` of its associations. -/
def eraseCounter (d : Direction) (record : DeviceTimePoint) : DeviceTimePoint :=
  { record with
    ssidData := record.ssidData.map fun ssid =>
      { ssid with associations := ssid.associations.map (eraseAssociation d) } }

/-- What the calculation for the direction `d` reads of a reading. -/
def Reading.visible (d : Direction) (r : Reading) : UInt64 × Option UInt64 :=
  (r.timestamp, r.counter d)

theorem visible_makeReading_erase (d : Direction) (record : DeviceTimePoint)
    (assoc : UETimePoint) :
    (makeReading (eraseCounter d.other record) (eraseAssociation d.other assoc)).visible d
      = (makeReading record assoc).visible d := by
  cases d <;> rfl

theorem station_eraseAssociation (d : Direction) (assoc : UETimePoint) :
    (eraseAssociation d assoc).station = assoc.station := by
  cases d <;> rfl

/-- Erasing the other counter keeps what the direction reads, key by key. -/
theorem keyed_eraseCounter (d : Direction) (records : List DeviceTimePoint) :
    keyed (fun record assoc => (makeReading record assoc).visible d)
        (records.map (eraseCounter d.other))
      = keyed (fun record assoc => (makeReading record assoc).visible d) records := by
  unfold keyed
  rw [List.flatMap_map]
  congr 1
  funext record
  show ((record.ssidData.map _).flatMap _) = _
  rw [List.flatMap_map]
  congr 1
  funext ssid
  show ((ssid.associations.map (eraseAssociation d.other)).filterMap _) = _
  rw [List.filterMap_map]
  congr 1
  funext assoc
  simp only [Function.comp_apply, station_eraseAssociation, visible_makeReading_erase]
  rfl

/-- Lists that differ in the other counter only show each stream of the direction alike. -/
theorem map_visible_streamOf {d : Direction} {records records' : List DeviceTimePoint}
    (h : records.map (eraseCounter d.other) = records'.map (eraseCounter d.other))
    (key : StreamKey) :
    (streamOf records key).map (Reading.visible d)
      = (streamOf records' key).map (Reading.visible d) := by
  have hkeyed : (keyedReadings records).map (fun kv => (kv.1, kv.2.visible d))
      = (keyedReadings records').map fun kv => (kv.1, kv.2.visible d) := by
    rw [keyedReadings, keyedReadings, keyed_map, keyed_map, ← keyed_eraseCounter d records, h,
      keyed_eraseCounter]
  rw [streamOf, streamOf, ← valuesAt_map, ← valuesAt_map, hkeyed]

/-! ## Conflicts -/

/-- The stream has two different readings at the timestamp. -/
def Conflicted (rs : List Reading) (t : UInt64) : Prop :=
  ∃ r ∈ rs, ∃ r' ∈ rs, r.timestamp = t ∧ r'.timestamp = t ∧ r' ≠ r

theorem settled_iff_not_conflicted {rs : List Reading} {r : Reading} :
    Settled rs r ↔ r ∈ rs ∧ ¬ Conflicted rs r.timestamp := by
  refine ⟨?_, ?_⟩
  · rintro ⟨hmem, hall⟩
    refine ⟨hmem, ?_⟩
    rintro ⟨r1, h1, r2, h2, ht1, ht2, hne⟩
    exact hne ((hall r2 h2 ht2).trans (hall r1 h1 ht1).symm)
  · rintro ⟨hmem, hnone⟩
    refine ⟨hmem, fun r' hr' ht => ?_⟩
    by_contra hne
    exact hnone ⟨r, hmem, r', hr', rfl, ht, hne⟩

/-- Records in which a key never has two readings at one time have no conflict. -/
theorem not_conflicted_of_keyed {records : List DeviceTimePoint}
    (h : ∀ kv ∈ keyedReadings records, ∀ kv' ∈ keyedReadings records,
      kv.1 = kv'.1 → kv.2.timestamp = kv'.2.timestamp → kv'.2 = kv.2)
    (key : StreamKey) (t : UInt64) : ¬ Conflicted (streamOf records key) t := by
  rintro ⟨r, hr, r', hr', ht, ht', hne⟩
  exact hne (h (key, r) (mem_valuesAt.mp hr) (key, r') (mem_valuesAt.mp hr') rfl
    (ht.trans ht'.symm))

/-- Streams that look alike and conflict at the same timestamps have one series. -/
theorem series_subset {d : Direction} {rs rs' : List Reading}
    (hvisible : rs.map (Reading.visible d) = rs'.map (Reading.visible d))
    (hconflict : ∀ t, Conflicted rs t ↔ Conflicted rs' t) : series d rs ⊆ series d rs' := by
  intro p hp
  obtain ⟨r, hr, hrp⟩ := mem_series.mp hp
  obtain ⟨hmem, hnone⟩ := settled_iff_not_conflicted.mp hr
  have hin : r.visible d ∈ rs'.map (Reading.visible d) := by
    rw [← hvisible]
    exact List.mem_map_of_mem hmem
  obtain ⟨r', hmem', hsame⟩ := List.mem_map.mp hin
  obtain ⟨htime, hcounter⟩ := Prod.mk.inj hsame
  refine mem_series.mpr ⟨r', settled_iff_not_conflicted.mpr ⟨hmem', ?_⟩, ?_⟩
  · rw [htime, ← hconflict]
    exact hnone
  · rw [← hrp, Reading.point, Reading.point, htime, hcounter]

theorem series_congr {d : Direction} {rs rs' : List Reading}
    (hvisible : rs.map (Reading.visible d) = rs'.map (Reading.visible d))
    (hconflict : ∀ t, Conflicted rs t ↔ Conflicted rs' t) : series d rs = series d rs' :=
  Finset.Subset.antisymm (series_subset hvisible hconflict)
    (series_subset hvisible.symm fun t => (hconflict t).symm)

theorem clientStreams_congr {d : Direction} {records records' : List DeviceTimePoint}
    (h : records.map (eraseCounter d.other) = records'.map (eraseCounter d.other)) (mac : Str) :
    clientStreams records mac = clientStreams records' mac := by
  ext key
  rw [mem_clientStreams, mem_clientStreams]
  have hempty : streamOf records key = [] ↔ streamOf records' key = [] := by
    rw [← List.map_eq_nil_iff (f := Reading.visible d), map_visible_streamOf h,
      List.map_eq_nil_iff]
  have hmem : ∀ l, (∃ r, (key, r) ∈ keyedReadings l) ↔ streamOf l key ≠ [] := by
    intro l
    rw [ne_eq, List.eq_nil_iff_forall_not_mem, not_forall_not]
    simp only [streamOf, mem_valuesAt]
  rw [hmem, hmem, ne_eq, hempty]

/-! ## The bytes of one direction -/

/-- For lists of records that differ in the counters of the other direction only and conflict
    at the same timestamps of the same streams, the bytes reported for the direction agree. -/
theorem reportedBytes_independent (P : Platform) (d : Direction)
    (records records' : List DeviceTimePoint) (requested : Window)
    (hsame : records.map (eraseCounter d.other) = records'.map (eraseCounter d.other))
    (hconflict : ∀ key t,
      Conflicted (streamOf records key) t ↔ Conflicted (streamOf records' key) t)
    (hfew : (calculateBandwidthConsumptionSummary P records requested).data.totalClients
      ≤ maxItems)
    (hfew' : (calculateBandwidthConsumptionSummary P records' requested).data.totalClients
      ≤ maxItems) (mac : Str) :
    reportedBytes d (calculateBandwidthConsumptionSummary P records requested) mac
      = reportedBytes d (calculateBandwidthConsumptionSummary P records' requested) mac := by
  have husage : usage d records requested mac = usage d records' requested mac := by
    unfold usage
    rw [clientStreams_congr hsame]
    apply Finset.sum_congr rfl
    intro key _
    -- the streams differ only in what the direction does not read
    rw [contribution, contribution, series_congr (map_visible_streamOf hsame key) (hconflict key)]
  rw [reportedBytes_eq P records requested hfew, reportedBytes_eq P records' requested hfew']
  apply UInt64.toNat_inj.mp
  rw [total_clientTotals, total_clientTotals, husage]

/-- One client, reported twice at 1200 with the given tx counters. -/
def twiceAt1200 (tx tx' : UInt64) : List DeviceTimePoint :=
  [point 1100 [assoc "aa:bb:cc:dd:ee:07" (some 100) (some 10)],
    point 1200 [assoc "aa:bb:cc:dd:ee:07" (some 50) (some tx)],
    point 1200 [assoc "aa:bb:cc:dd:ee:07" (some 50) (some tx')],
    point 1300 [assoc "aa:bb:cc:dd:ee:07" (some 200) (some 30)]]

theorem reportedBytes_independent_twice :
    reportedBytes .rx (calculateBandwidthConsumptionSummary Platform.posix (twiceAt1200 20 20)
        oneWindow) "aa:bb:cc:dd:ee:07".toList
      = reportedBytes .rx (calculateBandwidthConsumptionSummary Platform.posix (twiceAt1200 7 7)
        oneWindow) "aa:bb:cc:dd:ee:07".toList := by
  have hnone : ∀ tx : UInt64, (tx = 20 ∨ tx = 7) → ∀ key t,
      ¬ Conflicted (streamOf (twiceAt1200 tx tx) key) t := by
    rintro tx (rfl | rfl)
    · exact not_conflicted_of_keyed (by decide +kernel)
    · exact not_conflicted_of_keyed (by decide +kernel)
  exact reportedBytes_independent Platform.posix .rx (twiceAt1200 20 20) (twiceAt1200 7 7)
    oneWindow (by decide +kernel)
    (fun key t => iff_of_false (hnone 20 (.inl rfl) key t) (hnone 7 (.inr rfl) key t))
    (by decide +kernel) (by decide +kernel) _

/-- The tx counters that settle the conflict at 1200 decide whether its rx counter counts:
    150 bytes with it, 100 without. -/
theorem reportedBytes_depend_on_conflict :
    ¬ ∀ (P : Platform) (d : Direction) (records records' : List DeviceTimePoint)
      (requested : Window),
      records.map (eraseCounter d.other) = records'.map (eraseCounter d.other) →
      (calculateBandwidthConsumptionSummary P records requested).data.totalClients ≤ maxItems →
      (calculateBandwidthConsumptionSummary P records' requested).data.totalClients ≤ maxItems →
      ∀ mac, reportedBytes d (calculateBandwidthConsumptionSummary P records requested) mac
        = reportedBytes d (calculateBandwidthConsumptionSummary P records' requested) mac := by
  intro h
  have hrx := h Platform.posix .rx (twiceAt1200 20 20) (twiceAt1200 20 21) oneWindow
    (by decide +kernel) (by decide +kernel) (by decide +kernel) "aa:bb:cc:dd:ee:07".toList
  revert hrx
  decide +kernel

end OwAnalytics.Mcp.Bandwidth
