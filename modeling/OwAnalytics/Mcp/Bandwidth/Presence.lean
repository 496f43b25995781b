/-
  OwAnalytics.Mcp.Bandwidth.Presence

  Which clients present in the window the summary leaves out.  The presence of a
  client is read off its deduplicated streams, so an association whose timestamp
  is ambiguous in its stream does not count as a sight of the client, whatever
  the documentation says about counters and presence.
-/

import OwAnalytics.Mcp.Bandwidth.ClientList
import OwAnalytics.Mcp.Bandwidth.DirectionIndependence

namespace OwAnalytics.Mcp.Bandwidth

open AnalyticsObjects Grouping TimeSeries

/-! ## Presence -/

/-- Some record of the window has an association of the client. -/
def PresentInWindow (records : List DeviceTimePoint) (requested : Window) (mac : Str) : Prop :=
  ∃ record ∈ records, timestampInHalfOpenWindow record.timestamp requested = true ∧
    ∃ ssid ∈ record.ssidData, ∃ assoc ∈ ssid.associations,
      normalizeClientMac assoc.station = some mac

instance (records : List DeviceTimePoint) (requested : Window) (mac : Str) :
    Decidable (PresentInWindow records requested mac) := by
  unfold PresentInWindow
  infer_instance

/-- Presence, told by the streams of the client. -/
theorem presentInWindow_iff {records : List DeviceTimePoint} {requested : Window} {mac : Str} :
    PresentInWindow records requested mac ↔
      ∃ key : StreamKey, key.mac = mac ∧ ∃ r ∈ streamOf records key,
        timestampInHalfOpenWindow r.timestamp requested = true := by
  refine ⟨?_, ?_⟩
  · rintro ⟨record, hrecord, hwin, ssid, hssid, assoc, hassoc, hmac⟩
    refine ⟨streamKey ssid mac, rfl, makeReading record assoc, ?_, hwin⟩
    exact mem_valuesAt.mpr
      (mem_keyed.mpr ⟨record, hrecord, ssid, hssid, assoc, hassoc, mac, hmac, rfl, rfl⟩)
  · rintro ⟨key, rfl, r, hr, hwin⟩
    obtain ⟨record, hrecord, ssid, hssid, assoc, hassoc, mac, hmac, rfl, rfl⟩ :=
      mem_keyed.mp (mem_valuesAt.mp hr)
    exact ⟨record, hrecord, hwin, ssid, hssid, assoc, hassoc, hmac⟩

/-- The clients present in the window. -/
def presentClients (records : List DeviceTimePoint) (requested : Window) : Finset Str :=
  (clients records).filter (PresentInWindow records requested)

theorem mem_presentClients {records : List DeviceTimePoint} {requested : Window} {mac : Str} :
    mac ∈ presentClients records requested ↔ PresentInWindow records requested mac := by
  rw [presentClients, Finset.mem_filter, and_iff_right_iff_imp, presentInWindow_iff]
  rintro ⟨key, rfl, r, hr, -⟩
  rw [clients, List.mem_toFinset, List.mem_map]
  exact ⟨(key, r), mem_valuesAt.mp hr, rfl⟩

/-- Some association of the client in the window is not contradicted: its stream has no two
    different readings at that time. -/
def Uncontradicted (records : List DeviceTimePoint) (requested : Window) (mac : Str) : Prop :=
  ∃ key : StreamKey, key.mac = mac ∧ ∃ r ∈ streamOf records key,
    timestampInHalfOpenWindow r.timestamp requested = true ∧
      ¬ Conflicted (streamOf records key) r.timestamp

theorem seenInWindow_iff {records : List DeviceTimePoint} {requested : Window} {mac : Str} :
    SeenInWindow records requested mac ↔ Uncontradicted records requested mac := by
  unfold SeenInWindow Uncontradicted
  refine exists_congr fun key => and_congr_right fun _ => exists_congr fun r => ?_
  rw [settled_iff_not_conflicted]
  tauto

theorem Uncontradicted.present {records : List DeviceTimePoint} {requested : Window} {mac : Str}
    (h : Uncontradicted records requested mac) : PresentInWindow records requested mac := by
  obtain ⟨key, hkey, r, hr, hwin, -⟩ := h
  exact presentInWindow_iff.mpr ⟨key, hkey, r, hr, hwin⟩

/-! ## The clients of the response -/

/-- The counters of the direction give nothing to calculate for the client. -/
def NothingCounted (d : Direction) (records : List DeviceTimePoint) (requested : Window)
    (mac : Str) : Prop :=
  ∀ key ∈ clientStreams records mac, streamSegments d records requested key = ∅

theorem usage_eq_zero_of_nothingCounted {d : Direction} {records : List DeviceTimePoint}
    {requested : Window} {mac : Str} (h : NothingCounted d records requested mac) :
    usage d records requested mac = 0 := by
  apply Finset.sum_eq_zero
  intro key hkey
  apply Finset.sum_eq_zero
  rintro ⟨p, q⟩ hpq
  obtain ⟨hpair, hcounted⟩ := Finset.mem_filter.mp hpq
  have hmem : (p.time, q.time) ∈ streamSegments d records requested key :=
    ⟨p, q, hpair, hcounted, rfl⟩
  rw [h key hkey] at hmem
  exact absurd hmem (Set.notMem_empty _)

/-- Every client present in the window is listed, with zero bytes where nothing can be
    calculated, and counted once. -/
def KeepsPresence (records : List DeviceTimePoint) (requested : Window)
    (summary : McpDeviceBandwidthConsumptionSummary) : Prop :=
  (∀ mac, PresentInWindow records requested mac →
    ∃ item ∈ summary.data.items, item.mac = mac ∧
      ∀ d, NothingCounted d records requested mac → itemBytes item d = 0) ∧
  summary.data.totalClients = (presentClients records requested).card

/-- The list of a short response has one item for each uncontradicted client. -/
theorem exists_mem_items_iff (P : Platform) {records : List DeviceTimePoint} (requested : Window)
    (hfew : (clients records).card ≤ maxItems) (mac : Str) :
    (∃ item ∈ (calculateBandwidthConsumptionSummary P records requested).data.items,
        item.mac = mac) ↔ Uncontradicted records requested mac := by
  have hitems : (summarize P requested (totalsByMac records requested)).data.items
      = allItems P (totalsByMac records requested) :=
    items_summarize ((totalClients_le P records requested).trans hfew)
  rw [calculateBandwidthConsumptionSummary, hitems, exists_mem_allItems_iff, seenInWindow_iff]

/-- With at most `maxItems` clients, presence is kept exactly when every client present in the
    window has an association there that is not contradicted. -/
theorem keepsPresence_iff (P : Platform) (records : List DeviceTimePoint) (requested : Window)
    (hfew : (clients records).card ≤ maxItems) :
    KeepsPresence records requested (calculateBandwidthConsumptionSummary P records requested) ↔
      ∀ mac, PresentInWindow records requested mac → Uncontradicted records requested mac := by
  have hlists := listsClients P records requested
  refine ⟨?_, ?_⟩
  · rintro ⟨hlisted, -⟩ mac hmac
    obtain ⟨item, hitem, hitemMac, -⟩ := hlisted mac hmac
    exact (exists_mem_items_iff P requested hfew mac).mp ⟨item, hitem, hitemMac⟩
  · intro hall
    refine ⟨?_, ?_⟩
    · intro mac hmac
      obtain ⟨item, hitem, rfl⟩ := (exists_mem_items_iff P requested hfew mac).mpr (hall mac hmac)
      refine ⟨item, hitem, rfl, ?_⟩
      intro d hnothing
      rw [hlists.items] at hitem
      have husage := hlists.usage item (List.mem_of_mem_take hitem) d
      rw [usage_eq_zero_of_nothingCounted hnothing] at husage
      exact UInt64.toNat_inj.mp husage
    · -- the MACs of the list are the clients present in the window, each once
      have hmacs : ((allItems P (totalsByMac records requested)).map
          McpClientUsageItem.mac).toFinset = presentClients records requested := by
        ext mac
        rw [List.mem_toFinset, List.mem_map, mem_presentClients, hlists.seen, seenInWindow_iff]
        exact ⟨Uncontradicted.present, hall mac⟩
      rw [← hmacs, List.toFinset_card_of_nodup hlists.distinct, List.length_map]
      exact hlists.totalClients

theorem keepsPresence_iff_cumulative :
    KeepsPresence cumulativeRecords oneWindow
        (calculateBandwidthConsumptionSummary Platform.posix cumulativeRecords oneWindow) ↔
      ∀ mac, PresentInWindow cumulativeRecords oneWindow mac →
        Uncontradicted cumulativeRecords oneWindow mac :=
  keepsPresence_iff Platform.posix cumulativeRecords oneWindow (by decide +kernel)

/-- One client, in the window at one time only, where two associations differ in rx. -/
def seenTwiceAtOnce : List DeviceTimePoint :=
  [point 900 [assoc "aa:bb:cc:dd:ee:08" (some 10) (some 10)],
    point 1500 [assoc "aa:bb:cc:dd:ee:08" (some 20) (some 20),
      assoc "aa:bb:cc:dd:ee:08" (some 30) (some 20)],
    point 2100 [assoc "aa:bb:cc:dd:ee:08" (some 40) (some 40)]]

/-- That client is left out of the response. -/
theorem presence_lost_to_conflict :
    ¬ ∀ (P : Platform) (records : List DeviceTimePoint) (requested : Window),
      (clients records).card ≤ maxItems →
      KeepsPresence records requested
        (calculateBandwidthConsumptionSummary P records requested) := by
  intro h
  have hkept := (h Platform.posix seenTwiceAtOnce oneWindow (by decide +kernel)).2
  revert hkept
  decide +kernel

end OwAnalytics.Mcp.Bandwidth
