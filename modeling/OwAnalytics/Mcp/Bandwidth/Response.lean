/-
  OwAnalytics.Mcp.Bandwidth.Response

  Which clients a summary lists and what it reports for one MAC.  A client is
  listed when one of its streams has a settled reading in the window; a client
  without one has used nothing in it, so while the list is not truncated the
  reported bytes are the totals of the client, listed or not.
-/

import OwAnalytics.Mcp.Bandwidth.Reference

namespace OwAnalytics.Mcp.Bandwidth

open AnalyticsObjects Grouping TimeSeries

/-! ## Clients seen in the window -/

@[simp] theorem observed_setTotal (t : ClientTotals) (d : Direction) (v : UInt64) :
    (t.setTotal d v).hasInWindowObservation = t.hasInWindowObservation := by
  cases d <;> rfl

@[simp] theorem observed_markObservedSegment (t : ClientTotals) (start stop : UInt64) :
    (markObservedSegment t start stop).hasInWindowObservation = t.hasInWindowObservation := by
  unfold markObservedSegment
  split_ifs <;> rfl

theorem observed_applyCounterSample (d : Direction) (previous : Option CounterSample)
    (current : Sample) (t : ClientTotals) :
    (applyCounterSample d previous current t).2.hasInWindowObservation
      = t.hasInWindowObservation := by
  unfold applyCounterSample
  cases current.counter d with
  | none => rfl
  | some value =>
      cases previous with
      | none => rfl
      | some prev =>
          simp only
          split_ifs
          · rw [observed_markObservedSegment, observed_setTotal]
          · rfl

theorem observed_foldl_applySample (l : List Sample) (r : Registers) :
    (l.foldl applySample r).totals.hasInWindowObservation = r.totals.hasInWindowObservation := by
  induction l generalizing r with
  | nil => rfl
  | cons s rest ih =>
      rw [List.foldl_cons, ih]
      calc (applySample r s).totals.hasInWindowObservation
          = (applyCounterSample .rx r.previousRx s r.totals).2.hasInWindowObservation :=
            observed_applyCounterSample .tx r.previousTx s _
        _ = r.totals.hasInWindowObservation := observed_applyCounterSample .rx _ s _

theorem observed_foldl_markObservation (l : List Sample) (t : ClientTotals) :
    (l.foldl markObservation t).hasInWindowObservation = true ↔
      t.hasInWindowObservation = true ∨ ∃ s ∈ l, s.inWindow = true := by
  induction l generalizing t with
  | nil => simp
  | cons s rest ih =>
      rw [List.foldl_cons, ih, markObservation]
      split_ifs with h <;> simp [h]

theorem observed_applyReadings (requested : Window) (t : ClientTotals) (rs : List Reading) :
    (applyReadings requested t rs).hasInWindowObservation = true ↔
      t.hasInWindowObservation = true ∨
        ∃ r ∈ rs, timestampInHalfOpenWindow r.timestamp requested = true := by
  have hmarked : ((rs.map (Reading.toSample requested)).foldl markObservation
        t).hasInWindowObservation = true ↔
      t.hasInWindowObservation = true ∨
        ∃ r ∈ rs, timestampInHalfOpenWindow r.timestamp requested = true := by
    rw [observed_foldl_markObservation]
    simp [Reading.toSample]
  unfold applyReadings applyStream
  simp only
  split_ifs
  · exact hmarked
  · rw [observed_foldl_applySample]
    exact hmarked

theorem observed_foldl_applyReadings (requested : Window) (l : List (List Reading))
    (t : ClientTotals) :
    (l.foldl (applyReadings requested) t).hasInWindowObservation = true ↔
      t.hasInWindowObservation = true ∨
        ∃ rs ∈ l, ∃ r ∈ rs, timestampInHalfOpenWindow r.timestamp requested = true := by
  induction l generalizing t with
  | nil => simp
  | cons rs rest ih =>
      rw [List.foldl_cons, ih, observed_applyReadings]
      simp only [List.mem_cons, exists_eq_or_imp, or_assoc]

/-- The client has a settled reading in the window. -/
def SeenInWindow (records : List DeviceTimePoint) (requested : Window) (mac : Str) : Prop :=
  ∃ key : StreamKey, key.mac = mac ∧ ∃ r, Settled (streamOf records key) r ∧
    timestampInHalfOpenWindow r.timestamp requested = true

theorem observed_clientTotals (records : List DeviceTimePoint) (requested : Window) (mac : Str) :
    (clientTotals records requested mac).hasInWindowObservation = true ↔
      SeenInWindow records requested mac := by
  rw [clientTotals_eq, observed_foldl_applyReadings]
  simp only [Bool.false_eq_true, false_or, List.mem_map, macStreams, List.mem_filter,
    decide_eq_true_eq]
  refine ⟨?_, ?_⟩
  · rintro ⟨rs, ⟨⟨key, _⟩, ⟨hentry, hmac⟩, rfl⟩, r, hr, hwin⟩
    have hget := Std.ExtTreeMap.mem_toList_iff_getElem?_eq_some.mp hentry
    exact ⟨key, hmac, r, ((getElem?_settledStreams_eq_some hget).2 r).mp hr, hwin⟩
  · rintro ⟨key, hmac, r, hr, hwin⟩
    cases hget : (settledStreams records requested)[key]? with
    | none =>
        exact absurd (mem_valuesAt.mp hr.1) (getElem?_settledStreams_eq_none.mp hget r)
    | some rs =>
        refine ⟨rs, ⟨(key, rs), ⟨?_, hmac⟩, rfl⟩, r, ?_, hwin⟩
        · exact Std.ExtTreeMap.mem_toList_iff_getElem?_eq_some.mpr hget
        · exact ((getElem?_settledStreams_eq_some hget).2 r).mpr hr

/-- A client that was not seen in the window has used nothing in it. -/
theorem usage_eq_zero {records : List DeviceTimePoint} {requested : Window} {mac : Str}
    (h : ¬ SeenInWindow records requested mac) (d : Direction) :
    usage d records requested mac = 0 := by
  apply Finset.sum_eq_zero
  intro key hkey
  apply increase_eq_zero
  intro p hp hwin
  obtain ⟨r, hr, hrp⟩ := mem_series.mp hp
  rw [Reading.point_time hrp] at hwin
  exact h ⟨key, (mem_clientStreams.mp hkey).1, r, hr, (timestampInHalfOpenWindow_iff _ _).mpr hwin⟩

/-! ## The number of clients -/

/-- The clients of a list of records. -/
def clients (records : List DeviceTimePoint) : Finset Str :=
  ((keyedReadings records).map (·.1.mac)).toFinset

/-- The program keeps totals for clients of the records only. -/
theorem mem_clients_of_totalsByMac {records : List DeviceTimePoint} {requested : Window}
    {mac : Str} {t : ClientTotals} (h : (totalsByMac records requested)[mac]? = some t) :
    mac ∈ clients records := by
  rw [totalsByMac_eq, getElem?_foldl_accumulate, valuesAt_settledStreams,
    Std.ExtTreeMap.getElem?_empty] at h
  cases hstreams : macStreams records requested mac with
  | nil =>
      rw [hstreams] at h
      cases h
  | cons s rest =>
      have hkey : s.1 ∈ clientStreams records mac := by
        rw [← toFinset_fst_macStreams records requested mac, hstreams]
        simp
      obtain ⟨hmac, r, hr⟩ := mem_clientStreams.mp hkey
      rw [clients, List.mem_toFinset, List.mem_map]
      exact ⟨(s.1, r), hr, hmac⟩

/-- A summary counts each client of the records at most once. -/
theorem totalClients_le (P : Platform) (records : List DeviceTimePoint) (requested : Window) :
    (calculateBandwidthConsumptionSummary P records requested).data.totalClients
      ≤ (clients records).card := by
  let seen := (totalsByMac records requested).toList.filter fun e => e.2.hasInWindowObservation
  have hlen : (calculateBandwidthConsumptionSummary P records requested).data.totalClients
      = (seen.map Prod.fst).length := by
    show (allItems P _).length = _
    rw [allItems, List.length_insertionSort, List.length_map, List.length_map]
  have hnodup : (seen.map Prod.fst).Nodup := by
    have hkeys : ((totalsByMac records requested).toList.map Prod.fst).Nodup := by
      rw [Std.ExtTreeMap.map_fst_toList_eq_keys]
      exact Std.ExtTreeMap.nodup_keys
    exact hkeys.sublist (List.filter_sublist.map _)
  rw [hlen, ← List.toFinset_card_of_nodup hnodup]
  apply Finset.card_le_card
  intro mac hmac
  obtain ⟨⟨_, t⟩, hmem, rfl⟩ := List.mem_map.mp (List.mem_toFinset.mp hmac)
  exact mem_clients_of_totalsByMac
    (Std.ExtTreeMap.mem_toList_iff_getElem?_eq_some.mp (List.mem_filter.mp hmem).1)

/-! ## What the response reports for a MAC -/

/-- The bytes of an item in a direction. -/
def itemBytes (item : McpClientUsageItem) : Direction → UInt64
  | .rx => item.rxBytes
  | .tx => item.txBytes

/-- The bytes the summary reports for a MAC, zero when it has no item for it. -/
def reportedBytes (d : Direction) (summary : McpDeviceBandwidthConsumptionSummary) (mac : Str) :
    UInt64 :=
  ((summary.data.items.find? (·.mac = mac)).map (itemBytes · d)).getD 0

theorem bytes_makeItem (P : Platform) (mac : Str) (t : ClientTotals) (d : Direction) :
    itemBytes (makeItem P mac t) d = t.total d := by
  cases d <;> rfl

/-- Up to `maxItems` clients are all listed. -/
theorem items_summarize {P : Platform} {requested : Window} {totals : TotalsByMac}
    (h : (summarize P requested totals).data.totalClients ≤ maxItems) :
    (summarize P requested totals).data.items = allItems P totals := by
  have hlen : ¬ (allItems P totals).length > maxItems := Nat.not_lt.mpr h
  simp only [summarize]
  rw [if_neg hlen]

theorem mem_allItems {P : Platform} {totals : TotalsByMac} {mac : Str} {t : ClientTotals}
    (hget : totals[mac]? = some t) (hseen : t.hasInWindowObservation = true) :
    makeItem P mac t ∈ allItems P totals := by
  rw [allItems, List.mem_insertionSort, List.mem_map]
  refine ⟨(mac, t), ?_, rfl⟩
  rw [List.mem_filter]
  exact ⟨Std.ExtTreeMap.mem_toList_iff_getElem?_eq_some.mpr hget, hseen⟩

/-- While the list is not truncated, the reported bytes are the total of the client. -/
theorem reportedBytes_eq (P : Platform) (records : List DeviceTimePoint) (requested : Window)
    (h : (calculateBandwidthConsumptionSummary P records requested).data.totalClients ≤ maxItems)
    (d : Direction) (mac : Str) :
    reportedBytes d (calculateBandwidthConsumptionSummary P records requested) mac
      = (clientTotals records requested mac).total d := by
  unfold reportedBytes
  cases hfind : (calculateBandwidthConsumptionSummary P records requested).data.items.find?
      (·.mac = mac) with
  | some item =>
      obtain ⟨t, hget, -, hitem⟩ := exists_of_mem_items (List.mem_of_find?_eq_some hfind)
      have hmac : item.mac = mac := by simpa using List.find?_some hfind
      rw [clientTotals, ← hmac, hget, hitem]
      exact bytes_makeItem P item.mac t d
  | none =>
      -- no item: the client was not seen, so its total is zero
      have hunseen : ¬ SeenInWindow records requested mac := by
        intro hseen
        rw [← observed_clientTotals] at hseen
        cases hget : (totalsByMac records requested)[mac]? with
        | none =>
            rw [clientTotals, hget] at hseen
            exact absurd hseen (by decide)
        | some t =>
            rw [clientTotals, hget] at hseen
            have hmem := mem_allItems (P := P) hget hseen
            have hitems : (calculateBandwidthConsumptionSummary P records requested).data.items
                = allItems P (totalsByMac records requested) := items_summarize h
            rw [← hitems] at hmem
            have hno := List.find?_eq_none.mp hfind _ hmem
            exact hno (decide_eq_true rfl)
      have hzero := total_clientTotals records requested mac d
      rw [usage_eq_zero hunseen] at hzero
      exact (UInt64.toNat_inj.mp hzero).symm

end OwAnalytics.Mcp.Bandwidth
