/-
  OwAnalytics.Mcp.Bandwidth.ClientList

  The list of clients of a summary.  It starts from the clients with a settled
  reading in the window, one item each, in a strict order: more bytes first, then
  the smaller MAC.  The response carries the first items of that list and reports
  the interval around the counted segments of the clients it carries.
-/

import OwAnalytics.Mcp.Bandwidth.ObservedWindow

namespace OwAnalytics.Mcp.Bandwidth

open AnalyticsObjects Grouping Hull TimeSeries

/-! ## The order of the items -/

/-- `a` stands before `b`. -/
def Precedes (a b : McpClientUsageItem) : Prop :=
  b.totalBytes < a.totalBytes ∨ a.totalBytes = b.totalBytes ∧ compare a.mac b.mac = .lt

theorem itemLe_iff {a b : McpClientUsageItem} :
    itemLe a b ↔ b.totalBytes < a.totalBytes ∨
      a.totalBytes = b.totalBytes ∧ (compare a.mac b.mac).isLE = true := by
  unfold itemLe
  by_cases h : a.totalBytes = b.totalBytes
  · simp [h]
  · simp [h]

instance : Std.Total itemLe := ⟨fun a b => by
  rw [itemLe_iff, itemLe_iff]
  rcases lt_trichotomy a.totalBytes.toNat b.totalBytes.toNat with hlt | heq | hgt
  · exact .inr (.inl (UInt64.lt_iff_toNat_lt.mpr hlt))
  · have hbytes := UInt64.toNat_inj.mp heq
    have hswap : compare b.mac a.mac = (compare a.mac b.mac).swap := Std.OrientedCmp.eq_swap
    rw [hswap]
    cases compare a.mac b.mac <;> simp [hbytes]
  · exact .inl (.inl (UInt64.lt_iff_toNat_lt.mpr hgt))⟩

instance : IsTrans McpClientUsageItem itemLe := ⟨fun a b c hab hbc => by
  rw [itemLe_iff] at hab hbc ⊢
  rcases hab with hab | ⟨hab, hmac⟩
  · rcases hbc with hbc | ⟨hbc, -⟩
    · exact .inl (UInt64.lt_trans hbc hab)
    · exact .inl (hbc ▸ hab)
  · rcases hbc with hbc | ⟨hbc, hmac'⟩
    · exact .inl (hab ▸ hbc)
    · exact .inr ⟨hab.trans hbc, Std.TransCmp.isLE_trans hmac hmac'⟩⟩

/-- Items of different clients are strictly ordered. -/
theorem precedes_of_itemLe {a b : McpClientUsageItem} (hle : itemLe a b) (hne : a.mac ≠ b.mac) :
    Precedes a b := by
  rcases itemLe_iff.mp hle with hlt | ⟨heq, hmac⟩
  · exact .inl hlt
  · refine .inr ⟨heq, ?_⟩
    cases hcmp : compare a.mac b.mac with
    | lt => rfl
    | eq => exact absurd (Std.LawfulEqCmp.eq_of_compare hcmp) hne
    | gt => rw [hcmp] at hmac; cases hmac

/-! ## The whole list -/

/-- The clients of the list are those seen in the window. -/
theorem exists_mem_allItems_iff (P : Platform) (records : List DeviceTimePoint)
    (requested : Window) (mac : Str) :
    (∃ item ∈ allItems P (totalsByMac records requested), item.mac = mac) ↔
      SeenInWindow records requested mac := by
  rw [← observed_clientTotals, clientTotals]
  refine ⟨?_, ?_⟩
  · rintro ⟨item, hitem, rfl⟩
    obtain ⟨t, hget, hseen, -⟩ := exists_of_mem_allItems hitem
    rw [hget]
    exact hseen
  · intro hseen
    cases hget : (totalsByMac records requested)[mac]? with
    | none =>
        rw [hget] at hseen
        exact absurd hseen (by decide)
    | some t =>
        rw [hget] at hseen
        exact ⟨makeItem P mac t, mem_allItems hget hseen, rfl⟩

/-- An item carries the totals of its client. -/
theorem eq_makeItem_of_mem_allItems {P : Platform} {records : List DeviceTimePoint}
    {requested : Window} {item : McpClientUsageItem}
    (h : item ∈ allItems P (totalsByMac records requested)) :
    item = makeItem P item.mac (clientTotals records requested item.mac) := by
  obtain ⟨t, hget, -, hitem⟩ := exists_of_mem_allItems h
  rw [clientTotals, hget]
  exact hitem

theorem nodup_map_mac_allItems (P : Platform) (totals : TotalsByMac) :
    ((allItems P totals).map McpClientUsageItem.mac).Nodup := by
  have hkeys : (totals.toList.map Prod.fst).Nodup := by
    rw [Std.ExtTreeMap.map_fst_toList_eq_keys]
    exact Std.ExtTreeMap.nodup_keys
  have hseen := hkeys.sublist
    ((List.filter_sublist (p := fun entry => entry.2.hasInWindowObservation)).map Prod.fst)
  rw [allItems, ((List.perm_insertionSort itemLe _).map _).nodup_iff, List.map_map]
  exact hseen

/-- Clients are never listed twice, so the order of the list is strict. -/
theorem pairwise_allItems (P : Platform) (totals : TotalsByMac) :
    (allItems P totals).Pairwise Precedes := by
  have hsorted := List.pairwise_insertionSort itemLe
    ((totals.toList.filter fun entry => entry.2.hasInWindowObservation).map
      fun entry => makeItem P entry.1 entry.2)
  have hdistinct := List.pairwise_map.mp (nodup_map_mac_allItems P totals)
  exact (hsorted.and hdistinct).imp fun h => precedes_of_itemLe h.1 h.2

/-- The MAC of a client of the records is canonical. -/
theorem normalizeClientMac_of_seen {records : List DeviceTimePoint} {requested : Window}
    {mac : Str} (h : SeenInWindow records requested mac) : normalizeClientMac mac = some mac := by
  obtain ⟨key, rfl, r, hr, -⟩ := h
  obtain ⟨record, -, ssid, -, assoc, -, mac, hmac, rfl, -⟩ := mem_keyed.mp (mem_valuesAt.mp hr.1)
  exact normalizeClientMac_idem hmac

/-! ## The response -/

/-- What a summary says about the clients of the records. -/
structure ListsClients (records : List DeviceTimePoint) (requested : Window)
    (format : UInt64 → Str) (summary : McpDeviceBandwidthConsumptionSummary)
    (all : List McpClientUsageItem) : Prop where
  /-- the clients that are listed before the list is cut -/
  seen : ∀ mac, (∃ item ∈ all, item.mac = mac) ↔ SeenInWindow records requested mac
  usage : ∀ item ∈ all, ∀ d,
    (itemBytes item d).toNat = min counterMax (usage d records requested item.mac)
  total : ∀ item ∈ all,
    item.totalBytes.toNat = min counterMax (item.rxBytes.toNat + item.txBytes.toNat)
  ordered : all.Pairwise Precedes
  distinct : (all.map McpClientUsageItem.mac).Nodup
  canonical : ∀ item ∈ all, normalizeClientMac item.mac = some item.mac
  items : summary.data.items = all.take (min 500 all.length)
  totalClients : summary.data.totalClients = all.length
  truncated : summary.data.truncated = true ↔ 500 < all.length
  /-- the interval around the counted segments of the returned clients -/
  window : ∃ observed : Option (UInt64 × UInt64),
    summary.info.observedWindow.startTime = observed.map (fun o => format o.1) ∧
    summary.info.observedWindow.endTime = observed.map (fun o => format o.2) ∧
    Encloses {s | ∃ item ∈ summary.data.items, s ∈ clientSegments records requested item.mac}
      (observed.map (Prod.map UInt64.toNat UInt64.toNat))

theorem listsClients (P : Platform) (records : List DeviceTimePoint) (requested : Window) :
    ListsClients records requested (formatTimestamp P)
      (calculateBandwidthConsumptionSummary P records requested)
      (allItems P (totalsByMac records requested)) where
  seen := exists_mem_allItems_iff P records requested
  usage item hitem d := by
    rw [eq_makeItem_of_mem_allItems hitem, bytes_makeItem]
    exact total_clientTotals records requested item.mac d
  total item hitem := by
    rw [eq_makeItem_of_mem_allItems hitem]
    exact toNat_saturatingAdd _ _
  ordered := pairwise_allItems P _
  distinct := nodup_map_mac_allItems P _
  canonical item hitem :=
    normalizeClientMac_of_seen ((exists_mem_allItems_iff P records requested _).mp
      ⟨item, hitem, rfl⟩)
  items := by
    rw [← List.take_eq_take_min]
    exact items_summarize_eq_take P requested _
  totalClients := rfl
  truncated := decide_eq_true_iff
  window := by
    refine ⟨_, rfl, rfl, ?_⟩
    -- the loop runs over the items that are returned, cut to length
    exact encloses_foldl_widenObserved records requested _

/-- The list of a summary for every list of records and every window.  The interval is present
    when a returned client has a counted segment, and a client without a reading in the window
    is not listed and has no segment. -/
theorem lists_clients (P : Platform) (records : List DeviceTimePoint) (requested : Window) :
    (∃ all, ListsClients records requested (formatTimestamp P)
      (calculateBandwidthConsumptionSummary P records requested) all) ∧
    ((calculateBandwidthConsumptionSummary P records requested).info.observedWindow.startTime.isSome
        = true ↔
      ∃ item ∈ (calculateBandwidthConsumptionSummary P records requested).data.items,
        (clientSegments records requested item.mac).Nonempty) ∧
    ∀ mac, (∀ key : StreamKey, key.mac = mac → ∀ r ∈ streamOf records key,
        timestampInHalfOpenWindow r.timestamp requested = false) →
      (∀ item ∈ (calculateBandwidthConsumptionSummary P records requested).data.items,
        item.mac ≠ mac) ∧ clientSegments records requested mac = ∅ := by
  have hlists := listsClients P records requested
  refine ⟨⟨_, hlists⟩, ?_, ?_⟩
  · obtain ⟨observed, hstart, -, hencloses⟩ := hlists.window
    rw [hstart, Option.isSome_map, ← Option.isSome_map (f := Prod.map UInt64.toNat UInt64.toNat),
      hencloses.isSome_iff]
    refine ⟨?_, ?_⟩
    · rintro ⟨s, item, hitem, hs⟩
      exact ⟨item, hitem, s, hs⟩
    · rintro ⟨item, hitem, s, hs⟩
      exact ⟨s, item, hitem, hs⟩
  · intro mac hout
    refine ⟨?_, clientSegments_eq_empty hout⟩
    intro item hitem hmac
    rw [hlists.items] at hitem
    -- A client that is listed has a reading in the window.
    obtain ⟨key, hkey, r, hr, hwin⟩ :=
      (hlists.seen mac).mp ⟨item, List.mem_of_mem_take hitem, hmac⟩
    rw [hout key hkey r hr.1] at hwin
    exact Bool.false_ne_true hwin

end OwAnalytics.Mcp.Bandwidth
