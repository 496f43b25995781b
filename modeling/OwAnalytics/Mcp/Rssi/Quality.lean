/-
  OwAnalytics.Mcp.Rssi.Quality

  What the RSSI summary says about the clients of the records.  A client is listed
  when it has a sample; its item counts its samples and gives the rounded share of
  each bucket, so the shares differ from whole percentages by rounding only.  The
  observed interval belongs to the clients that are returned.
-/

import OwAnalytics.Mcp.Rssi.Samples

namespace OwAnalytics.Mcp.Rssi

open AnalyticsObjects Grouping Hull Words

/-! ## The order of the items -/

instance : Std.Total itemLe := ⟨fun a b => by
  show (compare a.mac b.mac).isLE = true ∨ (compare b.mac a.mac).isLE = true
  have hswap : compare b.mac a.mac = (compare a.mac b.mac).swap := Std.OrientedCmp.eq_swap
  rw [hswap]
  cases compare a.mac b.mac <;> simp⟩

instance : IsTrans McpClientRssiItem itemLe := ⟨fun _ _ _ => Std.TransCmp.isLE_trans⟩

/-- The items of different clients are strictly ordered. -/
theorem lt_of_itemLe {a b : McpClientRssiItem} (hle : itemLe a b) (hne : a.mac ≠ b.mac) :
    compare a.mac b.mac = .lt := by
  have hle : (compare a.mac b.mac).isLE = true := hle
  cases hcmp : compare a.mac b.mac with
  | lt => rfl
  | eq => exact absurd (Std.LawfulEqCmp.eq_of_compare hcmp) hne
  | gt =>
      rw [hcmp] at hle
      cases hle

theorem mem_allItems {stats : ClientStatsByMac} {item : McpClientRssiItem} :
    item ∈ allItems stats ↔
      ∃ t, stats[item.mac]? = some t ∧ t.totalSamples ≠ 0 ∧ item = makeItem item.mac t := by
  rw [allItems, List.mem_insertionSort, List.mem_map]
  refine ⟨?_, ?_⟩
  · rintro ⟨⟨mac, t⟩, hmem, rfl⟩
    obtain ⟨hentry, htotal⟩ := List.mem_filter.mp hmem
    exact ⟨t, Std.ExtTreeMap.mem_toList_iff_getElem?_eq_some.mp hentry, by simpa using htotal, rfl⟩
  · rintro ⟨t, hget, htotal, hitem⟩
    refine ⟨(item.mac, t), ?_, hitem.symm⟩
    rw [List.mem_filter]
    exact ⟨Std.ExtTreeMap.mem_toList_iff_getElem?_eq_some.mpr hget, by simpa using htotal⟩

theorem pairwise_allItems (stats : ClientStatsByMac) :
    (allItems stats).Pairwise fun a b => compare a.mac b.mac = .lt := by
  have hkeys : (stats.toList.map Prod.fst).Nodup := by
    rw [Std.ExtTreeMap.map_fst_toList_eq_keys]
    exact Std.ExtTreeMap.nodup_keys
  have hcounted := hkeys.sublist
    ((List.filter_sublist (p := fun entry => entry.2.totalSamples ≠ 0)).map Prod.fst)
  have hdistinct : ((allItems stats).map McpClientRssiItem.mac).Nodup := by
    rw [allItems, ((List.perm_insertionSort itemLe _).map _).nodup_iff, List.map_map]
    exact hcounted
  have hsorted : (allItems stats).Pairwise itemLe := List.pairwise_insertionSort itemLe _
  exact (hsorted.and (List.pairwise_map.mp hdistinct)).imp fun h => lt_of_itemLe h.1 h.2

/-! ## One item -/

/-- The percentage an item gives for a bucket. -/
def itemPct (item : McpClientRssiItem) : Bucket → ℚ
  | .excellent => item.rssiExcellentPct
  | .good => item.rssiGoodPct
  | .fair => item.rssiFairPct
  | .poor => item.rssiPoorPct

theorem itemPct_makeItem (mac : Str) (stats : RssiClientStats) (b : Bucket) :
    itemPct (makeItem mac stats) b
      = roundTwoDecimals (stats.count b * 100 / stats.totalSamples) := by
  cases b <;> rfl

/-- How many of the samples lie in a bucket. -/
def bucketCount (l : List Sample) (b : Bucket) : ℕ := l.countP fun s => bucketOf s.rssi = b

theorem count_stats (l : List Sample) (b : Bucket) :
    (l.foldl addSample {}).count b = bucketCount l b := by
  have hinit : ({} : RssiClientStats).count b = 0 := by cases b <;> rfl
  rw [count_foldl_addSample, hinit, Nat.zero_add, bucketCount]

theorem totalSamples_stats (l : List Sample) : (l.foldl addSample {}).totalSamples = l.length := by
  rw [← sum_countP_bucket]
  calc (l.foldl addSample {}).totalSamples
      = ∑ b, (l.foldl addSample {}).count b := by
        rw [sum_bucket]
        rfl
    _ = ∑ b, bucketCount l b := Finset.sum_congr rfl fun b _ => count_stats l b

/-- The exact percentages of the buckets. -/
def sharePct (l : List Sample) (b : Bucket) : ℚ := bucketCount l b * 100 / l.length

theorem sum_sharePct {l : List Sample} (h : l ≠ []) : ∑ b, sharePct l b = 100 := by
  have hlen : (l.length : ℚ) ≠ 0 := by
    rw [Nat.cast_ne_zero, Nat.ne_zero_iff_zero_lt]
    exact List.length_pos_iff.mpr h
  have hcounts : ∑ b, (bucketCount l b : ℚ) = l.length := by
    rw [← Nat.cast_sum]
    exact congrArg _ (sum_countP_bucket l)
  simp only [sharePct]
  rw [← Finset.sum_div, ← Finset.sum_mul, hcounts, mul_div_cancel_left₀ _ hlen]

theorem sharePct_mem_Icc {l : List Sample} (h : l ≠ []) (b : Bucket) :
    sharePct l b ∈ Set.Icc ((0 : ℤ) : ℚ) (100 : ℤ) := by
  have hnonneg : ∀ b, 0 ≤ sharePct l b := fun b => by
    unfold sharePct
    positivity
  push_cast
  refine ⟨hnonneg b, ?_⟩
  rw [← sum_sharePct h]
  exact Finset.single_le_sum (fun b _ => hnonneg b) (Finset.mem_univ b)

section Model

variable {F : Type} [Zero F]

/-- An item is made from the samples of its client, of which there are some. -/
theorem exists_of_mem_allItems {records : List (Ap.DeviceTimePoint F)} {requested : Window}
    {item : McpClientRssiItem} (h : item ∈ allItems (clientStatsByMac records requested)) :
    samplesOf records requested item.mac ≠ [] ∧
      item = makeItem item.mac ((samplesOf records requested item.mac).foldl addSample {}) := by
  obtain ⟨t, hget, -, hitem⟩ := mem_allItems.mp h
  obtain ⟨hne, rfl⟩ := eq_of_getElem?_clientStatsByMac hget
  exact ⟨hne, hitem⟩

/-- The clients of the list are those with a sample. -/
theorem exists_mem_allItems_iff (records : List (Ap.DeviceTimePoint F)) (requested : Window)
    (mac : Str) :
    (∃ item ∈ allItems (clientStatsByMac records requested), item.mac = mac) ↔
      samplesOf records requested mac ≠ [] := by
  refine ⟨?_, ?_⟩
  · rintro ⟨item, hitem, rfl⟩
    exact (exists_of_mem_allItems hitem).1
  · intro hne
    refine ⟨makeItem mac ((samplesOf records requested mac).foldl addSample {}),
      mem_allItems.mpr ⟨_, ?_, ?_, rfl⟩, rfl⟩
    · rw [getElem?_clientStatsByMac]
      exact if_neg fun h => hne (List.isEmpty_iff.mp h)
    · rw [totalSamples_stats]
      exact (List.length_pos_iff.mpr hne).ne'

theorem rssiTotalSamples_of_mem_allItems {records : List (Ap.DeviceTimePoint F)}
    {requested : Window} {item : McpClientRssiItem}
    (h : item ∈ allItems (clientStatsByMac records requested)) :
    item.rssiTotalSamples = (samplesOf records requested item.mac).length := by
  rw [(exists_of_mem_allItems h).2]
  exact totalSamples_stats _

theorem itemPct_of_mem_allItems {records : List (Ap.DeviceTimePoint F)} {requested : Window}
    {item : McpClientRssiItem} (h : item ∈ allItems (clientStatsByMac records requested))
    (b : Bucket) :
    itemPct item b = roundTwoDecimals (sharePct (samplesOf records requested item.mac) b) := by
  have hitem := (exists_of_mem_allItems h).2
  have hpct := congrArg (itemPct · b) hitem
  simp only [itemPct_makeItem, count_stats, totalSamples_stats] at hpct
  exact hpct

/-! ## The observed interval -/

/-- The times of the samples of a client. -/
def clientTimes (records : List (Ap.DeviceTimePoint F)) (requested : Window) (mac : Str) :
    Set (ℕ × ℕ) :=
  {i | ∃ s ∈ samplesOf records requested mac, i = s.instant}

/-- The interval the program keeps for a client. -/
def clientObserved (stats : ClientStatsByMac) (mac : Str) : Option (ℕ × ℕ) :=
  (stats[mac]?).bind RssiClientStats.observed

theorem encloses_clientObserved (records : List (Ap.DeviceTimePoint F)) (requested : Window)
    (mac : Str) :
    Encloses (clientTimes records requested mac)
      (clientObserved (clientStatsByMac records requested) mac) := by
  unfold clientObserved
  rw [getElem?_clientStatsByMac]
  split_ifs with hempty
  · unfold clientTimes
    rw [List.isEmpty_iff.mp hempty]
    exact Set.eq_empty_of_forall_notMem fun i ⟨s, hs, _⟩ => absurd hs List.not_mem_nil
  · exact encloses_observed _

/-- One turn of the last loop widens the interval by that of the client. -/
theorem widenObserved_eq (stats : ClientStatsByMac) (o : Option (UInt64 × UInt64))
    (item : McpClientRssiItem) :
    (widenObserved stats o item).map (Prod.map UInt64.toNat UInt64.toNat)
      = widen (o.map (Prod.map UInt64.toNat UInt64.toNat)) (clientObserved stats item.mac) := by
  unfold widenObserved clientObserved
  cases stats[item.mac]? with
  | none => exact (widen_none _).symm
  | some t =>
      simp only [Option.bind_some, RssiClientStats.observed]
      cases t.hasSample
      · exact (widen_none _).symm
      · cases o with
        | none => rfl
        | some i =>
            simp only [Bool.not_true, Bool.false_eq_true, if_false, if_true, Option.map_some,
              Prod.map, UInt64.toNat_min, UInt64.toNat_max]
            rfl

theorem encloses_foldl_widenObserved (records : List (Ap.DeviceTimePoint F)) (requested : Window)
    (items : List McpClientRssiItem) :
    Encloses {i | ∃ item ∈ items, i ∈ clientTimes records requested item.mac}
      ((items.foldl (widenObserved (clientStatsByMac records requested)) none).map
        (Prod.map UInt64.toNat UInt64.toNat)) := by
  have hfold : ∀ o : Option (UInt64 × UInt64),
      (items.foldl (widenObserved (clientStatsByMac records requested)) o).map
          (Prod.map UInt64.toNat UInt64.toNat)
        = items.foldl
            (fun o item => widen o (clientObserved (clientStatsByMac records requested) item.mac))
            (o.map (Prod.map UInt64.toNat UInt64.toNat)) := by
    induction items with
    | nil => exact fun o => rfl
    | cons item rest ih =>
        intro o
        rw [List.foldl_cons, List.foldl_cons, ih, widenObserved_eq]
  -- widening by one client after the other ends at the hull of them all
  have hall := Encloses.foldl
    (fun item : McpClientRssiItem => encloses_clientObserved records requested item.mac) items
    encloses_empty
  rw [Set.empty_union] at hall
  rw [hfold]
  exact hall

/-! ## Reordered records -/

/-- The same SSID with its associations in another order. -/
def SameSsid (ssid ssid' : Ap.SSIDTimePoint F) : Prop :=
  ssid.associations.Perm ssid'.associations ∧
    ssid' = { ssid with associations := ssid'.associations }

/-- The same record with its SSIDs in another order, each with its associations in any
    order. -/
def SameRecord (record record' : Ap.DeviceTimePoint F) : Prop :=
  Multiset.Rel (SameSsid (F := F)) ↑record.ssidData ↑record'.ssidData ∧
    record' = { record with ssidData := record'.ssidData }

/-- The same records in another order, each reordered within. -/
def SameRecords (records records' : List (Ap.DeviceTimePoint F)) : Prop :=
  Multiset.Rel (SameRecord (F := F)) ↑records ↑records'

/-- Related lists whose related elements yield the same values yield the same values. -/
theorem flatMap_perm_of_rel {α β : Type*} {R : α → α → Prop} {f g : α → List β} {l l' : List α}
    (h : Multiset.Rel R ↑l ↑l') (hfg : ∀ a b, R a b → (f a).Perm (g b)) :
    (l.flatMap f).Perm (l'.flatMap g) := by
  have hbind := Multiset.rel_bind (p := (· = ·)) (f := fun a => (f a : Multiset β))
    (g := fun b => (g b : Multiset β)) (fun a b hab => by
      rw [Multiset.rel_eq, Multiset.coe_eq_coe]
      exact hfg a b hab) h
  rwa [Multiset.rel_eq, Multiset.coe_bind, Multiset.coe_bind, Multiset.coe_eq_coe] at hbind

theorem recordSamples_perm (requested : Window) {record record' : Ap.DeviceTimePoint F}
    (h : SameRecord record record') :
    (recordSamples requested record).Perm (recordSamples requested record') := by
  obtain ⟨hssids, hrecord⟩ := h
  have htime : record'.timestamp = record.timestamp := by rw [hrecord]
  have hsample : sampleOf record' = sampleOf record := by
    funext assoc
    rw [sampleOf, sampleOf, htime]
  unfold recordSamples
  rw [htime, hsample]
  split_ifs
  · exact flatMap_perm_of_rel hssids fun ssid ssid' hsame => hsame.1.filterMap _
  · exact .refl _

theorem samples_perm (requested : Window) {records records' : List (Ap.DeviceTimePoint F)}
    (h : SameRecords records records') :
    (samples records requested).Perm (samples records' requested) :=
  flatMap_perm_of_rel h fun _ _ => recordSamples_perm requested

/-! ## The response -/

/-- What a summary says about the clients of the records. -/
structure ListsQuality (records : List (Ap.DeviceTimePoint F)) (requested : Window)
    (format : UInt64 → Str) (summary : McpClientRssiQualitySummary)
    (all : List McpClientRssiItem) : Prop where
  /-- the clients that are listed before the list is cut -/
  clients : ∀ mac, (∃ item ∈ all, item.mac = mac) ↔
    ∃ record ∈ records, timestampInHalfOpenWindow record.timestamp requested = true ∧
      ∃ ssid ∈ record.ssidData, ∃ assoc ∈ ssid.associations,
        normalizeClientMac assoc.station = some mac ∧ ValidRssi assoc.rssi
  canonical : ∀ item ∈ all, normalizeClientMac item.mac = some item.mac
  total : ∀ item ∈ all, item.rssiTotalSamples = (samplesOf records requested item.mac).length
  buckets : ∀ item ∈ all,
    ∑ b, bucketCount (samplesOf records requested item.mac) b = item.rssiTotalSamples
  pct : ∀ item ∈ all, ∀ b, itemPct item b = roundTwoDecimals
    (bucketCount (samplesOf records requested item.mac) b * 100 / item.rssiTotalSamples)
  range : ∀ item ∈ all, ∀ b, itemPct item b ∈ Set.Icc 0 100
  sum : ∀ item ∈ all, |∑ b, itemPct item b - 100| ≤ 0.02
  ordered : all.Pairwise fun a b => compare a.mac b.mac = .lt
  items : summary.items = all.take (min 500 all.length)
  totalClients : summary.totalClients = all.length
  truncated : summary.truncated = true ↔ 500 < all.length
  requestedWindow : summary.requestedWindow
    = { startTime := format requested.startTime, endTime := format requested.endTime }
  /-- the interval around the samples of the returned clients -/
  window : ∃ observed : Option (UInt64 × UInt64),
    summary.observedWindow.startTime = observed.map (fun o => format o.1) ∧
    summary.observedWindow.endTime = observed.map (fun o => format o.2) ∧
    Encloses {i | ∃ item ∈ summary.items, i ∈ clientTimes records requested item.mac}
      (observed.map (Prod.map UInt64.toNat UInt64.toNat))

theorem listsQuality (P : Platform) (records : List (Ap.DeviceTimePoint F)) (requested : Window) :
    ListsQuality records requested (formatTimestamp P)
      (calculateDeviceRssiQualitySummary P records requested)
      (allItems (clientStatsByMac records requested)) where
  clients mac := by
    rw [exists_mem_allItems_iff]
    refine ⟨?_, ?_⟩
    · intro hne
      obtain ⟨s, hs⟩ := List.exists_mem_of_ne_nil _ hne
      obtain ⟨record, hrecord, hwin, ssid, hssid, assoc, hassoc, hmac, hvalid, -⟩ :=
        mem_samplesOf.mp hs
      exact ⟨record, hrecord, hwin, ssid, hssid, assoc, hassoc, hmac, hvalid⟩
    · rintro ⟨record, hrecord, hwin, ssid, hssid, assoc, hassoc, hmac, hvalid⟩
      exact List.ne_nil_of_mem (mem_samplesOf.mpr
        ⟨record, hrecord, hwin, ssid, hssid, assoc, hassoc, hmac, hvalid, rfl⟩)
  canonical item hitem := by
    obtain ⟨s, hs⟩ := List.exists_mem_of_ne_nil _ (exists_of_mem_allItems hitem).1
    obtain ⟨_, _, _, _, _, _, _, hmac, _⟩ := mem_samplesOf.mp hs
    exact normalizeClientMac_idem hmac
  total item hitem := rssiTotalSamples_of_mem_allItems hitem
  buckets item hitem := by
    rw [rssiTotalSamples_of_mem_allItems hitem]
    exact sum_countP_bucket _
  pct item hitem b := by
    rw [rssiTotalSamples_of_mem_allItems hitem]
    exact itemPct_of_mem_allItems hitem b
  range item hitem b := by
    have hshare := sharePct_mem_Icc (exists_of_mem_allItems hitem).1 b
    rw [itemPct_of_mem_allItems hitem, roundTwoDecimals]
    simpa using Rounding.roundTo_mem_Icc (d := 100) (by norm_num) hshare
  sum item hitem := by
    have hround := Rounding.abs_sum_roundTo_sub (d := 100) (by norm_num) Finset.univ
      (sharePct (samplesOf records requested item.mac))
    rw [sum_sharePct (exists_of_mem_allItems hitem).1] at hround
    simp only [itemPct_of_mem_allItems hitem, roundTwoDecimals]
    refine hround.trans ?_
    have hcard : (Finset.univ : Finset Bucket).card = 4 := rfl
    rw [hcard]
    norm_num
  ordered := pairwise_allItems _
  items := by
    rw [← List.take_eq_take_min]
    show (if (allItems (clientStatsByMac records requested)).length > 500 then _ else _) = _
    split_ifs with hlen
    · rfl
    · exact (List.take_of_length_le (not_lt.mp hlen)).symm
  totalClients := rfl
  truncated := decide_eq_true_iff
  requestedWindow := rfl
  window := by
    refine ⟨_, rfl, rfl, ?_⟩
    -- the loop runs over the items that are returned, cut to length
    exact encloses_foldl_widenObserved records requested _

/-- The list of a summary for every list of records and every window; reordering the records,
    their SSIDs or the associations of these changes nothing. -/
theorem lists_quality (P : Platform) (records : List (Ap.DeviceTimePoint F))
    (requested : Window) :
    (∃ all, ListsQuality records requested (formatTimestamp P)
      (calculateDeviceRssiQualitySummary P records requested) all) ∧
    ∀ records', SameRecords records records' →
      calculateDeviceRssiQualitySummary P records' requested
        = calculateDeviceRssiQualitySummary P records requested := by
  refine ⟨⟨_, listsQuality P records requested⟩, ?_⟩
  intro records' h
  unfold calculateDeviceRssiQualitySummary
  rw [clientStatsByMac_congr (samples_perm requested h)]

end Model

end OwAnalytics.Mcp.Rssi
