/-
  OwAnalytics.Mcp.Bandwidth.Reference

  What client usage means, stated without the program: a stream is a counter
  series for each direction, and the usage of a client over a window is the sum
  of the increases of its streams.  The program computes exactly that, clipped at
  the largest 64-bit value.

  The walk over one deduplicated stream is related to the series first (one
  sample, then the whole stream), then the fold over the streams of a client.
-/

import OwAnalytics.Lib.Saturating
import OwAnalytics.Lib.TimeSeries
import OwAnalytics.Mcp.Bandwidth.Streams

namespace OwAnalytics.Mcp

open AnalyticsObjects Grouping Saturating TimeSeries

/-- The instants of a requested window. -/
abbrev Window.Contains (w : Window) (t : ℕ) : Prop := Within w.startTime.toNat w.endTime.toNat t

theorem timestampInHalfOpenWindow_iff (t : UInt64) (w : Window) :
    timestampInHalfOpenWindow t w = true ↔ w.Contains t.toNat := by
  simp [timestampInHalfOpenWindow, Within, UInt64.le_iff_toNat_le, UInt64.lt_iff_toNat_lt]

namespace Bandwidth

/-- The largest `uint64_t`. -/
abbrev counterMax : ℕ := 2 ^ 64 - 1

/-! ## Usage -/

/-- The counter `d` of a reading as a point of its series, when it is present. -/
def Reading.point (d : Direction) (r : Reading) : Option (Point ℕ) :=
  (r.counter d).map fun value => ⟨r.timestamp.toNat, value.toNat⟩

/-- The series of the counter `d` of a stream: its settled readings that carry it. -/
def series (d : Direction) (rs : List Reading) : Finset (Point ℕ) :=
  ((rs.filter (Settled rs ·)).filterMap (Reading.point d)).toFinset

theorem mem_series {d : Direction} {rs : List Reading} {p : Point ℕ} :
    p ∈ series d rs ↔ ∃ r, Settled rs r ∧ r.point d = some p := by
  simp only [series, List.mem_toFinset, List.mem_filterMap, List.mem_filter, decide_eq_true_eq]
  refine ⟨?_, ?_⟩
  · rintro ⟨r, ⟨-, hr⟩, hp⟩
    exact ⟨r, hr, hp⟩
  · rintro ⟨r, hr, hp⟩
    exact ⟨r, ⟨hr.1, hr⟩, hp⟩

/-- The stream of a key: all its readings, in the order of the records. -/
def streamOf (records : List DeviceTimePoint) (key : StreamKey) : List Reading :=
  valuesAt key (keyedReadings records)

/-- The streams of a client. -/
def clientStreams (records : List DeviceTimePoint) (mac : Str) : Finset StreamKey :=
  (((keyedReadings records).map Prod.fst).filter (·.mac = mac)).toFinset

theorem mem_clientStreams {records : List DeviceTimePoint} {mac : Str} {key : StreamKey} :
    key ∈ clientStreams records mac ↔ key.mac = mac ∧ ∃ r, (key, r) ∈ keyedReadings records := by
  simp [clientStreams, and_comm]

/-- What one stream contributes to the usage of its client. -/
def contribution (d : Direction) (records : List DeviceTimePoint) (w : Window)
    (key : StreamKey) : ℕ :=
  increase (series d (streamOf records key)) w.Contains

/-- The usage of a client over a window. -/
def usage (d : Direction) (records : List DeviceTimePoint) (w : Window) (mac : Str) : ℕ :=
  ∑ key ∈ clientStreams records mac, contribution d records w key

/-! ## Saturating addition -/

/-- `SaturatingAdd` is addition clipped at the largest value; neither the subtraction in its
    test nor the addition it returns wraps. -/
theorem toNat_saturatingAdd (left right : UInt64) :
    (saturatingAdd left right).toNat = clipAdd counterMax left.toNat right.toNat := by
  have hleft := left.toNat_lt
  have hright := right.toNat_lt
  have hmax : (UInt64.ofNat (2 ^ 64 - 1)).toNat = 2 ^ 64 - 1 := by decide
  have hle : left ≤ UInt64.ofNat (2 ^ 64 - 1) := by
    rw [UInt64.le_iff_toNat_le, hmax]
    omega
  have hsub : (UInt64.ofNat (2 ^ 64 - 1) - left).toNat = 2 ^ 64 - 1 - left.toNat := by
    rw [UInt64.toNat_sub_of_le _ _ hle, hmax]
  unfold saturatingAdd clipAdd counterMax
  by_cases hfull : UInt64.ofNat (2 ^ 64 - 1) - left < right
  · rw [if_pos hfull, hmax]
    rw [UInt64.lt_iff_toNat_lt, hsub] at hfull
    omega
  · rw [if_neg hfull]
    rw [UInt64.lt_iff_toNat_lt, hsub] at hfull
    rw [UInt64.toNat_add]
    omega

theorem min_counterMax_toNat (v : UInt64) : min counterMax v.toNat = v.toNat := by
  have hlt := v.toNat_lt
  show min (2 ^ 64 - 1) v.toNat = v.toNat
  omega

/-! ## One sample -/

/-- The sample as a point of a time series. -/
def CounterSample.point (c : CounterSample) : Point ℕ := ⟨c.timestamp.toNat, c.value.toNat⟩

/-- The window flag of a remembered counter is the one its timestamp has. -/
def CounterSample.WellFlagged (requested : Window) (c : CounterSample) : Prop :=
  c.inWindow = timestampInHalfOpenWindow c.timestamp requested

@[simp] theorem ClientTotals.total_setTotal (t : ClientTotals) (d : Direction) (v : UInt64) :
    (t.setTotal d v).total d = v := by
  cases d <;> rfl

theorem ClientTotals.total_setTotal_of_ne (t : ClientTotals) {d d' : Direction} (v : UInt64)
    (h : d' ≠ d) : (t.setTotal d v).total d' = t.total d' := by
  cases d <;> cases d' <;> first | rfl | exact absurd rfl h

@[simp] theorem total_markObservedSegment (t : ClientTotals) (start stop : UInt64)
    (d : Direction) : (markObservedSegment t start stop).total d = t.total d := by
  unfold markObservedSegment
  split_ifs <;> cases d <;> rfl

@[simp] theorem total_markObservation (t : ClientTotals) (s : Sample) (d : Direction) :
    (markObservation t s).total d = t.total d := by
  unfold markObservation
  split_ifs <;> cases d <;> rfl

/-- A sample without the counter changes neither the register nor the totals. -/
theorem applyCounterSample_none {d : Direction} {current : Sample}
    (h : current.counter d = none) (previous : Option CounterSample) (totals : ClientTotals) :
    applyCounterSample d previous current totals = (previous, totals) := by
  unfold applyCounterSample
  rw [h]

/-- The counter sample a sample leaves in the register. -/
def Sample.remembered (s : Sample) (value : UInt64) : CounterSample :=
  { timestamp := s.timestamp, value, inWindow := s.inWindow }

/-- A sample with the counter enters the register. -/
theorem applyCounterSample_fst {d : Direction} {current : Sample} {value : UInt64}
    (h : current.counter d = some value) (previous : Option CounterSample)
    (totals : ClientTotals) :
    (applyCounterSample d previous current totals).1 = some (current.remembered value) := by
  unfold applyCounterSample
  rw [h]
  cases previous with
  | none => rfl
  | some prev =>
      simp only
      split_ifs <;> rfl

/-- The first counter of a stream adds nothing. -/
theorem total_applyCounterSample_first {d : Direction} (current : Sample)
    (totals : ClientTotals) (d' : Direction) :
    (applyCounterSample d none current totals).2.total d' = totals.total d' := by
  unfold applyCounterSample
  cases current.counter d <;> rfl

/-- The test of the program is the one that counts a pair. -/
theorem counted_iff {requested : Window} {prev : CounterSample} {current : Sample}
    (hprev : prev.WellFlagged requested) (hcur : current.WellFlagged requested) (value : UInt64) :
    ((prev.inWindow || current.inWindow) && prev.value ≤ value) = true ↔
      Counted requested.Contains (prev.point, (current.remembered value).point) := by
  rw [hprev, hcur]
  simp only [Bool.and_eq_true, Bool.or_eq_true, decide_eq_true_eq,
    timestampInHalfOpenWindow_iff, UInt64.le_iff_toNat_le]
  rfl

/-- A later counter adds the gain of the pair it forms with the remembered one. -/
theorem total_applyCounterSample {requested : Window} {d : Direction} {prev : CounterSample}
    {current : Sample} {value : UInt64} (h : current.counter d = some value)
    (hprev : prev.WellFlagged requested) (hcur : current.WellFlagged requested)
    (totals : ClientTotals) :
    ((applyCounterSample d (some prev) current totals).2.total d).toNat
      = clipAdd counterMax (totals.total d).toNat
          (gain requested.Contains (prev.point, (current.remembered value).point)) := by
  have hcounted := counted_iff hprev hcur value
  unfold applyCounterSample gain
  rw [h]
  simp only
  by_cases hc : Counted requested.Contains (prev.point, (current.remembered value).point)
  · have hle : prev.value ≤ value := UInt64.le_iff_toNat_le.mpr hc.2
    rw [if_pos (hcounted.mpr hc), if_pos hc]
    simp only [total_markObservedSegment, ClientTotals.total_setTotal]
    rw [toNat_saturatingAdd, UInt64.toNat_sub_of_le _ _ hle]
    rfl
  · rw [if_neg (fun htrue => hc (hcounted.mp htrue)), if_neg hc]
    exact (min_counterMax_toNat _).symm

/-- The calculation for one direction leaves the total of the other alone. -/
theorem total_applyCounterSample_of_ne {d d' : Direction} (hne : d' ≠ d)
    (previous : Option CounterSample) (current : Sample) (totals : ClientTotals) :
    (applyCounterSample d previous current totals).2.total d' = totals.total d' := by
  unfold applyCounterSample
  cases current.counter d with
  | none => rfl
  | some value =>
      cases previous with
      | none => rfl
      | some prev =>
          simp only
          split_ifs
          · rw [total_markObservedSegment, ClientTotals.total_setTotal_of_ne _ _ hne]
          · rfl

/-! ## One stream -/

/-- The register of one direction. -/
def Registers.previous (r : Registers) : Direction → Option CounterSample
  | .rx => r.previousRx
  | .tx => r.previousTx

theorem previous_applySample (r : Registers) (current : Sample) (d : Direction) :
    (applySample r current).previous d
      = (applyCounterSample d (r.previous d) current r.totals).1 := by
  cases d with
  | rx => rfl
  | tx =>
      show (applyCounterSample .tx r.previousTx current _).1 = _
      cases hcounter : current.counter .tx with
      | none => rw [applyCounterSample_none hcounter, applyCounterSample_none hcounter]; rfl
      | some value =>
          rw [applyCounterSample_fst hcounter, applyCounterSample_fst hcounter]

/-- Each direction is applied to totals whose own entry the other one has not touched. -/
theorem total_applySample (r : Registers) (current : Sample) (d : Direction) :
    ∃ totals : ClientTotals, totals.total d = r.totals.total d ∧
      (applySample r current).totals.total d
        = (applyCounterSample d (r.previous d) current totals).2.total d := by
  cases d with
  | rx => exact ⟨r.totals, rfl, total_applyCounterSample_of_ne (by decide) _ _ _⟩
  | tx =>
      exact ⟨(applyCounterSample .rx r.previousRx current r.totals).2,
        total_applyCounterSample_of_ne (by decide) _ _ _, rfl⟩

/-- The gains of the neighbours in a list of points. -/
def walkGain (W : ℕ → Prop) [DecidablePred W] (l : List (Point ℕ)) : ℕ :=
  ((l.zip l.tail).map (gain W)).sum

theorem walkGain_cons_cons (W : ℕ → Prop) [DecidablePred W] (p q : Point ℕ)
    (l : List (Point ℕ)) : walkGain W (p :: q :: l) = gain W (p, q) + walkGain W (q :: l) := by
  simp [walkGain]

theorem counter_toSample (requested : Window) (r : Reading) (d : Direction) :
    (r.toSample requested).counter d = r.counter d := by
  cases d <;> rfl

theorem wellFlagged_toSample (requested : Window) (r : Reading) :
    (r.toSample requested).WellFlagged requested := rfl

/-- The point of a reading, told by the counter of its sample. -/
theorem point_of_counter {requested : Window} {x : Reading} {d : Direction} {value : UInt64}
    (h : (x.toSample requested).counter d = some value) :
    x.point d = some ((x.toSample requested).remembered value).point := by
  rw [Reading.point, ← counter_toSample requested, h]
  rfl

theorem point_of_counter_none {requested : Window} {x : Reading} {d : Direction}
    (h : (x.toSample requested).counter d = none) : x.point d = none := by
  rw [Reading.point, ← counter_toSample requested, h]
  rfl

/-- The loop over a deduplicated stream adds the gains of the neighbours among the points of
    the direction, the remembered one in front; once clipped the total stays clipped. -/
theorem total_foldl_applySample (requested : Window) (d : Direction) (rs : List Reading)
    (r : Registers) (hprev : ∀ c ∈ r.previous d, c.WellFlagged requested) :
    (((rs.map (Reading.toSample requested)).foldl applySample r).totals.total d).toNat
      = clipAdd counterMax (r.totals.total d).toNat
          (walkGain requested.Contains
            (((r.previous d).map CounterSample.point).toList
              ++ rs.filterMap (Reading.point d))) := by
  induction rs generalizing r with
  | nil =>
      cases r.previous d <;> simp [walkGain, clipAdd, min_counterMax_toNat]
  | cons x rest ih =>
      obtain ⟨totals, htotals, hstep⟩ := total_applySample r (x.toSample requested) d
      rw [List.map_cons, List.foldl_cons]
      cases hcounter : (x.toSample requested).counter d with
      | none =>
          -- A sample without the counter leaves the register as it is.
          have hpoint : x.point d = none := point_of_counter_none hcounter
          have hreg : (applySample r (x.toSample requested)).previous d = r.previous d := by
            rw [previous_applySample, applyCounterSample_none hcounter]
          rw [ih _ (by rwa [hreg]), hreg, hstep, applyCounterSample_none hcounter, htotals,
            List.filterMap_cons_none hpoint]
      | some value =>
          have hpoint : x.point d = some ((x.toSample requested).remembered value).point :=
            point_of_counter hcounter
          have hreg : (applySample r (x.toSample requested)).previous d
              = some ((x.toSample requested).remembered value) := by
            rw [previous_applySample, applyCounterSample_fst hcounter]
          have hflag : ((x.toSample requested).remembered value).WellFlagged requested := rfl
          rw [ih _ (by rw [hreg]; simpa using hflag), hreg, hstep,
            List.filterMap_cons_some hpoint]
          cases hold : r.previous d with
          | none =>
              -- The first counter of a stream has nothing to be compared with.
              rw [total_applyCounterSample_first, htotals]
              rfl
          | some prev =>
              have hprev' : prev.WellFlagged requested := hprev prev hold
              rw [total_applyCounterSample hcounter hprev' (wellFlagged_toSample requested x),
                htotals]
              simp only [Option.map_some, Option.toList_some, List.singleton_append]
              rw [walkGain_cons_cons, clipAdd_clipAdd]

theorem total_foldl_markObservation (l : List Sample) (t : ClientTotals) (d : Direction) :
    (l.foldl markObservation t).total d = t.total d := by
  induction l generalizing t with
  | nil => rfl
  | cons s rest ih => rw [List.foldl_cons, ih, total_markObservation]

/-- What a stream adds to the total of its client, as a walk over its points. -/
theorem total_applyReadings (requested : Window) (totals : ClientTotals) (rs : List Reading)
    (d : Direction) :
    ((applyReadings requested totals rs).total d).toNat
      = clipAdd counterMax (totals.total d).toNat
          (walkGain requested.Contains (rs.filterMap (Reading.point d))) := by
  unfold applyReadings applyStream
  simp only [List.length_map]
  by_cases hshort : rs.length < 2
  · -- fewer than two samples have no neighbours
    have hzero : walkGain requested.Contains (rs.filterMap (Reading.point d)) = 0 := by
      have hlen := List.length_filterMap_le (Reading.point d) rs
      cases hl : rs.filterMap (Reading.point d) with
      | nil => rfl
      | cons p l =>
          cases l with
          | nil => rfl
          | cons q l =>
              rw [hl] at hlen
              simp at hlen
              omega
    rw [if_pos hshort, total_foldl_markObservation, hzero, clipAdd, add_zero,
      min_counterMax_toNat]
  · rw [if_neg hshort, total_foldl_applySample _ _ _ _ (by cases d <;> simp [Registers.previous]),
      total_foldl_markObservation]
    cases d <;> rfl

/-! ## All streams of a client -/

/-- The settled readings of a stream list its series in ascending order. -/
theorem ascending_settled {records : List DeviceTimePoint} {requested : Window} {key : StreamKey}
    {rs : List Reading} (h : (settledStreams records requested)[key]? = some rs) (d : Direction) :
    Ascending (rs.filterMap (Reading.point d)) := by
  refine List.Pairwise.filterMap _ ?_ (getElem?_settledStreams_eq_some h).1
  intro r r' hlt p hp q hq
  obtain ⟨v, -, rfl⟩ := Option.map_eq_some_iff.mp hp
  obtain ⟨v', -, rfl⟩ := Option.map_eq_some_iff.mp hq
  exact UInt64.lt_iff_toNat_lt.mp hlt

theorem toFinset_settled {records : List DeviceTimePoint} {requested : Window} {key : StreamKey}
    {rs : List Reading} (h : (settledStreams records requested)[key]? = some rs) (d : Direction) :
    (rs.filterMap (Reading.point d)).toFinset = series d (streamOf records key) := by
  ext p
  rw [List.mem_toFinset, mem_series, List.mem_filterMap]
  simp only [(getElem?_settledStreams_eq_some h).2]
  rfl

theorem walkGain_settled {records : List DeviceTimePoint} {requested : Window} {key : StreamKey}
    {rs : List Reading} (h : (settledStreams records requested)[key]? = some rs) (w : Window)
    (d : Direction) :
    walkGain w.Contains (rs.filterMap (Reading.point d)) = contribution d records w key := by
  rw [contribution, ← toFinset_settled h, increase_toFinset (ascending_settled h d)]
  rfl

/-- The fold over the streams of one client. -/
theorem total_foldl_applyReadings (requested : Window) (d : Direction) (l : List (List Reading))
    (totals : ClientTotals) :
    ((l.foldl (applyReadings requested) totals).total d).toNat
      = clipAdd counterMax (totals.total d).toNat
          (l.map fun rs => walkGain requested.Contains (rs.filterMap (Reading.point d))).sum := by
  induction l generalizing totals with
  | nil => simp [clipAdd, min_counterMax_toNat]
  | cons rs rest ih =>
      rw [List.foldl_cons, ih, total_applyReadings, clipAdd_clipAdd, List.map_cons, List.sum_cons]

/-- The keys under which a client has settled streams. -/
def macStreams (records : List DeviceTimePoint) (requested : Window) (mac : Str) :
    List (StreamKey × List Reading) :=
  (settledStreams records requested).toList.filter (·.1.mac = mac)

theorem getElem?_of_mem_macStreams {records : List DeviceTimePoint} {requested : Window}
    {mac : Str} {s : StreamKey × List Reading} (h : s ∈ macStreams records requested mac) :
    (settledStreams records requested)[s.1]? = some s.2 :=
  Std.ExtTreeMap.mem_toList_iff_getElem?_eq_some.mp (List.mem_filter.mp h).1

theorem valuesAt_settledStreams (records : List DeviceTimePoint) (requested : Window)
    (mac : Str) :
    valuesAt mac ((settledStreams records requested).toList.map fun s => (s.1.mac, s.2))
      = (macStreams records requested mac).map Prod.snd := by
  unfold valuesAt macStreams
  rw [List.filterMap_map, ← List.filterMap_eq_map, ← List.filterMap_eq_filter,
    List.filterMap_filterMap]
  congr 1
  funext s
  by_cases h : s.1.mac = mac <;> simp [h, Option.guard]

theorem nodup_fst_macStreams (records : List DeviceTimePoint) (requested : Window) (mac : Str) :
    ((macStreams records requested mac).map Prod.fst).Nodup := by
  have hkeys : ((settledStreams records requested).toList.map Prod.fst).Nodup := by
    rw [Std.ExtTreeMap.map_fst_toList_eq_keys]
    exact Std.ExtTreeMap.nodup_keys
  exact hkeys.sublist (List.filter_sublist.map _)

theorem toFinset_fst_macStreams (records : List DeviceTimePoint) (requested : Window)
    (mac : Str) :
    ((macStreams records requested mac).map Prod.fst).toFinset = clientStreams records mac := by
  ext key
  rw [List.mem_toFinset, List.mem_map, mem_clientStreams]
  refine ⟨?_, ?_⟩
  · rintro ⟨⟨key', rs⟩, hmem, rfl⟩
    obtain ⟨hmem, hmac⟩ := List.mem_filter.mp hmem
    have hget := Std.ExtTreeMap.mem_toList_iff_getElem?_eq_some.mp hmem
    refine ⟨by simpa using hmac, ?_⟩
    -- a stream in the map has a reading
    by_contra hnone
    rw [getElem?_settledStreams_eq_none.mpr (by simpa using hnone)] at hget
    exact absurd hget (by simp)
  · rintro ⟨hmac, r, hr⟩
    cases hget : (settledStreams records requested)[key]? with
    | none => exact absurd hr (getElem?_settledStreams_eq_none.mp hget r)
    | some rs =>
        refine ⟨(key, rs), ?_, rfl⟩
        rw [macStreams, List.mem_filter]
        exact ⟨Std.ExtTreeMap.mem_toList_iff_getElem?_eq_some.mpr hget, by simpa using hmac⟩

/-- The totals the program keeps for a client, the default ones when it keeps none. -/
def clientTotals (records : List DeviceTimePoint) (requested : Window) (mac : Str) :
    ClientTotals :=
  (totalsByMac records requested)[mac]?.getD {}

theorem clientTotals_eq (records : List DeviceTimePoint) (requested : Window) (mac : Str) :
    clientTotals records requested mac
      = ((macStreams records requested mac).map Prod.snd).foldl (applyReadings requested) {} := by
  rw [clientTotals, totalsByMac_eq, getElem?_foldl_accumulate, valuesAt_settledStreams,
    Std.ExtTreeMap.getElem?_empty]
  cases (macStreams records requested mac).map Prod.snd <;> rfl

/-- The total of a client is its usage, clipped at the largest value. -/
theorem total_clientTotals (records : List DeviceTimePoint) (requested : Window) (mac : Str)
    (d : Direction) :
    ((clientTotals records requested mac).total d).toNat
      = min counterMax (usage d records requested mac) := by
  have hzero : (({} : ClientTotals).total d).toNat = 0 := by cases d <;> rfl
  have hsum : ((macStreams records requested mac).map Prod.snd |>.map fun rs =>
        walkGain requested.Contains (rs.filterMap (Reading.point d)))
      = ((macStreams records requested mac).map Prod.fst).map
          (contribution d records requested) := by
    rw [List.map_map, List.map_map]
    apply List.map_congr_left
    intro s hs
    exact walkGain_settled (getElem?_of_mem_macStreams hs) requested d
  rw [clientTotals_eq, total_foldl_applyReadings, hzero, hsum, clipAdd, zero_add, usage,
    ← toFinset_fst_macStreams records requested mac,
    List.sum_toFinset _ (nodup_fst_macStreams records requested mac)]

/-! ## The items of the response -/

/-- An item belongs to a client the program keeps totals for. -/
theorem exists_of_mem_allItems {P : Platform} {totals : TotalsByMac} {item : McpClientUsageItem}
    (h : item ∈ allItems P totals) :
    ∃ t, totals[item.mac]? = some t ∧ t.hasInWindowObservation = true ∧
      item = makeItem P item.mac t := by
  rw [allItems, List.mem_insertionSort, List.mem_map] at h
  obtain ⟨⟨mac, t⟩, hentry, rfl⟩ := h
  obtain ⟨hmem, hobs⟩ := List.mem_filter.mp hentry
  exact ⟨t, Std.ExtTreeMap.mem_toList_iff_getElem?_eq_some.mp hmem, hobs, rfl⟩

/-- The response carries the first items of the list. -/
theorem items_summarize_eq_take (P : Platform) (requested : Window) (totals : TotalsByMac) :
    (summarize P requested totals).data.items = (allItems P totals).take maxItems := by
  simp only [summarize]
  split_ifs with h
  · rfl
  · exact (List.take_of_length_le (not_lt.mp h)).symm

theorem exists_of_mem_items {P : Platform} {requested : Window} {totals : TotalsByMac}
    {item : McpClientUsageItem} (h : item ∈ (summarize P requested totals).data.items) :
    ∃ t, totals[item.mac]? = some t ∧ t.hasInWindowObservation = true ∧
      item = makeItem P item.mac t := by
  rw [items_summarize_eq_take] at h
  exact exists_of_mem_allItems (List.mem_of_mem_take h)

/-! ## Streams whose counter only grows -/

/-- Every reading of the stream carries the counter `d`, no timestamp is ambiguous, and the
    counter never decreases. -/
structure CleanStream (d : Direction) (rs : List Reading) : Prop where
  present : ∀ r ∈ rs, (r.counter d).isSome
  conflictFree : ∀ r ∈ rs, Settled rs r
  nondecreasing : ∀ r ∈ rs, ∀ r' ∈ rs, r.timestamp ≤ r'.timestamp →
    ∀ v ∈ r.counter d, ∀ v' ∈ r'.counter d, v ≤ v'

/-- `b` is the last reading before `start` or, when there is none, the first reading. -/
def StartReading (rs : List Reading) (start : UInt64) (b : Reading) : Prop :=
  b ∈ rs ∧
    ((b.timestamp < start ∧ ∀ r ∈ rs, r.timestamp < start → r.timestamp ≤ b.timestamp) ∨
      ((∀ r ∈ rs, start ≤ r.timestamp) ∧ ∀ r ∈ rs, b.timestamp ≤ r.timestamp))

/-- `e` is the first reading at or after `stop` or, when there is none, the last reading. -/
def EndReading (rs : List Reading) (stop : UInt64) (e : Reading) : Prop :=
  e ∈ rs ∧
    ((stop ≤ e.timestamp ∧ ∀ r ∈ rs, stop ≤ r.timestamp → e.timestamp ≤ r.timestamp) ∨
      ((∀ r ∈ rs, r.timestamp < stop) ∧ ∀ r ∈ rs, r.timestamp ≤ e.timestamp))

section CleanStream

variable {d : Direction} {rs : List Reading} (hclean : CleanStream d rs)

include hclean

/-- The series of a clean stream has one point for each reading. -/
theorem CleanStream.mem_series {p : Point ℕ} :
    p ∈ series d rs ↔ ∃ r ∈ rs, r.point d = some p := by
  rw [Bandwidth.mem_series]
  refine ⟨?_, ?_⟩
  · rintro ⟨r, hr, hp⟩
    exact ⟨r, hr.1, hp⟩
  · rintro ⟨r, hr, hp⟩
    exact ⟨r, hclean.conflictFree r hr, hp⟩

theorem CleanStream.exists_point {r : Reading} (hr : r ∈ rs) :
    ∃ p, r.point d = some p ∧ p ∈ series d rs := by
  obtain ⟨v, hv⟩ := Option.isSome_iff_exists.mp (hclean.present r hr)
  have hp : r.point d = some ⟨r.timestamp.toNat, v.toNat⟩ := by rw [Reading.point, hv]; rfl
  exact ⟨_, hp, hclean.mem_series.mpr ⟨r, hr, hp⟩⟩

theorem CleanStream.nondecreasing_series : Nondecreasing (series d rs) := by
  intro p hp q hq hle
  obtain ⟨r, hr, hrp⟩ := hclean.mem_series.mp hp
  obtain ⟨r', hr', hrq⟩ := hclean.mem_series.mp hq
  obtain ⟨v, hv, rfl⟩ := Option.map_eq_some_iff.mp hrp
  obtain ⟨v', hv', rfl⟩ := Option.map_eq_some_iff.mp hrq
  have htime : r.timestamp ≤ r'.timestamp := UInt64.le_iff_toNat_le.mpr hle
  exact UInt64.le_iff_toNat_le.mp (hclean.nondecreasing r hr r' hr' htime v hv v' hv')

omit hclean in
theorem Reading.point_time {r : Reading} {p : Point ℕ} (h : r.point d = some p) :
    p.time = r.timestamp.toNat := by
  obtain ⟨v, -, rfl⟩ := Option.map_eq_some_iff.mp h
  rfl

theorem CleanStream.isStart {start : UInt64} {b : Reading} {p : Point ℕ}
    (hb : StartReading rs start b) (hp : b.point d = some p) :
    IsStart (series d rs) start.toNat p := by
  obtain ⟨hmem, hpos⟩ := hb
  simp only [UInt64.le_iff_toNat_le, UInt64.lt_iff_toNat_lt, ← Reading.point_time hp] at hpos
  refine ⟨hclean.mem_series.mpr ⟨b, hmem, hp⟩, hpos.imp ?_ ?_⟩
  · rintro ⟨hlt, hlast⟩
    refine ⟨hlt, fun q hq hqlt => ?_⟩
    obtain ⟨r, hr, hrq⟩ := hclean.mem_series.mp hq
    rw [Reading.point_time hrq] at hqlt ⊢
    exact hlast r hr hqlt
  · rintro ⟨hnone, hfirst⟩
    refine ⟨?_, ?_⟩
    · intro q hq
      obtain ⟨r, hr, hrq⟩ := hclean.mem_series.mp hq
      rw [Reading.point_time hrq]
      exact hnone r hr
    · intro q hq
      obtain ⟨r, hr, hrq⟩ := hclean.mem_series.mp hq
      rw [Reading.point_time hrq]
      exact hfirst r hr

theorem CleanStream.isEnd {stop : UInt64} {e : Reading} {q : Point ℕ}
    (he : EndReading rs stop e) (hq : e.point d = some q) :
    IsEnd (series d rs) stop.toNat q := by
  obtain ⟨hmem, hpos⟩ := he
  simp only [UInt64.le_iff_toNat_le, UInt64.lt_iff_toNat_lt, ← Reading.point_time hq] at hpos
  refine ⟨hclean.mem_series.mpr ⟨e, hmem, hq⟩, hpos.imp ?_ ?_⟩
  · rintro ⟨hle, hfirst⟩
    refine ⟨hle, fun p hp hple => ?_⟩
    obtain ⟨r, hr, hrp⟩ := hclean.mem_series.mp hp
    rw [Reading.point_time hrp] at hple ⊢
    exact hfirst r hr hple
  · rintro ⟨hnone, hlast⟩
    refine ⟨?_, ?_⟩
    · intro p hp
      obtain ⟨r, hr, hrp⟩ := hclean.mem_series.mp hp
      rw [Reading.point_time hrp]
      exact hnone r hr
    · intro p hp
      obtain ⟨r, hr, hrp⟩ := hclean.mem_series.mp hp
      rw [Reading.point_time hrp]
      exact hlast r hr

/-- A clean stream with a reading in the window contributes the counter at its end reading
    less the counter at its start reading. -/
theorem CleanStream.increase_add {w : Window} {b e : Reading} {vb ve : UInt64}
    (hb : StartReading rs w.startTime b) (he : EndReading rs w.endTime e)
    (hvb : b.counter d = some vb) (hve : e.counter d = some ve)
    (hin : ∃ r ∈ rs, timestampInHalfOpenWindow r.timestamp w = true) :
    increase (series d rs) w.Contains + vb.toNat = ve.toNat := by
  have hp : b.point d = some ⟨b.timestamp.toNat, vb.toNat⟩ := by rw [Reading.point, hvb]; rfl
  have hq : e.point d = some ⟨e.timestamp.toNat, ve.toNat⟩ := by rw [Reading.point, hve]; rfl
  have hstart := hclean.isStart hb hp
  have hend := hclean.isEnd he hq
  obtain ⟨r, hr, hwin⟩ := hin
  obtain ⟨x, hx, hxmem⟩ := hclean.exists_point hr
  -- The window has a reading, so the increase is that between its two boundary readings.
  have hwindow : ∃ y ∈ series d rs, Within w.startTime.toNat w.endTime.toNat y.time := by
    refine ⟨x, hxmem, ?_⟩
    rw [Reading.point_time hx]
    exact (timestampInHalfOpenWindow_iff _ _).mp hwin
  have hmono := hclean.nondecreasing_series
  have hac : w.startTime.toNat ≤ w.endTime.toNat := by
    obtain ⟨y, -, hy⟩ := hwindow
    exact hy.1.trans hy.2.le
  have hle : vb.toNat ≤ ve.toNat :=
    hmono _ hstart.1 _ hend.1 (hstart.time_le hend hac)
  rw [increase_telescopes hmono hstart hend hwindow]
  exact Nat.sub_add_cancel hle

omit hclean in
theorem exists_startReading {start : UInt64} (h : rs ≠ []) : ∃ b, StartReading rs start b := by
  -- The readings as points at their times; their counters do not matter here.
  let S : Finset (Point ℕ) := (rs.map fun r => ⟨r.timestamp.toNat, 0⟩).toFinset
  have hmem : ∀ r ∈ rs, (⟨r.timestamp.toNat, 0⟩ : Point ℕ) ∈ S := fun r hr =>
    List.mem_toFinset.mpr (List.mem_map.mpr ⟨r, hr, rfl⟩)
  obtain ⟨r, hr⟩ := List.exists_mem_of_ne_nil rs h
  obtain ⟨p, hpS, hp⟩ := exists_isStart ⟨_, hmem r hr⟩ start.toNat
  obtain ⟨b, hb, rfl⟩ := List.mem_map.mp (List.mem_toFinset.mp hpS)
  refine ⟨b, hb, hp.imp ?_ ?_⟩
  · rintro ⟨hlt, hlast⟩
    refine ⟨UInt64.lt_iff_toNat_lt.mpr hlt, fun r hr hlt' => ?_⟩
    exact UInt64.le_iff_toNat_le.mpr (hlast _ (hmem r hr) (UInt64.lt_iff_toNat_lt.mp hlt'))
  · rintro ⟨hnone, hfirst⟩
    exact ⟨fun r hr => UInt64.le_iff_toNat_le.mpr (hnone _ (hmem r hr)),
      fun r hr => UInt64.le_iff_toNat_le.mpr (hfirst _ (hmem r hr))⟩

omit hclean in
theorem exists_endReading {stop : UInt64} (h : rs ≠ []) : ∃ e, EndReading rs stop e := by
  let S : Finset (Point ℕ) := (rs.map fun r => ⟨r.timestamp.toNat, 0⟩).toFinset
  have hmem : ∀ r ∈ rs, (⟨r.timestamp.toNat, 0⟩ : Point ℕ) ∈ S := fun r hr =>
    List.mem_toFinset.mpr (List.mem_map.mpr ⟨r, hr, rfl⟩)
  obtain ⟨r, hr⟩ := List.exists_mem_of_ne_nil rs h
  obtain ⟨p, hpS, hp⟩ := exists_isEnd ⟨_, hmem r hr⟩ stop.toNat
  obtain ⟨e, he, rfl⟩ := List.mem_map.mp (List.mem_toFinset.mp hpS)
  refine ⟨e, he, hp.imp ?_ ?_⟩
  · rintro ⟨hle, hfirst⟩
    refine ⟨UInt64.le_iff_toNat_le.mpr hle, fun r hr hle' => ?_⟩
    exact UInt64.le_iff_toNat_le.mpr (hfirst _ (hmem r hr) (UInt64.le_iff_toNat_le.mp hle'))
  · rintro ⟨hnone, hlast⟩
    exact ⟨fun r hr => UInt64.lt_iff_toNat_lt.mpr (hnone _ (hmem r hr)),
      fun r hr => UInt64.le_iff_toNat_le.mpr (hlast _ (hmem r hr))⟩

end CleanStream

/-! ## The items report the usage -/

/-- Every client of the response is reported with its usage, clipped at the largest value;
    no addition on the way wraps, and a clean stream with a reading in the window contributes
    the difference of two of its counters. -/
theorem items_report_usage (P : Platform) (records : List DeviceTimePoint) (requested : Window)
    (item : McpClientUsageItem)
    (h : item ∈ (calculateBandwidthConsumptionSummary P records requested).data.items) :
    item.rxBytes.toNat = min counterMax (usage .rx records requested item.mac) ∧
    item.txBytes.toNat = min counterMax (usage .tx records requested item.mac) ∧
    item.totalBytes.toNat = min counterMax (item.rxBytes.toNat + item.txBytes.toNat) ∧
    (∀ left right : UInt64,
      (saturatingAdd left right).toNat = min counterMax (left.toNat + right.toNat)) ∧
    ∀ d, ∀ key ∈ clientStreams records item.mac,
      CleanStream d (streamOf records key) →
      (∃ r ∈ streamOf records key, timestampInHalfOpenWindow r.timestamp requested = true) →
      ∃ b e vb ve, StartReading (streamOf records key) requested.startTime b ∧
        EndReading (streamOf records key) requested.endTime e ∧
        b.counter d = some vb ∧ e.counter d = some ve ∧
        contribution d records requested key + vb.toNat = ve.toNat := by
  -- The item is that of the totals of its client.
  obtain ⟨t, hget, -, hitem⟩ := exists_of_mem_items h
  have htotals : clientTotals records requested item.mac = t := by
    rw [clientTotals, hget]
    rfl
  have hrx := total_clientTotals records requested item.mac .rx
  have htx := total_clientTotals records requested item.mac .tx
  rw [htotals] at hrx htx
  refine ⟨?_, ?_, ?_, toNat_saturatingAdd, ?_⟩
  · rw [hitem]
    exact hrx
  · rw [hitem]
    exact htx
  · rw [hitem]
    exact toNat_saturatingAdd t.rx t.tx
  · intro d key hkey hclean hin
    -- A stream with a reading has a first and a last one on either side of each boundary.
    have hne : streamOf records key ≠ [] := by
      obtain ⟨r, hr, -⟩ := hin
      exact List.ne_nil_of_mem hr
    obtain ⟨b, hb⟩ : ∃ b, StartReading (streamOf records key) requested.startTime b :=
      exists_startReading hne
    obtain ⟨e, he⟩ : ∃ e, EndReading (streamOf records key) requested.endTime e :=
      exists_endReading hne
    obtain ⟨vb, hvb⟩ := Option.isSome_iff_exists.mp (hclean.present b hb.1)
    obtain ⟨ve, hve⟩ := Option.isSome_iff_exists.mp (hclean.present e he.1)
    exact ⟨b, e, vb, ve, hb, he, hvb, hve, hclean.increase_add hb he hvb hve hin⟩

theorem items_report_usage_cumulative :
    (1200 : ℕ) = min counterMax (usage .rx cumulativeRecords oneWindow cumulativeItem.mac) ∧
    (400 : ℕ) = min counterMax (usage .tx cumulativeRecords oneWindow cumulativeItem.mac) := by
  have h := items_report_usage Platform.posix cumulativeRecords oneWindow cumulativeItem
    (by decide +kernel)
  exact ⟨h.1, h.2.1⟩

end Bandwidth
end OwAnalytics.Mcp
