/-
  OwAnalytics.Mcp.Bandwidth.ObservedWindow

  The segments a summary counts and the interval it reports around them.  A
  segment of a client runs from one sample of a stream to the next one that
  carries the same counter; it is counted when one of its ends lies in the window
  and the counter does not decrease over it.  The interval the program keeps for
  a client encloses its counted segments and nothing else: one sample widens it
  first, then a stream, then the streams of the client.
-/

import OwAnalytics.Lib.Hull
import OwAnalytics.Lib.Words
import OwAnalytics.Mcp.Bandwidth.Response

namespace OwAnalytics.Mcp.Bandwidth

open AnalyticsObjects Grouping Hull TimeSeries Words

/-! ## Counted segments -/

/-- The start and the end of the counted pairs of a direction of a stream. -/
def streamSegments (d : Direction) (records : List DeviceTimePoint) (w : Window)
    (key : StreamKey) : Set (ℕ × ℕ) :=
  {s | ∃ p q, (p, q) ∈ pairs (series d (streamOf records key)) ∧ Counted w.Contains (p, q) ∧
    s = (p.time, q.time)}

/-- The counted segments of a client. -/
def clientSegments (records : List DeviceTimePoint) (w : Window) (mac : Str) : Set (ℕ × ℕ) :=
  {s | ∃ key ∈ clientStreams records mac, ∃ d, s ∈ streamSegments d records w key}

/-- A client without a reading in the window, settled or not, has no counted segment. -/
theorem clientSegments_eq_empty {records : List DeviceTimePoint} {w : Window} {mac : Str}
    (h : ∀ key : StreamKey, key.mac = mac → ∀ r ∈ streamOf records key,
      timestampInHalfOpenWindow r.timestamp w = false) : clientSegments records w mac = ∅ := by
  have hout : ∀ key : StreamKey, key.mac = mac → ∀ d, ∀ p ∈ series d (streamOf records key),
      ¬ w.Contains p.time := by
    intro key hkey d p hp hwin
    obtain ⟨r, hr, hrp⟩ := mem_series.mp hp
    rw [Reading.point_time hrp, ← timestampInHalfOpenWindow_iff, h key hkey r hr.1] at hwin
    exact Bool.false_ne_true hwin
  apply Set.eq_empty_of_forall_notMem
  rintro s ⟨key, hkey, d, p, q, hpair, ⟨hwin, -⟩, rfl⟩
  obtain ⟨hp, hq, -⟩ := mem_pairs.mp hpair
  have hmac := (mem_clientStreams.mp hkey).1
  exact hwin.elim (hout key hmac d p hp) (hout key hmac d q hq)

/-! ## The interval of a client -/

/-- The interval the totals of a client carry. -/
def ClientTotals.observed (t : ClientTotals) : Option (ℕ × ℕ) :=
  if t.hasCalculableSegment then some (t.observedStart.toNat, t.observedEnd.toNat) else none

/-- Marking a segment widens the interval by it. -/
theorem observed_markSegment (t : ClientTotals) (start stop : UInt64) :
    (markObservedSegment t start stop).observed
      = widen t.observed (some (start.toNat, stop.toNat)) := by
  unfold markObservedSegment ClientTotals.observed
  cases t.hasCalculableSegment
  · rfl
  · show some ((min t.observedStart start).toNat, (max t.observedEnd stop).toNat) = _
    rw [UInt64.toNat_min, UInt64.toNat_max]
    rfl

/-- Neither a total nor the mark of an observation enters the interval. -/
theorem interval_setTotal (t : ClientTotals) (d : Direction) (v : UInt64) :
    (t.setTotal d v).observed = t.observed := by
  cases d <;> rfl

theorem interval_foldl_markObservation (l : List Sample) (t : ClientTotals) :
    (l.foldl markObservation t).observed = t.observed := by
  induction l generalizing t with
  | nil => rfl
  | cons s rest ih =>
      rw [List.foldl_cons, ih, markObservation]
      split_ifs <;> rfl

/-! ## One sample -/

/-- The segment between two points, when it is counted. -/
def closedSegment (W : ℕ → Prop) [DecidablePred W] : Option (Point ℕ) → Option (Point ℕ) →
    Option (ℕ × ℕ)
  | some p, some q => if Counted W (p, q) then some (p.time, q.time) else none
  | _, _ => none

@[simp] theorem closedSegment_none_right (W : ℕ → Prop) [DecidablePred W]
    (o : Option (Point ℕ)) : closedSegment W o none = none := by
  cases o <;> rfl

/-- A sample widens the interval by the segment its counter closes. -/
theorem observed_applyCounterSegment {requested : Window} (d : Direction)
    {previous : Option CounterSample} (x : Reading)
    (hprev : ∀ c ∈ previous, c.WellFlagged requested) (totals : ClientTotals) :
    (applyCounterSample d previous (x.toSample requested) totals).2.observed
      = widen totals.observed
          (closedSegment requested.Contains (previous.map CounterSample.point) (x.point d)) := by
  cases hcounter : (x.toSample requested).counter d with
  | none =>
      rw [applyCounterSample_none hcounter, point_of_counter_none hcounter,
        closedSegment_none_right, widen_none]
  | some value =>
      rw [point_of_counter hcounter]
      cases previous with
      | none =>
          unfold applyCounterSample
          rw [hcounter]
          exact (widen_none _).symm
      | some prev =>
          have hcounted := counted_iff (hprev prev rfl) (wellFlagged_toSample requested x) value
          unfold applyCounterSample
          rw [hcounter]
          simp only [Option.map_some, closedSegment]
          -- The counted segments are those the walk over the points counts.
          by_cases hc : Counted requested.Contains
              (prev.point, ((x.toSample requested).remembered value).point)
          · rw [if_pos (hcounted.mpr hc), if_pos hc, observed_markSegment, interval_setTotal]
            rfl
          · rw [if_neg (fun htrue => hc (hcounted.mp htrue)), if_neg hc, widen_none]

/-- A sample replaces the remembered point of a direction when it carries the counter. -/
theorem map_point_previous_applySample (requested : Window) (r : Registers) (x : Reading)
    (d : Direction) :
    ((applySample r (x.toSample requested)).previous d).map CounterSample.point
      = (x.point d).or ((r.previous d).map CounterSample.point) := by
  rw [previous_applySample]
  cases hcounter : (x.toSample requested).counter d with
  | none =>
      rw [applyCounterSample_none hcounter, point_of_counter_none hcounter]
      rfl
  | some value =>
      rw [applyCounterSample_fst hcounter, point_of_counter hcounter]
      rfl

theorem wellFlagged_previous_applySample {requested : Window} {r : Registers} (x : Reading)
    {d : Direction} (h : ∀ c ∈ r.previous d, c.WellFlagged requested) :
    ∀ c ∈ (applySample r (x.toSample requested)).previous d, c.WellFlagged requested := by
  rw [previous_applySample]
  cases hcounter : (x.toSample requested).counter d with
  | none =>
      rw [applyCounterSample_none hcounter]
      exact h
  | some value =>
      rw [applyCounterSample_fst hcounter]
      rintro c hc
      obtain rfl := Option.some.inj hc
      rfl

/-- The interval after a whole sample: first rx, then tx. -/
theorem observed_applySample {requested : Window} {r : Registers} (x : Reading)
    (hprev : ∀ d, ∀ c ∈ r.previous d, c.WellFlagged requested) :
    (applySample r (x.toSample requested)).totals.observed
      = widen (widen r.totals.observed
          (closedSegment requested.Contains ((r.previous .rx).map CounterSample.point)
            (x.point .rx)))
          (closedSegment requested.Contains ((r.previous .tx).map CounterSample.point)
            (x.point .tx)) := by
  have hrx := observed_applyCounterSegment .rx x (hprev .rx) r.totals
  have htx := observed_applyCounterSegment .tx x (hprev .tx)
    (applyCounterSample .rx (r.previous .rx) (x.toSample requested) r.totals).2
  rw [hrx] at htx
  exact htx

/-! ## One stream -/

theorem Direction.exists_iff {p : Direction → Prop} : (∃ d, p d) ↔ p .rx ∨ p .tx := by
  refine ⟨?_, ?_⟩
  · rintro ⟨_ | _, h⟩
    · exact .inl h
    · exact .inr h
  · rintro (h | h)
    · exact ⟨.rx, h⟩
    · exact ⟨.tx, h⟩

/-- The counted segments between the neighbours in a list of points. -/
def walkSegments (W : ℕ → Prop) [DecidablePred W] (l : List (Point ℕ)) : Set (ℕ × ℕ) :=
  {s | ∃ p q, (p, q) ∈ l.zip l.tail ∧ s ∈ closedSegment W (some p) (some q)}

theorem walkSegments_of_length_lt (W : ℕ → Prop) [DecidablePred W] {l : List (Point ℕ)}
    (h : l.length < 2) : walkSegments W l = ∅ := by
  apply Set.eq_empty_of_forall_notMem
  rintro s ⟨p, q, hpq, -⟩
  match l, h with
  | [], _ => exact absurd hpq (by simp)
  | [x], _ => exact absurd hpq (by simp)

/-- One more reading closes at most one segment with the remembered point. -/
theorem walkSegments_cons (W : ℕ → Prop) [DecidablePred W] (d : Direction) (x : Reading)
    (rest : List Reading) (o : Option (Point ℕ)) :
    walkSegments W (o.toList ++ (x :: rest).filterMap (Reading.point d))
      = {s | s ∈ closedSegment W o (x.point d)}
        ∪ walkSegments W (((x.point d).or o).toList ++ rest.filterMap (Reading.point d)) := by
  cases hx : x.point d with
  | none =>
      rw [List.filterMap_cons_none hx, closedSegment_none_right]
      simp
  | some q =>
      rw [List.filterMap_cons_some hx]
      cases o with
      | none =>
          simp [closedSegment]
      | some p =>
          ext s
          simp [walkSegments]
          grind

/-- The loop over a deduplicated stream widens the interval by the segments of both
    directions. -/
theorem encloses_foldl_applySample (requested : Window) (rs : List Reading) {r : Registers}
    {S : Set (ℕ × ℕ)} (hprev : ∀ d, ∀ c ∈ r.previous d, c.WellFlagged requested)
    (hS : Encloses S r.totals.observed) :
    Encloses
      (S ∪ {s | ∃ d, s ∈ walkSegments requested.Contains
        (((r.previous d).map CounterSample.point).toList ++ rs.filterMap (Reading.point d))})
      (((rs.map (Reading.toSample requested)).foldl applySample r).totals.observed) := by
  induction rs generalizing r S with
  | nil =>
      -- Without samples the walk has one point at most, and no segment.
      have hnone : ∀ d, walkSegments requested.Contains
          (((r.previous d).map CounterSample.point).toList
            ++ ([] : List Reading).filterMap (Reading.point d)) = ∅ := by
        intro d
        apply walkSegments_of_length_lt
        cases r.previous d <;> simp
      simp only [hnone]
      simpa using hS
  | cons x rest ih =>
      -- A sample closes one segment of either direction.
      have hstep := (hS.union (encloses_self (closedSegment requested.Contains
        ((r.previous .rx).map CounterSample.point) (x.point .rx)))).union
        (encloses_self (closedSegment requested.Contains
          ((r.previous .tx).map CounterSample.point) (x.point .tx)))
      rw [← observed_applySample x hprev] at hstep
      have hrest := ih (fun d => wellFlagged_previous_applySample x (hprev d)) hstep
      simp only [map_point_previous_applySample] at hrest
      rw [List.map_cons, List.foldl_cons]
      simp only [walkSegments_cons]
      convert hrest using 1
      ext s
      simp only [Set.mem_union, Set.mem_ofPred_eq, Direction.exists_iff]
      tauto

/-- What a stream adds to the interval of its client. -/
theorem encloses_applyReadings (requested : Window) (rs : List Reading) {t : ClientTotals}
    {S : Set (ℕ × ℕ)} (hS : Encloses S t.observed) :
    Encloses
      (S ∪ {s | ∃ d, s ∈ walkSegments requested.Contains (rs.filterMap (Reading.point d))})
      (applyReadings requested t rs).observed := by
  have hmarked : Encloses S
      ((rs.map (Reading.toSample requested)).foldl markObservation t).observed := by
    rw [interval_foldl_markObservation]
    exact hS
  unfold applyReadings applyStream
  simp only [List.length_map]
  by_cases hshort : rs.length < 2
  · -- fewer than two samples have no neighbours
    have hnone : ∀ d, walkSegments requested.Contains (rs.filterMap (Reading.point d)) = ∅ :=
      fun d => walkSegments_of_length_lt _
        ((List.length_filterMap_le (Reading.point d) rs).trans_lt hshort)
    rw [if_pos hshort]
    simp only [hnone]
    simpa using hmarked
  · rw [if_neg hshort]
    -- the registers start empty
    have hinit : ∀ (t : ClientTotals) (d : Direction),
        ({ totals := t } : Registers).previous d = none := by
      intro t d
      cases d <;> rfl
    have hrun := encloses_foldl_applySample requested rs
      (r := { totals := (rs.map (Reading.toSample requested)).foldl markObservation t })
      (by simp [hinit]) hmarked
    simpa only [hinit, Option.map_none, Option.toList_none, List.nil_append] using hrun

/-! ## All streams of a client -/

theorem encloses_foldl_applyReadings (requested : Window) (l : List (List Reading))
    {t : ClientTotals} {S : Set (ℕ × ℕ)} (hS : Encloses S t.observed) :
    Encloses
      (S ∪ {s | ∃ rs ∈ l, ∃ d,
        s ∈ walkSegments requested.Contains (rs.filterMap (Reading.point d))})
      (l.foldl (applyReadings requested) t).observed := by
  induction l generalizing t S with
  | nil => simpa using hS
  | cons rs rest ih =>
      have hrest := ih (encloses_applyReadings requested rs hS)
      rw [List.foldl_cons]
      convert hrest using 1
      ext s
      simp only [Set.mem_union, Set.mem_ofPred_eq, List.mem_cons, exists_eq_or_imp, or_assoc]

/-- The neighbours among the settled readings of a stream are its consecutive pairs. -/
theorem walkSegments_settled {records : List DeviceTimePoint} {requested : Window}
    {key : StreamKey} {rs : List Reading}
    (h : (settledStreams records requested)[key]? = some rs) (w : Window) (d : Direction) :
    walkSegments w.Contains (rs.filterMap (Reading.point d)) = streamSegments d records w key := by
  have hasc := ascending_settled h d
  ext s
  simp only [walkSegments, streamSegments, Set.mem_ofPred_eq, closedSegment]
  refine exists_congr fun p => exists_congr fun q => ?_
  rw [mem_zip_tail hasc, mem_pairs, ← toFinset_settled h, List.mem_toFinset, List.mem_toFinset]
  split_ifs with hc <;> simp [hc, eq_comm]

/-- The interval of a client encloses its counted segments. -/
theorem encloses_clientTotals (records : List DeviceTimePoint) (requested : Window) (mac : Str) :
    Encloses (clientSegments records requested mac)
      (clientTotals records requested mac).observed := by
  have hrun := encloses_foldl_applyReadings requested
    ((macStreams records requested mac).map Prod.snd) (t := {}) encloses_empty
  rw [← clientTotals_eq, Set.empty_union] at hrun
  convert hrun using 1
  ext s
  -- the streams of the map are those of the records, with their settled readings
  simp only [clientSegments, Set.mem_ofPred_eq, List.mem_map]
  refine ⟨?_, ?_⟩
  · rintro ⟨key, hkey, d, hs⟩
    rw [← toFinset_fst_macStreams records requested mac, List.mem_toFinset] at hkey
    obtain ⟨⟨key, rs⟩, hmem, rfl⟩ := List.mem_map.mp hkey
    have hget := getElem?_of_mem_macStreams hmem
    exact ⟨rs, ⟨_, hmem, rfl⟩, d, walkSegments_settled hget requested d ▸ hs⟩
  · rintro ⟨_, ⟨⟨key, rs⟩, hmem, rfl⟩, d, hs⟩
    have hget := getElem?_of_mem_macStreams hmem
    refine ⟨key, ?_, d, walkSegments_settled hget requested d ▸ hs⟩
    rw [← toFinset_fst_macStreams records requested mac, List.mem_toFinset]
    exact List.mem_map_of_mem hmem

/-! ## The interval of the response -/

/-- The loop over the returned items widens the interval by that of each client. -/
theorem widenObserved_eq (records : List DeviceTimePoint) (requested : Window)
    (o : Option (UInt64 × UInt64)) (item : McpClientUsageItem) :
    (widenObserved (totalsByMac records requested) o item).map
        (Prod.map UInt64.toNat UInt64.toNat)
      = widen (o.map (Prod.map UInt64.toNat UInt64.toNat))
          (clientTotals records requested item.mac).observed := by
  unfold widenObserved clientTotals ClientTotals.observed
  cases (totalsByMac records requested)[item.mac]? with
  | none => exact (widen_none _).symm
  | some t =>
      simp only [Option.getD_some]
      cases t.hasCalculableSegment
      · exact (widen_none _).symm
      · cases o with
        | none => rfl
        | some i =>
            simp only [Bool.not_true, Bool.false_eq_true, if_false, if_true, Option.map_some,
              Prod.map, UInt64.toNat_min, UInt64.toNat_max]
            rfl

/-- The interval of the response encloses the counted segments of the returned clients. -/
theorem encloses_foldl_widenObserved (records : List DeviceTimePoint) (requested : Window)
    (items : List McpClientUsageItem) :
    Encloses {s | ∃ item ∈ items, s ∈ clientSegments records requested item.mac}
      ((items.foldl (widenObserved (totalsByMac records requested)) none).map
        (Prod.map UInt64.toNat UInt64.toNat)) := by
  have hfold : ∀ o : Option (UInt64 × UInt64),
      (items.foldl (widenObserved (totalsByMac records requested)) o).map
          (Prod.map UInt64.toNat UInt64.toNat)
        = items.foldl (fun o item => widen o (clientTotals records requested item.mac).observed)
            (o.map (Prod.map UInt64.toNat UInt64.toNat)) := by
    induction items with
    | nil => exact fun o => rfl
    | cons item rest ih =>
        intro o
        rw [List.foldl_cons, List.foldl_cons, ih, widenObserved_eq]
  have hall := Encloses.foldl
    (fun item : McpClientUsageItem => encloses_clientTotals records requested item.mac) items
    encloses_empty
  rw [Set.empty_union] at hall
  rw [hfold]
  exact hall

end OwAnalytics.Mcp.Bandwidth
