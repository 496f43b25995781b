/-
  OwAnalytics.Mcp.Bandwidth.AdjacentWindows

  The totals of one client over `[a, b)`, `[b, c)` and `[a, c)`, computed from
  the same records.  A pair of samples is counted for a window as soon as one of
  its ends lies in it, so the two halves share exactly the pair of each stream
  that crosses `b`.
-/

import OwAnalytics.Mcp.Bandwidth.Reference

namespace OwAnalytics.Mcp.Bandwidth

open AnalyticsObjects Grouping TimeSeries

/-- What the pairs that start in `[a, b)` and end in `[b, c)` add up to, over all streams of
    a client. -/
def straddlingUsage (d : Direction) (records : List DeviceTimePoint) (a b c : UInt64)
    (mac : Str) : ℕ :=
  ∑ key ∈ clientStreams records mac,
    ∑ pq ∈ straddling (series d (streamOf records key)) a.toNat b.toNat c.toNat,
      (pq.2.value - pq.1.value)

/-- A stream has at most one point at each instant, since only settled readings count. -/
theorem injOn_time_series (d : Direction) (rs : List Reading) :
    Set.InjOn Point.time (series d rs : Set (Point ℕ)) := by
  intro p hp q hq heq
  obtain ⟨r, hr, hrp⟩ := mem_series.mp (Finset.mem_coe.mp hp)
  obtain ⟨r', hr', hrq⟩ := mem_series.mp (Finset.mem_coe.mp hq)
  have htime : r'.timestamp = r.timestamp := by
    apply UInt64.toNat_inj.mp
    rw [← Reading.point_time hrp, ← Reading.point_time hrq, heq]
  obtain rfl := hr.2 r' hr'.1 htime
  exact Option.some.inj (hrp.symm.trans hrq)

/-- The usages over the two halves share the straddling pairs. -/
theorem usage_adjacent (d : Direction) (records : List DeviceTimePoint) {wab wbc wac : Window}
    {a b c : UInt64} (hab : a ≤ b) (hbc : b ≤ c)
    (h1 : wab.startTime = a ∧ wab.endTime = b) (h2 : wbc.startTime = b ∧ wbc.endTime = c)
    (h3 : wac.startTime = a ∧ wac.endTime = c) (mac : Str) :
    usage d records wab mac + usage d records wbc mac
      = usage d records wac mac + straddlingUsage d records a b c mac := by
  simp only [usage, straddlingUsage, contribution, ← Finset.sum_add_distrib]
  apply Finset.sum_congr rfl
  intro key _
  have hinc := increase_adjacent (series d (streamOf records key))
    (UInt64.le_iff_toNat_le.mp hab) (UInt64.le_iff_toNat_le.mp hbc)
  obtain ⟨rfl, rfl⟩ := h1
  obtain ⟨hbs, rfl⟩ := h2
  obtain ⟨has, hce⟩ := h3
  unfold Window.Contains
  rw [hbs, has, hce]
  exact hinc

/-- A wider window has at least the usage. -/
theorem usage_mono (d : Direction) (records : List DeviceTimePoint) {w w' : Window}
    (hstart : w'.startTime ≤ w.startTime) (hend : w.endTime ≤ w'.endTime) (mac : Str) :
    usage d records w mac ≤ usage d records w' mac := by
  apply Finset.sum_le_sum
  intro key _
  apply increase_mono
  intro t ht
  exact ht.mono (UInt64.le_iff_toNat_le.mp hstart) (UInt64.le_iff_toNat_le.mp hend)

/-- A total that stays below the cap is the usage itself. -/
theorem total_eq_usage {d : Direction} {records : List DeviceTimePoint} {w : Window} {mac : Str}
    (h : usage d records w mac < counterMax) :
    ((clientTotals records w mac).total d).toNat = usage d records w mac := by
  rw [total_clientTotals]
  exact min_eq_right h.le

/-- The totals over two adjacent windows exceed the total over their union by exactly the
    straddling pairs, at most one for each stream; widening a window lowers no total. -/
theorem totals_adjacent_windows (records : List DeviceTimePoint) (d : Direction) (mac : Str)
    (a b c lookbackAB lookbackBC lookbackAC : UInt64) (hab : a ≤ b) (hbc : b ≤ c)
    (hsmall : usage d records ⟨a, c, lookbackAC⟩ mac < counterMax) :
    ((clientTotals records ⟨a, b, lookbackAB⟩ mac).total d).toNat
        + ((clientTotals records ⟨b, c, lookbackBC⟩ mac).total d).toNat
      = ((clientTotals records ⟨a, c, lookbackAC⟩ mac).total d).toNat
        + straddlingUsage d records a b c mac ∧
    (∀ key, (straddling (series d (streamOf records key)) a.toNat b.toNat c.toNat).card ≤ 1) ∧
    ∀ w w' : Window, w'.startTime ≤ w.startTime → w.endTime ≤ w'.endTime →
      (clientTotals records w mac).total d ≤ (clientTotals records w' mac).total d := by
  refine ⟨?_, fun key => card_straddling_le_one (injOn_time_series d _) _ _ _, ?_⟩
  -- neither part counts more than the whole, so neither of them is clipped
  · have hfirst : usage d records ⟨a, b, lookbackAB⟩ mac
        ≤ usage d records ⟨a, c, lookbackAC⟩ mac := by
      apply usage_mono
      · exact UInt64.le_refl a
      · exact hbc
    have hsecond : usage d records ⟨b, c, lookbackBC⟩ mac
        ≤ usage d records ⟨a, c, lookbackAC⟩ mac := by
      apply usage_mono
      · exact hab
      · exact UInt64.le_refl c
    rw [total_eq_usage (hfirst.trans_lt hsmall), total_eq_usage (hsecond.trans_lt hsmall),
      total_eq_usage hsmall]
    exact usage_adjacent d records hab hbc ⟨rfl, rfl⟩ ⟨rfl, rfl⟩ ⟨rfl, rfl⟩ mac
  · intro w w' hstart hend
    rw [UInt64.le_iff_toNat_le, total_clientTotals, total_clientTotals]
    exact min_le_min le_rfl (usage_mono d records hstart hend mac)

/-- The window of `cumulativeRecords` cut at 1300: the pair that ends there straddles the cut. -/
theorem totals_adjacent_windows_cumulative :
    ((clientTotals cumulativeRecords ⟨1000, 1300, 0⟩ cumulativeItem.mac).total .rx).toNat
        + ((clientTotals cumulativeRecords ⟨1300, 2000, 0⟩ cumulativeItem.mac).total .rx).toNat
      = 1200 + 600 := by
  have h := (totals_adjacent_windows cumulativeRecords .rx cumulativeItem.mac 1000 1300 2000 0 0 0
    (by decide) (by decide) (by decide +kernel)).1
  rw [h]
  decide +kernel

end OwAnalytics.Mcp.Bandwidth
