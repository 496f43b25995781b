/-
  OwAnalytics.Mcp.Memory.Response

  What the memory summary reports about the valid records, and when its mean is
  the exact one.  Everything but the mean holds for every list of records; the
  mean is exact, and with it the summary independent of the order of the records,
  while the values sum to at most 2^63, and no larger bound on the sum will do.
-/

import OwAnalytics.Lib.Running
import OwAnalytics.Mcp.Memory.Mean

namespace OwAnalytics.Mcp.Memory

open AnalyticsObjects Significand

/-! ## The latest sample -/

/-- `x` does not come after `y` by timestamp, then id, then value. -/
def Sample.AtMost (x y : Sample) : Prop :=
  x.timestamp < y.timestamp ∨
    x.timestamp = y.timestamp ∧ (compare x.id y.id = .lt ∨ x.id = y.id ∧ x.free ≤ y.free)

theorem Sample.AtMost.free_eq {x y : Sample} (hxy : x.AtMost y) (hyx : y.AtMost x) :
    x.free = y.free := by
  have hself : ∀ id : Str, compare id id = .eq := fun _ => Std.ReflCmp.compare_self
  have hswap : ∀ id id' : Str, compare id id' = (compare id' id).swap := fun _ _ =>
    Std.OrientedCmp.eq_swap
  have hlt : ∀ {a b : UInt64}, a < b → b < a → False := fun hab hba =>
    UInt64.lt_irrefl _ (UInt64.lt_trans hab hba)
  -- by the time, then the id, then the reading: a strict step back is impossible at each level
  rcases hxy with hxy | ⟨htime, hxy⟩
  · rcases hyx with hyx | ⟨htime, -⟩
    · exact (hlt hxy hyx).elim
    · exact (UInt64.lt_irrefl _ (htime ▸ hxy)).elim
  · rcases hyx with hyx | ⟨-, hyx⟩
    · exact (UInt64.lt_irrefl _ (htime ▸ hyx)).elim
    · rcases hxy with hxy | ⟨hid, hxy⟩
      · rcases hyx with hyx | ⟨hid, -⟩
        · rw [hswap, hxy] at hyx
          cases hyx
        · rw [hid, hself] at hxy
          cases hxy
      · rcases hyx with hyx | ⟨-, hyx⟩
        · rw [hid, hself] at hyx
          cases hyx
        · exact UInt64.le_antisymm hxy hyx

/-- Ids that are present are present once. -/
def Distinct (ids : List Str) : Prop := (ids.filter (· ≠ [])).Nodup

/-- Two samples with one id are one sample. -/
theorem Distinct.eq {l : List Sample} (h : Distinct (l.map Sample.id)) {x y : Sample}
    (hx : x ∈ l) (hy : y ∈ l) (hid : x.id = y.id) (hne : x.id ≠ []) : x = y := by
  unfold Distinct at h
  rw [List.filter_map] at h
  refine List.inj_on_of_nodup_map h ?_ ?_ hid
  · exact List.mem_filter.mpr ⟨hx, by simpa using hne⟩
  · exact List.mem_filter.mpr ⟨hy, by simpa using hid ▸ hne⟩

/-- What is not later than the latest sample is at most it. -/
theorem atMost_of_not_later {l : List Sample} (h : Distinct (l.map Sample.id)) {x last : Sample}
    (hx : x ∈ l) (hlast : last ∈ l) (hnot : ¬ Later x last) : x.AtMost last := by
  rw [Later, not_or, not_and, not_or] at hnot
  obtain ⟨htime, hrest⟩ := hnot
  rcases UInt64.lt_or_eq_of_le (UInt64.not_lt.mp htime) with hlt | heq
  · exact .inl hlt
  · obtain ⟨hgt, hfree⟩ := hrest heq
    refine .inr ⟨heq, ?_⟩
    cases hcmp : compare x.id last.id with
    | lt => exact .inl rfl
    | gt => exact absurd hcmp hgt
    | eq =>
        have hid : x.id = last.id := Std.LawfulEqCmp.eq_of_compare hcmp
        refine .inr ⟨hid, ?_⟩
        by_cases hempty : x.id = []
        · exact UInt64.not_lt.mp fun hlt => hfree ⟨hempty, hid ▸ hempty, hlt⟩
        · -- a present id names one record
          rw [h.eq hx hlast hid hempty]
          exact UInt64.le_refl _

/-! ## The report -/

section Model

variable {F : Type} [Zero F]

/-- The ids of the records are primary keys, where they are present. -/
def DistinctIds (records : List (Ap.DeviceTimePoint F)) : Prop := Distinct (records.map (·.id))

theorem DistinctIds.samples {records : List (Ap.DeviceTimePoint F)} (h : DistinctIds records) :
    Distinct ((Memory.samples records).map Sample.id) := by
  have hsub : ((Memory.samples records).map Sample.id).Sublist (records.map (·.id)) := by
    rw [Memory.samples, List.map_filterMap]
    have hids : (fun record : Ap.DeviceTimePoint F => (sampleOf record).map Sample.id)
        = fun record => if (sampleOf record).isSome then some record.id else none := by
      funext record
      unfold sampleOf
      cases validFree record.resourceData <;> rfl
    rw [hids, ← List.filterMap_eq_map, ← List.filterMap_filter]
    exact List.filter_sublist.filterMap _
  exact h.sublist (hsub.filter _)

/-- What the summary says about the valid records. -/
structure Summarizes (P : Platform) (p : ℕ) (records : List (Ap.DeviceTimePoint F))
    (requested : Window) : Prop where
  absent : samples records = [] →
    (calculateMemorySummary P p records requested).data = {} ∧
    (calculateMemorySummary P p records requested).info.observedWindow = {}
  present : samples records ≠ [] → ∃ lo hi avg start stop, ∃ last ∈ samples records,
    (calculateMemorySummary P p records requested).data
      = { minMemfree := some lo, maxMemfree := some hi, avgMemfree := some avg,
          latestMemfree := some last.free } ∧
    (calculateMemorySummary P p records requested).info.observedWindow
      = { startTime := some (formatTimestamp P start), endTime := some (formatTimestamp P stop) } ∧
    IsLeast (frees (samples records)) lo.toNat ∧ IsGreatest (frees (samples records)) hi.toNat ∧
    (avg.toNat : ℤ) = ⌊(freeSum (samples records) : ℚ) / (samples records).length + 1 / 2⌋ ∧
    (∀ x ∈ samples records, x.AtMost last) ∧
    IsLeast (times (samples records)) start.toNat ∧
    IsGreatest (times (samples records)) stop.toNat ∧
    lo ≤ last.free ∧ last.free ≤ hi ∧ lo ≤ avg ∧ avg ≤ hi
  order : ∀ records', records.Perm records' →
    calculateMemorySummary P p records' requested = calculateMemorySummary P p records requested

/-- The members of the summary, from the registers of the loop. -/
theorem summary_of_samples (P : Platform) (p : ℕ) {records : List (Ap.DeviceTimePoint F)}
    (requested : Window) (hne : samples records ≠ []) :
    (calculateMemorySummary P p records requested).data
      = { minMemfree := (run P p records).data.minMemfree
          maxMemfree := (run P p records).data.maxMemfree
          avgMemfree := some (avgMemfree p (run P p records))
          latestMemfree := (run P p records).data.latestMemfree } ∧
    (calculateMemorySummary P p records requested).info.observedWindow
      = (run P p records).observedWindow := by
  have hcount : (run P p records).count > 0 := by
    rw [run_eq, (describes_foldl P p hne).count]
    exact List.length_pos_iff.mpr hne
  rw [calculateMemorySummary]
  simp only [if_pos hcount, and_self]

/-- Bounds of the values are bounds of the mean. -/
theorem nearestMean_mem_Icc {l : List Sample} (hne : l ≠ []) {lo hi : ℕ}
    (hlo : ∀ s ∈ l, lo ≤ s.free.toNat) (hhi : ∀ s ∈ l, s.free.toNat ≤ hi) :
    nearestMean (freeSum l) l.length ∈ Set.Icc lo hi := by
  have hn : 0 < l.length := List.length_pos_iff.mpr hne
  have hsumlo := List.card_nsmul_le_sum (l.map fun s => s.free.toNat) lo (by simpa using hlo)
  have hsumhi := List.sum_le_card_nsmul (l.map fun s => s.free.toNat) hi (by simpa using hhi)
  rw [List.length_map, smul_eq_mul] at hsumlo hsumhi
  obtain ⟨hbelow, habove⟩ := nearestMean_bounds (S := freeSum l) hn
  have hsum : freeSum l = (l.map fun s => s.free.toNat).sum := rfl
  -- beyond a bound the mean would be off by more than the half that rounding moves it
  refine ⟨?_, ?_⟩
  · by_contra hlt
    have hstep : 2 * nearestMean (freeSum l) l.length + 1 ≤ 2 * lo := by omega
    have hscaled := Nat.mul_le_mul_left l.length hstep
    rw [Nat.mul_left_comm] at hscaled
    omega
  · by_contra hlt
    have hstep : 2 * hi + 2 ≤ 2 * nearestMean (freeSum l) l.length := by omega
    have hscaled := Nat.mul_le_mul_left l.length hstep
    rw [Nat.mul_add, Nat.mul_left_comm] at hscaled
    omega

/-- The summary while the values sum to at most 2^63. -/
theorem present_of_sum_le (P : Platform) {records : List (Ap.DeviceTimePoint F)}
    (requested : Window) (hids : DistinctIds records) (hcount : (samples records).length ≤ 2 ^ 62)
    (hsum : freeSum (samples records) ≤ 2 ^ 63) (hne : samples records ≠ []) :
    ∃ lo hi start stop, ∃ last ∈ samples records,
      (calculateMemorySummary P 64 records requested).data
        = { minMemfree := some lo, maxMemfree := some hi,
            avgMemfree := some (UInt64.ofNat
              (nearestMean (freeSum (samples records)) (samples records).length)),
            latestMemfree := some last.free } ∧
      (calculateMemorySummary P 64 records requested).info.observedWindow
        = { startTime := some (formatTimestamp P start)
            endTime := some (formatTimestamp P stop) } ∧
      IsLeast (frees (samples records)) lo.toNat ∧ IsGreatest (frees (samples records)) hi.toNat ∧
      (∀ x ∈ samples records, x.AtMost last) ∧
      IsLeast (times (samples records)) start.toNat ∧
      IsGreatest (times (samples records)) stop.toNat := by
  have hd := describes_foldl P 64 hne
  rw [← run_eq] at hd
  have havg := avgMemfree_eq hd hne hcount hsum
  obtain ⟨lo, hlo, hleast⟩ := hd.least
  obtain ⟨hi, hhi, hgreatest⟩ := hd.greatest
  obtain ⟨last, hmem, hlater, hlast, -, -⟩ := hd.latest
  refine ⟨lo, hi, _, _, last, hmem, ?_, ?_, hleast, hgreatest, ?_, hd.start.2, hd.stop.2⟩
  · rw [(summary_of_samples P 64 requested hne).1, hlo, hhi, hlast, havg]
  · rw [(summary_of_samples P 64 requested hne).2, ← hd.start.1, ← hd.stop.1]
  -- no sample is later than the last one, in the order of time and id
  · exact fun x hx => atMost_of_not_later hids.samples hx hmem (hlater x hx)

theorem toNat_nearestMean {l : List Sample} (hne : l ≠ []) {hi : UInt64}
    (h : IsGreatest (frees l) hi.toNat) :
    (UInt64.ofNat (nearestMean (freeSum l) l.length)).toNat = nearestMean (freeSum l) l.length := by
  have hlo : ∀ s ∈ l, 0 ≤ s.free.toNat := fun _ _ => Nat.zero_le _
  have hle := (nearestMean_mem_Icc hne hlo fun s hs => h.2 ⟨s, hs, rfl⟩).2
  rw [UInt64.toNat_ofNat', Nat.mod_eq_of_lt (hle.trans_lt hi.toNat_lt)]

/-- A summary of no valid record. -/
theorem run_of_samples_eq_nil (P : Platform) (p : ℕ) {records : List (Ap.DeviceTimePoint F)}
    (h : samples records = []) : run P p records = {} := by
  rw [run_eq, h]
  rfl

/-- Records in another order have the same summary. -/
theorem summary_perm (P : Platform) {records records' : List (Ap.DeviceTimePoint F)}
    (requested : Window) (hids : DistinctIds records) (hcount : (samples records).length ≤ 2 ^ 62)
    (hsum : freeSum (samples records) ≤ 2 ^ 63) (h : records.Perm records') :
    calculateMemorySummary P 64 records' requested
      = calculateMemorySummary P 64 records requested := by
  have hperm : (samples records).Perm (samples records') := h.filterMap _
  have hlen : (samples records').length = (samples records).length := hperm.length_eq.symm
  have hsums : freeSum (samples records') = freeSum (samples records) :=
    (hperm.map fun s : Sample => s.free.toNat).sum_eq.symm
  rcases eq_or_ne (samples records) [] with hnil | hne
  · have hnil' : samples records' = [] := (hnil ▸ hperm).nil_eq.symm
    rw [calculateMemorySummary, calculateMemorySummary, run_of_samples_eq_nil P 64 hnil,
      run_of_samples_eq_nil P 64 hnil']
  · have hne' : samples records' ≠ [] := fun hnil => hne ((hnil ▸ hperm).eq_nil)
    have hids' : DistinctIds records' := (((h.map _).filter _).nodup_iff).mp hids
    obtain ⟨lo, hi, start, stop, last, hmem, hdata, hwindow, hleast, hgreatest, hlast, hstart,
      hstop⟩ := present_of_sum_le P requested hids hcount hsum hne
    obtain ⟨lo', hi', start', stop', last', hmem', hdata', hwindow', hleast', hgreatest', hlast',
      hstart', hstop'⟩ := present_of_sum_le P requested hids' (by rwa [hlen]) (by rwa [hsums]) hne'
    -- both lists have the same values and times
    have hsets : ∀ g : Sample → ℕ,
        {n | ∃ s ∈ samples records', n = g s} = {n | ∃ s ∈ samples records, n = g s} := by
      intro g
      ext n
      exact exists_congr fun s => and_congr_left fun _ => hperm.mem_iff.symm
    rw [frees, hsets] at hleast' hgreatest'
    rw [times, hsets] at hstart' hstop'
    obtain rfl := UInt64.toNat_inj.mp (hleast'.unique hleast)
    obtain rfl := UInt64.toNat_inj.mp (hgreatest'.unique hgreatest)
    obtain rfl := UInt64.toNat_inj.mp (hstart'.unique hstart)
    obtain rfl := UInt64.toNat_inj.mp (hstop'.unique hstop)
    have hfree : last'.free = last.free :=
      (hlast last' (hperm.mem_iff.mpr hmem')).free_eq (hlast' last (hperm.mem_iff.mp hmem))
    rw [hlen, hsums, hfree, ← hdata] at hdata'
    rw [← hwindow] at hwindow'
    have hext : ∀ s s' : McpGatewayMemorySummary, s.data = s'.data →
        s.info.requestedWindow = s'.info.requestedWindow →
        s.info.observedWindow = s'.info.observedWindow → s = s' := by
      rintro ⟨data, ⟨req, obs⟩⟩ ⟨data', ⟨req', obs'⟩⟩ rfl rfl rfl
      rfl
    exact hext _ _ hdata' rfl hwindow'

/-- The condition is enough. -/
theorem summarizes_of_sum_le (P : Platform) {records : List (Ap.DeviceTimePoint F)}
    (requested : Window) (hids : DistinctIds records) (hcount : (samples records).length ≤ 2 ^ 62)
    (hsum : freeSum (samples records) ≤ 2 ^ 63) : Summarizes P 64 records requested where
  absent h := by
    rw [calculateMemorySummary, run_of_samples_eq_nil P 64 h]
    exact ⟨rfl, rfl⟩
  present hne := by
    obtain ⟨lo, hi, start, stop, last, hmem, hdata, hwindow, hleast, hgreatest, hlast, hstart,
      hstop⟩ := present_of_sum_le P requested hids hcount hsum hne
    have havg := toNat_nearestMean hne hgreatest
    have hmean := nearestMean_mem_Icc hne (fun s hs => hleast.2 ⟨s, hs, rfl⟩)
      (fun s hs => hgreatest.2 ⟨s, hs, rfl⟩)
    refine ⟨lo, hi, _, start, stop, last, hmem, hdata, hwindow, hleast, hgreatest, ?_, hlast,
      hstart, hstop, ?_, ?_, ?_, ?_⟩
    · rw [havg, floor_mean (List.length_pos_iff.mpr hne)]
    · exact UInt64.le_iff_toNat_le.mpr (hleast.2 ⟨last, hmem, rfl⟩)
    · exact UInt64.le_iff_toNat_le.mpr (hgreatest.2 ⟨last, hmem, rfl⟩)
    · rw [UInt64.le_iff_toNat_le, havg]
      exact hmean.1
    · rw [UInt64.le_iff_toNat_le, havg]
      exact hmean.2
  order _ h := summary_perm P requested hids hcount hsum h

/-! ## Above the bound -/

/-- One record with an odd value above 2^63. -/
def oddRecord : Ap.DeviceTimePoint F where
  resourceData := { memoryFree := some (2 ^ 63 + 1) }

theorem samples_oddRecord :
    samples [(oddRecord : Ap.DeviceTimePoint F)]
      = [{ timestamp := 0, id := [], free := 2 ^ 63 + 1 }] := rfl

/-- Its mean is one more than its value. -/
theorem avgMemfree_oddRecord (P : Platform) (requested : Window) :
    (calculateMemorySummary P 64 [(oddRecord : Ap.DeviceTimePoint F)] requested).data.avgMemfree
      = some (2 ^ 63 + 2) := by
  have hne : samples [(oddRecord : Ap.DeviceTimePoint F)] ≠ [] := List.cons_ne_nil _ _
  have hd := describes_foldl P 64 hne
  rw [← run_eq] at hd
  have haverage : average 64 (run P 64 [(oddRecord : Ap.DeviceTimePoint F)]) = 2 ^ 63 + 2 := by
    rw [average, hd.sum, hd.count, samples_oddRecord]
    decide +kernel
  have hclamp : ¬ ((2 ^ 63 + 2 : ℤ) : ℚ) > roundBits 64 (2 ^ 64 - 1) := by decide +kernel
  have hconvert : UInt64.ofNat (2 ^ 63 + 2 : ℤ).toNat = 2 ^ 63 + 2 := by decide +kernel
  rw [(summary_of_samples P 64 requested hne).1, avgMemfree, haverage, if_neg hclamp, hconvert]

theorem not_summarizes_oddRecord (P : Platform) (requested : Window) :
    ¬ Summarizes P 64 [(oddRecord : Ap.DeviceTimePoint F)] requested := by
  intro h
  obtain ⟨lo, hi, avg, start, stop, last, -, hdata, -, -, -, havg, -⟩ :=
    h.present (List.cons_ne_nil _ _)
  have hcode := avgMemfree_oddRecord (F := F) P requested
  rw [hdata, Option.some.injEq] at hcode
  rw [hcode, samples_oddRecord] at havg
  exact absurd havg (by decide +kernel)

/-- The bounds on the sum of the values under which the summary is right for every list of
    records are those up to 2^63. -/
theorem summarizes_iff (P : Platform) (requested : Window) (bound : ℕ) :
    (∀ records : List (Ap.DeviceTimePoint F), DistinctIds records →
      (samples records).length ≤ 2 ^ 62 → freeSum (samples records) ≤ bound →
        Summarizes P 64 records requested) ↔ bound ≤ 2 ^ 63 := by
  refine ⟨?_, ?_⟩
  · intro h
    by_contra hgt
    refine not_summarizes_oddRecord P requested (h [oddRecord] ?_ ?_ ?_)
    · exact List.nodup_nil
    · rw [samples_oddRecord]
      norm_num
    · have hsum : freeSum (samples [(oddRecord : Ap.DeviceTimePoint F)]) = 2 ^ 63 + 1 := by
        rw [samples_oddRecord]
        decide +kernel
      rw [hsum]
      exact Nat.not_le.mp hgt
  · exact fun hle records hids hcount hsum =>
      summarizes_of_sum_le P requested hids hcount (hsum.trans hle)

end Model

/-- The mean of the one value 2^63 + 1 is above the greatest value. -/
theorem mean_above_max :
    DistinctIds [(oddRecord : Ap.DeviceTimePoint ℚ)] ∧
    (calculateMemorySummary Platform.posix 64 [(oddRecord : Ap.DeviceTimePoint ℚ)] {}).data
      = { minMemfree := some 9223372036854775809, maxMemfree := some 9223372036854775809,
          avgMemfree := some 9223372036854775810, latestMemfree := some 9223372036854775809 } ∧
    ¬ Summarizes Platform.posix 64 [(oddRecord : Ap.DeviceTimePoint ℚ)] {} := by
  refine ⟨List.nodup_nil, ?_, not_summarizes_oddRecord _ _⟩
  decide +kernel

end OwAnalytics.Mcp.Memory
