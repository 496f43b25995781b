/-
  OwAnalytics.Mcp.Temperature.Response

  What the temperature summary reports.  The four fields of a band are absent when
  it has no sample in the window and otherwise its least, greatest, mean and latest
  temperature; radios of other bands do not enter them, and only the latest one
  depends on the order of the records.
-/

import OwAnalytics.Mcp.Temperature.Bands

namespace OwAnalytics.Mcp.Temperature

open AnalyticsObjects Hull Running

/-! ## The fields of a band -/

/-- What is answered about a band. -/
@[ext] structure BandFields where
  min : Option ℚ := none
  max : Option ℚ := none
  avg : Option ℚ := none
  latest : Option ℚ := none

/-- The fields of the summary that belong to a band. -/
def bandFields (data : McpGatewayWifiTemperatureSummaryData) : Band → BandFields
  | .g2 => ⟨data.minWifiTemp24G, data.maxWifiTemp24G, data.avgWifiTemp24G, data.latestWifiTemp24G⟩
  | .g5 => ⟨data.minWifiTemp5G, data.maxWifiTemp5G, data.avgWifiTemp5G, data.latestWifiTemp5G⟩

/-- The fields written for the statistics of a band. -/
def fieldsOf (stats : BandStats) : BandFields :=
  if stats.count > 0 then ⟨stats.min, stats.max, some stats.avg, stats.latest⟩ else {}

theorem bandFields_summarize (P : Platform) (requested : Window) (r : Registers) (b : Band) :
    bandFields (summarize P requested r).data b = fieldsOf (r.stats b) := by
  have hfields : ∀ stats : BandStats, fieldsOf stats
      = ⟨if stats.count > 0 then stats.min else none, if stats.count > 0 then stats.max else none,
        if stats.count > 0 then some stats.avg else none,
        if stats.count > 0 then stats.latest else none⟩ := by
    intro stats
    unfold fieldsOf
    split_ifs <;> rfl
  rw [hfields]
  cases b <;> rfl

/-- The fields of a band are those of the statistics of its samples. -/
theorem bandFields_eq (P : Platform) (records : List (Ap.DeviceTimePoint ℚ)) (requested : Window)
    (b : Band) :
    bandFields (calculateRadioTemperatureSummary P records requested).data b
      = fieldsOf ((samples records requested b).foldl BandStats.add {}) := by
  rw [calculateRadioTemperatureSummary, bandFields_summarize, stats_run]

/-- The temperatures of some samples. -/
def values (l : List Sample) : Set ℚ := {v | ∃ s ∈ l, s.value = v}

/-- The mean of the temperatures of some samples. -/
def mean (l : List Sample) : ℚ := (l.map Sample.value).sum / l.length

/-- What the fields of a band say about its samples. -/
structure ReportsBand (l : List Sample) (f : BandFields) : Prop where
  absent : l = [] → f = {}
  present : l ≠ [] → ∃ lo hi last, f = ⟨some lo, some hi, some (mean l), some last.value⟩ ∧
    IsLeast (values l) lo ∧ IsGreatest (values l) hi ∧ IsLatest Sample.time l last ∧
    mean l ∈ Set.Icc lo hi ∧ last.value ∈ Set.Icc lo hi

theorem reportsBand_fieldsOf (l : List Sample) :
    ReportsBand l (fieldsOf (l.foldl BandStats.add {})) where
  absent h := by
    rw [h]
    rfl
  present h := by
    have hd := describes_foldl_add l
    have hcount : (l.foldl BandStats.add {}).count > 0 := by
      rw [hd.count]
      exact List.length_pos_iff.mpr h
    obtain ⟨s, hs⟩ := List.exists_mem_of_ne_nil l h
    have hvalues : (values l).Nonempty := ⟨s.value, s, hs, rfl⟩
    obtain ⟨lo, hlo⟩ := Option.isSome_iff_exists.mp (hd.min.isSome_iff.mpr hvalues)
    obtain ⟨hi, hhi⟩ := Option.isSome_iff_exists.mp (hd.max.isSome_iff.mpr hvalues)
    obtain ⟨v, hv⟩ := Option.ne_none_iff_exists'.mp fun hnone => h (hd.empty hnone)
    obtain ⟨last, hlast, rfl, -⟩ := hd.latest v hv
    have hleast : IsLeast (values l) lo := by
      have hmin := hd.min
      rwa [hlo] at hmin
    have hgreatest : IsGreatest (values l) hi := by
      have hmax := hd.max
      rwa [hhi] at hmax
    have hbounds : ∀ x ∈ l, x.value ∈ Set.Icc lo hi := fun x hx =>
      ⟨hleast.2 ⟨x, hx, rfl⟩, hgreatest.2 ⟨x, hx, rfl⟩⟩
    refine ⟨lo, hi, last, ?_, hleast, hgreatest, hlast, ?_, hbounds last hlast.mem⟩
    · rw [fieldsOf, if_pos hcount, hlo, hhi, hv, BandStats.avg, hd.sum, hd.count, mean]
    · -- the mean of the values lies between their bounds
      have hmean : (l.map Sample.value).sum / (l.map Sample.value).length ∈ Set.Icc lo hi :=
        mean_mem_Icc (by simpa using h) (by simpa using hbounds)
      rwa [List.length_map] at hmean

/-! ## The order of the records -/

/-- Samples in another order have the same least, greatest and mean temperature. -/
theorem fieldsOf_perm {l l' : List Sample} (h : l.Perm l') :
    (fieldsOf (l.foldl BandStats.add {})).min = (fieldsOf (l'.foldl BandStats.add {})).min ∧
    (fieldsOf (l.foldl BandStats.add {})).max = (fieldsOf (l'.foldl BandStats.add {})).max ∧
    (fieldsOf (l.foldl BandStats.add {})).avg = (fieldsOf (l'.foldl BandStats.add {})).avg := by
  have hd := describes_foldl_add l
  have hd' := describes_foldl_add l'
  have hset : {v | ∃ s ∈ l, s.value = v} = {v | ∃ s ∈ l', s.value = v} := by
    ext v
    exact exists_congr fun s => and_congr_left fun _ => h.mem_iff
  -- least, greatest, count and sum do not depend on the order
  have hmin := hd.min
  have hmax := hd.max
  rw [hset] at hmin hmax
  have hcount : (l.foldl BandStats.add {}).count = (l'.foldl BandStats.add {}).count := by
    rw [hd.count, hd'.count, h.length_eq]
  have hsum : (l.foldl BandStats.add {}).sum = (l'.foldl BandStats.add {}).sum := by
    rw [hd.sum, hd'.sum, (h.map Sample.value).sum_eq]
  unfold fieldsOf BandStats.avg
  rw [hcount, hsum, hmin.unique hd'.min, hmax.unique hd'.max]
  split_ifs
  · exact ⟨rfl, rfl, rfl⟩
  · exact ⟨rfl, rfl, rfl⟩

theorem samples_perm {records records' : List (Ap.DeviceTimePoint ℚ)} (h : records.Perm records')
    (requested : Window) (b : Band) :
    (samples records requested b).Perm (samples records' requested b) :=
  h.flatMap_right _

theorem observed_perm {records records' : List (Ap.DeviceTimePoint ℚ)}
    (h : records.Perm records') (requested : Window) :
    (run records requested).observed = (run records' requested).observed := by
  have hencloses := encloses_run records requested
  have hset : {i | ∃ record ∈ records, i ∈ recordTimes requested record}
      = {i | ∃ record ∈ records', i ∈ recordTimes requested record} := by
    ext i
    exact exists_congr fun record => and_congr_left fun _ => h.mem_iff
  rw [hset] at hencloses
  exact toNatPair_injective (hencloses.unique (encloses_run records' requested))

/-! ## Radios of other bands -/

/-- Two records of one time with the same radios of a band. -/
def SameRadios (b : Band) (record record' : Ap.DeviceTimePoint ℚ) : Prop :=
  record'.timestamp = record.timestamp ∧
    record.radioData.filter (fun radio => radio.band = b.number)
      = record'.radioData.filter (fun radio => radio.band = b.number)

/-- Only the radios of the band have samples for it. -/
theorem filterMap_sampleOf (b : Band) (timestamp : UInt64) (l : List (Ap.RadioTimePoint ℚ)) :
    l.filterMap (sampleOf b timestamp)
      = (l.filter fun radio => radio.band = b.number).filterMap (sampleOf b timestamp) := by
  induction l with
  | nil => rfl
  | cons radio l ih =>
      by_cases h : radio.band = b.number
      · rw [List.filter_cons_of_pos (by simpa using h), List.filterMap_cons, List.filterMap_cons,
          ih]
      · rw [List.filter_cons_of_neg (by simpa using h),
          List.filterMap_cons_none (sampleOf_of_ne h timestamp), ih]

theorem samples_congr {b : Band} {records records' : List (Ap.DeviceTimePoint ℚ)}
    (h : List.Forall₂ (SameRadios b) records records') (requested : Window) :
    samples records requested b = samples records' requested b := by
  induction h with
  | nil => rfl
  | @cons record record' _ _ hrecord _ ih =>
      have hsamples : recordSamples requested b record = recordSamples requested b record' := by
        unfold recordSamples
        rw [hrecord.1, filterMap_sampleOf, hrecord.2, ← filterMap_sampleOf]
      rw [samples, List.flatMap_cons, hsamples]
      exact congrArg (recordSamples requested b record' ++ ·) ih

/-! ## The response -/

/-- The times of the records that contributed to either band. -/
def contributingTimes (records : List (Ap.DeviceTimePoint ℚ)) (requested : Window) :
    Set (ℕ × ℕ) :=
  {i | ∃ record ∈ records, (∃ b, recordSamples requested b record ≠ []) ∧
    i = (record.timestamp.toNat, record.timestamp.toNat)}

theorem contributingTimes_eq (records : List (Ap.DeviceTimePoint ℚ)) (requested : Window) :
    contributingTimes records requested
      = {i | ∃ record ∈ records, i ∈ recordTimes requested record} := by
  ext i
  refine exists_congr fun record => and_congr_right fun _ => ?_
  refine ⟨?_, ?_⟩
  · rintro ⟨⟨b, hb⟩, rfl⟩
    obtain ⟨s, hs⟩ := List.exists_mem_of_ne_nil _ hb
    refine ⟨b, s, hs, ?_⟩
    rw [Sample.instant, timestamp_of_mem_recordSamples hs]
  · rintro ⟨b, s, hs, rfl⟩
    refine ⟨⟨b, List.ne_nil_of_mem hs⟩, ?_⟩
    rw [Sample.instant, timestamp_of_mem_recordSamples hs]

/-- The window written for the observed interval. -/
theorem observedWindow_eq (P : Platform) (records : List (Ap.DeviceTimePoint ℚ))
    (requested : Window) :
    (calculateRadioTemperatureSummary P records requested).info.observedWindow
      = { startTime := (run records requested).observed.map fun o => formatTimestamp P o.1
          endTime := (run records requested).observed.map fun o => formatTimestamp P o.2 } := by
  show (if (run records requested).anyValidSample then _ else _) = _
  unfold Registers.observed
  cases (run records requested).anyValidSample <;> rfl

/-- The summary of every list of records and every window: the fields of each band, the
    observed window, and what neither depends on. -/
theorem radio_temperatures (P : Platform) (records : List (Ap.DeviceTimePoint ℚ))
    (requested : Window) :
    (∀ b, ReportsBand (samples records requested b)
      (bandFields (calculateRadioTemperatureSummary P records requested).data b)) ∧
    (∃ observed : Option (UInt64 × UInt64),
      (calculateRadioTemperatureSummary P records requested).info.observedWindow
        = { startTime := observed.map fun o => formatTimestamp P o.1
            endTime := observed.map fun o => formatTimestamp P o.2 } ∧
      Encloses (contributingTimes records requested) (toNatPair observed)) ∧
    (∀ b records', List.Forall₂ (SameRadios b) records records' →
      bandFields (calculateRadioTemperatureSummary P records' requested).data b
        = bandFields (calculateRadioTemperatureSummary P records requested).data b) ∧
    ∀ records', records.Perm records' →
      (∀ b,
        (bandFields (calculateRadioTemperatureSummary P records' requested).data b).min
          = (bandFields (calculateRadioTemperatureSummary P records requested).data b).min ∧
        (bandFields (calculateRadioTemperatureSummary P records' requested).data b).max
          = (bandFields (calculateRadioTemperatureSummary P records requested).data b).max ∧
        (bandFields (calculateRadioTemperatureSummary P records' requested).data b).avg
          = (bandFields (calculateRadioTemperatureSummary P records requested).data b).avg) ∧
      (calculateRadioTemperatureSummary P records' requested).info.observedWindow
        = (calculateRadioTemperatureSummary P records requested).info.observedWindow := by
  refine ⟨?_, ?_, ?_, ?_⟩
  · intro b
    rw [bandFields_eq]
    exact reportsBand_fieldsOf _
  · refine ⟨_, observedWindow_eq P records requested, ?_⟩
    -- A time contributes exactly when its record puts a sample to some band.
    rw [contributingTimes_eq]
    exact encloses_run records requested
  · intro b records' h
    -- The fields of a band are those of its samples, and the other band's are none of them.
    rw [bandFields_eq, bandFields_eq, samples_congr h]
  · intro records' h
    refine ⟨?_, ?_⟩
    · intro b
      rw [bandFields_eq, bandFields_eq]
      exact fieldsOf_perm (samples_perm h.symm requested b)
    · rw [observedWindow_eq, observedWindow_eq, observed_perm h]

end OwAnalytics.Mcp.Temperature
