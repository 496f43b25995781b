/-
  OwAnalytics.Mcp.Temperature.Bands

  The pass over the records keeps the statistics of the two bands apart: those of
  a band are made from its own samples, in the order in which the records and
  their radios list them.  Least, greatest and mean do not depend on that order;
  the latest temperature is the last one among those of the greatest time.
-/

import OwAnalytics.Lib.Hull
import OwAnalytics.Lib.Words
import OwAnalytics.Mcp.Temperature.Summary

namespace OwAnalytics.Mcp.Temperature

open AnalyticsObjects Hull Running Words

/-! ## Samples -/

/-- The bands of the summary. -/
inductive Band where
  | g2
  | g5
deriving DecidableEq

/-- The number a radio of the band carries. -/
def Band.number : Band → UInt64
  | .g2 => 2
  | .g5 => 5

/-- One temperature at one time. -/
structure Sample where
  timestamp : UInt64
  value : ℚ
deriving DecidableEq

/-- The temperatures that are counted. -/
def InRange (value : ℚ) : Prop := -40 ≤ value ∧ value ≤ 125

instance : DecidablePred InRange := fun value =>
  inferInstanceAs (Decidable (-40 ≤ value ∧ value ≤ 125))

/-- The sample of a radio for a band. -/
def sampleOf (b : Band) (timestamp : UInt64) (radio : Ap.RadioTimePoint ℚ) : Option Sample :=
  if radio.band = b.number then
    (radio.temperature.filter (InRange ·)).map (Sample.mk timestamp)
  else none

/-- The samples of a record. -/
def recordSamples (requested : Window) (b : Band) (record : Ap.DeviceTimePoint ℚ) :
    List Sample :=
  if timestampInHalfOpenWindow record.timestamp requested then
    record.radioData.filterMap (sampleOf b record.timestamp)
  else []

/-- The samples of a band, in the order of the two loops. -/
def samples (records : List (Ap.DeviceTimePoint ℚ)) (requested : Window) (b : Band) :
    List Sample :=
  records.flatMap (recordSamples requested b)

/-- The time of a sample, as an interval. -/
def Sample.instant (s : Sample) : ℕ × ℕ := (s.timestamp.toNat, s.timestamp.toNat)

theorem timestamp_of_mem_recordSamples {requested : Window} {b : Band}
    {record : Ap.DeviceTimePoint ℚ} {s : Sample} (h : s ∈ recordSamples requested b record) :
    s.timestamp = record.timestamp := by
  unfold recordSamples at h
  split_ifs at h
  · obtain ⟨radio, -, hradio⟩ := List.mem_filterMap.mp h
    unfold sampleOf at hradio
    split_ifs at hradio
    obtain ⟨value, -, rfl⟩ := Option.map_eq_some_iff.mp hradio
    rfl
  · exact absurd h List.not_mem_nil

/-! ## The loop over the radios -/

/-- One sample, as `AddSample` adds it. -/
def BandStats.add (stats : BandStats) (s : Sample) : BandStats :=
  stats.addSample s.value s.timestamp

/-- The statistics of a band. -/
def RadioLoop.stats (r : RadioLoop) : Band → BandStats
  | .g2 => r.band2G
  | .g5 => r.band5G

/-- A sample added to its band. -/
def RadioLoop.put (r : RadioLoop) (s : Sample) : Band → RadioLoop
  | .g2 => { r with band2G := r.band2G.add s, recordContributed := true }
  | .g5 => { r with band5G := r.band5G.add s, recordContributed := true }

theorem RadioLoop.stats_put (r : RadioLoop) (s : Sample) (b c : Band) :
    (r.put s b).stats c = if b = c then (r.stats c).add s else r.stats c := by
  cases b <;> cases c <;> rfl

theorem RadioLoop.recordContributed_put (r : RadioLoop) (s : Sample) (b : Band) :
    (r.put s b).recordContributed = true := by
  cases b <;> rfl

theorem sampleOf_of_ne {b : Band} {radio : Ap.RadioTimePoint ℚ} (h : radio.band ≠ b.number)
    (timestamp : UInt64) : sampleOf b timestamp radio = none := if_neg h

/-- What one radio does: nothing, or one sample to the one band it is a radio of. -/
theorem addRadio_cases (timestamp : UInt64) (r : RadioLoop) (radio : Ap.RadioTimePoint ℚ) :
    ((∀ b, sampleOf b timestamp radio = none) ∧ addRadio timestamp r radio = r) ∨
      ∃ b s, sampleOf b timestamp radio = some s ∧
        (∀ c, c ≠ b → sampleOf c timestamp radio = none) ∧
        addRadio timestamp r radio = r.put s b := by
  by_cases hband : ∃ b : Band, radio.band = b.number
  · obtain ⟨b, hb⟩ := hband
    have hskip : (radio.band ≠ 2 && radio.band ≠ 5) = false := by
      rw [hb]
      cases b <;> rfl
    have hother : ∀ c, c ≠ b → sampleOf c timestamp radio = none := by
      intro c hc
      apply sampleOf_of_ne
      rw [hb]
      cases b <;> cases c <;> first | exact absurd rfl hc | decide
    -- A radio of one band gives the other no sample, so its own decides for both.
    have hnone : (∀ c, c ≠ b → sampleOf c timestamp radio = none) →
        sampleOf b timestamp radio = none → ∀ c, sampleOf c timestamp radio = none := by
      intro hc hown c
      by_cases h : c = b
      · exact h ▸ hown
      · exact hc c h
    cases htemp : radio.temperature with
    | none =>
        left
        refine ⟨hnone hother ?_, ?_⟩
        · rw [sampleOf, if_pos hb, htemp]
          rfl
        · simp only [addRadio, hskip, htemp]
          rfl
    | some value =>
        by_cases hrange : InRange value
        · right
          have hin : (value < -40 || value > 125) = false := by
            simpa [InRange] using hrange
          refine ⟨b, ⟨timestamp, value⟩, ?_, hother, ?_⟩
          · rw [sampleOf, if_pos hb, htemp, Option.filter_some_pos (by simpa using hrange)]
            rfl
          · simp only [addRadio, hskip, htemp, hin]
            cases b
            · exact if_pos hb
            · have h5 : radio.band ≠ 2 := by
                rw [hb]
                decide
              exact if_neg h5
        · left
          have hout : (value < -40 || value > 125) = true := by
            rw [InRange, not_and_or, not_le, not_le] at hrange
            simpa using hrange
          refine ⟨hnone hother ?_, ?_⟩
          · rw [sampleOf, if_pos hb, htemp, Option.filter_some_neg (by simpa using hrange)]
            rfl
          · simp only [addRadio, hskip, htemp, hout]
            rfl
  -- A radio of neither band is skipped at once.
  · left
    rw [not_exists] at hband
    have h2 : radio.band ≠ 2 := hband .g2
    have h5 : radio.band ≠ 5 := hband .g5
    refine ⟨fun b => sampleOf_of_ne (hband b) timestamp, ?_⟩
    rw [addRadio, if_pos (by simp [h2, h5])]

/-- The statistics of a band after the radios of a record. -/
theorem stats_foldl_addRadio (timestamp : UInt64) (radios : List (Ap.RadioTimePoint ℚ))
    (r : RadioLoop) (b : Band) :
    (radios.foldl (addRadio timestamp) r).stats b
      = (radios.filterMap (sampleOf b timestamp)).foldl BandStats.add (r.stats b) := by
  induction radios generalizing r with
  | nil => rfl
  | cons radio radios ih =>
      rw [List.foldl_cons, ih]
      rcases addRadio_cases timestamp r radio with ⟨hnone, hr⟩ | ⟨c, s, hs, hother, hr⟩
      · rw [hr, List.filterMap_cons_none (hnone b)]
      · rw [hr, RadioLoop.stats_put]
        by_cases hcb : c = b
        · subst hcb
          rw [if_pos rfl, List.filterMap_cons_some hs]
          rfl
        · rw [if_neg hcb, List.filterMap_cons_none (hother b (Ne.symm hcb))]

/-- A record contributes when it has a sample for either band. -/
theorem recordContributed_foldl_addRadio (timestamp : UInt64)
    (radios : List (Ap.RadioTimePoint ℚ)) (r : RadioLoop) :
    (radios.foldl (addRadio timestamp) r).recordContributed = true ↔
      r.recordContributed = true ∨ ∃ b, radios.filterMap (sampleOf b timestamp) ≠ [] := by
  induction radios generalizing r with
  | nil => simp
  | cons radio radios ih =>
      rw [List.foldl_cons, ih]
      rcases addRadio_cases timestamp r radio with ⟨hnone, hr⟩ | ⟨c, s, hs, -, hr⟩
      · rw [hr]
        simp only [List.filterMap_cons_none (hnone _)]
      · rw [hr]
        refine iff_of_true (.inl (RadioLoop.recordContributed_put r s c)) (.inr ⟨c, ?_⟩)
        rw [List.filterMap_cons_some hs]
        exact List.cons_ne_nil _ _

/-! ## The loop over the records -/

/-- The statistics of a band. -/
def Registers.stats (r : Registers) : Band → BandStats
  | .g2 => r.band2G
  | .g5 => r.band5G

/-- The interval the registers carry. -/
def Registers.observed (r : Registers) : Option (UInt64 × UInt64) :=
  if r.anyValidSample then some (r.observedStartTimestamp, r.observedEndTimestamp) else none

/-- The interval in natural numbers. -/
def toNatPair : Option (UInt64 × UInt64) → Option (ℕ × ℕ) :=
  Option.map (Prod.map UInt64.toNat UInt64.toNat)

theorem toNatPair_injective : Function.Injective toNatPair := by
  apply Option.map_injective
  rintro ⟨a, b⟩ ⟨c, d⟩ h
  obtain ⟨hac, hbd⟩ := Prod.mk.inj h
  exact Prod.ext (UInt64.toNat_inj.mp hac) (UInt64.toNat_inj.mp hbd)

theorem stats_observe (r : Registers) (timestamp : UInt64) (b : Band) :
    (r.observe timestamp).stats b = r.stats b := by
  unfold Registers.observe
  cases b <;> split_ifs <;> rfl

theorem observed_observe (r : Registers) (timestamp : UInt64) :
    toNatPair (r.observe timestamp).observed
      = widen (toNatPair r.observed) (some (timestamp.toNat, timestamp.toNat)) := by
  unfold Registers.observe Registers.observed
  cases r.anyValidSample
  · rfl
  · show some ((min r.observedStartTimestamp timestamp).toNat,
      (max r.observedEndTimestamp timestamp).toNat) = _
    rw [UInt64.toNat_min, UInt64.toNat_max]
    rfl

/-- The registers after the radios of a record, before its time is observed. -/
def afterRadios (r : Registers) (record : Ap.DeviceTimePoint ℚ) : RadioLoop :=
  record.radioData.foldl (addRadio record.timestamp) { band2G := r.band2G, band5G := r.band5G }

theorem addRecord_eq (requested : Window) (r : Registers) (record : Ap.DeviceTimePoint ℚ) :
    addRecord requested r record
      = if timestampInHalfOpenWindow record.timestamp requested then
          let r' := { r with
            band2G := (afterRadios r record).band2G, band5G := (afterRadios r record).band5G }
          if (afterRadios r record).recordContributed then r'.observe record.timestamp else r'
        else r := by
  unfold addRecord
  cases timestampInHalfOpenWindow record.timestamp requested <;> rfl

/-- A record adds its samples to the statistics of a band. -/
theorem stats_addRecord (requested : Window) (r : Registers) (record : Ap.DeviceTimePoint ℚ)
    (b : Band) :
    (addRecord requested r record).stats b
      = (recordSamples requested b record).foldl BandStats.add (r.stats b) := by
  rw [addRecord_eq]
  unfold recordSamples
  by_cases hwin : timestampInHalfOpenWindow record.timestamp requested = true
  · have hradios : (afterRadios r record).stats b
        = (record.radioData.filterMap (sampleOf b record.timestamp)).foldl BandStats.add
            (r.stats b) := by
      -- the radios add to their bands, and observing the time changes no band
      rw [afterRadios, stats_foldl_addRadio]
      cases b <;> rfl
    rw [if_pos hwin, if_pos hwin, ← hradios]
    simp only
    split_ifs
    · rw [stats_observe]
      cases b <;> rfl
    · cases b <;> rfl
  · rw [if_neg hwin, if_neg hwin]
    rfl

/-- The statistics of a band are made from its samples. -/
theorem stats_run (records : List (Ap.DeviceTimePoint ℚ)) (requested : Window) (b : Band) :
    (run records requested).stats b = (samples records requested b).foldl BandStats.add {} := by
  have hfold : ∀ r : Registers, (records.foldl (addRecord requested) r).stats b
      = (records.flatMap (recordSamples requested b)).foldl BandStats.add (r.stats b) := by
    induction records with
    | nil => exact fun _ => rfl
    | cons record records ih =>
        intro r
        rw [List.foldl_cons, ih, stats_addRecord, List.flatMap_cons, List.foldl_append]
  rw [run, hfold, samples]
  cases b <;> rfl

/-- The times of the samples of a record, one or none. -/
def recordTimes (requested : Window) (record : Ap.DeviceTimePoint ℚ) : Set (ℕ × ℕ) :=
  {i | ∃ b, ∃ s ∈ recordSamples requested b record, i = s.instant}

/-- The interval of a record. -/
def recordInterval (requested : Window) (record : Ap.DeviceTimePoint ℚ) : Option (ℕ × ℕ) :=
  if recordSamples requested .g2 record ≠ [] ∨ recordSamples requested .g5 record ≠ [] then
    some (record.timestamp.toNat, record.timestamp.toNat)
  else none

theorem Band.exists_iff {p : Band → Prop} : (∃ b, p b) ↔ p .g2 ∨ p .g5 := by
  refine ⟨?_, ?_⟩
  · rintro ⟨_ | _, h⟩
    · exact .inl h
    · exact .inr h
  · rintro (h | h)
    · exact ⟨.g2, h⟩
    · exact ⟨.g5, h⟩

theorem recordInterval_pos {requested : Window} {record : Ap.DeviceTimePoint ℚ}
    (h : ∃ b, recordSamples requested b record ≠ []) :
    recordInterval requested record
      = some (record.timestamp.toNat, record.timestamp.toNat) :=
  if_pos (Band.exists_iff.mp h)

theorem recordInterval_neg {requested : Window} {record : Ap.DeviceTimePoint ℚ}
    (h : ¬ ∃ b, recordSamples requested b record ≠ []) :
    recordInterval requested record = none :=
  if_neg fun hor => h (Band.exists_iff.mpr hor)

theorem encloses_recordInterval (requested : Window) (record : Ap.DeviceTimePoint ℚ) :
    Encloses (recordTimes requested record) (recordInterval requested record) := by
  by_cases h : ∃ b, recordSamples requested b record ≠ []
  -- all samples of a record have the time of the record
  · have hset : recordTimes requested record
        = {i | i ∈ some (record.timestamp.toNat, record.timestamp.toNat)} := by
      ext i
      refine ⟨?_, ?_⟩
      · rintro ⟨b, s, hs, rfl⟩
        rw [Sample.instant, timestamp_of_mem_recordSamples hs]
        rfl
      · intro hi
        obtain ⟨b, hb⟩ := h
        obtain ⟨s, hs⟩ := List.exists_mem_of_ne_nil _ hb
        refine ⟨b, s, hs, ?_⟩
        rw [Sample.instant, timestamp_of_mem_recordSamples hs]
        exact (Option.some.inj hi).symm
    rw [hset, recordInterval_pos h]
    exact encloses_self _
  · rw [recordInterval_neg h]
    refine Set.eq_empty_of_forall_notMem ?_
    rintro i ⟨b, s, hs, -⟩
    exact h ⟨b, List.ne_nil_of_mem hs⟩

theorem observed_addRecord (requested : Window) (r : Registers)
    (record : Ap.DeviceTimePoint ℚ) :
    toNatPair (addRecord requested r record).observed
      = widen (toNatPair r.observed) (recordInterval requested record) := by
  rw [addRecord_eq]
  by_cases hwin : timestampInHalfOpenWindow record.timestamp requested = true
  · have hsamples : ∀ b, recordSamples requested b record
        = record.radioData.filterMap (sampleOf b record.timestamp) := fun b => if_pos hwin
    -- the flag is set by the radios that give a sample
    have hcontributed : (afterRadios r record).recordContributed = true ↔
        ∃ b, recordSamples requested b record ≠ [] := by
      simp only [hsamples]
      exact (recordContributed_foldl_addRadio record.timestamp record.radioData _).trans (by simp)
    rw [if_pos hwin]
    simp only
    by_cases h : ∃ b, recordSamples requested b record ≠ []
    · rw [if_pos (hcontributed.mpr h), recordInterval_pos h, observed_observe]
      rfl
    · rw [if_neg (hcontributed.not.mpr h), recordInterval_neg h, widen_none]
      rfl
  · have hnone : ¬ ∃ b, recordSamples requested b record ≠ [] := by
      rintro ⟨b, hb⟩
      exact hb (if_neg hwin)
    rw [if_neg hwin, recordInterval_neg hnone, widen_none]

/-- The observed interval encloses the times of the samples of both bands. -/
theorem encloses_run (records : List (Ap.DeviceTimePoint ℚ)) (requested : Window) :
    Encloses {i | ∃ record ∈ records, i ∈ recordTimes requested record}
      (toNatPair (run records requested).observed) := by
  have hfold : ∀ r : Registers,
      toNatPair (records.foldl (addRecord requested) r).observed
        = records.foldl (fun o record => widen o (recordInterval requested record))
            (toNatPair r.observed) := by
    induction records with
    | nil => exact fun _ => rfl
    | cons record records ih =>
        intro r
        rw [List.foldl_cons, List.foldl_cons, ih, observed_addRecord]
  have hall := Encloses.foldl (encloses_recordInterval requested) records encloses_empty
  rw [Set.empty_union] at hall
  rw [run, hfold]
  exact hall

/-! ## The statistics of a list of samples -/

/-- The time that decides which sample is the latest. -/
def Sample.time (s : Sample) : ℕ := s.timestamp.toNat

/-- What the statistics say about the samples they are made from. -/
structure Describes (l : List Sample) (stats : BandStats) : Prop where
  min : Least {v | ∃ s ∈ l, s.value = v} stats.min
  max : Greatest {v | ∃ s ∈ l, s.value = v} stats.max
  empty : stats.latest = none → l = []
  latest : ∀ v ∈ stats.latest,
    ∃ s, IsLatest Sample.time l s ∧ s.value = v ∧ s.timestamp = stats.latestTimestamp
  sum : stats.sum = (l.map Sample.value).sum
  count : stats.count = l.length

theorem setOf_value_concat (l : List Sample) (x : Sample) :
    {v | ∃ s ∈ l ++ [x], s.value = v} = Set.insert x.value {v | ∃ s ∈ l, s.value = v} := by
  ext v
  simp only [List.mem_append, List.mem_singleton, Set.mem_ofPred_eq, or_and_right, exists_or,
    exists_eq_left]
  exact or_comm.trans (or_congr_left eq_comm)

theorem Describes.concat {l : List Sample} {stats : BandStats} (h : Describes l stats)
    (x : Sample) : Describes (l ++ [x]) (stats.add x) where
  min := by
    rw [setOf_value_concat]
    exact h.min.insert x.value
  max := by
    rw [setOf_value_concat]
    exact h.max.insert x.value
  empty := by
    intro hnone
    have hsome : (stats.add x).latest.isSome = true := by
      show (if stats.latest.isNone || x.timestamp ≥ stats.latestTimestamp then some x.value
        else stats.latest).isSome = true
      cases hlatest : stats.latest with
      | none => rfl
      | some v => split_ifs <;> rfl
    rw [hnone] at hsome
    cases hsome
  latest := by
    intro v hv
    have hv : (if stats.latest.isNone || x.timestamp ≥ stats.latestTimestamp then some x.value
      else stats.latest) = some v := hv
    show ∃ s : Sample, IsLatest Sample.time (l ++ [x]) s ∧ s.value = v ∧ s.timestamp
      = if stats.latest.isNone || x.timestamp ≥ stats.latestTimestamp then x.timestamp
        else stats.latestTimestamp
    split_ifs at hv ⊢ with hnew
    · -- the new sample takes over: there was none, or its time is not before the latest
      refine ⟨x, isLatest_concat ?_, Option.some.inj hv, rfl⟩
      intro y hy
      cases hlatest : stats.latest with
      | none =>
          rw [h.empty hlatest] at hy
          exact absurd hy List.not_mem_nil
      | some w =>
          obtain ⟨s, hs, -, htime⟩ := h.latest w hlatest
          rw [hlatest] at hnew
          have hle : stats.latestTimestamp ≤ x.timestamp := by simpa using hnew
          rw [← htime, UInt64.le_iff_toNat_le] at hle
          exact (hs.le hy).trans hle
    · obtain ⟨s, hs, hval, htime⟩ := h.latest v hv
      refine ⟨s, hs.concat ?_, hval, htime⟩
      rw [Bool.or_eq_true, not_or, decide_eq_true_iff, ge_iff_le, UInt64.not_le] at hnew
      rw [← htime, UInt64.lt_iff_toNat_lt] at hnew
      exact hnew.2
  sum := by
    rw [List.map_append, List.sum_append, ← h.sum]
    show stats.sum + x.value = _
    simp
  count := by
    rw [List.length_append, ← h.count]
    rfl

theorem describes_foldl_add (l : List Sample) : Describes l (l.foldl BandStats.add {}) := by
  induction l using List.reverseRecOn with
  | nil =>
      refine ⟨?_, ?_, fun _ => rfl, fun v hv => absurd hv (by simp), rfl, rfl⟩
      · exact Set.eq_empty_of_forall_notMem fun v ⟨s, hs, _⟩ => absurd hs List.not_mem_nil
      · exact Set.eq_empty_of_forall_notMem fun v ⟨s, hs, _⟩ => absurd hs List.not_mem_nil
  | append_singleton l x ih =>
      rw [List.foldl_append]
      exact ih.concat x

end OwAnalytics.Mcp.Temperature
