/-
  OwAnalytics.Mcp.Rssi.Samples

  What the statistics of a client are made of: the valid signal strengths of its
  associations inside the window, each with the time of its record.  The counters
  count them by bucket and the observed interval is the smallest one around their
  times, so the statistics depend on the samples as a multiset only.
-/

import OwAnalytics.Lib.Grouping
import OwAnalytics.Lib.Hull
import OwAnalytics.Lib.Words
import OwAnalytics.Mcp.Rssi.Summary

namespace OwAnalytics.Mcp.Rssi

open Grouping Hull Words

/-! ## Samples -/

/-- One signal strength at one time. -/
structure Sample where
  timestamp : UInt64
  rssi : Int64
deriving DecidableEq

/-- The signal strengths that are counted. -/
def ValidRssi (rssi : Int64) : Prop := -127 ≤ rssi ∧ rssi ≤ -1

instance : DecidablePred ValidRssi := fun rssi =>
  inferInstanceAs (Decidable (-127 ≤ rssi ∧ rssi ≤ -1))

/-- The condition the program skips an association on. -/
theorem not_validRssi_iff (rssi : Int64) :
    (rssi > -1 || rssi < -127) = true ↔ ¬ ValidRssi rssi := by
  rw [Bool.or_eq_true, decide_eq_true_iff, decide_eq_true_iff, ValidRssi, not_and_or,
    Int64.not_le, Int64.not_le, or_comm]

section Model

variable {F : Type} [Zero F]

/-- The sample of an association of a record, if its address and strength are valid. -/
def sampleOf (record : Ap.DeviceTimePoint F) (assoc : Ap.UETimePoint F) : Option (Str × Sample) :=
  if ValidRssi assoc.rssi then
    (normalizeClientMac assoc.station).map fun mac => (mac, ⟨record.timestamp, assoc.rssi⟩)
  else none

/-- The samples of a record under the addresses of their clients. -/
def recordSamples (requested : Window) (record : Ap.DeviceTimePoint F) : List (Str × Sample) :=
  if timestampInHalfOpenWindow record.timestamp requested then
    record.ssidData.flatMap fun ssid => ssid.associations.filterMap (sampleOf record)
  else []

/-- The samples of all records, in the order of the three loops. -/
def samples (records : List (Ap.DeviceTimePoint F)) (requested : Window) : List (Str × Sample) :=
  records.flatMap (recordSamples requested)

/-- The samples of a client. -/
def samplesOf (records : List (Ap.DeviceTimePoint F)) (requested : Window) (mac : Str) :
    List Sample :=
  valuesAt mac (samples records requested)

/-- A sample names the association it comes from. -/
theorem mem_samplesOf {records : List (Ap.DeviceTimePoint F)} {requested : Window} {mac : Str}
    {s : Sample} :
    s ∈ samplesOf records requested mac ↔
      ∃ record ∈ records, timestampInHalfOpenWindow record.timestamp requested = true ∧
        ∃ ssid ∈ record.ssidData, ∃ assoc ∈ ssid.associations,
          normalizeClientMac assoc.station = some mac ∧ ValidRssi assoc.rssi ∧
            s = ⟨record.timestamp, assoc.rssi⟩ := by
  rw [samplesOf, mem_valuesAt, samples, List.mem_flatMap]
  -- One existential for each loop: records, SSIDs, associations.
  refine exists_congr fun record => and_congr_right fun _ => ?_
  unfold recordSamples
  by_cases hwin : timestampInHalfOpenWindow record.timestamp requested = true
  · rw [if_pos hwin, List.mem_flatMap]
    simp only [hwin, true_and]
    refine exists_congr fun ssid => and_congr_right fun _ => ?_
    rw [List.mem_filterMap]
    refine exists_congr fun assoc => and_congr_right fun _ => ?_
    unfold sampleOf
    rw [Option.ite_none_right_eq_some, Option.map_eq_some_iff]
    refine ⟨?_, ?_⟩
    · rintro ⟨hvalid, mac', hmac, heq⟩
      obtain ⟨rfl, rfl⟩ := Prod.mk.inj heq
      exact ⟨hmac, hvalid, rfl⟩
    · rintro ⟨hmac, hvalid, rfl⟩
      exact ⟨hvalid, mac, hmac, rfl⟩
  · simp [hwin]

end Model

/-! ## Buckets -/

/-- The qualities of a sample. -/
inductive Bucket where
  | excellent
  | good
  | fair
  | poor
deriving DecidableEq

instance : Fintype Bucket where
  elems := {.excellent, .good, .fair, .poor}
  complete b := by cases b <;> decide

/-- The bucket a valid signal strength belongs to. -/
def bucketOf (rssi : Int64) : Bucket :=
  if -55 ≤ rssi then .excellent
  else if -67 ≤ rssi then .good
  else if -75 ≤ rssi then .fair
  else .poor

/-- The samples of a quality. -/
def RssiClientStats.count (stats : RssiClientStats) : Bucket → ℕ
  | .excellent => stats.excellent
  | .good => stats.good
  | .fair => stats.fair
  | .poor => stats.poor

theorem sum_bucket (f : Bucket → ℕ) :
    ∑ b, f b = f .excellent + f .good + f .fair + f .poor := by
  show ∑ b ∈ {Bucket.excellent, .good, .fair, .poor}, f b = _
  simp [add_assoc]

/-- Each sample is counted in one bucket. -/
theorem sum_countP_bucket (l : List Sample) :
    ∑ b, l.countP (fun s => bucketOf s.rssi = b) = l.length := by
  induction l with
  | nil => simp
  | cons s l ih =>
      simp only [List.countP_cons, Finset.sum_add_distrib, ih, decide_eq_true_eq,
        Finset.sum_ite_eq, Finset.mem_univ, if_true, List.length_cons]

/-! ## The statistics of a list of samples -/

/-- One sample, as the innermost loop adds it. -/
def addSample (stats : RssiClientStats) (s : Sample) : RssiClientStats :=
  observe (countRssi stats s.rssi) s.timestamp

theorem count_addSample (stats : RssiClientStats) (s : Sample) (b : Bucket) :
    (addSample stats s).count b = stats.count b + if bucketOf s.rssi = b then 1 else 0 := by
  have hobserve : ∀ t : RssiClientStats, (observe t s.timestamp).count b = t.count b := by
    intro t
    unfold observe
    split_ifs <;> cases b <;> rfl
  rw [addSample, hobserve]
  unfold countRssi bucketOf
  split_ifs <;> cases b <;> first | rfl | contradiction

theorem count_foldl_addSample (l : List Sample) (stats : RssiClientStats) (b : Bucket) :
    (l.foldl addSample stats).count b
      = stats.count b + l.countP (fun s => bucketOf s.rssi = b) := by
  induction l generalizing stats with
  | nil => rfl
  | cons s l ih =>
      rw [List.foldl_cons, ih, count_addSample, List.countP_cons]
      simp only [decide_eq_true_eq]
      omega

/-- The interval the statistics carry. -/
def RssiClientStats.observed (stats : RssiClientStats) : Option (ℕ × ℕ) :=
  if stats.hasSample then some (stats.observedStart.toNat, stats.observedEnd.toNat) else none

/-- The time of a sample, as an interval. -/
def Sample.instant (s : Sample) : ℕ × ℕ := (s.timestamp.toNat, s.timestamp.toNat)

theorem observed_addSample (stats : RssiClientStats) (s : Sample) :
    (addSample stats s).observed = widen stats.observed (some s.instant) := by
  have hcount : (countRssi stats s.rssi).observed = stats.observed := by
    unfold countRssi
    split_ifs <;> rfl
  rw [addSample, ← hcount]
  unfold observe RssiClientStats.observed
  cases (countRssi stats s.rssi).hasSample
  · rfl
  · show some ((min (countRssi stats s.rssi).observedStart s.timestamp).toNat,
      (max (countRssi stats s.rssi).observedEnd s.timestamp).toNat) = _
    rw [UInt64.toNat_min, UInt64.toNat_max]
    rfl

/-- The observed interval encloses the times of the samples. -/
theorem encloses_observed (l : List Sample) :
    Encloses {i | ∃ s ∈ l, i = s.instant} (l.foldl addSample {}).observed := by
  have hfold : ∀ stats : RssiClientStats, (l.foldl addSample stats).observed
      = l.foldl (fun o s => widen o (some s.instant)) stats.observed := by
    induction l with
    | nil => exact fun _ => rfl
    | cons s l ih =>
        intro stats
        rw [List.foldl_cons, List.foldl_cons, ih, observed_addSample]
  have hall := Encloses.foldl (fun s : Sample => encloses_self (some s.instant)) l encloses_empty
  have hset : {i | ∃ s ∈ l, i = s.instant}
      = ∅ ∪ {i | ∃ s ∈ l, i ∈ {i | i ∈ some s.instant}} := by
    ext i
    simp [eq_comm]
  rw [hfold, hset]
  exact hall

/-- Two samples may be added in either order. -/
instance : RightCommutative addSample := ⟨fun stats a b => by
  have hcount : ∀ (t : RssiClientStats) (time : UInt64) (rssi : Int64),
      countRssi (observe t time) rssi = observe (countRssi t rssi) time := by
    intro t time rssi
    unfold observe countRssi
    cases t.hasSample <;> split_ifs <;> rfl
  have hcounts : countRssi (countRssi stats a.rssi) b.rssi
      = countRssi (countRssi stats b.rssi) a.rssi := by
    unfold countRssi
    split_ifs <;> rfl
  have htimes : ∀ t : RssiClientStats, observe (observe t a.timestamp) b.timestamp
      = observe (observe t b.timestamp) a.timestamp := by
    intro t
    unfold observe
    cases h : t.hasSample
    · simp [min_comm a.timestamp, max_comm a.timestamp]
    · simp [min_right_comm, max_right_comm]
  unfold addSample
  rw [hcount, hcount, hcounts, htimes]⟩

/-! ## The statistics of the records -/

section Model

variable {F : Type} [Zero F]

/-- The three nested loops are one fold over the samples. -/
theorem clientStatsByMac_eq (records : List (Ap.DeviceTimePoint F)) (requested : Window) :
    clientStatsByMac records requested
      = (samples records requested).foldl (accumulate addSample {}) ∅ := by
  -- One loop is taken off at a time: records, SSIDs, associations.
  unfold clientStatsByMac samples
  rw [List.foldl_flatMap]
  congr 1
  funext m record
  unfold collectRecord recordSamples
  by_cases hwin : timestampInHalfOpenWindow record.timestamp requested = true
  · rw [if_pos hwin, if_neg (by simp [hwin]), List.foldl_flatMap]
    congr 1
    funext m ssid
    rw [List.foldl_filterMap]
    congr 1
    funext m assoc
    unfold collectAssociation sampleOf
    by_cases hvalid : ValidRssi assoc.rssi
    · rw [if_pos hvalid]
      cases normalizeClientMac assoc.station with
      | none => rfl
      | some mac =>
          have hskip := (not_validRssi_iff assoc.rssi).not.mpr (not_not.mpr hvalid)
          simp only [hskip, Option.map_some]
          rfl
    -- A reading out of range is skipped, whether or not the address is well formed.
    · rw [if_neg hvalid]
      cases normalizeClientMac assoc.station with
      | none => rfl
      | some mac =>
          have hskip := (not_validRssi_iff assoc.rssi).mpr hvalid
          simp only [hskip]
          rfl
  · rw [if_neg hwin, if_pos (by simp [hwin])]
    rfl

/-- The statistics of a client; it has some iff it has a sample. -/
theorem getElem?_clientStatsByMac (records : List (Ap.DeviceTimePoint F)) (requested : Window)
    (mac : Str) :
    (clientStatsByMac records requested)[mac]?
      = if (samplesOf records requested mac).isEmpty then none
        else some ((samplesOf records requested mac).foldl addSample {}) := by
  rw [clientStatsByMac_eq, getElem?_foldl_accumulate, Std.ExtTreeMap.getElem?_empty]
  rfl

/-- The statistics depend on the samples only, not on their order. -/
theorem clientStatsByMac_congr {records records' : List (Ap.DeviceTimePoint F)}
    {requested : Window} (h : (samples records requested).Perm (samples records' requested)) :
    clientStatsByMac records requested = clientStatsByMac records' requested := by
  rw [clientStatsByMac_eq, clientStatsByMac_eq, foldl_accumulate_perm _ h]

/-- A client with statistics has samples, and they are those of its samples. -/
theorem eq_of_getElem?_clientStatsByMac {records : List (Ap.DeviceTimePoint F)}
    {requested : Window} {mac : Str} {stats : RssiClientStats}
    (h : (clientStatsByMac records requested)[mac]? = some stats) :
    samplesOf records requested mac ≠ [] ∧
      stats = (samplesOf records requested mac).foldl addSample {} := by
  rw [getElem?_clientStatsByMac] at h
  split_ifs at h with hempty
  exact ⟨fun hnil => hempty (by rw [hnil]; rfl), (Option.some.inj h).symm⟩

end Model

end OwAnalytics.Mcp.Rssi
