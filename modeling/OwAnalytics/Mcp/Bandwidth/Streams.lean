/-
  OwAnalytics.Mcp.Bandwidth.Streams

  What one counter stream of `CalculateBandwidthConsumptionSummary` is: the
  readings its associations carry, without the bookkeeping (record id, window
  flag) the program attaches to them.  Sorting and deduplicating a stream keeps
  exactly the readings that are alone at their timestamp, in ascending order, so
  the totals depend on the set of readings only.
-/

import OwAnalytics.Lib.Grouping
import OwAnalytics.Mcp.Bandwidth.Summary

namespace OwAnalytics.Mcp.Bandwidth

open AnalyticsObjects Grouping

/-! ## Readings -/

/-- The counters of one association at one time. -/
structure Reading where
  timestamp : UInt64
  rx : Option UInt64
  tx : Option UInt64
deriving DecidableEq

/-- The counter of a reading in a direction. -/
def Reading.counter (r : Reading) : Direction → Option UInt64
  | .rx => r.rx
  | .tx => r.tx

/-- The reading of a sample. -/
def Sample.reading (s : Sample) : Reading := ⟨s.timestamp, s.rx, s.tx⟩

@[simp] theorem Sample.reading_timestamp (s : Sample) : s.reading.timestamp = s.timestamp := rfl

/-- The sample the program would make of a reading, up to the record id. -/
def Reading.toSample (requested : Window) (r : Reading) : Sample where
  timestamp := r.timestamp
  rx := r.rx
  tx := r.tx
  id := []
  inWindow := timestampInHalfOpenWindow r.timestamp requested

/-- The window flag of a sample is the one its timestamp has. -/
def Sample.WellFlagged (requested : Window) (s : Sample) : Prop :=
  s.inWindow = timestampInHalfOpenWindow s.timestamp requested

/-- A well flagged sample is its reading, its window flag and its record id. -/
theorem Sample.WellFlagged.eq_toSample {requested : Window} {s : Sample}
    (h : s.WellFlagged requested) : s = { s.reading.toSample requested with id := s.id } := by
  obtain ⟨timestamp, rx, tx, id, inWindow⟩ := s
  obtain rfl : inWindow = timestampInHalfOpenWindow timestamp requested := h
  rfl

/-- The reading an association contributes. -/
def makeReading (record : DeviceTimePoint) (assoc : UETimePoint) : Reading where
  timestamp := record.timestamp
  rx := if assoc.rxBytesPresent then some assoc.rxBytes else none
  tx := if assoc.txBytesPresent then some assoc.txBytes else none

/-- `StreamKey` of an association, with its normalized MAC. -/
def streamKey (ssid : SSIDTimePoint) (mac : Str) : StreamKey :=
  { mac, bssid := ssid.bssid, ssid := ssid.ssid, band := ssid.band }

/-- The associations with a valid MAC, in the order of the three collecting loops, each
    under its stream key and turned into a value by `make`. -/
def keyed {β : Type*} (make : DeviceTimePoint → UETimePoint → β)
    (records : List DeviceTimePoint) : List (StreamKey × β) :=
  records.flatMap fun record => record.ssidData.flatMap fun ssid =>
    ssid.associations.filterMap fun assoc =>
      (normalizeClientMac assoc.station).map fun mac => (streamKey ssid mac, make record assoc)

/-- All readings of a list of records, each under the key of its stream. -/
def keyedReadings (records : List DeviceTimePoint) : List (StreamKey × Reading) :=
  keyed makeReading records

theorem keyed_map {β γ : Type*} (make : DeviceTimePoint → UETimePoint → β) (g : β → γ)
    (records : List DeviceTimePoint) :
    (keyed make records).map (fun kv => (kv.1, g kv.2))
      = keyed (fun record assoc => g (make record assoc)) records := by
  simp only [keyed, List.map_flatMap, List.map_filterMap, Option.map_map]
  rfl

/-- Membership in a keyed list names the record, SSID and association it comes from. -/
theorem mem_keyed {β : Type*} {make : DeviceTimePoint → UETimePoint → β}
    {records : List DeviceTimePoint} {key : StreamKey} {v : β} :
    (key, v) ∈ keyed make records ↔
      ∃ record ∈ records, ∃ ssid ∈ record.ssidData, ∃ assoc ∈ ssid.associations,
        ∃ mac, normalizeClientMac assoc.station = some mac ∧ key = streamKey ssid mac ∧
          v = make record assoc := by
  simp only [keyed, List.mem_flatMap, List.mem_filterMap, Option.map_eq_some_iff, Prod.mk.injEq]
  refine ⟨?_, ?_⟩
  · rintro ⟨record, hrecord, ssid, hssid, assoc, hassoc, mac, hmac, rfl, rfl⟩
    exact ⟨record, hrecord, ssid, hssid, assoc, hassoc, mac, hmac, rfl, rfl⟩
  · rintro ⟨record, hrecord, ssid, hssid, assoc, hassoc, mac, hmac, rfl, rfl⟩
    exact ⟨record, hrecord, ssid, hssid, assoc, hassoc, mac, hmac, rfl, rfl⟩

/-! ## The collecting loops -/

/-- The three nested loops are one fold over the keyed samples. -/
theorem collectStreams_eq (records : List DeviceTimePoint) (requested : Window) :
    collectStreams records requested
      = (keyed (makeSample requested) records).foldl
          (accumulate (fun acc v => acc ++ [v]) []) ∅ := by
  unfold collectStreams keyed
  simp only [List.foldl_flatMap, List.foldl_filterMap]
  congr 1
  funext streams record
  congr 1
  funext streams ssid
  congr 1
  funext streams assoc
  unfold collectAssociation
  cases normalizeClientMac assoc.station <;> rfl

theorem getElem?_collectStreams (records : List DeviceTimePoint) (requested : Window)
    (key : StreamKey) :
    (collectStreams records requested)[key]?
      = if (valuesAt key (keyed (makeSample requested) records)).isEmpty then none
        else some (valuesAt key (keyed (makeSample requested) records)) := by
  rw [collectStreams_eq, getElem?_foldl_group]

theorem wellFlagged_of_mem_keyed {records : List DeviceTimePoint} {requested : Window}
    {key : StreamKey} {s : Sample} (h : (key, s) ∈ keyed (makeSample requested) records) :
    s.WellFlagged requested := by
  obtain ⟨record, -, ssid, -, assoc, -, mac, -, -, rfl⟩ := mem_keyed.mp h
  rfl

/-- The samples of a stream carry the readings of the stream, whatever the window. -/
theorem map_reading_valuesAt (records : List DeviceTimePoint) (requested : Window)
    (key : StreamKey) :
    (valuesAt key (keyed (makeSample requested) records)).map Sample.reading
      = valuesAt key (keyedReadings records) := by
  rw [← valuesAt_map, keyed_map]
  rfl

/-! ## Sorting and deduplicating -/

instance : Std.TransCmp Sample.cmp :=
  inferInstanceAs (Std.TransCmp (compareLex _ (compareLex _ (compareLex _ _))))

instance : IsTrans Sample Sample.le := ⟨fun _ _ _ => Std.TransCmp.isLE_trans⟩

instance : Std.Total Sample.le := ⟨fun a b => by
  have hswap : Sample.cmp b a = (Sample.cmp a b).swap := Std.OrientedCmp.eq_swap
  unfold Sample.le
  rw [hswap]
  cases Sample.cmp a b <;> simp⟩

theorem Sample.le.timestamp_le {a b : Sample} (h : Sample.le a b) : a.timestamp ≤ b.timestamp := by
  rw [← Std.LawfulOrderOrd.isLE_compare]
  unfold Sample.le Sample.cmp compareLex compareOn at h
  revert h
  cases compare a.timestamp b.timestamp <;> simp

/-- A reading of a list is settled when every reading of the list at its timestamp is equal
    to it: equal ones are collapsed, and different ones exclude the timestamp. -/
def Settled (rs : List Reading) (r : Reading) : Prop :=
  r ∈ rs ∧ ∀ r' ∈ rs, r'.timestamp = r.timestamp → r' = r

instance (rs : List Reading) (r : Reading) : Decidable (Settled rs r) :=
  inferInstanceAs (Decidable (_ ∧ _))

theorem settled_cons_of_ne {rs : List Reading} {r x : Reading} (h : r.timestamp ≠ x.timestamp) :
    Settled (x :: rs) r ↔ Settled rs r := by
  unfold Settled
  simp only [List.mem_cons, forall_eq_or_imp]
  refine ⟨?_, ?_⟩
  · rintro ⟨rfl | hmem, -, hall⟩
    · exact absurd rfl h
    · exact ⟨hmem, hall⟩
  · rintro ⟨hmem, hall⟩
    exact ⟨.inr hmem, fun heq => absurd heq.symm h, hall⟩

theorem settled_cons_of_eq {rs : List Reading} {r x : Reading} (h : r.timestamp = x.timestamp) :
    Settled (x :: rs) r ↔ r = x ∧ ∀ r' ∈ rs, r'.timestamp = x.timestamp → r' = x := by
  unfold Settled
  simp only [List.mem_cons, forall_eq_or_imp]
  refine ⟨?_, ?_⟩
  · rintro ⟨-, hx, hall⟩
    obtain rfl := hx h.symm
    exact ⟨rfl, hall⟩
  · rintro ⟨rfl, hall⟩
    exact ⟨.inl rfl, fun _ => rfl, hall⟩

/-- What the deduplicating loop keeps from the point where `current` opens a run. -/
theorem mem_map_dedupeRun {current : Sample} {conflict : Bool} {rest : List Sample}
    (hsorted : (current :: rest).Pairwise Sample.le) (r : Reading) :
    r ∈ (dedupeRun current conflict rest).map Sample.reading ↔
      (r.timestamp = current.timestamp ∧ conflict = false ∧
        Settled ((current :: rest).map Sample.reading) r) ∨
      (r.timestamp ≠ current.timestamp ∧ Settled (rest.map Sample.reading) r) := by
  induction rest generalizing current conflict with
  | nil =>
      cases conflict
      · simp only [dedupeRun, Bool.false_eq_true, if_false, List.map_cons, List.map_nil,
          List.mem_singleton, true_and]
        by_cases hts : r.timestamp = current.timestamp
        · rw [settled_cons_of_eq hts]
          simp [hts]
        · have hne : r ≠ current.reading := fun heq => hts (heq ▸ rfl)
          simp [hts, hne, Settled]
      · simp [dedupeRun, Settled]
  | cons next rest ih =>
      obtain ⟨hcur, hrest⟩ := List.pairwise_cons.mp hsorted
      obtain ⟨hnext, -⟩ := List.pairwise_cons.mp hrest
      have hskip : (current :: rest).Pairwise Sample.le :=
        hsorted.sublist (List.Sublist.cons_cons _ (List.sublist_cons_self _ _))
      by_cases hrun : next.timestamp = current.timestamp
      · -- `next` belongs to the run of `current` and is compared with it
        rw [dedupeRun, if_pos hrun, ih hskip]
        simp only [List.map_cons]
        by_cases hts : r.timestamp = current.timestamp
        · have hagree : (conflict || next.rx != current.rx || next.tx != current.tx) = false ↔
              conflict = false ∧ next.reading = current.reading := by
            simp [Sample.reading, hrun, and_assoc]
          rw [settled_cons_of_eq hts, settled_cons_of_eq hts, hagree]
          simp [hts, hrun, and_assoc, and_left_comm]
        · rw [settled_cons_of_ne (x := next.reading) (by rwa [Sample.reading_timestamp, hrun])]
          simp [hts]
      · -- `next` opens a run of its own, and no later sample returns to the timestamp of `current`
        have hlt : current.timestamp < next.timestamp :=
          UInt64.lt_of_le_of_ne (hcur next (by simp)).timestamp_le (Ne.symm hrun)
        have hlater : ∀ t ∈ next :: rest, t.timestamp ≠ current.timestamp := by
          intro t ht heq
          rcases List.mem_cons.mp ht with rfl | ht
          · exact hrun heq
          · have := UInt64.lt_of_lt_of_le hlt (hnext t ht).timestamp_le
            rw [heq] at this
            exact UInt64.lt_irrefl _ this
        have hnone :
            ∀ r' ∈ (next :: rest).map Sample.reading, r'.timestamp ≠ current.timestamp := by
          intro r' hr'
          obtain ⟨t, ht, rfl⟩ := List.mem_map.mp hr'
          exact hlater t ht
        have hsplit : (r.timestamp = next.timestamp ∧ false = false ∧
              Settled ((next :: rest).map Sample.reading) r) ∨
            (r.timestamp ≠ next.timestamp ∧ Settled (rest.map Sample.reading) r) ↔
            Settled ((next :: rest).map Sample.reading) r := by
          by_cases hts : r.timestamp = next.timestamp
          · simp [hts]
          · rw [List.map_cons, settled_cons_of_ne (x := next.reading) hts]
            simp [hts]
        have hcons : (current :: next :: rest).map Sample.reading
            = current.reading :: (next :: rest).map Sample.reading := rfl
        have hkept : r ∈ (if conflict then [] else [current]).map Sample.reading ↔
            conflict = false ∧ r = current.reading := by
          cases conflict <;> simp
        rw [dedupeRun, if_neg hrun, List.map_append, List.mem_append, ih hrest, hsplit, hcons,
          hkept]
        by_cases hts : r.timestamp = current.timestamp
        · have hout : ¬ Settled ((next :: rest).map Sample.reading) r := fun h => hnone r h.1 hts
          have hrun' : ∀ r' ∈ (next :: rest).map Sample.reading,
              r'.timestamp = current.reading.timestamp → r' = current.reading :=
            fun r' hr' heq => absurd heq (hnone r' hr')
          rw [settled_cons_of_eq (x := current.reading) hts, and_iff_left hrun', or_iff_left hout]
          simp [hts]
        · have hne : r ≠ current.reading := fun heq => hts (heq ▸ rfl)
          rw [settled_cons_of_ne (x := current.reading) hts]
          simp [hts, hne]

/-- The deduplicating loop drops samples and keeps the order of the others. -/
theorem sublist_dedupeRun (current : Sample) (conflict : Bool) (rest : List Sample) :
    (dedupeRun current conflict rest).Sublist (current :: rest) := by
  induction rest generalizing current conflict with
  | nil => cases conflict <;> simp [dedupeRun]
  | cons next rest ih =>
      rw [dedupeRun]
      split_ifs
      · exact (ih _ _).trans (List.Sublist.cons_cons _ (List.sublist_cons_self _ _))
      · exact (ih _ _).trans (List.sublist_cons_self _ _)
      · exact List.Sublist.cons_cons _ (ih _ _)

/-- Two kept samples never share a timestamp. -/
theorem pairwise_dedupeRun {current : Sample} {conflict : Bool} {rest : List Sample}
    (hsorted : (current :: rest).Pairwise Sample.le) :
    (dedupeRun current conflict rest).Pairwise (·.timestamp < ·.timestamp) := by
  induction rest generalizing current conflict with
  | nil => cases conflict <;> simp [dedupeRun]
  | cons next rest ih =>
      obtain ⟨hcur, hrest⟩ := List.pairwise_cons.mp hsorted
      rw [dedupeRun]
      by_cases hrun : next.timestamp = current.timestamp
      · rw [if_pos hrun]
        exact ih (hsorted.sublist (List.Sublist.cons_cons _ (List.sublist_cons_self _ _)))
      · rw [if_neg hrun]
        have hlt : current.timestamp < next.timestamp :=
          UInt64.lt_of_le_of_ne (hcur next (by simp)).timestamp_le (Ne.symm hrun)
        -- everything kept later is at least as late as `next`
        have hlater : ∀ s ∈ dedupeRun next false rest, current.timestamp < s.timestamp := by
          intro s hs
          rcases List.mem_cons.mp ((sublist_dedupeRun _ _ _).subset hs) with rfl | hs
          · exact hlt
          · exact UInt64.lt_of_lt_of_le hlt ((List.pairwise_cons.mp hrest).1 s hs).timestamp_le
        cases conflict
        · exact List.pairwise_cons.mpr ⟨hlater, ih hrest⟩
        · exact ih hrest

/-- The samples of a stream that enter the calculation. -/
def dedupedSamples (samples : List Sample) : List Sample :=
  dedupe (samples.insertionSort Sample.le)

theorem mem_of_mem_dedupedSamples {samples : List Sample} {s : Sample}
    (h : s ∈ dedupedSamples samples) : s ∈ samples := by
  rw [← List.mem_insertionSort Sample.le]
  unfold dedupedSamples at h
  cases hsort : samples.insertionSort Sample.le with
  | nil =>
      rw [hsort] at h
      exact absurd h (List.not_mem_nil)
  | cons current rest =>
      rw [hsort] at h
      exact (sublist_dedupeRun _ _ _).subset h

theorem pairwise_dedupedSamples (samples : List Sample) :
    (dedupedSamples samples).Pairwise (·.timestamp < ·.timestamp) := by
  have hsorted := List.pairwise_insertionSort Sample.le samples
  unfold dedupedSamples
  cases hsort : samples.insertionSort Sample.le with
  | nil => exact List.Pairwise.nil
  | cons current rest =>
      rw [hsort] at hsorted
      exact pairwise_dedupeRun hsorted

/-- The calculation uses the settled readings of a stream. -/
theorem mem_map_dedupedSamples (samples : List Sample) (r : Reading) :
    r ∈ (dedupedSamples samples).map Sample.reading ↔ Settled (samples.map Sample.reading) r := by
  have hsorted := List.pairwise_insertionSort Sample.le samples
  have hperm := (List.perm_insertionSort Sample.le samples).map Sample.reading
  have hsettled : Settled ((samples.insertionSort Sample.le).map Sample.reading) r ↔
      Settled (samples.map Sample.reading) r := by
    simp only [Settled, hperm.mem_iff]
  rw [← hsettled]
  unfold dedupedSamples
  cases hsort : samples.insertionSort Sample.le with
  | nil => simp [dedupe, Settled]
  | cons current rest =>
      rw [hsort] at hsorted
      rw [dedupe, mem_map_dedupeRun hsorted]
      by_cases hts : r.timestamp = current.timestamp
      · simp [hts]
      · rw [List.map_cons, settled_cons_of_ne (x := current.reading) hts]
        simp [hts]

/-- Lists of readings kept apart by their timestamps are determined by their members. -/
theorem eq_of_mem_iff_of_pairwise {l l' : List Reading}
    (hl : l.Pairwise (·.timestamp < ·.timestamp)) (hl' : l'.Pairwise (·.timestamp < ·.timestamp))
    (h : ∀ r, r ∈ l ↔ r ∈ l') : l = l' := by
  have : Std.Irrefl fun r r' : Reading => r.timestamp < r'.timestamp :=
    ⟨fun r => UInt64.lt_irrefl r.timestamp⟩
  have : Std.Antisymm fun r r' : Reading => r.timestamp < r'.timestamp :=
    ⟨fun r r' hlt hgt => absurd hgt (UInt64.lt_asymm hlt)⟩
  exact hl.eq_of_mem_iff hl' h

/-! ## The streams without their bookkeeping -/

/-- The streams with their settled readings. -/
abbrev SettledStreams := Std.ExtTreeMap StreamKey (List Reading) StreamKey.cmp

/-- The readings of every stream that enter the calculation, in ascending order. -/
def settledStreams (records : List DeviceTimePoint) (requested : Window) : SettledStreams :=
  (collectStreams records requested).map fun _ samples =>
    (dedupedSamples samples).map Sample.reading

/-- What `settledStreams` holds under a key, by the set of readings of that key. -/
theorem getElem?_settledStreams_eq_none {records : List DeviceTimePoint} {requested : Window}
    {key : StreamKey} :
    (settledStreams records requested)[key]? = none ↔
      ∀ r, (key, r) ∉ keyedReadings records := by
  rw [settledStreams, Std.ExtTreeMap.getElem?_map, getElem?_collectStreams]
  have hempty : (valuesAt key (keyed (makeSample requested) records)).isEmpty = true ↔
      valuesAt key (keyedReadings records) = [] := by
    rw [← map_reading_valuesAt records requested, List.isEmpty_iff, List.map_eq_nil_iff]
  rw [List.eq_nil_iff_forall_not_mem] at hempty
  simp only [mem_valuesAt] at hempty
  rw [← hempty]
  split_ifs with h <;> simp [h]

theorem getElem?_settledStreams_eq_some {records : List DeviceTimePoint} {requested : Window}
    {key : StreamKey} {l : List Reading} (h : (settledStreams records requested)[key]? = some l) :
    l.Pairwise (·.timestamp < ·.timestamp) ∧
      ∀ r, r ∈ l ↔ Settled (valuesAt key (keyedReadings records)) r := by
  rw [settledStreams, Std.ExtTreeMap.getElem?_map, getElem?_collectStreams] at h
  obtain ⟨samples, hsamples, rfl⟩ := Option.map_eq_some_iff.mp h
  have hval : samples = valuesAt key (keyed (makeSample requested) records) := by
    split_ifs at hsamples
    exact (Option.some.inj hsamples).symm
  refine ⟨?_, ?_⟩
  · exact List.pairwise_map.mpr (pairwise_dedupedSamples samples)
  · intro r
    rw [mem_map_dedupedSamples, hval, map_reading_valuesAt]

theorem settled_congr {rs rs' : List Reading} (h : ∀ r, r ∈ rs ↔ r ∈ rs') (r : Reading) :
    Settled rs r ↔ Settled rs' r := by
  simp only [Settled, h]

/-- The settled streams depend on the set of keyed readings only: not on the window, nor on
    the order in which the readings come or on how often one is repeated. -/
theorem settledStreams_congr {records records' : List DeviceTimePoint}
    (h : ∀ kv, kv ∈ keyedReadings records ↔ kv ∈ keyedReadings records')
    (requested requested' : Window) :
    settledStreams records requested = settledStreams records' requested' := by
  apply Std.ExtTreeMap.ext_getElem?
  intro key
  have hvalues : ∀ r, r ∈ valuesAt key (keyedReadings records) ↔
      r ∈ valuesAt key (keyedReadings records') := by
    intro r
    rw [mem_valuesAt, mem_valuesAt, h]
  cases hl : (settledStreams records requested)[key]? with
  | none =>
      rw [getElem?_settledStreams_eq_none] at hl
      exact (getElem?_settledStreams_eq_none.mpr fun r hr => hl r ((h _).mpr hr)).symm
  | some l =>
      cases hl' : (settledStreams records' requested')[key]? with
      | none =>
          rw [getElem?_settledStreams_eq_none] at hl'
          have hnone : (settledStreams records requested)[key]? = none :=
            getElem?_settledStreams_eq_none.mpr fun r hr => hl' r ((h _).mp hr)
          rw [hnone] at hl
          exact absurd hl (by simp)
      | some l' =>
          obtain ⟨hsorted, hmem⟩ := getElem?_settledStreams_eq_some hl
          obtain ⟨hsorted', hmem'⟩ := getElem?_settledStreams_eq_some hl'
          congr 1
          -- Strictly sorted lists with the same members are equal.
          apply eq_of_mem_iff_of_pairwise hsorted hsorted'
          intro r
          rw [hmem, hmem', settled_congr hvalues]

/-! ## The totals of all clients -/

/-- `applyStream` on readings. -/
def applyReadings (requested : Window) (totals : ClientTotals) (rs : List Reading) : ClientTotals :=
  applyStream totals (rs.map (Reading.toSample requested))

/-- The record id of a sample is not read once the samples are sorted. -/
theorem applyStream_eq_applyReadings {requested : Window} (totals : ClientTotals)
    {samples : List Sample} (h : ∀ s ∈ samples, s.WellFlagged requested) :
    applyStream totals samples = applyReadings requested totals (samples.map Sample.reading) := by
  -- What is used of a sample is its reading and its flag, which is that of its time.
  have hobs : ∀ (t : ClientTotals) (s : Sample), s ∈ samples →
      markObservation t s = markObservation t (s.reading.toSample requested) := by
    intro t s hs
    unfold markObservation
    rw [h s hs]
    rfl
  have hstep : ∀ (r : Registers) (s : Sample), s ∈ samples →
      applySample r s = applySample r (s.reading.toSample requested) := by
    intro r s hs
    rw [(h s hs).eq_toSample]
    rfl
  have hobsFold : samples.foldl markObservation totals
      = (samples.map Sample.reading |>.map (Reading.toSample requested)).foldl
          markObservation totals := by
    rw [List.foldl_map, List.foldl_map]
    exact List.foldl_ext _ _ _ hobs
  have hstepFold : ∀ r : Registers, samples.foldl applySample r
      = (samples.map Sample.reading |>.map (Reading.toSample requested)).foldl applySample r := by
    intro r
    rw [List.foldl_map, List.foldl_map]
    exact List.foldl_ext _ _ _ hstep
  simp only [applyReadings, applyStream, ← hobsFold, ← hstepFold, List.length_map]

/-- Every client accumulates the settled readings of its streams, in key order. -/
theorem totalsByMac_eq (records : List DeviceTimePoint) (requested : Window) :
    totalsByMac records requested
      = ((settledStreams records requested).toList.map fun s => (s.1.mac, s.2)).foldl
          (accumulate (applyReadings requested) {}) ∅ := by
  rw [settledStreams, Std.ExtTreeMap.toList_map, List.map_map, List.foldl_map]
  apply List.foldl_ext
  intro totals stream hmem
  have hget := Std.ExtTreeMap.mem_toList_iff_getElem?_eq_some.mp hmem
  rw [getElem?_collectStreams] at hget
  -- the map holds under a key the samples of that key, in their order
  have hval : stream.2 = valuesAt stream.1 (keyed (makeSample requested) records) := by
    split_ifs at hget
    exact (Option.some.inj hget).symm
  have hflag : ∀ s ∈ dedupedSamples stream.2, s.WellFlagged requested := by
    intro s hs
    have hs' := mem_of_mem_dedupedSamples hs
    rw [hval, mem_valuesAt] at hs'
    exact wellFlagged_of_mem_keyed hs'
  show totals.alter stream.1.mac (fun t => some (applyStream (t.getD {}) (dedupedSamples stream.2)))
    = _
  unfold accumulate
  congr 1
  funext t
  rw [applyStream_eq_applyReadings _ hflag]
  rfl

end OwAnalytics.Mcp.Bandwidth
