/-
  OwAnalytics.Mcp.Memory.Samples

  What the loop over the records keeps about the valid ones: the least and the
  greatest value, the first and the last time, and the latest value.  The latest
  one is not preceded by any other: a later time wins, then a greater id, and
  between records without an id the greater value.
-/

import OwAnalytics.Lib.Words
import OwAnalytics.Mcp.Memory.Summary

namespace OwAnalytics.Mcp.Memory

open AnalyticsObjects Significand Words

/-! ## Samples -/

/-- What a valid record contributes. -/
structure Sample where
  timestamp : UInt64
  id : Str
  free : UInt64
deriving DecidableEq

section Model

variable {F : Type} [Zero F]

/-- The sample of a record, if it is valid. -/
def sampleOf (record : Ap.DeviceTimePoint F) : Option Sample :=
  (validFree record.resourceData).map (Sample.mk record.timestamp record.id)

/-- The valid records of a list, in its order. -/
def samples (records : List (Ap.DeviceTimePoint F)) : List Sample := records.filterMap sampleOf

end Model

/-- `x` takes the place of the latest sample `y`. -/
def Later (x y : Sample) : Prop :=
  y.timestamp < x.timestamp ∨
    x.timestamp = y.timestamp ∧
      (compare x.id y.id = .gt ∨ x.id = [] ∧ y.id = [] ∧ y.free < x.free)

theorem Later.trans {x y z : Sample} (hxy : Later x y) (hyz : Later y z) : Later x z := by
  rcases hxy with hxy | ⟨hxy, hid⟩
  · rcases hyz with hyz | ⟨hyz, -⟩
    · exact .inl (UInt64.lt_trans hyz hxy)
    · exact .inl (hyz ▸ hxy)
  · rcases hyz with hyz | ⟨hyz, hid'⟩
    · exact .inl (hxy ▸ hyz)
    · refine .inr ⟨hxy.trans hyz, ?_⟩
      rcases hid with hid | ⟨hx, hy, hfree⟩
      · rcases hid' with hid' | ⟨hy, hz, -⟩
        · exact .inl (Std.TransCmp.gt_trans hid hid')
        · exact .inl (hz.trans hy.symm ▸ hid)
      · rcases hid' with hid' | ⟨-, hz, hfree'⟩
        · exact .inl (hx.trans hy.symm ▸ hid')
        · exact .inr ⟨hx, hz, UInt64.lt_trans hfree' hfree⟩

theorem Later.irrefl (x : Sample) : ¬ Later x x := by
  have hlt : ∀ v : UInt64, ¬ v < v := fun v => UInt64.lt_irrefl v
  rintro (h | ⟨-, h | ⟨-, -, h⟩⟩)
  · exact hlt _ h
  · have hself : compare x.id x.id = .eq := Std.ReflCmp.compare_self
    rw [hself] at h
    cases h
  · exact hlt _ h

/-! ## The registers of a list of samples -/

/-- One sample, as the body of the loop adds it. -/
def addSample (P : Platform) (p : ℕ) (r : Registers) (s : Sample) : Registers :=
  accumulate p
    (if r.count = 0 then first P r s.timestamp s.id s.free
    else
      updateLatest (observeEnd P (observeStart P (widen r s.free) s.timestamp) s.timestamp)
        s.timestamp s.id s.free) s.free

theorem run_eq {F : Type} [Zero F] (P : Platform) (p : ℕ) (records : List (Ap.DeviceTimePoint F)) :
    run P p records = (samples records).foldl (addSample P p) {} := by
  rw [run, samples, List.foldl_filterMap]
  congr 1
  funext r record
  unfold addRecord sampleOf
  cases validFree record.resourceData <;> rfl

/-- The values and the times of some samples. -/
def frees (l : List Sample) : Set ℕ := {n | ∃ s ∈ l, n = s.free.toNat}

/-- The times of the samples. -/
def times (l : List Sample) : Set ℕ := {n | ∃ s ∈ l, n = s.timestamp.toNat}

theorem setOf_concat (g : Sample → ℕ) (l : List Sample) (x : Sample) :
    {n | ∃ s ∈ l ++ [x], n = g s} = Set.insert (g x) {n | ∃ s ∈ l, n = g s} := by
  ext n
  simp only [List.mem_append, List.mem_singleton, Set.mem_ofPred_eq, or_and_right, exists_or,
    exists_eq_left]
  exact or_comm

/-- The sum as the loop rounds it. -/
def roundedSum (p : ℕ) (l : List Sample) : ℚ :=
  l.foldl (fun sum s => roundBits p (sum + roundBits p s.free.toNat)) 0

/-- What the registers hold after some samples, of which there is at least one. -/
structure Describes (P : Platform) (p : ℕ) (l : List Sample) (r : Registers) : Prop where
  count : r.count = l.length
  sum : r.sum = roundedSum p l
  least : ∃ lo, r.data.minMemfree = some lo ∧ IsLeast (frees l) lo.toNat
  greatest : ∃ hi, r.data.maxMemfree = some hi ∧ IsGreatest (frees l) hi.toNat
  latest : ∃ last ∈ l, (∀ x ∈ l, ¬ Later x last) ∧ r.data.latestMemfree = some last.free ∧
    r.latestTimestamp = last.timestamp ∧ r.latestId = last.id
  start : r.observedWindow.startTime = some (formatTimestamp P r.observedStartTimestamp) ∧
    IsLeast (times l) r.observedStartTimestamp.toNat
  stop : r.observedWindow.endTime = some (formatTimestamp P r.observedEndTimestamp) ∧
    IsGreatest (times l) r.observedEndTimestamp.toNat

theorem describes_singleton (P : Platform) (p : ℕ) (x : Sample) :
    Describes P p [x] (addSample P p {} x) where
  count := rfl
  sum := rfl
  least := ⟨x.free, rfl, by simp [frees]⟩
  greatest := ⟨x.free, rfl, by simp [frees]⟩
  latest := by
    refine ⟨x, List.mem_singleton_self x, ?_, rfl, rfl, rfl⟩
    intro y hy
    rw [List.mem_singleton.mp hy]
    exact Later.irrefl x
  start := ⟨rfl, by simp [times, addSample, accumulate, first]⟩
  stop := ⟨rfl, by simp [times, addSample, accumulate, first]⟩

/-- The condition of the source for a new latest value. -/
def isLater (r : Registers) (x : Sample) : Bool :=
  x.timestamp > r.latestTimestamp ||
    (x.timestamp == r.latestTimestamp &&
      (compare x.id r.latestId == .gt ||
        (x.id.isEmpty && r.latestId.isEmpty && x.free > r.data.latestMemfree.getD 0)))

theorem isLater_iff {r : Registers} {last : Sample} (x : Sample)
    (hfree : r.data.latestMemfree = some last.free) (htime : r.latestTimestamp = last.timestamp)
    (hid : r.latestId = last.id) : isLater r x = true ↔ Later x last := by
  rw [isLater, htime, hid, hfree]
  simp only [Later, Bool.or_eq_true, Bool.and_eq_true, decide_eq_true_eq, beq_iff_eq,
    List.isEmpty_iff, Option.getD_some, gt_iff_lt, and_assoc]

/-- What the body of the loop does with a later sample, member by member. -/
theorem addSample_eq (P : Platform) (p : ℕ) {r : Registers} (hcount : r.count ≠ 0) (x : Sample) :
    addSample P p r x =
      { data :=
          { minMemfree := some (min (r.data.minMemfree.getD 0) x.free)
            maxMemfree := some (max (r.data.maxMemfree.getD 0) x.free)
            avgMemfree := r.data.avgMemfree
            latestMemfree := if isLater r x then some x.free else r.data.latestMemfree }
        observedWindow :=
          { startTime :=
              if x.timestamp < r.observedStartTimestamp then some (formatTimestamp P x.timestamp)
              else r.observedWindow.startTime
            endTime :=
              if x.timestamp > r.observedEndTimestamp then some (formatTimestamp P x.timestamp)
              else r.observedWindow.endTime }
        count := r.count + 1
        sum := roundBits p (r.sum + roundBits p x.free.toNat)
        latestTimestamp := if isLater r x then x.timestamp else r.latestTimestamp
        observedStartTimestamp :=
          if x.timestamp < r.observedStartTimestamp then x.timestamp
          else r.observedStartTimestamp
        observedEndTimestamp :=
          if x.timestamp > r.observedEndTimestamp then x.timestamp else r.observedEndTimestamp
        latestId := if isLater r x then x.id else r.latestId } := by
  have hlater : ∀ r' : Registers, r'.latestTimestamp = r.latestTimestamp →
      r'.latestId = r.latestId → r'.data.latestMemfree = r.data.latestMemfree →
      isLater r' x = isLater r x := by
    intro r' htime hid hfree
    rw [isLater, isLater, htime, hid, hfree]
  have hupdate : ∀ r' : Registers, updateLatest r' x.timestamp x.id x.free
      = if isLater r' x then
          { r' with
            data := { r'.data with latestMemfree := some x.free }
            latestTimestamp := x.timestamp
            latestId := x.id }
        else r' := fun _ => rfl
  rw [addSample, if_neg hcount, hupdate]
  -- neither the extremes nor the ends of the window enter the condition
  rw [hlater]
  · unfold accumulate observeEnd observeStart widen
    cases isLater r x <;> split_ifs <;> rfl
  all_goals
    unfold observeEnd observeStart widen
    split_ifs <;> rfl

/-- The smaller of two times, as the loop chooses it. -/
theorem toNat_ite_lt (a b : UInt64) : (if a < b then a else b).toNat = min a.toNat b.toNat := by
  split_ifs with h
  · exact (min_eq_left (UInt64.lt_iff_toNat_lt.mp h).le).symm
  · exact (min_eq_right (UInt64.le_iff_toNat_le.mp (UInt64.not_lt.mp h))).symm

theorem toNat_ite_gt (a b : UInt64) : (if a > b then a else b).toNat = max a.toNat b.toNat := by
  split_ifs with h
  · exact (max_eq_left (UInt64.lt_iff_toNat_lt.mp h).le).symm
  · exact (max_eq_right (UInt64.le_iff_toNat_le.mp (UInt64.not_lt.mp h))).symm

/-- One more sample after at least one. -/
theorem Describes.concat {P : Platform} {p : ℕ} {l : List Sample} {r : Registers}
    (h : Describes P p l r) (hne : l ≠ []) (x : Sample) :
    Describes P p (l ++ [x]) (addSample P p r x) := by
  have hcount : r.count ≠ 0 := by
    rw [h.count]
    exact (List.length_pos_iff.mpr hne).ne'
  obtain ⟨lo, hlo, hleast⟩ := h.least
  obtain ⟨hi, hhi, hgreatest⟩ := h.greatest
  obtain ⟨last, hmem, hlast, hfree, htime, hid⟩ := h.latest
  obtain ⟨hstart, hstartLeast⟩ := h.start
  obtain ⟨hstop, hstopGreatest⟩ := h.stop
  have hlater := isLater_iff x hfree htime hid
  rw [addSample_eq P p hcount]
  refine ⟨?_, ?_, ⟨min lo x.free, ?_, ?_⟩, ⟨max hi x.free, ?_, ?_⟩, ?_, ⟨?_, ?_⟩, ⟨?_, ?_⟩⟩
  · rw [List.length_append, ← h.count]
    rfl
  · show roundBits p (r.sum + _) = _
    rw [roundedSum, List.foldl_append, ← roundedSum, ← h.sum]
    rfl
  · show some (min (r.data.minMemfree.getD 0) x.free) = _
    rw [hlo]
    rfl
  · rw [UInt64.toNat_min, frees, setOf_concat, Nat.min_comm]
    exact hleast.insert _
  · show some (max (r.data.maxMemfree.getD 0) x.free) = _
    rw [hhi]
    rfl
  · rw [UInt64.toNat_max, frees, setOf_concat, Nat.max_comm]
    exact hgreatest.insert _
  · -- the new sample takes the place of the latest one, or nothing changes
    by_cases hx : Later x last
    · simp only [hlater.mpr hx, if_true]
      refine ⟨x, by simp, ?_, rfl, rfl, rfl⟩
      intro y hy
      rcases List.mem_append.mp hy with hy | hy
      · exact fun hyx => hlast y hy (hyx.trans hx)
      · rw [List.mem_singleton.mp hy]
        exact Later.irrefl x
    · have hkept : isLater r x = false := Bool.eq_false_iff.mpr (hlater.not.mpr hx)
      simp only [hkept, Bool.false_eq_true, if_false]
      refine ⟨last, List.mem_append_left _ hmem, ?_, hfree, htime, hid⟩
      intro y hy
      rcases List.mem_append.mp hy with hy | hy
      · exact hlast y hy
      · rw [List.mem_singleton.mp hy]
        exact hx
  · show (if x.timestamp < r.observedStartTimestamp then _ else r.observedWindow.startTime) = _
    rw [hstart]
    split_ifs <;> rfl
  · show IsLeast _ (if x.timestamp < r.observedStartTimestamp then x.timestamp
      else r.observedStartTimestamp).toNat
    rw [toNat_ite_lt, times, setOf_concat]
    exact hstartLeast.insert _
  · show (if x.timestamp > r.observedEndTimestamp then _ else r.observedWindow.endTime) = _
    rw [hstop]
    split_ifs <;> rfl
  · show IsGreatest _ (if x.timestamp > r.observedEndTimestamp then x.timestamp
      else r.observedEndTimestamp).toNat
    rw [toNat_ite_gt, times, setOf_concat]
    exact hstopGreatest.insert _

/-- The registers after a list of samples that is not empty. -/
theorem describes_foldl (P : Platform) (p : ℕ) {l : List Sample} (hne : l ≠ []) :
    Describes P p l (l.foldl (addSample P p) {}) := by
  induction l using List.reverseRecOn with
  | nil => exact absurd rfl hne
  | append_singleton l x ih =>
      rw [List.foldl_append]
      rcases eq_or_ne l [] with rfl | hl
      · exact describes_singleton P p x
      · exact (ih hl).concat hl x

end OwAnalytics.Mcp.Memory
