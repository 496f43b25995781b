/-
  OwAnalytics.Ap.SSIDAggregates

  The aggregates of an SSID: the smallest, the largest and the average of seven rates of
  its associations.  The running bounds start at 0, which the largest value of a rate is
  never below, but the smallest value is above it unless an association is idle.
-/

import OwAnalytics.Ap.AssociationDeltas
import OwAnalytics.Ap.DeviceIdentity
import OwAnalytics.Lib.Running

namespace OwAnalytics.Ap

/-! ## Statistics of some values -/

theorem minDouble_rat (a b : ℚ) : minDouble a b = min a b := by
  show (if decide (b < a) = true then b else a) = min a b
  rw [min_comm, min_def_lt]
  simp only [decide_eq_true_eq]

theorem maxDouble_rat (a b : ℚ) : maxDouble a b = max a b := by
  show (if decide (a < b) = true then b else a) = max a b
  rw [max_def_lt]
  simp only [decide_eq_true_eq]

/-- The greatest of the values, the least of those that count for it, if there are any, and the
    mean, which is not beyond the values. -/
structure IsStatistics (values countsForMin : List ℚ) (P : AveragePoint ℚ) : Prop where
  max : IsGreatest {v | v ∈ values} P.max
  min : countsForMin ≠ [] → IsLeast {v | v ∈ countsForMin} P.min
  avg : P.avg = values.sum / values.length
  between : ∀ lo hi, IsLeast {v | v ∈ values} lo → IsGreatest {v | v ∈ values} hi →
    P.avg ∈ Set.Icc lo hi

/-- An exact mean is not beyond the values. -/
theorem isStatistics_iff {values countsForMin : List ℚ} {P : AveragePoint ℚ} (hne : values ≠ []) :
    IsStatistics values countsForMin P ↔
      IsGreatest {v | v ∈ values} P.max ∧
        (countsForMin ≠ [] → IsLeast {v | v ∈ countsForMin} P.min) ∧
        P.avg = values.sum / values.length := by
  refine ⟨fun h => ⟨h.max, h.min, h.avg⟩, fun ⟨hmax, hmin, havg⟩ =>
    ⟨hmax, hmin, havg, fun lo hi hlo hhi => ?_⟩⟩
  rw [havg]
  exact Running.mean_mem_Icc hne fun v hv => ⟨hlo.2 hv, hhi.2 hv⟩

theorem foldl_add {α : Type} (field : α → ℚ) (l : List α) (a : ℚ) :
    l.foldl (fun sum v => sum + field v) a = a + (l.map field).sum := by
  induction l generalizing a with
  | nil => exact (add_zero a).symm
  | cons v l ih => rw [List.foldl_cons, ih, List.map_cons, List.sum_cons, add_assoc]

/-- The aggregates of a rate that is not negative are right iff it is 0 somewhere, and the size of
    the vector is exact or the rate is 0 everywhere. -/
theorem averagePoint_iff {rate : UETimePoint ℚ → ℚ} {l : List (UETimePoint ℚ)} (hne : l ≠ [])
    (hrate : ∀ a ∈ l, 0 ≤ rate a) :
    IsStatistics (l.map rate) (l.map rate) (averagePoint rate l) ↔
      (∃ a ∈ l, rate a = 0) ∧ (l.length < 2 ^ 64 ∨ ∀ a ∈ l, rate a = 0) := by
  have hvalues : l.map rate ≠ [] := fun h => hne (List.map_eq_nil_iff.mp h)
  have hmax : (averagePoint rate l).max = (l.map rate).foldl max 0 := by
    rw [List.foldl_map]
    simp only [averagePoint, maxDouble_rat]
  -- Both bounds start at 0, and no rate is below.
  have hmin : (averagePoint rate l).min = (l.map rate).foldl min 0 := by
    rw [List.foldl_map]
    simp only [averagePoint, minDouble_rat]
  have havg : (averagePoint rate l).avg = (l.map rate).sum / ((l.length % 2 ^ 64 : ℕ) : ℚ) := by
    show average rate l = _
    rw [average, if_neg fun h => hne (List.isEmpty_iff.mp h), foldl_add]
    -- The sum is divided by the size of the vector, which has 64 bits.
    show (0 + (l.map rate).sum) / (((UInt64.ofNat l.length).toNat : ℕ) : ℚ) = _
    rw [zero_add, UInt64.toNat_ofNat']
  have hnonneg : ∀ v ∈ l.map rate, 0 ≤ v := List.forall_mem_map.mpr hrate
  have hsum : (l.map rate).sum = 0 ↔ ∀ a ∈ l, rate a = 0 := by
    refine ⟨fun h a ha => List.all_zero_of_le_zero_le_of_sum_eq_zero hnonneg h
      (List.mem_map_of_mem ha), fun h => List.sum_eq_zero (List.forall_mem_map.mpr h)⟩
  have hidle : (∃ v ∈ l.map rate, v ≤ 0) ↔ ∃ a ∈ l, rate a = 0 := by
    simp only [List.mem_map, exists_exists_and_eq_and]
    exact exists_congr fun a => and_congr_right fun ha =>
      ⟨fun h => le_antisymm h (hrate a ha), le_of_eq⟩
  have hgreatest : ∃ v ∈ l.map rate, 0 ≤ v := by
    obtain ⟨v, hv⟩ := List.exists_mem_of_ne_nil _ hvalues
    exact ⟨v, hv, hnonneg v hv⟩
  rw [isStatistics_iff hvalues, hmax, Running.isGreatest_foldl_max_iff, and_iff_right hgreatest,
    hmin, Running.isLeast_foldl_min_iff, forall_prop_of_true hvalues, hidle, havg,
    List.length_map, Running.div_mod_eq_iff (by decide), hsum]

/-! ## The rates -/

namespace UECounter

/-- The rate that is made of the difference. -/
def rate {F : Type} [Zero F] (a : UETimePoint F) : UECounter → F
  | txBytes => a.txBytesBw
  | rxBytes => a.rxBytesBw
  | txPackets => a.txPacketsBw
  | rxPackets => a.rxPacketsBw
  | txFailed => a.txFailedPct
  | txRetries => a.txRetriesPct
  | txDuration => a.txDurationPct

/-- The aggregate of the rate. -/
def aggregate {F : Type} [Zero F] (ssid : SSIDTimePoint F) : UECounter → AveragePoint F
  | txBytes => ssid.txBytesBw
  | rxBytes => ssid.rxBytesBw
  | txPackets => ssid.txPacketsBw
  | rxPackets => ssid.rxPacketsBw
  | txFailed => ssid.txFailedPct
  | txRetries => ssid.txRetriesPct
  | txDuration => ssid.txDurationPct

theorem aggregate_ssidRates {F : Type} [Double F] (base : List (SSIDTimePoint F)) (lapse : UInt64)
    (ssid : SSIDTimePoint F) (c : UECounter) :
    c.aggregate (ssidRates base lapse ssid) =
      averagePoint c.rate (ssidRates base lapse ssid).associations := by
  cases c <;> rfl

end UECounter

theorem ofUInt64_rat (n : UInt64) : (Double.ofUInt64 n : ℚ) = n.toNat := rfl

theorem safeDiv_nonneg (a b : UInt64) : (0 : ℚ) ≤ safeDiv a b := by
  rw [safeDiv, ofUInt64_rat, ofUInt64_rat]
  split_ifs <;> positivity

theorem safePct_nonneg (a b : UInt64) : (0 : ℚ) ≤ safePct a b := by
  rw [safePct, ofUInt64_rat, ofUInt64_rat, ofUInt64_rat]
  split_ifs <;> positivity

theorem safeDiv_eq_zero_iff {a b : UInt64} : (safeDiv a b : ℚ) = 0 ↔ a = 0 ∨ b = 0 := by
  rw [safeDiv, ofUInt64_rat, ofUInt64_rat]
  split_ifs with hb
  · exact iff_of_true rfl (.inr hb)
  · rw [div_eq_zero_iff, Nat.cast_eq_zero, Nat.cast_eq_zero, ← UInt64.toNat_zero, UInt64.toNat_inj,
      UInt64.toNat_inj]

theorem safePct_eq_zero_iff {a b : UInt64} : (safePct a b : ℚ) = 0 ↔ a = 0 ∨ b = 0 := by
  rw [safePct, ofUInt64_rat, ofUInt64_rat, ofUInt64_rat]
  split_ifs with hb
  · exact iff_of_true rfl (.inr hb)
  · have hhundred : ((100 : UInt64).toNat : ℚ) ≠ 0 := by decide
    rw [div_eq_zero_iff, mul_eq_zero, or_iff_right hhundred, Nat.cast_eq_zero, Nat.cast_eq_zero,
      ← UInt64.toNat_zero, UInt64.toNat_inj, UInt64.toNat_inj]

namespace UECounter

/-- The counter of the association does not show in its rate: it is what it was, or too little has
    been added, or there are no packets to compare it with. -/
def Idle (base : List (SSIDTimePoint ℚ)) (a : UETimePoint ℚ) (c : UECounter) : Prop :=
  let difference := c.value a - c.value (reference a (findUE a.station base))
  match c with
  | txFailed | txRetries => difference = 0 ∨ a.txPackets = 0
  | txDuration => difference < 1000000
  | txBytes | rxBytes | txPackets | rxPackets => difference = 0

variable {base : List (SSIDTimePoint ℚ)} {lapse : UInt64} {a : UETimePoint ℚ}

theorem rate_nonneg (c : UECounter) : 0 ≤ c.rate (ueRates lapse (ueDeltas base a)) := by
  cases c with
  | txFailed => exact safePct_nonneg _ _
  | txRetries => exact safePct_nonneg _ _
  | txDuration => exact safePct_nonneg _ _
  | _ => exact safeDiv_nonneg _ _

theorem div_eq_zero_iff_lt {a b : UInt64} (hb : b ≠ 0) : a / b = 0 ↔ a < b := by
  have hpos : 0 < b.toNat := Nat.pos_of_ne_zero fun h => hb (UInt64.toNat_inj.mp h)
  rw [← UInt64.toNat_inj, UInt64.toNat_div, UInt64.lt_iff_toNat_lt]
  exact Nat.div_eq_zero_iff_lt hpos

theorem rate_eq_zero_iff (hlapse : lapse ≠ 0) (c : UECounter) :
    c.rate (ueRates lapse (ueDeltas base a)) = 0 ↔ c.Idle base a := by
  cases c with
  | txFailed => exact safePct_eq_zero_iff
  | txRetries => exact safePct_eq_zero_iff
  | txDuration =>
      refine safePct_eq_zero_iff.trans ((or_iff_left hlapse).trans ?_)
      exact div_eq_zero_iff_lt (by decide)
  | _ => exact safeDiv_eq_zero_iff.trans (or_iff_left hlapse)

end UECounter

/-! ## The aggregates of a point -/

/-- The aggregates of every SSID with associations are those of their rates. -/
def AggregatesRight (p : DeviceTimePoint ℚ) : Prop :=
  ∀ ssid ∈ p.ssidData, ssid.associations ≠ [] → ∀ c : UECounter,
    IsStatistics (ssid.associations.map c.rate) (ssid.associations.map c.rate) (c.aggregate ssid)

/-- In every SSID with associations each counter is idle for one of them, and for all if they are
    more than can be counted. -/
def IdleSomewhere (base dtp : DeviceTimePoint ℚ) : Prop :=
  ∀ ssid ∈ dtp.ssidData, ssid.associations ≠ [] → ∀ c : UECounter,
    (∃ a ∈ ssid.associations, c.Idle base.ssidData a) ∧
      (ssid.associations.length < 2 ^ 64 ∨ ∀ a ∈ ssid.associations, c.Idle base.ssidData a)

theorem timeLapse_ne_zero (base dtp : DeviceTimePoint ℚ) : timeLapse base dtp ≠ 0 := by
  rw [timeLapse]
  split_ifs with hzero
  · decide
  · exact hzero

theorem aggregatesRight_newPoint_iff (base dtp : DeviceTimePoint ℚ) :
    AggregatesRight (newPoint base dtp) ↔ IdleSomewhere base dtp := by
  have hlapse := timeLapse_ne_zero base dtp
  have hssid : ∀ ssid : SSIDTimePoint ℚ, ssid.associations ≠ [] → ∀ c : UECounter,
      (IsStatistics
          ((ssidRates base.ssidData (timeLapse base dtp) ssid).associations.map c.rate)
          ((ssidRates base.ssidData (timeLapse base dtp) ssid).associations.map c.rate)
          (c.aggregate (ssidRates base.ssidData (timeLapse base dtp) ssid)) ↔
        (∃ a ∈ ssid.associations, c.Idle base.ssidData a) ∧
          (ssid.associations.length < 2 ^ 64 ∨
            ∀ a ∈ ssid.associations, c.Idle base.ssidData a)) := by
    intro ssid hne c
    have hassociations : (ssidRates base.ssidData (timeLapse base dtp) ssid).associations =
        ssid.associations.map fun a => ueRates (timeLapse base dtp) (ueDeltas base.ssidData a) :=
    rfl
    -- the minimum starts from 0, so it is right only where a rate is 0
    rw [c.aggregate_ssidRates, averagePoint_iff, hassociations, List.length_map]
    · simp only [List.mem_map, exists_exists_and_eq_and, forall_exists_index, and_imp,
        forall_apply_eq_imp_iff₂, c.rate_eq_zero_iff hlapse]
    · rw [hassociations]
      exact fun h => hne (List.map_eq_nil_iff.mp h)
    · rw [hassociations]
      exact List.forall_mem_map.mpr fun a _ => c.rate_nonneg
  refine ⟨fun h ssid hmem hne c => ?_, fun h ssid hmem hne c => ?_⟩
  · refine (hssid ssid hne c).mp (h _ (mem_newPoint_ssidData.mpr ⟨ssid, hmem, rfl⟩) ?_ c)
    exact fun hnil => hne (List.map_eq_nil_iff.mp hnil)
  · obtain ⟨s, hs, rfl⟩ := mem_newPoint_ssidData.mp hmem
    have hne' : s.associations ≠ [] := fun hnil => hne (List.map_eq_nil_iff.mpr hnil)
    exact (hssid s hne' c).mpr (h s hs hne' c)

/-- The aggregates of a stored point are right iff in every SSID each counter is idle for one of
    the associations. -/
theorem ssid_aggregates_iff (ap : AP ℚ) (x : Delivery ℚ) (state : Document ℚ)
    (p : DeviceTimePoint ℚ) (hmessage : x.message = .state state)
    (hp : (ap.deliver x).2.timePoint = some p) :
    AggregatesRight p ↔ IdleSomewhere ap.base (ap.data x state) := by
  obtain rfl := AP.stored_eq hmessage hp
  exact aggregatesRight_newPoint_iff ap.base (ap.data x state)

/-- The message after which a station has sent these bytes. -/
def sentBytes (localtime bytes : UInt64) : Delivery ℚ := ssidMessage localtime [("a", bytes, 0)]

/-- The only rate of the SSID is not its smallest. -/
theorem smallest_rate_lost :
    ¬ ∀ (ap : AP ℚ) (x : Delivery ℚ) (p : DeviceTimePoint ℚ),
      (ap.deliver x).2.timePoint = some p → AggregatesRight p := by
  intro h
  -- 120 bytes in 60 seconds are a rate of 2, of which the smallest is 0.
  have hrates : (((afterMessage (sentBytes 60 100)).deliver (sentBytes 120 220)).2.timePoint).map
      (fun p => p.ssidData.map fun ssid =>
        (ssid.txBytesBw.min, ssid.associations.map UETimePoint.txBytesBw)) = some [(0, [2])] := by
    decide +kernel
  obtain ⟨p, hp, hpairs⟩ := Option.map_eq_some_iff.mp hrates
  obtain ⟨ssid, hssid, hpair⟩ := List.mem_map.mp (hpairs ▸ List.mem_singleton_self _)
  obtain ⟨hmin, hvalues⟩ := Prod.mk.inj hpair
  have hne : ssid.associations.map UETimePoint.txBytesBw ≠ [] := by rw [hvalues]; decide
  have hleast := ((h _ _ p hp ssid hssid (fun hnil => hne (List.map_eq_nil_iff.mpr hnil))
    .txBytes).min
    hne).1
  have hzero : ssid.txBytesBw.min ∈ ssid.associations.map UETimePoint.txBytesBw := hleast
  rw [hmin, hvalues] at hzero
  exact absurd hzero (by decide)

theorem ssid_aggregates_iff_busyStation :
    ∃ state p, (sentBytes 120 220).message = .state state ∧
      ((afterMessage (sentBytes 60 100)).deliver (sentBytes 120 220)).2.timePoint = some p ∧
      (AggregatesRight p ↔
        IdleSomewhere (afterMessage (sentBytes 60 100)).base
          ((afterMessage (sentBytes 60 100)).data (sentBytes 120 220) state)) := by
  obtain ⟨p, hp⟩ := (afterMessage (sentBytes 60 100)).exists_timePoint (x := sentBytes 120 220) rfl
    ⟨rfl, rfl, rfl⟩
  exact ⟨_, p, rfl, hp, ssid_aggregates_iff _ _ _ p rfl hp⟩

end OwAnalytics.Ap
