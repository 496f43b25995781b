/-
  OwAnalytics.Boards.SlotStatistics

  The statistics of a time slot (`RESTAPI_board_timepoint_handler.cpp`): three functions
  take the smallest, the largest and the average value of a member of the points, in
  double precision.  Each keeps its own account of them.
-/

import OwAnalytics.Ap.SSIDAggregates
import OwAnalytics.Lib.Binary64

namespace OwAnalytics.Boards

open Ap (APTimePoint AveragePoint DeviceTimePoint IsStatistics RadioTimePoint isStatistics_iff)
open Binary64 (Finite Representable drift nearest sumFrom)

/-- A member of one of the types that averages are taken of. -/
inductive Member
  | int64 (n : Int64)
  | uint64 (n : UInt64)
  | double (x : Finite)

namespace Member

/-- The number that the member is. -/
def value : Member → ℚ
  | int64 n => n.toInt
  | uint64 n => n.toNat
  | double x => x.val

/-- The conversion `(double)`. -/
def toDouble : Member → Binary64
  | int64 n => Binary64.round n.toInt
  | uint64 n => Binary64.round n.toNat
  | double x => x.toBinary64

/-- The test of an `if` on the member. -/
def nonzero : Member → Bool
  | int64 n => n != 0
  | uint64 n => n != 0
  | double x => x.val != 0

end Member

/-- What the loops keep, with the members of `P` that they change. -/
structure Account where
  sum : Binary64 := 0
  numValues : UInt32 := 0
  hasValue : Bool := false
  P : AveragePoint Binary64 := {}

namespace Account

/-- The loop of `AverageAPData`; the largest value is also taken with `std::min`. -/
def addAP (s : Account) (v : Finite) : Account :=
  { s with
    sum := s.sum + v.toBinary64
    P := { s.P with
      min := if v.val != 0 then Binary64.min s.P.min v.toBinary64 else s.P.min
      max := Binary64.min s.P.max v.toBinary64 } }

/-- The loop of `AverageRadioData`. -/
def addRadio (s : Account) (v : Member) : Account :=
  { s with
    sum := s.sum + v.toDouble
    numValues := s.numValues + 1
    P := { s.P with
      min := if v.nonzero then Binary64.min s.P.min v.toDouble else s.P.min
      max := Binary64.max s.P.max v.toDouble } }

/-- The loop of `AverageOptionalRadioData`, where the first value is both bounds. -/
def addOptional (s : Account) : Option Finite → Account
  | none => s
  | some v =>
    { sum := s.sum + v.toBinary64
      numValues := s.numValues + 1
      hasValue := true
      P :=
        if s.hasValue then
          { s.P with
            min := Binary64.min s.P.min v.toBinary64
            max := Binary64.max s.P.max v.toBinary64 }
        else { s.P with min := v.toBinary64, max := v.toBinary64 } }

/-- The average of the values that are counted. -/
def result (s : Account) : AveragePoint Binary64 :=
  { s.P with
    avg := if s.numValues = 0 then 0 else s.sum / Binary64.round s.numValues.toNat }

@[simp]
theorem result_min (s : Account) : s.result.min = s.P.min := rfl

@[simp]
theorem result_max (s : Account) : s.result.max = s.P.max := rfl

end Account

section Averages

variable (values : List (DeviceTimePoint Finite)) (P : AveragePoint Binary64)

/-- `AverageAPData`. -/
def averageAPData (T : APTimePoint Finite → Finite) : AveragePoint Binary64 :=
  if values.isEmpty then P
  else
    let s := values.foldl (fun s v => s.addAP (T v.apData)) ({ P := P } : Account)
    { s.P with avg := s.sum / Binary64.round (UInt64.ofNat values.length).toNat }

/-- `AverageRadioData`. -/
def averageRadioData (T : RadioTimePoint Finite → Member) : AveragePoint Binary64 :=
  if values.isEmpty then P
  else
    (values.foldl (fun s value => value.radioData.foldl (fun s radio => s.addRadio (T radio)) s)
      ({ P := P } : Account)).result

/-- `AverageRadioData` of a member that may be absent. -/
def averageOptionalRadioData (T : RadioTimePoint Finite → Option Finite) :
    AveragePoint Binary64 :=
  if values.isEmpty then P
  else
    (values.foldl (fun s value => value.radioData.foldl (fun s radio => s.addOptional (T radio)) s)
      ({ P := P } : Account)).result

end Averages

/-- `DeviceTimePointAnalysis`. -/
structure DeviceTimePointAnalysis where
  timestamp : UInt64
  noise : AveragePoint Binary64 := {}
  temperature : AveragePoint Binary64 := {}
  activePct : AveragePoint Binary64 := {}
  busyPct : AveragePoint Binary64 := {}
  receivePct : AveragePoint Binary64 := {}
  transmitPct : AveragePoint Binary64 := {}
  txPower : AveragePoint Binary64 := {}
  txBytesBw : AveragePoint Binary64 := {}
  rxBytesBw : AveragePoint Binary64 := {}
  rxDroppedPct : AveragePoint Binary64 := {}
  txDroppedPct : AveragePoint Binary64 := {}
  rxPacketsBw : AveragePoint Binary64 := {}
  txPacketsBw : AveragePoint Binary64 := {}
  rxErrorsPct : AveragePoint Binary64 := {}
  txErrorsPct : AveragePoint Binary64 := {}

/-- The statistics of a slot that `DoGet` makes; a slot without points has none. -/
def analysis : List (DeviceTimePoint Finite) → Option DeviceTimePointAnalysis
  | [] => none
  | first :: rest =>
    let pointList := first :: rest
    some
      { timestamp := first.timestamp
        txBytesBw := averageAPData pointList {} APTimePoint.txBytesBw
        rxBytesBw := averageAPData pointList {} APTimePoint.rxBytesBw
        rxDroppedPct := averageAPData pointList {} APTimePoint.rxDroppedPct
        txDroppedPct := averageAPData pointList {} APTimePoint.txDroppedPct
        rxPacketsBw := averageAPData pointList {} APTimePoint.rxPacketsBw
        txPacketsBw := averageAPData pointList {} APTimePoint.txPacketsBw
        rxErrorsPct := averageAPData pointList {} APTimePoint.rxErrorsPct
        txErrorsPct := averageAPData pointList {} APTimePoint.txErrorsPct
        noise := averageRadioData pointList {} fun radio => .int64 radio.noise
        temperature := averageOptionalRadioData pointList {} RadioTimePoint.temperature
        txPower := averageRadioData pointList {} fun radio => .uint64 radio.txPower
        activePct := averageRadioData pointList {} fun radio => .double radio.activePct
        busyPct := averageRadioData pointList {} fun radio => .double radio.busyPct
        receivePct := averageRadioData pointList {} fun radio => .double radio.receivePct
        transmitPct := averageRadioData pointList {} fun radio => .double radio.transmitPct }

/-- `stats` of the answer of `DoGet`. -/
def stats (sp : List (List (DeviceTimePoint Finite))) : List DeviceTimePointAnalysis :=
  sp.filterMap analysis

/-! ## The loops over the values

    The bounds are those of the exact values, rounded, and the sum is the exact one with
    the drift of its additions. -/

theorem Member.nonzero_iff (v : Member) : v.nonzero = true ↔ v.value ≠ 0 := by
  cases v with
  | int64 n =>
      show (n != 0) = true ↔ (n.toInt : ℚ) ≠ 0
      rw [bne_iff_ne, Ne, Ne, Int.cast_eq_zero, ← Int64.toInt_zero, Int64.toInt_inj]
  | uint64 n =>
      show (n != 0) = true ↔ (n.toNat : ℚ) ≠ 0
      rw [bne_iff_ne, Ne, Ne, Nat.cast_eq_zero, ← UInt64.toNat_zero, UInt64.toNat_inj]
  | double x => exact bne_iff_ne

/-- A finite double is what its value is rounded to. -/
theorem round_val (x : Finite) : Binary64.round x.val = x.toBinary64 :=
  Binary64.round_of_representable x.fits

/-- A member is an integer of 64 bits or a double already, so that the conversion is finite. -/
theorem Member.abs_nearest_lt (v : Member) : |nearest v.value| < 2 ^ 1024 := by
  have hword {x : ℚ} (h : |x| < 2 ^ 64) : |nearest x| < 2 ^ 1024 :=
    (Binary64.round_eq_finite_iff.mp (Binary64.round_of_abs_lt h)).1.1
  cases v with
  | int64 n =>
      have hlo : -2 ^ 63 ≤ n.toInt := n.le_toInt
      have hhi : n.toInt < 2 ^ 63 := n.toInt_lt
      have habs : |n.toInt| < 2 ^ 64 := abs_lt.mpr ⟨by omega, by omega⟩
      refine hword ?_
      show |(n.toInt : ℚ)| < 2 ^ 64
      exact_mod_cast habs
  | uint64 n =>
      have hlt : n.toNat < 2 ^ 64 := n.toNat_lt
      refine hword ?_
      show |(n.toNat : ℚ)| < 2 ^ 64
      rw [abs_of_nonneg (Nat.cast_nonneg _)]
      exact_mod_cast hlt
  | double x =>
      show |nearest x.val| < _
      rw [x.fits.2]
      exact x.fits.1

theorem Member.toDouble_eq_round (v : Member) : v.toDouble = Binary64.round v.value := by
  cases v with
  | int64 n => rfl
  | uint64 n => rfl
  | double x => exact (round_val x).symm

theorem Member.toDouble_eq (v : Member) : v.toDouble = .finite (nearest v.value) := by
  rw [v.toDouble_eq_round, Binary64.round, if_pos v.abs_nearest_lt]

namespace Account

/-- A counter that has counted one more value. -/
theorem numValues_add_one (n : UInt32) (k : Nat) :
    n + 1 + UInt32.ofNat k = n + UInt32.ofNat (k + 1) := by
  rw [Nat.add_comm k 1, UInt32.ofNat_add, ← UInt32.add_assoc]
  rfl

/-- A running minimum of the rounded values is the rounded minimum. -/
theorem nearest_foldl_min (l : List ℚ) (a : ℚ) :
    nearest (l.foldl min a) = l.foldl (fun m v => min m (nearest v)) (nearest a) := by
  induction l generalizing a with
  | nil => rfl
  | cons v rest ih => rw [List.foldl_cons, ih, Binary64.nearest_mono.map_min, List.foldl_cons]

theorem nearest_foldl_max (l : List ℚ) (a : ℚ) :
    nearest (l.foldl max a) = l.foldl (fun m v => max m (nearest v)) (nearest a) := by
  induction l generalizing a with
  | nil => rfl
  | cons v rest ih => rw [List.foldl_cons, ih, Binary64.nearest_mono.map_max, List.foldl_cons]

/-- The loop of `AverageRadioData`. -/
theorem foldl_addRadio (s : Account) (l : List Member) (lo hi : ℚ) (hlo : s.P.min = .finite lo)
    (hhi : s.P.max = .finite hi) :
    (l.foldl addRadio s).sum = sumFrom s.sum (l.map Member.value) ∧
      (l.foldl addRadio s).numValues = s.numValues + UInt32.ofNat l.length ∧
      (l.foldl addRadio s).P.min = .finite
        (((l.map Member.value).filter (· ≠ 0)).foldl (fun m v => min m (nearest v)) lo) ∧
      (l.foldl addRadio s).P.max = .finite
        ((l.map Member.value).foldl (fun m v => max m (nearest v)) hi) := by
  induction l generalizing s lo hi with
  | nil => exact ⟨rfl, (UInt32.add_zero _).symm, hlo, hhi⟩
  | cons v rest ih =>
      have hmin : (s.addRadio v).P.min = .finite (if v.value = 0 then lo else
          min lo (nearest v.value)) := by
        show (if v.nonzero then Binary64.min s.P.min v.toDouble else s.P.min) = _
        have hnonzero := v.nonzero_iff
        by_cases hzero : v.value = 0
        · rw [if_neg fun h => hnonzero.mp h hzero, if_pos hzero, hlo]
        · rw [if_pos (hnonzero.mpr hzero), if_neg hzero, hlo, v.toDouble_eq, Binary64.min_finite]
      have hmax : (s.addRadio v).P.max = .finite (max hi (nearest v.value)) := by
        show Binary64.max s.P.max v.toDouble = _
        rw [hhi, v.toDouble_eq, Binary64.max_finite]
      obtain ⟨hsum, hnum, hmins, hmaxs⟩ := ih (s.addRadio v) _ _ hmin hmax
      rw [List.foldl_cons, List.map_cons]
      refine ⟨?_, ?_, ?_, ?_⟩
      · rw [hsum]
        show sumFrom (s.sum + v.toDouble) _ = _
        rw [v.toDouble_eq_round]
        rfl
      · rw [hnum, List.length_cons, ← numValues_add_one]
        rfl
      · -- The minimum passes over a value of 0.
        rw [hmins]
        by_cases hzero : v.value = 0
        · rw [if_pos hzero, List.filter_cons_of_neg (by simpa using hzero)]
        · rw [if_neg hzero, List.filter_cons_of_pos (by simpa using hzero), List.foldl_cons]
      · rw [hmaxs, List.foldl_cons]

/-- The loop of `AverageAPData`: both bounds are running minima. -/
theorem foldl_addAP (s : Account) (l : List Finite) (lo hi : ℚ) (hlo : s.P.min = .finite lo)
    (hhi : s.P.max = .finite hi) :
    (l.foldl addAP s).sum = sumFrom s.sum (l.map Finite.val) ∧
      (l.foldl addAP s).P.min =
        .finite (((l.map Finite.val).filter (· ≠ 0)).foldl min lo) ∧
      (l.foldl addAP s).P.max = .finite ((l.map Finite.val).foldl min hi) := by
  induction l generalizing s lo hi with
  | nil => exact ⟨rfl, hlo, hhi⟩
  | cons v rest ih =>
      -- a value of 0 does not move the minimum
      have hmin : (s.addAP v).P.min = .finite (if v.val = 0 then lo else min lo v.val) := by
        show (if v.val != 0 then Binary64.min s.P.min v.toBinary64 else s.P.min) = _
        by_cases hzero : v.val = 0
        · rw [if_neg (by simpa using hzero), if_pos hzero, hlo]
        · rw [if_pos (by simpa using hzero), if_neg hzero, hlo]
          exact Binary64.min_finite lo v.val
      -- the source takes a minimum here too
      have hmax : (s.addAP v).P.max = .finite (min hi v.val) := by
        show Binary64.min s.P.max v.toBinary64 = _
        rw [hhi]
        exact Binary64.min_finite hi v.val
      obtain ⟨hsum, hmins, hmaxs⟩ := ih (s.addAP v) _ _ hmin hmax
      rw [List.foldl_cons, List.map_cons]
      refine ⟨?_, ?_, ?_⟩
      · rw [hsum]
        show sumFrom (s.sum + v.toBinary64) _ = _
        rw [← round_val]
        rfl
      · rw [hmins]
        by_cases hzero : v.val = 0
        · rw [if_pos hzero, List.filter_cons_of_neg (by simpa using hzero)]
        · rw [if_neg hzero, List.filter_cons_of_pos (by simpa using hzero), List.foldl_cons]
      · rw [hmaxs, List.foldl_cons]

/-- The loop of `AverageOptionalRadioData` after its first value. -/
theorem foldl_addOptional (s : Account) (hs : s.hasValue = true) (l : List (Option Finite))
    (lo hi : ℚ) (hlo : s.P.min = .finite lo) (hhi : s.P.max = .finite hi) :
    (l.foldl addOptional s).sum = sumFrom s.sum (l.reduceOption.map Finite.val) ∧
      (l.foldl addOptional s).numValues = s.numValues + UInt32.ofNat l.reduceOption.length ∧
      (l.foldl addOptional s).P.min =
        .finite ((l.reduceOption.map Finite.val).foldl min lo) ∧
      (l.foldl addOptional s).P.max =
        .finite ((l.reduceOption.map Finite.val).foldl max hi) := by
  induction l generalizing s lo hi with
  | nil => exact ⟨rfl, (UInt32.add_zero _).symm, hlo, hhi⟩
  | cons o rest ih =>
      cases o with
      | none => exact ih s hs lo hi hlo hhi
      | some v =>
          -- the bounds are set already, so the value only widens them
          have hmin : (s.addOptional (some v)).P.min = .finite (min lo v.val) := by
            rw [addOptional, if_pos hs, hlo]
            exact Binary64.min_finite lo v.val
          have hmax : (s.addOptional (some v)).P.max = .finite (max hi v.val) := by
            rw [addOptional, if_pos hs, hhi]
            exact Binary64.max_finite hi v.val
          obtain ⟨hsum, hnum, hmins, hmaxs⟩ := ih (s.addOptional (some v)) rfl _ _ hmin hmax
          rw [List.foldl_cons, List.reduceOption_cons_of_some, List.map_cons]
          refine ⟨?_, ?_, ?_, ?_⟩
          · rw [hsum]
            show sumFrom (s.sum + v.toBinary64) _ = _
            rw [← round_val]
            rfl
          · rw [hnum, List.length_cons, ← numValues_add_one]
            rfl
          · rw [hmins, List.foldl_cons]
          · rw [hmaxs, List.foldl_cons]

/-- The whole loop, if there is a value. -/
theorem foldl_addOptional_init {v : Finite} {rest : List Finite} {l : List (Option Finite)}
    (h : l.reduceOption = v :: rest) :
    (l.foldl addOptional {}).sum = sumFrom 0 (l.reduceOption.map Finite.val) ∧
      (l.foldl addOptional {}).numValues = UInt32.ofNat l.reduceOption.length ∧
      (l.foldl addOptional {}).P.min = .finite ((rest.map Finite.val).foldl min v.val) ∧
      (l.foldl addOptional {}).P.max = .finite ((rest.map Finite.val).foldl max v.val) := by
  induction l with
  | nil => cases h
  | cons o l ih =>
      cases o with
      | none => exact ih h
      | some w =>
          -- The first value that is there becomes both bounds, and `hasValue` is set from here on.
          rw [List.reduceOption_cons_of_some] at h ⊢
          obtain ⟨rfl, hrest⟩ := List.cons.inj h
          obtain ⟨hsum, hnum, hmin, hmax⟩ := foldl_addOptional (addOptional {} (some w)) rfl l
            w.val w.val rfl rfl
          rw [List.foldl_cons]
          refine ⟨?_, ?_, ?_, ?_⟩
          · rw [hsum, List.map_cons]
            show sumFrom (0 + w.toBinary64) _ = _
            rw [← round_val]
            rfl
          · rw [hnum, List.length_cons, ← UInt32.zero_add (UInt32.ofNat (_ + 1)),
              ← numValues_add_one]
            rfl
          · rw [hmin, hrest]
          · rw [hmax, hrest]

end Account

/-! ## The statistics of some values -/

/-- The statistics of the values, each of them a double. -/
def IsStatisticsOf (values countsForMin : List ℚ) (P : AveragePoint Binary64) : Prop :=
  ∃ Q : AveragePoint ℚ, P = { min := .finite Q.min, max := .finite Q.max, avg := .finite Q.avg } ∧
    IsStatistics values countsForMin Q

/-- The division by a counter undoes the rounding of the sum: the mean is a double, and the drift
    of the additions is too small to move the quotient from it.  A counter of 0 counts only for
    a sum of 0. -/
def MeanKept (count : ℚ) (values : List ℚ) : Prop :=
  if count = 0 then values.sum = 0
  else ∃ e, drift 0 values = some e ∧
    Binary64.round ((values.sum + e) / count) = .finite (values.sum / values.length)

theorem isStatisticsOf_iff {values countsForMin : List ℚ} {P : AveragePoint Binary64} {lo hi : ℚ}
    (hne : values ≠ []) (hlo : P.min = .finite lo) (hhi : P.max = .finite hi) :
    IsStatisticsOf values countsForMin P ↔
      IsGreatest {v | v ∈ values} hi ∧ (countsForMin ≠ [] → IsLeast {v | v ∈ countsForMin} lo) ∧
        P.avg = .finite (values.sum / values.length) := by
  obtain ⟨least, greatest, mean⟩ := P
  obtain rfl : least = .finite lo := hlo
  obtain rfl : greatest = .finite hi := hhi
  constructor
  · rintro ⟨Q, hP, hQ⟩
    rw [AveragePoint.mk.injEq, Binary64.finite.injEq, Binary64.finite.injEq] at hP
    obtain ⟨rfl, rfl, rfl⟩ := hP
    obtain ⟨hmax, hmin, havg⟩ := (isStatistics_iff hne).mp hQ
    exact ⟨hmax, hmin, congrArg Binary64.finite havg⟩
  · rintro ⟨hmax, hmin, rfl⟩
    exact ⟨⟨lo, hi, values.sum / values.length⟩, rfl, (isStatistics_iff hne).mpr ⟨hmax, hmin, rfl⟩⟩

/-- A running maximum of rounded values is the greatest value iff that is a double, not below the
    start. -/
theorem isGreatest_nearest_iff {l : List ℚ} (hfinite : ∀ v ∈ l, |nearest v| < 2 ^ 1024) :
    IsGreatest {v | v ∈ l} (l.foldl (fun m v => max m (nearest v)) 0) ↔
      ∃ g, 0 ≤ g ∧ Representable g ∧ IsGreatest {v | v ∈ l} g := by
  have hround := Account.nearest_foldl_max l 0
  rw [Binary64.nearest_zero] at hround
  rw [← hround]
  constructor
  · intro h
    have hfits : Representable (nearest (l.foldl max 0)) := by
      have hlt := hfinite _ h.1
      rw [Binary64.nearest_nearest] at hlt
      exact ⟨hlt, Binary64.nearest_nearest _⟩
    have hnonneg := Binary64.nearest_mono ((Running.isGreatest_foldl_max l 0).2 (.inl rfl))
    rw [Binary64.nearest_zero] at hnonneg
    exact ⟨_, hnonneg, hfits, h⟩
  · rintro ⟨g, hg, hfits, hgreatest⟩
    have hmax := Running.isGreatest_foldl_max_iff.mpr ⟨g, hgreatest.1, hg⟩
    rw [hmax.unique hgreatest, hfits.2]
    exact hgreatest

/-- A running minimum of the rounded values that are not 0 is the least of them iff the least value
    is a double below the start. -/
theorem isLeast_nearest_iff {l : List ℚ} (hfinite : ∀ v ∈ l, |nearest v| < 2 ^ 1024) :
    (l.filter (· ≠ 0) ≠ [] → IsLeast {v | v ∈ l.filter (· ≠ 0)}
        ((l.filter (· ≠ 0)).foldl (fun m v => min m (nearest v)) 0)) ↔
      (∃ g < 0, Representable g ∧ IsLeast {v | v ∈ l} g) ∨ ∀ v ∈ l, v = 0 := by
  have hround := Account.nearest_foldl_min (l.filter (· ≠ 0)) 0
  rw [Binary64.nearest_zero] at hround
  rw [← hround]
  have hmem : ∀ v, v ∈ l.filter (· ≠ 0) ↔ v ∈ l ∧ v ≠ 0 := fun v => by
    rw [List.mem_filter, decide_eq_true_iff]
  constructor
  · intro h
    by_cases hnil : l.filter (· ≠ 0) = []
    · exact .inr fun v hv => by simpa using List.filter_eq_nil_iff.mp hnil v hv
    · obtain ⟨hin, hlower⟩ := h hnil
      have hin := (hmem _).mp hin
      have hlt := hfinite _ hin.1
      rw [Binary64.nearest_nearest] at hlt
      have hle := Binary64.nearest_mono
        ((Running.isLeast_foldl_min (l.filter (· ≠ 0)) 0).2 (.inl rfl))
      rw [Binary64.nearest_zero] at hle
      have hneg := lt_of_le_of_ne hle hin.2
      refine .inl ⟨_, hneg, ⟨hlt, Binary64.nearest_nearest _⟩, hin.1, fun v hv => ?_⟩
      by_cases hzero : v = 0
      · exact hzero ▸ hneg.le
      · exact hlower ((hmem v).mpr ⟨hv, hzero⟩)
  · rintro (⟨g, hneg, hfits, hin, hlower⟩ | hzero) hsome
    · have hleast : IsLeast {v | v ∈ l.filter (· ≠ 0)} g :=
        ⟨(hmem g).mpr ⟨hin, hneg.ne⟩, fun v hv => hlower ((hmem v).mp hv).1⟩
      have hmin := Running.isLeast_foldl_min_iff.mpr ⟨g, hleast.1, hneg.le⟩
      rw [hmin.unique hleast, hfits.2]
      exact hleast
    · -- no value counts
      refine absurd (List.filter_eq_nil_iff.mpr fun v hv => ?_) hsome
      simpa using hzero v hv

/-- The average of a loop is the mean iff the division by its counter keeps that. -/
theorem Account.result_avg_iff {s : Account} {values : List ℚ} (hne : values ≠ [])
    (hfinite : ∀ v ∈ values, |nearest v| < 2 ^ 1024) (hsum : s.sum = sumFrom 0 values)
    (hnum : s.numValues = UInt32.ofNat values.length) :
    s.result.avg = .finite (values.sum / values.length) ↔
      MeanKept (values.length % 2 ^ 32 : ℕ) values := by
  have hlength : (values.length : ℚ) ≠ 0 := by
    rw [Ne, Nat.cast_eq_zero, List.length_eq_zero_iff]
    exact hne
  have hcount : s.numValues.toNat = values.length % 2 ^ 32 := by rw [hnum, UInt32.toNat_ofNat']
  have hzero : s.numValues = 0 ↔ ((values.length % 2 ^ 32 : ℕ) : ℚ) = 0 := by
    rw [Nat.cast_eq_zero, ← hcount, ← UInt32.toNat_zero, UInt32.toNat_inj]
  show (if s.numValues = 0 then 0 else s.sum / Binary64.round s.numValues.toNat) = _ ↔ _
  unfold MeanKept
  -- a count of 0 leaves the average at 0, which is right for a sum of 0
  by_cases h : s.numValues = 0
  · rw [if_pos h, if_pos (hzero.mp h)]
    show Binary64.finite 0 = _ ↔ _
    rw [Binary64.finite.injEq, eq_comm, div_eq_zero_iff, or_iff_left hlength]
  · have hdiv := fun hc => h (hzero.mpr hc)
    have hlt : values.length % 2 ^ 32 < 2 ^ 53 := (Nat.mod_lt _ (by decide)).trans (by decide)
    rw [if_neg h, if_neg hdiv, hsum, hcount, Binary64.round_of_abs_lt, Binary64.nearest_natCast hlt]
    · exact Binary64.sumFrom_div_iff hfinite hdiv
    · rw [abs_of_nonneg (Nat.cast_nonneg _)]
      exact_mod_cast hlt.trans (by decide)

/-! ## The statistics of a slot -/

/-- The points of a slot, in a vector that has room for them.  They are read from stored texts,
    in which every double is finite. -/
structure Slot where
  points : List (DeviceTimePoint Finite)
  ne_nil : points ≠ []
  length_lt : points.length < 2 ^ 64

namespace Slot

variable (s : Slot)

/-- The radios of all points of the slot. -/
def radios : List (RadioTimePoint Finite) := s.points.flatMap DeviceTimePoint.radioData

/-- A member of the interfaces, point by point. -/
def apValues (T : APTimePoint Finite → Finite) : List ℚ := s.points.map fun v => (T v.apData).val

/-- A member of the radios, radio by radio. -/
def radioValues (T : RadioTimePoint Finite → Member) : List ℚ := s.radios.map fun r => (T r).value

/-- The values that are present. -/
def optionalValues (T : RadioTimePoint Finite → Option Finite) : List ℚ :=
  (s.radios.filterMap T).map Finite.val

theorem apValues_ne_nil (T : APTimePoint Finite → Finite) : s.apValues T ≠ [] := fun h =>
  s.ne_nil (List.map_eq_nil_iff.mp h)

theorem apValues_representable (T : APTimePoint Finite → Finite) {v : ℚ} (hv : v ∈ s.apValues T) :
    Representable v := by
  obtain ⟨x, -, rfl⟩ := List.mem_map.mp hv
  exact (T x.apData).fits

theorem finite_of_representable {values : List ℚ} (h : ∀ v ∈ values, Representable v) :
    ∀ v ∈ values, |nearest v| < 2 ^ 1024 := fun v hv => by
  rw [(h v hv).2]
  exact (h v hv).1

theorem radioValues_finite (T : RadioTimePoint Finite → Member) :
    ∀ v ∈ s.radioValues T, |nearest v| < 2 ^ 1024 := by
  intro v hv
  obtain ⟨r, -, rfl⟩ := List.mem_map.mp hv
  exact (T r).abs_nearest_lt

/-- `AverageAPData`, over the values. -/
theorem averageAPData_eq (T : APTimePoint Finite → Finite) :
    averageAPData s.points {} T =
      { min := .finite (((s.apValues T).filter (· ≠ 0)).foldl min 0)
        max := .finite ((s.apValues T).foldl min 0)
        avg := sumFrom 0 (s.apValues T) / .finite (nearest (s.apValues T).length) } := by
  have hvalues : (s.points.map fun v => T v.apData).map Finite.val = s.apValues T := List.map_map
  obtain ⟨hsum, hmin, hmax⟩ := Account.foldl_addAP {} (s.points.map fun v => T v.apData)
    0 0 rfl rfl
  rw [hvalues, List.foldl_map] at hsum hmin hmax
  have hcount : Binary64.round (UInt64.ofNat s.points.length).toNat =
      .finite (nearest (s.apValues T).length) := by
    rw [UInt64.toNat_ofNat', Nat.mod_eq_of_lt s.length_lt, apValues, List.length_map]
    refine Binary64.round_of_abs_lt ?_
    rw [abs_of_nonneg (Nat.cast_nonneg _)]
    exact_mod_cast s.length_lt
  rw [averageAPData, if_neg fun h => s.ne_nil (List.isEmpty_iff.mp h), hcount]
  dsimp only
  rw [hsum, hmin, hmax]

theorem averageRadioData_eq (T : RadioTimePoint Finite → Member) :
    averageRadioData s.points {} T = ((s.radios.map T).foldl Account.addRadio {}).result := by
  rw [averageRadioData, if_neg fun h => s.ne_nil (List.isEmpty_iff.mp h), List.foldl_map, radios,
    List.foldl_flatMap]

theorem averageOptionalRadioData_eq (T : RadioTimePoint Finite → Option Finite) :
    averageOptionalRadioData s.points {} T =
      ((s.radios.map T).foldl Account.addOptional {}).result := by
  rw [averageOptionalRadioData, if_neg fun h => s.ne_nil (List.isEmpty_iff.mp h), List.foldl_map,
    radios, List.foldl_flatMap]

/-- The loop of `AverageRadioData` over the values of the slot. -/
theorem foldl_addRadio (T : RadioTimePoint Finite → Member) :
    ((s.radios.map T).foldl Account.addRadio {}).sum = sumFrom 0 (s.radioValues T) ∧
      ((s.radios.map T).foldl Account.addRadio {}).numValues =
        UInt32.ofNat (s.radioValues T).length ∧
      ((s.radios.map T).foldl Account.addRadio {}).P.min =
        .finite (((s.radioValues T).filter (· ≠ 0)).foldl (fun m v => min m (nearest v)) 0) ∧
      ((s.radios.map T).foldl Account.addRadio {}).P.max =
        .finite ((s.radioValues T).foldl (fun m v => max m (nearest v)) 0) := by
  have hvalues : (s.radios.map T).map Member.value = s.radioValues T := List.map_map
  have hloop := Account.foldl_addRadio {} (s.radios.map T) 0 0 rfl rfl
  rw [hvalues, ← List.length_map (f := Member.value), hvalues] at hloop
  obtain ⟨hsum, hnum, hmin, hmax⟩ := hloop
  exact ⟨hsum, hnum.trans (UInt32.zero_add _), hmin, hmax⟩

theorem averageAPData_iff (T : APTimePoint Finite → Finite) :
    IsStatisticsOf (s.apValues T) ((s.apValues T).filter (· ≠ 0)) (averageAPData s.points {} T) ↔
      (∃ c ≤ 0, ∀ v ∈ s.apValues T, v = c) ∧
        MeanKept (nearest (s.apValues T).length) (s.apValues T) := by
  have hne := s.apValues_ne_nil T
  -- A vector with a point has a size of at least 1, also as a double.
  have hcount : nearest ((s.apValues T).length : ℚ) ≠ 0 := by
    have hone : ((1 : ℕ) : ℚ) ≤ (s.apValues T).length :=
      Nat.cast_le.mpr (List.length_pos_iff.mpr hne)
    have hle := Binary64.nearest_mono hone
    rw [Binary64.nearest_natCast (by decide), Nat.cast_one] at hle
    exact (one_pos.trans_le hle).ne'
  rw [averageAPData_eq, isStatisticsOf_iff hne rfl rfl]
  dsimp only
  rw [MeanKept, if_neg hcount, Binary64.sumFrom_div_iff
      (finite_of_representable fun v => s.apValues_representable T) hcount, ← and_assoc,
    Running.isGreatest_foldl_min_iff, Running.isLeast_foldl_min_iff, and_iff_right hne]
  refine and_congr_left fun _ => ⟨And.left, fun h => ⟨h, fun hsome => ?_⟩⟩
  -- Where all values are one that is not positive, the minimum is right as well.
  obtain ⟨c, hc, hall⟩ := h
  obtain ⟨v, hv⟩ := List.exists_mem_of_ne_nil _ hsome
  exact ⟨v, hv, (hall v (List.mem_of_mem_filter hv)).trans_le hc⟩

theorem averageRadioData_iff (T : RadioTimePoint Finite → Member) (hne : s.radioValues T ≠ []) :
    IsStatisticsOf (s.radioValues T) ((s.radioValues T).filter (· ≠ 0))
        (averageRadioData s.points {} T) ↔
      (∃ g, 0 ≤ g ∧ Representable g ∧ IsGreatest {v | v ∈ s.radioValues T} g) ∧
        ((∃ g < 0, Representable g ∧ IsLeast {v | v ∈ s.radioValues T} g) ∨
          ∀ v ∈ s.radioValues T, v = 0) ∧
        MeanKept ((s.radioValues T).length % 2 ^ 32 : ℕ) (s.radioValues T) := by
  obtain ⟨hsum, hnum, hmin, hmax⟩ := s.foldl_addRadio T
  have hfinite := s.radioValues_finite T
  rw [← Account.result_min] at hmin
  rw [← Account.result_max] at hmax
  rw [averageRadioData_eq, isStatisticsOf_iff hne hmin hmax, isGreatest_nearest_iff hfinite,
    isLeast_nearest_iff hfinite, Account.result_avg_iff hne hfinite hsum hnum]

theorem averageOptionalRadioData_iff (T : RadioTimePoint Finite → Option Finite)
    (hne : s.optionalValues T ≠ []) :
    IsStatisticsOf (s.optionalValues T) (s.optionalValues T)
        (averageOptionalRadioData s.points {} T) ↔
      MeanKept ((s.optionalValues T).length % 2 ^ 32 : ℕ) (s.optionalValues T) := by
  have hpresent : (s.radios.map T).reduceOption = s.radios.filterMap T := by
    rw [List.reduceOption, List.filterMap_map]
    rfl
  obtain ⟨v, rest, hcons⟩ :=
    List.exists_cons_of_ne_nil fun hnil => hne (List.map_eq_nil_iff.mpr hnil)
  obtain ⟨hsum, hnum, hmin, hmax⟩ := Account.foldl_addOptional_init (hpresent.trans hcons)
  rw [hpresent] at hsum hnum
  rw [← List.length_map (f := Finite.val)] at hnum
  -- both bounds start at the first value that is present
  have hset : {w | w ∈ s.optionalValues T} = {w | w = v.val ∨ w ∈ rest.map Finite.val} :=
    Set.ext fun w => by rw [optionalValues, hcons]; exact List.mem_cons
  have hleast : IsLeast {w | w ∈ s.optionalValues T} ((rest.map Finite.val).foldl min v.val) :=
    hset ▸ Running.isLeast_foldl_min (rest.map Finite.val) v.val
  have hgreatest : IsGreatest {w | w ∈ s.optionalValues T}
      ((rest.map Finite.val).foldl max v.val) :=
    hset ▸ Running.isGreatest_foldl_max (rest.map Finite.val) v.val
  have hfinite : ∀ w ∈ s.optionalValues T, |nearest w| < 2 ^ 1024 := by
    refine finite_of_representable fun w hw => ?_
    obtain ⟨x, -, rfl⟩ := List.mem_map.mp hw
    exact x.fits
  rw [← Account.result_min] at hmin
  rw [← Account.result_max] at hmax
  rw [averageOptionalRadioData_eq, isStatisticsOf_iff hne hmin hmax, and_iff_right hgreatest,
    and_iff_right fun _ => hleast]
  exact Account.result_avg_iff hne hfinite hsum hnum

/-- The largest value of the one function is at most 0, that of the other at least 0. -/
theorem averages_differ (T : APTimePoint Finite → Finite) (U : RadioTimePoint Finite → Member)
    (hsame : s.apValues T = s.radioValues U) (hnonzero : ∀ v ∈ s.apValues T, v ≠ 0) :
    averageAPData s.points {} T ≠ averageRadioData s.points {} U := by
  intro heq
  have hmax := congrArg AveragePoint.max heq
  obtain ⟨-, -, -, hradio⟩ := s.foldl_addRadio U
  rw [averageAPData_eq, averageRadioData_eq] at hmax
  -- The values are doubles, so that the running maximum of the rounded ones is theirs.
  have hround := Account.nearest_foldl_max (s.radioValues U) 0
  rw [Binary64.nearest_zero] at hround
  rw [← hround, ← hsame] at hradio
  have hbounds : (s.apValues T).foldl min 0 = nearest ((s.apValues T).foldl max 0) :=
    Binary64.finite.inj (hmax.trans hradio)
  have hkept : nearest ((s.apValues T).foldl max 0) = (s.apValues T).foldl max 0 := by
    rcases (Running.isGreatest_foldl_max (s.apValues T) 0).1 with hzero | hmem
    · rw [hzero, Binary64.nearest_zero]
    · exact (s.apValues_representable T hmem).2
  rw [hkept] at hbounds
  -- A running minimum and a running maximum from 0 on meet only if all values are 0.
  obtain ⟨v, hv⟩ := List.exists_mem_of_ne_nil _ (s.apValues_ne_nil T)
  have hleast := (Running.isLeast_foldl_min (s.apValues T) 0).2
  have hgreatest := (Running.isGreatest_foldl_max (s.apValues T) 0).2
  refine hnonzero v hv (le_antisymm ?_ ?_)
  · exact (hgreatest (.inr hv)).trans (hbounds ▸ hleast (.inl rfl))
  · exact (hbounds ▸ hgreatest (.inl rfl) : (0 : ℚ) ≤ _).trans (hleast (.inr hv))

end Slot

/-- The mean is kept where neither a value, a sum of the first values nor the mean needs rounding,
    and the counter does not wrap. -/
theorem meanKept_of_exact {values : List ℚ} (hvalues : ∀ v ∈ values, Representable v)
    (hsums : ∀ l, l <+: values → Representable l.sum)
    (hmean : Representable (values.sum / values.length)) :
    MeanKept values.length values := by
  have hdrift : drift 0 values = some 0 :=
    Binary64.drift_eq_zero hvalues fun l hl => by rw [zero_add]; exact hsums l hl
  unfold MeanKept
  split_ifs with hzero
  · rw [Nat.cast_eq_zero, List.length_eq_zero_iff] at hzero
    rw [hzero, List.sum_nil]
  · exact ⟨0, hdrift, by rw [add_zero, Binary64.round_of_representable hmean]⟩

/-- A small integer as a double. -/
def small (n : Nat) (h : n < 2 ^ 53) : Finite where
  val := n
  fits := by
    have hkept := Binary64.nearest_natCast h
    have habs : |(n : ℚ)| < 2 ^ 64 := by
      rw [abs_of_nonneg (Nat.cast_nonneg n)]
      exact_mod_cast h.trans (by decide)
    exact Binary64.round_eq_finite_iff.mp (hkept ▸ Binary64.round_of_abs_lt habs) |>.1

/-- Points with these bandwidths. -/
def twoBandwidths : Slot where
  points :=
    [{ apData := { txBytesBw := small 10 (by decide) } },
      { apData := { txBytesBw := small 20 (by decide) } }]
  ne_nil := by simp
  length_lt := by decide

/-- The double nearest to 43.2. -/
def fortyThreeTwo : Finite where
  val := 6079859496950170 / 2 ^ 47
  fits := ⟨by decide +kernel, by decide +kernel⟩

/-- Three equal temperatures are averaged to more than each of them. -/
example :
    (averageOptionalRadioData
      [{ radioData := List.replicate 3 { temperature := some fortyThreeTwo } }] {}
      RadioTimePoint.temperature).avg = .finite (6079859496950171 / 2 ^ 47) := by
  decide +kernel

end OwAnalytics.Boards
