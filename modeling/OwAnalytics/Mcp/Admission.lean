/-
  OwAnalytics.Mcp.Admission

  The checks of a request before its rows are fetched, as one condition over the
  integers: on the two parameters, in any order, on the two readings of the clock, and
  on the retention, the interval and the configured maximum.
-/

import OwAnalytics.Mcp.Bandwidth.Handler
import OwAnalytics.Mcp.Calendar
import OwAnalytics.Mcp.RouterId

namespace OwAnalytics.Mcp

open Bandwidth (Call Resolved doGet)

/-- The checks of `DoGet`, in its order, for a router with that retention and interval. -/
def admission (P : Platform) (params : List (Str × Str))
    (nowAtWindow nowAtRetention clockSkewSeconds retention interval configuredMaxSamples : UInt64) :
    Answer Window := do
  let window ← validateWindowQuery P params nowAtWindow clockSkewSeconds
  refuseIf (retention = 0) Bandwidth.routerNotFound
  validateRetention window retention nowAtRetention clockSkewSeconds
  let maxSamples ← validateConfiguredMaxSamples configuredMaxSamples
  validateExpectedSampleCount window interval maxSamples
  return window

/-- A request that is answered has been admitted, with what its router is resolved to. -/
theorem admission_of_doGet {P : Platform} {call : Call}
    {summary : AnalyticsObjects.McpDeviceBandwidthConsumptionSummary}
    (h : doGet P call = .ok summary) :
    ∃ resolved window, call.resolve call.routerId = .ok resolved ∧
      admission P call.parameters call.nowAtWindow call.nowAtRetention call.clockSkewSeconds
        resolved.retention resolved.interval call.configuredMaxSamples = .ok window := by
  obtain ⟨_, -, h⟩ := Answer.bind_ok h
  obtain ⟨_, -, h⟩ := Answer.bind_ok h
  obtain ⟨window, hwindow, h⟩ := Answer.bind_ok h
  obtain ⟨resolved, hresolved, h⟩ := Answer.bind_ok h
  obtain ⟨_, hretention, h⟩ := Answer.bind_ok h
  obtain ⟨_, hlookback, h⟩ := Answer.bind_ok h
  obtain ⟨maxSamples, hmax, h⟩ := Answer.bind_ok h
  obtain ⟨_, hcount, -⟩ := Answer.bind_ok h
  refine ⟨resolved, window, hresolved, ?_⟩
  unfold admission
  simp only [Answer.bind_ok_iff]
  exact ⟨window, hwindow, (), hretention, (), hlookback, maxSamples, hmax, (), hcount, rfl⟩

/-! ## Numerals -/

/-- A decimal numeral of that number, with any zeros before it. -/
def IsNumeral (text : Str) (n : ℕ) : Prop :=
  text ≠ [] ∧ (∀ c ∈ text, c.isDigit = true) ∧ Nat.ofDigitChars 10 text 0 = n

theorem le_ofDigitChars (text : Str) (n : ℕ) : n ≤ Nat.ofDigitChars 10 text n := by
  induction text generalizing n with
  | nil => simp
  | cons c text ih =>
      rw [Nat.ofDigitChars_cons]
      have h := ih (10 * n + (c.toNat - '0'.toNat))
      omega

/-- The loop stops at a character that is no digit and before it overflows. -/
theorem parseDigits_eq_some_iff {parsed n : UInt64} {text : Str} :
    parseDigits parsed text = some n ↔
      (∀ c ∈ text, c.isDigit = true) ∧ Nat.ofDigitChars 10 text parsed.toNat = n.toNat := by
  induction text generalizing parsed with
  | nil => simp [parseDigits, UInt64.toNat_inj]
  | cons c text ih =>
      rw [parseDigits, isDigit_eq, Nat.ofDigitChars_cons, List.forall_mem_cons]
      cases hdigit : c.isDigit with
      | false => simp
      | true =>
          have hlt : digitValue c < 10 := Calendar.digit_lt hdigit
          have hvalue : (UInt64.ofNat (digitValue c)).toNat = digitValue c :=
            UInt64.toNat_ofNat_of_lt' (hlt.trans (by decide))
          have hroom : parsed > (UInt64.ofNat (2 ^ 64 - 1) - UInt64.ofNat (digitValue c)) / 10 ↔
              2 ^ 64 ≤ 10 * parsed.toNat + digitValue c := by
            have hmax : (UInt64.ofNat (2 ^ 64 - 1)).toNat = 2 ^ 64 - 1 := by decide
            rw [gt_iff_lt, UInt64.lt_iff_toNat_lt, UInt64.toNat_div, UInt64.toNat_sub_of_le, hmax,
              hvalue, show (10 : UInt64).toNat = 10 from rfl]
            · omega
            · rw [UInt64.le_iff_toNat_le, hmax, hvalue]
              omega
          simp only [Bool.not_true, Bool.false_eq_true, if_false, true_and]
          by_cases hfull : parsed > (UInt64.ofNat (2 ^ 64 - 1) - UInt64.ofNat (digitValue c)) / 10
          · -- the number of the digits so far is no 64-bit number, and more digits make it no less
            rw [if_pos hfull]
            have hge := hroom.mp hfull
            have hle := le_ofDigitChars text (10 * parsed.toNat + (c.toNat - '0'.toNat))
            have hn := n.toNat_lt
            unfold digitValue at hge
            refine ⟨?_, ?_⟩
            · intro h
              cases h
            · rintro ⟨-, hsame⟩
              omega
          · rw [if_neg hfull, ih]
            have hsum : (parsed * 10 + UInt64.ofNat (digitValue c)).toNat =
                10 * parsed.toNat + (c.toNat - '0'.toNat) := by
              have hfits := mt hroom.mpr hfull
              rw [UInt64.toNat_add, UInt64.toNat_mul, hvalue,
                show (10 : UInt64).toNat = 10 from rfl]
              unfold digitValue at *
              omega
            rw [hsum]

theorem parseDecimalUint64_eq_some_iff {text : Str} {n : UInt64} :
    parseDecimalUint64 text = some n ↔ IsNumeral text n.toNat := by
  unfold parseDecimalUint64 IsNumeral
  by_cases hempty : text = []
  · simp [hempty]
  · rw [if_neg (by simpa using hempty), parseDigits_eq_some_iff]
    simp [hempty]

/-! ## The parameters -/

/-- One time stamp and one lookback, in any order. -/
def AreParameters (params : List (Str × Str)) (timestamp lookback : Str) : Prop :=
  params.Perm [("timestampTill".toList, timestamp), ("lookbackHours".toList, lookback)]

theorem refuseUnsupported_ok_iff {params : List (Str × Str)} :
    refuseUnsupported params = .ok () ↔
      ∀ p ∈ params, p.1 = "timestampTill".toList ∨ p.1 = "lookbackHours".toList := by
  induction params with
  | nil => simp [refuseUnsupported]
  | cons p rest ih =>
      obtain ⟨name, value⟩ := p
      rw [refuseUnsupported, List.forall_mem_cons]
      by_cases hname : name = "timestampTill".toList ∨ name = "lookbackHours".toList
      · rw [if_neg fun h => hname.elim h.1 h.2, ih]
        exact ⟨fun h => ⟨hname, h⟩, And.right⟩
      · rw [if_pos (not_or.mp hname)]
        refine ⟨?_, ?_⟩
        · intro h
          cases h
        · rintro ⟨h, -⟩
          exact absurd h hname

section Pairs

variable {κ β : Type*} [DecidableEq κ] {a b : κ} {l : List (κ × β)} {x y : β}

/-- The values of two names in a list that has each of them once. -/
theorem values_of_perm (hne : a ≠ b) (h : l.Perm [(a, x), (b, y)]) :
    (l.filter (·.1 = a)).map Prod.snd = [x] ∧ (l.filter (·.1 = b)).map Prod.snd = [y] := by
  have hfilter : ∀ name, ((l.filter (·.1 = name)).map Prod.snd).Perm
      ((([(a, x), (b, y)] : List (κ × β)).filter (·.1 = name)).map Prod.snd) :=
    fun name => (h.filter _).map _
  refine ⟨?_, ?_⟩
  · refine List.perm_singleton.mp ((hfilter a).trans (List.Perm.of_eq ?_))
    simp [hne.symm]
  · refine List.perm_singleton.mp ((hfilter b).trans (List.Perm.of_eq ?_))
    simp [hne]

/-- A list of two names, each once, is the pair of them in some order. -/
theorem perm_of_values (hne : a ≠ b) (hnames : ∀ p ∈ l, p.1 = a ∨ p.1 = b)
    (hx : (l.filter (·.1 = a)).map Prod.snd = [x])
    (hy : (l.filter (·.1 = b)).map Prod.snd = [y]) : l.Perm [(a, x), (b, y)] := by
  have hpairs : ∀ name z, (l.filter (·.1 = name)).map Prod.snd = [z] →
      l.filter (·.1 = name) = [(name, z)] := by
    intro name z hz
    obtain ⟨p, hp, rfl⟩ := List.map_eq_singleton_iff.mp hz
    have hmem : p ∈ l.filter (·.1 = name) := hp ▸ List.mem_singleton_self p
    have hname : p.1 = name := by simpa using (List.mem_filter.mp hmem).2
    rw [hp, ← hname]
  -- what has not the one name has the other
  have hrest : l.filter (fun p => !decide (p.1 = a)) = l.filter (·.1 = b) := by
    refine List.filter_congr fun p hp => ?_
    rcases hnames p hp with hp | hp
    · simp [hp, hne]
    · simp [hp, hne.symm]
  have hsplit := List.filter_append_perm (fun p : κ × β => decide (p.1 = a)) l
  rw [hrest, hpairs a x hx, hpairs b y hy] at hsplit
  exact hsplit.symm

end Pairs

theorem names_ne : "timestampTill".toList ≠ "lookbackHours".toList := by decide +kernel

/-- The parameters pass the checks on their names and numbers iff there is one of each. -/
theorem areParameters_iff {params : List (Str × Str)} {timestamp lookback : Str} :
    AreParameters params timestamp lookback ↔
      refuseUnsupported params = .ok () ∧ valuesOf "timestampTill" params = [timestamp] ∧
        valuesOf "lookbackHours" params = [lookback] := by
  refine ⟨?_, ?_⟩
  · intro h
    refine ⟨refuseUnsupported_ok_iff.mpr fun p hp => ?_, values_of_perm names_ne h⟩
    have hmem := h.mem_iff.mp hp
    rw [List.mem_cons, List.mem_singleton] at hmem
    rcases hmem with rfl | rfl
    · exact .inl rfl
    · exact .inr rfl
  · rintro ⟨hnames, htimestamp, hlookback⟩
    exact perm_of_values names_ne (refuseUnsupported_ok_iff.mp hnames) htimestamp hlookback

/-! ## The window -/

theorem skew_iff {endTime now skew : UInt64} :
    ¬ (endTime > now ∧ endTime - now > skew) ↔ endTime.toNat ≤ now.toNat + skew.toNat := by
  by_cases hle : endTime ≤ now
  · rw [UInt64.le_iff_toNat_le] at hle
    refine iff_of_true (fun h => ?_) (by omega)
    have hlt := h.1
    rw [gt_iff_lt, UInt64.lt_iff_toNat_lt] at hlt
    omega
  · rw [UInt64.not_le] at hle
    have hsub := UInt64.toNat_sub_of_le _ _ (UInt64.le_of_lt hle)
    have hlt := UInt64.lt_iff_toNat_lt.mp hle
    rw [gt_iff_lt, gt_iff_lt, UInt64.lt_iff_toNat_lt (a := skew), hsub]
    simp only [hle, true_and]
    omega

/-- The lookback fits after the epoch, and its seconds do not wrap. -/
theorem lookback_iff {endTime hours : UInt64} :
    (¬ hours = 0 ∧ ¬ hours > maxApiLookbackHours ∧ ¬ hours * 3600 > endTime) ↔
      1 ≤ hours.toNat ∧ hours.toNat ≤ 87600 ∧ 3600 * hours.toNat ≤ endTime.toNat := by
  have hcap : maxApiLookbackHours.toNat = 87600 := by decide
  have h3600 : (3600 : UInt64).toNat = 3600 := by decide
  rw [gt_iff_lt, gt_iff_lt, UInt64.not_lt, UInt64.not_lt, UInt64.le_iff_toNat_le,
    UInt64.le_iff_toNat_le, hcap, ← UInt64.toNat_inj, UInt64.toNat_zero, UInt64.toNat_mul, h3600]
  omega

theorem startTime_toNat {endTime hours : UInt64} (hle : hours.toNat ≤ 87600)
    (hepoch : 3600 * hours.toNat ≤ endTime.toNat) :
    (endTime - hours * 3600).toNat = endTime.toNat - 3600 * hours.toNat := by
  have h3600 : (3600 : UInt64).toNat = 3600 := by decide
  have hseconds : (hours * 3600).toNat = 3600 * hours.toNat := by
    rw [UInt64.toNat_mul, h3600]
    omega
  rw [UInt64.toNat_sub_of_le _ _ (by rw [UInt64.le_iff_toNat_le]; omega), hseconds]

/-- What passes `ValidateWindowQuery`, over the integers. -/
theorem validateWindowQuery_ok_iff {P : Platform} {params : List (Str × Str)}
    {now skew : UInt64} {w : Window} :
    validateWindowQuery P params now skew = .ok w ↔
      ∃ timestamp lookback, AreParameters params timestamp lookback ∧
        parseTimestampTill P timestamp = some w.endTime ∧
        parseDecimalUint64 lookback = some w.lookbackHours ∧
        w.endTime.toNat ≤ now.toNat + skew.toNat ∧
        (1 ≤ w.lookbackHours.toNat ∧ w.lookbackHours.toNat ≤ 87600 ∧
          3600 * w.lookbackHours.toNat ≤ w.endTime.toNat) ∧
        w.startTime.toNat = w.endTime.toNat - 3600 * w.lookbackHours.toNat := by
  refine ⟨?_, ?_⟩
  · intro h
    obtain ⟨_, hnames, h⟩ := Answer.bind_ok h
    obtain ⟨_, htimestamps, h⟩ := Answer.bind_ok h
    obtain ⟨endTime, hend, h⟩ := Answer.bind_ok h
    obtain ⟨_, hskew, h⟩ := Answer.bind_ok h
    obtain ⟨_, hlookbacks, h⟩ := Answer.bind_ok h
    obtain ⟨hours, hhours, h⟩ := Answer.bind_ok h
    obtain ⟨_, hpos, h⟩ := Answer.bind_ok h
    obtain ⟨_, hmax, h⟩ := Answer.bind_ok h
    obtain ⟨_, hepoch, hw⟩ := Answer.bind_ok h
    obtain rfl := Except.ok.inj hw
    obtain ⟨timestamp, htimestamp⟩ :=
      List.length_eq_one_iff.mp (not_not.mp (refuseIf_ok htimestamps))
    obtain ⟨lookback, hlookback⟩ :=
      List.length_eq_one_iff.mp (not_not.mp (refuseIf_ok hlookbacks))
    rw [htimestamp] at hend
    rw [hlookback] at hhours
    have hbounds := lookback_iff.mp ⟨refuseIf_ok hpos, refuseIf_ok hmax, refuseIf_ok hepoch⟩
    exact ⟨timestamp, lookback, areParameters_iff.mpr ⟨hnames, htimestamp, hlookback⟩,
      orError_ok hend, orError_ok hhours, skew_iff.mp (refuseIf_ok hskew), hbounds,
      startTime_toNat hbounds.2.1 hbounds.2.2⟩
  · rintro ⟨timestamp, lookback, hparams, hend, hhours, hskew, hbounds, hstart⟩
    obtain ⟨hnames, htimestamp, hlookback⟩ := areParameters_iff.mp hparams
    obtain ⟨hpos, hmax, hepoch⟩ := lookback_iff.mpr hbounds
    -- the start of the window is the difference, which does not wrap
    have hwindow : w = ⟨w.endTime - w.lookbackHours * 3600, w.endTime, w.lookbackHours⟩ := by
      have hsame : w.startTime = w.endTime - w.lookbackHours * 3600 :=
        UInt64.toNat.inj (hstart.trans (startTime_toNat hbounds.2.1 hbounds.2.2).symm)
      rw [← hsame]
    unfold validateWindowQuery
    simp only [Answer.bind_ok_iff, htimestamp, hlookback, orError_ok_iff, refuseIf_ok_iff]
    exact ⟨(), hnames, (), by simp, w.endTime, hend, (), skew_iff.mpr hskew, (), by simp,
      w.lookbackHours, hhours, (), hpos, (), hmax, (), hepoch, congrArg Except.ok hwindow.symm⟩

/-! ## The number of samples -/

/-- The interval, or the minute where it is zero. -/
def effectiveInterval (interval : UInt64) : UInt64 := if interval > 0 then interval else 60

theorem effectiveInterval_pos (interval : UInt64) : 0 < (effectiveInterval interval).toNat := by
  unfold effectiveInterval
  split
  · rename_i hpos
    rwa [gt_iff_lt, UInt64.lt_iff_toNat_lt] at hpos
  · decide

/-- Rounding up with the remainder. -/
theorem ceilDiv_eq {d e : ℕ} (he : 0 < e) :
    d ⌈/⌉ e = d / e + if d % e ≠ 0 then 1 else 0 := by
  rw [Nat.ceilDiv_eq_add_pred_div]
  have hsplit := Nat.div_add_mod d e
  have hlt := Nat.mod_lt d he
  by_cases hzero : d % e = 0
  · rw [if_neg (not_not.mpr hzero)]
    refine Nat.div_eq_of_lt_le ?_ ?_
    · rw [Nat.add_zero, Nat.mul_comm]
      omega
    · rw [Nat.add_zero, Nat.add_mul, Nat.one_mul, Nat.mul_comm]
      omega
  · rw [if_pos hzero]
    refine Nat.div_eq_of_lt_le ?_ ?_
    · rw [Nat.add_mul, Nat.one_mul, Nat.mul_comm]
      omega
    · rw [Nat.add_mul, Nat.add_mul, Nat.one_mul, Nat.mul_comm]
      omega

theorem estimateExpectedSampleCount_toNat (w : Window) (interval : UInt64) :
    (estimateExpectedSampleCount w interval).toNat =
      (w.endTime.toNat - w.startTime.toNat) ⌈/⌉ (effectiveInterval interval).toNat := by
  have he := effectiveInterval_pos interval
  have hduration : (if w.endTime > w.startTime then w.endTime - w.startTime else 0).toNat =
      w.endTime.toNat - w.startTime.toNat := by
    split
    · rename_i hlt
      exact UInt64.toNat_sub_of_le _ _ (UInt64.le_of_lt hlt)
    · rename_i hle
      rw [gt_iff_lt, UInt64.not_lt, UInt64.le_iff_toNat_le] at hle
      rw [UInt64.toNat_zero]
      omega
  show (if (if w.endTime > w.startTime then w.endTime - w.startTime else 0) > 0 then _ else _ :
    UInt64).toNat = _
  rw [← hduration]
  generalize (if w.endTime > w.startTime then w.endTime - w.startTime else 0) = duration
  rw [ceilDiv_eq he, ← UInt64.toNat_div, ← UInt64.toNat_mod]
  have hsize := duration.toNat_lt
  by_cases hzero : duration > 0
  · rw [if_pos hzero]
    show (duration / effectiveInterval interval +
      if duration % effectiveInterval interval ≠ 0 then 1 else 0).toNat = _
    by_cases hrest : duration % effectiveInterval interval = 0
    · rw [if_neg (not_not.mpr hrest), if_neg (by rw [hrest]; decide), UInt64.add_zero]
      rfl
    · have hpos : (duration % effectiveInterval interval).toNat ≠ 0 := fun h =>
        hrest (UInt64.toNat.inj h)
      -- with a remainder the quotient is below the largest number
      have hfits : (duration / effectiveInterval interval).toNat + 1 < 2 ^ 64 := by
        have hsplit := Nat.div_add_mod duration.toNat (effectiveInterval interval).toNat
        have hle := Nat.le_mul_of_pos_left
          (duration.toNat / (effectiveInterval interval).toNat) he
        rw [UInt64.toNat_mod] at hpos
        rw [UInt64.toNat_div]
        omega
      rw [if_pos hrest, if_pos hpos, UInt64.toNat_add, show (1 : UInt64).toNat = 1 from rfl]
      omega
  · have hnone : duration = 0 := by
      rw [gt_iff_lt, UInt64.not_lt] at hzero
      exact UInt64.le_antisymm hzero UInt64.zero_le
    rw [if_neg hzero, hnone]
    simp

/-! ## The condition -/

/-- What a request has to meet, over the integers: the instant `T`, the lookback `L` in hours, the
    two readings of the clock, and the numbers of the router and of the configuration. -/
structure Meets (now₁ now₂ skew retention interval maxSamples T L : ℕ) : Prop where
  positive : 1 ≤ L
  lookback : L ≤ min 87600 (retention / 3600)
  epoch : 3600 * L ≤ T
  notAhead : T ≤ now₁ + skew
  retained : max 0 ((now₂ : ℤ) - retention) ≤ (T : ℤ) - 3600 * L
  configured : 1 ≤ maxSamples ∧ maxSamples ≤ 100000
  samples : (3600 * L) ⌈/⌉ (if interval = 0 then 60 else interval) ≤ maxSamples

theorem validateConfiguredMaxSamples_ok_iff {configured maxSamples : UInt64} :
    validateConfiguredMaxSamples configured = .ok maxSamples ↔
      maxSamples = configured ∧ 1 ≤ configured.toNat ∧ configured.toNat ≤ 100000 := by
  refine ⟨?_, ?_⟩
  · intro h
    obtain ⟨rfl, hlow, hhigh⟩ := validateConfiguredMaxSamples_ok h
    exact ⟨rfl, UInt64.le_iff_toNat_le.mp hlow, UInt64.le_iff_toNat_le.mp hhigh⟩
  · rintro ⟨rfl, hlow, hhigh⟩
    unfold validateConfiguredMaxSamples
    refine Answer.bind_ok_iff.mpr ⟨(), refuseIf_ok_iff.mpr ?_, rfl⟩
    rw [not_or, gt_iff_lt, UInt64.not_lt, UInt64.not_lt]
    exact ⟨UInt64.le_iff_toNat_le.mpr hlow, UInt64.le_iff_toNat_le.mpr hhigh⟩

theorem validateExpectedSampleCount_ok_iff {w : Window} {interval maxSamples : UInt64}
    (hpos : 1 ≤ maxSamples.toNat) :
    validateExpectedSampleCount w interval maxSamples = .ok () ↔
      (w.endTime.toNat - w.startTime.toNat) ⌈/⌉ (effectiveInterval interval).toNat ≤
        maxSamples.toNat := by
  have hne : maxSamples ≠ 0 := by
    rintro rfl
    exact absurd hpos (by decide)
  unfold validateExpectedSampleCount
  rw [refuseIf_ok_iff, gt_iff_lt, not_and, UInt64.not_lt, UInt64.le_iff_toNat_le,
    estimateExpectedSampleCount_toNat]
  exact ⟨fun h => h hne, fun h _ => h⟩

theorem effectiveInterval_toNat (interval : UInt64) :
    (effectiveInterval interval).toNat =
      if interval.toNat = 0 then 60 else interval.toNat := by
  unfold effectiveInterval
  by_cases hzero : interval = 0
  · subst hzero
    rfl
  · have hne : interval.toNat ≠ 0 := fun h => hzero (UInt64.toNat.inj h)
    rw [if_neg hne, if_pos]
    rw [gt_iff_lt, UInt64.lt_iff_toNat_lt, UInt64.toNat_zero]
    omega

theorem admission_eq_ok_iff {P : Platform} {params : List (Str × Str)}
    {now₁ now₂ skew retention interval configured : UInt64} {w : Window} :
    admission P params now₁ now₂ skew retention interval configured = .ok w ↔
      validateWindowQuery P params now₁ skew = .ok w ∧ retention ≠ 0 ∧
        validateRetention w retention now₂ skew = .ok () ∧
        (1 ≤ configured.toNat ∧ configured.toNat ≤ 100000) ∧
        (w.endTime.toNat - w.startTime.toNat) ⌈/⌉ (effectiveInterval interval).toNat ≤
          configured.toNat := by
  unfold admission
  simp only [Answer.bind_ok_iff, refuseIf_ok_iff, validateConfiguredMaxSamples_ok_iff]
  refine ⟨?_, ?_⟩
  · rintro ⟨w', hwindow, _, hretention, _, hvalid, m, ⟨rfl, hconfigured⟩, _, hcount, hw⟩
    obtain rfl := Except.ok.inj hw
    rw [validateExpectedSampleCount_ok_iff hconfigured.1] at hcount
    exact ⟨hwindow, hretention, hvalid, hconfigured, hcount⟩
  · rintro ⟨hwindow, hretention, hvalid, hconfigured, hcount⟩
    exact ⟨w, hwindow, (), hretention, (), hvalid, configured, ⟨rfl, hconfigured⟩, (),
      (validateExpectedSampleCount_ok_iff hconfigured.1).mpr hcount, rfl⟩

theorem admission_iff_meets {P : Platform} (hP : P.Gregorian) (params : List (Str × Str))
    {now₁ now₂ skew retention interval configured : UInt64} (hnow : now₁ ≤ now₂) (w : Window) :
    admission P params now₁ now₂ skew retention interval configured = .ok w ↔
      ∃ (i : Instant) (numeral : Str) (T L : ℕ), AreParameters params i.text numeral ∧
        (T : ℤ) = i.seconds ∧ IsNumeral numeral L ∧
        Meets now₁.toNat now₂.toNat skew.toNat retention.toNat interval.toNat configured.toNat T L ∧
        w.startTime.toNat = T - 3600 * L ∧ w.endTime.toNat = T ∧ w.lookbackHours.toNat = L := by
  rw [UInt64.le_iff_toNat_le] at hnow
  rw [admission_eq_ok_iff, validateWindowQuery_ok_iff, validateRetention_ok_iff,
    effectiveInterval_toNat]
  refine ⟨?_, ?_⟩
  · rintro ⟨⟨timestamp, lookback, hparams, hend, hhours, hskew, hbounds, hstart⟩, hretention,
      ⟨-, hlookback, hretained, -⟩, hconfigured, hcount⟩
    -- a time stamp that parses is the text of an instant
    obtain ⟨i, rfl, hseconds⟩ := (parseTimestampTill_eq_some_iff hP).mp hend
    rw [parseDecimalUint64_eq_some_iff] at hhours
    have hduration : w.endTime.toNat - w.startTime.toNat = 3600 * w.lookbackHours.toNat := by
      omega
    rw [hduration] at hcount
    exact ⟨i, lookback, w.endTime.toNat, w.lookbackHours.toNat, hparams, hseconds, hhours,
      { positive := hbounds.1
        lookback := le_min hbounds.2.1 hlookback
        epoch := hbounds.2.2
        notAhead := hskew
        retained := by omega
        configured := hconfigured
        samples := hcount }, hstart, rfl, rfl⟩
  · rintro ⟨i, numeral, T, L, hparams, hseconds, hnumeral, hmeets, hstart, rfl, rfl⟩
    obtain ⟨hcap, hlookback⟩ := le_min_iff.mp hmeets.lookback
    have hpositive := hmeets.positive
    have hepoch := hmeets.epoch
    have hretained := hmeets.retained
    have hnotAhead := hmeets.notAhead
    have hduration : w.endTime.toNat - w.startTime.toNat = 3600 * w.lookbackHours.toNat := by
      omega
    rw [hduration]
    refine ⟨⟨i.text, numeral, hparams, (parseTimestampTill_eq_some_iff hP).mpr ⟨i, rfl, hseconds⟩,
      parseDecimalUint64_eq_some_iff.mpr hnumeral, hnotAhead, ⟨hpositive, hcap, hepoch⟩, hstart⟩,
      ?_, ⟨by omega, hlookback, by omega, by omega⟩, hmeets.configured, hmeets.samples⟩
    -- a retention of zero has no room for an hour
    rintro rfl
    rw [UInt64.toNat_zero] at hlookback
    omega

/-- The checks admit a request iff it has one time stamp that is the text of an instant and one
    lookback that is a numeral, and these meet the condition; the window is what they say.  The
    order of the parameters does not matter, and a window that the first check passes does not end
    after the limit of the check of the retention, which is left to the lookback and the start. -/
theorem admission_iff {P : Platform} (hP : P.Gregorian) (params : List (Str × Str))
    {now₁ now₂ skew retention interval configured : UInt64} (hnow : now₁ ≤ now₂) :
    (∀ w, admission P params now₁ now₂ skew retention interval configured = .ok w ↔
      ∃ (i : Instant) (numeral : Str) (T L : ℕ), AreParameters params i.text numeral ∧
        (T : ℤ) = i.seconds ∧ IsNumeral numeral L ∧
        Meets now₁.toNat now₂.toNat skew.toNat retention.toNat interval.toNat configured.toNat T L ∧
        w.startTime.toNat = T - 3600 * L ∧ w.endTime.toNat = T ∧ w.lookbackHours.toNat = L) ∧
    (∀ params' : List (Str × Str), params.Perm params' → ∀ w,
      (admission P params now₁ now₂ skew retention interval configured = .ok w ↔
        admission P params' now₁ now₂ skew retention interval configured = .ok w)) ∧
    ∀ w, validateWindowQuery P params now₁ skew = .ok w →
      ¬ w.endTime > requestEndLimit now₂ skew ∧
        (validateRetention w retention now₂ skew = .ok () ↔ 3600 ≤ retention.toNat ∧
          w.lookbackHours.toNat ≤ retention.toNat / 3600 ∧
          now₂.toNat ≤ w.startTime.toNat + retention.toNat) := by
  refine ⟨fun w => admission_iff_meets hP params hnow w, fun params' hperm w => ?order,
    fun w hw => ?limit⟩
  case order =>
    -- that the parameters are the two asks for no order
    have hparams : ∀ timestamp lookback,
        AreParameters params timestamp lookback ↔ AreParameters params' timestamp lookback :=
      fun _ _ => ⟨hperm.symm.trans, hperm.trans⟩
    rw [admission_iff_meets hP params hnow, admission_iff_meets hP params' hnow]
    simp only [hparams]
  case limit =>
    obtain ⟨_, _, -, -, -, hskew, -⟩ := validateWindowQuery_ok_iff.mp hw
    have hend := w.endTime.toNat_lt
    rw [UInt64.le_iff_toNat_le] at hnow
    have hbelow : w.endTime.toNat ≤ now₂.toNat + skew.toNat := by omega
    refine ⟨?_, ?_⟩
    · rw [gt_iff_lt, UInt64.not_lt, UInt64.le_iff_toNat_le, requestEndLimit_toNat]
      omega
    · rw [validateRetention_ok_iff]
      simp only [hbelow, and_true]

/-! ## A request at every limit -/

/-- 1970-01-02T00:00:00Z. -/
def secondDay : Instant where
  date := ⟨1970, 1, 2, by decide, by decide, by decide, by decide⟩
  hour := 0
  minute := 0
  second := 0
  year_lt := by decide
  hour_lt := by decide
  minute_lt := by decide
  second_lt := by decide

/-- Parameters that spell the second day of the epoch. -/
def secondDayParameters : List (Str × Str) :=
  [("lookbackHours".toList, "007".toList), ("timestampTill".toList, "1970-01-02T00:00:00Z".toList)]

theorem isNumeral_seven : IsNumeral "007".toList 7 := by
  show IsNumeral ['0', '0', '7'] 7
  exact ⟨by decide, List.all_eq_true.mp (by decide), by decide⟩

theorem secondDay_text : secondDay.text = "1970-01-02T00:00:00Z".toList := by decide +kernel

theorem secondDay_seconds : secondDay.seconds = 86400 := by
  unfold Instant.seconds Calendar.Date.dayNumber
  rw [show secondDay.date.year = 1970 from rfl, Calendar.daysBeforeYear_1970]
  decide

/-- The instant is as far ahead of the clock as the skew allows, the window begins where the
    retention does, and there are as many samples as the maximum. -/
theorem admission_iff_second_day : ∃ w : Window,
    admission .posix secondDayParameters 86390 86400 10 25200 0 420 = .ok w ∧
      w.startTime.toNat = 61200 ∧ w.endTime.toNat = 86400 := by
  refine ⟨⟨61200, 86400, 7⟩, ?_, by decide, by decide⟩
  refine ((admission_iff Platform.gregorian_posix secondDayParameters (by decide)).1 _).mpr
    ⟨secondDay, "007".toList, 86400, 7, ?_, secondDay_seconds.symm, isNumeral_seven, ?_,
      by decide, by decide, by decide⟩
  · rw [secondDay_text]
    exact List.Perm.swap _ _ _
  · exact
      { positive := by decide
        lookback := by decide
        epoch := by decide
        notAhead := by decide
        retained := by decide
        configured := by decide
        samples := by decide }

end OwAnalytics.Mcp
