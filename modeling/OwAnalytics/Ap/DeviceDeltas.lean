/-
  OwAnalytics.Ap.DeviceDeltas

  The unsigned subtractions of `AP::UpdateStats` outside the block of the associations:
  free off total memory, the time between two messages, the counters of the interfaces
  and the times of the radios.  None of them is guarded, so each is sound just where
  what is taken off is not the larger.
-/

import OwAnalytics.Ap.Counters

namespace OwAnalytics.Ap

open Throwing Document Counters

variable {F : Type} [Double F]

/-! ## The subtractions -/

/-- `total_mem - free_mem`, which is computed if the try block gets there. -/
def memorySubtraction (state : Document F) : Option Subtraction := do
  let unit ← state.find? "unit"
  let _ ← getJSON getUInt64 "localtime" unit 0
  let _ ← getJSON getUInt64 "uptime" unit 0
  let memory ← unit.find? "memory"
  let freeMem ← getJSON getUInt64 "free" memory 0
  let totalMem ← getJSON getUInt64 "total" memory 0
  if totalMem ≠ 0 then some { minuend := totalMem, subtrahend := freeMem } else none

/-- The subtractions of the counters of an access point. -/
def counterSubtractions (base a : APTimePoint F) : List Subtraction :=
  APCounter.all.map fun c => { minuend := c.value a, subtrahend := c.value base }

/-- Those of a radio, with each radio of the base on its channel. -/
def radioSubtractions (base : List (RadioTimePoint F)) (radio : RadioTimePoint F) :
    List Subtraction :=
  (base.filter fun b => b.channel == radio.channel).flatMap fun b =>
    RadioCounter.all.map fun c => { minuend := c.value radio, subtrahend := c.value b }

/-- Those between the data and its base. -/
def pointSubtractions (base dtp : DeviceTimePoint F) : List Subtraction :=
  { minuend := dtp.timestamp, subtrahend := base.timestamp } ::
    (counterSubtractions base.apData dtp.apData ++
      dtp.radioData.flatMap (radioSubtractions base.radioData))

/-- All of them on a state message. -/
def AP.subtractions (ap : AP F) (x : Delivery F) (state : Document F) : List Subtraction :=
  (memorySubtraction state).toList ++
    if ap.gotBase then pointSubtractions ap.base (ap.data x state) else []

/-! ## What is made of them -/

/-- The memory of the device info is the percentage of the difference. -/
theorem memory_parseUnit {state : Document F} {s : Subtraction}
    (h : memorySubtraction state = some s) (w : Work F) :
    (parseUnit state w).2.info.memory =
      Double.ofUInt64 s.difference / Double.ofUInt64 s.minuend * Double.ofUInt64 100 := by
  unfold memorySubtraction at h
  simp only [Option.bind_eq_bind, Option.bind_eq_some_iff] at h
  obtain ⟨unit, hunit, localtime, hlocaltime, uptime, huptime, memory, hmemory, freeMem, hfree,
    totalMem, htotal, h⟩ := h
  split at h
  · rename_i hne
    obtain rfl := Option.some.inj h
    unfold parseUnit
    simp only [hunit, hlocaltime, huptime, hmemory, parseMemory, hfree, htotal]
    show (if totalMem ≠ 0 then _ else _) = _
    rw [if_pos hne]
    rfl
  · cases h

theorem timeLapse_eq (base dtp : DeviceTimePoint F) :
    timeLapse base dtp =
      let s : Subtraction := { minuend := dtp.timestamp, subtrahend := base.timestamp }
      if s.difference = 0 then 1 else s.difference :=
  rfl

/-- The differences of the interfaces, in the order of the subtractions. -/
theorem deltas_apRates (base a : APTimePoint F) (lapse : UInt64) :
    (APCounter.all.map fun c => c.delta (apRates base a lapse)) =
      (counterSubtractions base a).map Subtraction.difference :=
  rfl

/-- A percentage of a radio is made of its difference to a radio of the base on its channel, and
    of the time itself only if there is none. -/
theorem pct_radioRates (base : List (RadioTimePoint F)) (lapse : UInt64)
    (radio : RadioTimePoint F) (c : RadioCounter) :
    (∃ s ∈ radioSubtractions base radio, s.minuend = c.value radio ∧
        c.pct (radioRates base lapse radio) = safePct (s.difference / 1000) lapse) ∨
      radioSubtractions base radio = [] ∧
        c.pct (radioRates base lapse radio) = safePct (c.value radio / 1000) lapse := by
  unfold radioRates radioSubtractions
  cases hlast : (base.filter fun b => b.channel == radio.channel).getLast? with
  | some b =>
      refine .inl ⟨{ minuend := c.value radio, subtrahend := c.value b }, ?_, rfl, ?_⟩
      · refine List.mem_flatMap.mpr ⟨b, List.mem_of_getLast? hlast, ?_⟩
        exact List.mem_map.mpr ⟨c, c.mem_all, rfl⟩
      · exact c.pct_radioRatesOver b radio lapse
  | none =>
      rw [List.getLast?_eq_none_iff.mp hlast]
      refine .inr ⟨rfl, ?_⟩
      show c.pct (radioRatesOver {} radio lapse) = _
      rw [c.pct_radioRatesOver, show c.value ({} : RadioTimePoint F) = 0 by cases c <;> rfl,
        UInt64.sub_zero]

/-! ## When they are sound -/

/-- No time, counter or radio of the data has gone back from the base. -/
structure NotBack (base dtp : DeviceTimePoint F) : Prop where
  timestamp : base.timestamp ≤ dtp.timestamp
  counters : ∀ c : APCounter, c.value base.apData ≤ c.value dtp.apData
  radios : ∀ radio ∈ dtp.radioData, ∀ b ∈ base.radioData, b.channel = radio.channel →
    ∀ c : RadioCounter, c.value b ≤ c.value radio

theorem sound_counterSubtractions_iff {base a : APTimePoint F} :
    (∀ s ∈ counterSubtractions base a, s.Sound) ↔
      ∀ c : APCounter, c.value base ≤ c.value a := by
  simp only [counterSubtractions, List.forall_mem_map, Subtraction.sound_iff]
  exact ⟨fun h c => h c c.mem_all, fun h c _ => h c⟩

theorem sound_radioSubtractions_iff {base : List (RadioTimePoint F)} {radio : RadioTimePoint F} :
    (∀ s ∈ radioSubtractions base radio, s.Sound) ↔
      ∀ b ∈ base, b.channel = radio.channel → ∀ c : RadioCounter, c.value b ≤ c.value radio := by
  simp only [radioSubtractions, List.mem_flatMap, List.mem_filter, List.mem_map, beq_iff_eq]
  refine ⟨?_, ?_⟩
  · intro h b hb hchannel c
    exact Subtraction.sound_iff.mp (h _ ⟨b, ⟨hb, hchannel⟩, c, c.mem_all, rfl⟩)
  · rintro h _ ⟨b, ⟨hb, hchannel⟩, c, -, rfl⟩
    exact Subtraction.sound_iff.mpr (h b hb hchannel c)

theorem sound_pointSubtractions_iff {base dtp : DeviceTimePoint F} :
    (∀ s ∈ pointSubtractions base dtp, s.Sound) ↔ NotBack base dtp := by
  rw [pointSubtractions, List.forall_mem_cons, List.forall_mem_append,
    sound_counterSubtractions_iff, List.forall_mem_flatMap]
  simp only [sound_radioSubtractions_iff]
  rw [Subtraction.sound_iff]
  exact ⟨fun ⟨htime, hcounters, hradios⟩ => ⟨htime, hcounters, hradios⟩,
    fun h => ⟨h.timestamp, h.counters, h.radios⟩⟩

/-- Where free memory is taken off the total, it is not the larger. -/
def FreeWithinTotal (state : Document F) : Prop :=
  ∀ s ∈ memorySubtraction state, s.subtrahend ≤ s.minuend

theorem sound_subtractions_iff {ap : AP F} {x : Delivery F} {state : Document F} :
    (∀ s ∈ ap.subtractions x state, s.Sound) ↔
      FreeWithinTotal state ∧ (ap.gotBase = true → NotBack ap.base (ap.data x state)) := by
  rw [AP.subtractions, List.forall_mem_append]
  refine and_congr ?_ ?_
  · simp only [FreeWithinTotal, Option.mem_toList, Option.mem_def, Subtraction.sound_iff]
  · cases ap.gotBase with
    | false => simp
    | true => simpa using sound_pointSubtractions_iff

/-! ## Runs -/

/-- On every state message of the run, every subtraction is sound, and no difference of the
    interfaces that is computed exceeds the current counter. -/
structure NoUnderflow (ap : AP F) (xs : List (Delivery F)) : Prop where
  sound : ∀ before x rest state, xs = before ++ x :: rest → x.message = .state state →
    ∀ s ∈ (ap.after before).subtractions x state, s.Sound
  deltas : ∀ before x rest p, xs = before ++ x :: rest → (ap.after before).computed x = some p →
    ∀ c : APCounter, c.delta p.apData ≤ c.value p.apData

/-- No state message of the run has more free memory than total, and none goes back from the
    base it comes upon. -/
structure NeverBack (ap : AP F) (xs : List (Delivery F)) : Prop where
  memory : ∀ x ∈ xs, ∀ state, x.message = .state state → FreeWithinTotal state
  data : ∀ before x rest state, xs = before ++ x :: rest → x.message = .state state →
    (ap.after before).gotBase = true →
      NotBack (ap.after before).base ((ap.after before).data x state)

theorem delta_le_of_notBack {base dtp : DeviceTimePoint F} (h : NotBack base dtp)
    (c : APCounter) : c.delta (newPoint base dtp).apData ≤ c.value (newPoint base dtp).apData := by
  show c.delta (apRates base.apData dtp.apData (timeLapse base dtp)) ≤
    c.value (apRates base.apData dtp.apData (timeLapse base dtp))
  rw [c.delta_apRates, c.value_apRates]
  exact sub_le_iff.mpr (h.counters c)

/-- A run is without underflow iff nothing in it goes back. -/
theorem noUnderflow_iff (ap : AP F) (xs : List (Delivery F)) :
    NoUnderflow ap xs ↔ NeverBack ap xs := by
  refine ⟨?_, ?_⟩
  · intro h
    refine ⟨?_, ?_⟩
    · intro x hx state hstate
      obtain ⟨before, rest, hsplit⟩ := List.append_of_mem hx
      exact (sound_subtractions_iff.mp (h.sound before x rest state hsplit hstate)).1
    · intro before x rest state hsplit hstate
      exact (sound_subtractions_iff.mp (h.sound before x rest state hsplit hstate)).2
  · intro h
    refine ⟨?_, ?_⟩
    · intro before x rest state hsplit hstate
      have hmem : x ∈ xs := hsplit ▸ List.mem_append_right before List.mem_cons_self
      exact sound_subtractions_iff.mpr
        ⟨h.memory x hmem state hstate, h.data before x rest state hsplit hstate⟩
    · intro before x rest p hsplit hp
      -- a point is computed only against a base
      obtain ⟨state, hstate, hbase, rfl⟩ := AP.computed_eq_some hp
      exact delta_le_of_notBack (h.data before x rest state hsplit hstate hbase)

/-! ## A reboot -/

/-- A device that has sent a hundred bytes and restarts its counter. -/
def reboot : List (Delivery ℚ) := contactsAndState ++ [stateMessage 120 10]

/-- The stored point has a difference of almost `2 ^ 64` bytes. -/
theorem reboot_wraps :
    ¬ ∀ (mac : UInt64) (venueId boardId : Str) (xs : List (Delivery ℚ)),
      NoUnderflow (AP.create mac venueId boardId) xs := by
  intro h
  have hdeltas := (h 0xa1 ['v'] ['b'] reboot).deltas contactsAndState (stateMessage 120 10) []
  have hcomputed : ((((AP.create 0xa1 ['v'] ['b']).after contactsAndState).computed
      (stateMessage 120 10)).map fun p => (p.apData.txBytesDelta, p.apData.txBytes)) =
        some (0 - 90, 10) := by
    decide +kernel
  obtain ⟨p, hp, hpair⟩ := Option.map_eq_some_iff.mp hcomputed
  obtain ⟨hdelta, hvalue⟩ := Prod.mk.inj hpair
  have hle : p.apData.txBytesDelta ≤ p.apData.txBytes := hdeltas p rfl hp .txBytes
  rw [hdelta, hvalue] at hle
  exact absurd hle (by decide)

end OwAnalytics.Ap
