/-
  OwAnalytics.Ap.Counters

  The counters of which `AP::UpdateStats` takes differences: eight of the interfaces,
  four of each radio and seven of each association.  What the differences of an
  association are taken to, and the points an `AP` computes from its state messages,
  stored or not.
-/

import OwAnalytics.Ap.Gating
import OwAnalytics.Lib.Counters

namespace OwAnalytics.Ap

variable {F : Type} [Double F]

/-! ## Counters -/

/-- The counters of the interfaces. -/
inductive APCounter
  | txBytes
  | rxBytes
  | txPackets
  | rxPackets
  | txDropped
  | rxDropped
  | txErrors
  | rxErrors
deriving DecidableEq

namespace APCounter

/-- The counter of an interface. -/
def value (a : APTimePoint F) : APCounter → UInt64
  | txBytes => a.txBytes
  | rxBytes => a.rxBytes
  | txPackets => a.txPackets
  | rxPackets => a.rxPackets
  | txDropped => a.txDropped
  | rxDropped => a.rxDropped
  | txErrors => a.txErrors
  | rxErrors => a.rxErrors

/-- The difference that is stored for the counter. -/
def delta (a : APTimePoint F) : APCounter → UInt64
  | txBytes => a.txBytesDelta
  | rxBytes => a.rxBytesDelta
  | txPackets => a.txPacketsDelta
  | rxPackets => a.rxPacketsDelta
  | txDropped => a.txDroppedDelta
  | rxDropped => a.rxDroppedDelta
  | txErrors => a.txErrorsDelta
  | rxErrors => a.rxErrorsDelta

/-- The counters of an interface, in the order of their fields. -/
def all : List APCounter :=
  [txBytes, rxBytes, txPackets, rxPackets, txDropped, rxDropped, txErrors, rxErrors]

theorem mem_all (c : APCounter) : c ∈ all := by cases c <;> decide

theorem delta_apRates (base a : APTimePoint F) (timeLapse : UInt64) (c : APCounter) :
    c.delta (apRates base a timeLapse) = c.value a - c.value base := by
  cases c <;> rfl

theorem value_apRates (base a : APTimePoint F) (timeLapse : UInt64) (c : APCounter) :
    c.value (apRates base a timeLapse) = c.value a := by
  cases c <;> rfl

end APCounter

/-- The times of a radio, in milliseconds. -/
inductive RadioCounter
  | activeMs
  | busyMs
  | receiveMs
  | transmitMs
deriving DecidableEq

namespace RadioCounter

/-- The counter of a radio. -/
def value (r : RadioTimePoint F) : RadioCounter → UInt64
  | activeMs => r.activeMs
  | busyMs => r.busyMs
  | receiveMs => r.receiveMs
  | transmitMs => r.transmitMs

/-- The percentage that is made of the time. -/
def pct (r : RadioTimePoint F) : RadioCounter → F
  | activeMs => r.activePct
  | busyMs => r.busyPct
  | receiveMs => r.receivePct
  | transmitMs => r.transmitPct

/-- The counters of a radio, in the order of their fields. -/
def all : List RadioCounter := [activeMs, busyMs, receiveMs, transmitMs]

theorem mem_all (c : RadioCounter) : c ∈ all := by cases c <;> decide

theorem pct_radioRatesOver (base radio : RadioTimePoint F) (timeLapse : UInt64)
    (c : RadioCounter) :
    c.pct (radioRatesOver base radio timeLapse) =
      safePct ((c.value radio - c.value base) / 1000) timeLapse := by
  cases c <;> rfl

end RadioCounter

/-- The counters of an association. -/
inductive UECounter
  | txBytes
  | rxBytes
  | txPackets
  | rxPackets
  | txFailed
  | txRetries
  | txDuration
deriving DecidableEq

namespace UECounter

/-- The counter of an association. -/
def value (a : UETimePoint F) : UECounter → UInt64
  | txBytes => a.txBytes
  | rxBytes => a.rxBytes
  | txPackets => a.txPackets
  | rxPackets => a.rxPackets
  | txFailed => a.txFailed
  | txRetries => a.txRetries
  | txDuration => a.txDuration

/-- The difference that is stored for the counter. -/
def delta (a : UETimePoint F) : UECounter → UInt64
  | txBytes => a.txBytesDelta
  | rxBytes => a.rxBytesDelta
  | txPackets => a.txPacketsDelta
  | rxPackets => a.rxPacketsDelta
  | txFailed => a.txFailedDelta
  | txRetries => a.txRetriesDelta
  | txDuration => a.txDurationDelta

/-- `new_connection` looks at the counter. -/
def Checked : UECounter → Prop
  | txRetries | txDuration => False
  | _ => True

end UECounter

/-- A new connection is one for which a checked counter has gone back. -/
theorem newConnection_iff {existing a : UETimePoint F} :
    newConnection existing a = true ↔
      ∃ c : UECounter, c.Checked ∧ c.value a < c.value existing := by
  unfold newConnection
  simp only [Bool.or_eq_true, decide_eq_true_eq]
  refine ⟨?_, ?_⟩
  · rintro ((((h | h) | h) | h) | h)
    · exact ⟨.txPackets, trivial, h⟩
    · exact ⟨.rxPackets, trivial, h⟩
    · exact ⟨.txBytes, trivial, h⟩
    · exact ⟨.rxBytes, trivial, h⟩
    · exact ⟨.txFailed, trivial, h⟩
  · rintro ⟨c, hc, h⟩
    cases c with
    | txBytes => exact .inl (.inl (.inr h))
    | rxBytes => exact .inl (.inr h)
    | txPackets => exact .inl (.inl (.inl (.inl h)))
    | rxPackets => exact .inl (.inl (.inl (.inr h)))
    | txFailed => exact .inr h
    | txRetries => exact hc.elim
    | txDuration => exact hc.elim

/-! ## What an association is compared with -/

/-- What the differences of an association are taken to, if `existing` is what the base has of
    its station: nothing where the association is a new connection. -/
def reference (a : UETimePoint F) (existing : Option (UETimePoint F)) : UETimePoint F :=
  match existing with
  | some ue => if newConnection ue a then {} else ue
  | none => {}

theorem reference_of_newConnection {a ue : UETimePoint F} (h : newConnection ue a = true) :
    reference a (some ue) = {} :=
  if_pos h

theorem reference_of_not {a ue : UETimePoint F} (h : ¬ newConnection ue a = true) :
    reference a (some ue) = ue :=
  if_neg h

namespace UECounter

theorem value_empty (c : UECounter) : c.value ({} : UETimePoint F) = 0 := by cases c <;> rfl

/-- The association as it is stored: its counters as they were. -/
theorem value_ueRates (base : List (SSIDTimePoint F)) (timeLapse : UInt64) (a : UETimePoint F)
    (c : UECounter) : c.value (ueRates timeLapse (ueDeltas base a)) = c.value a := by
  cases c <;> rfl

/-- And its differences to the first association of its station in the base. -/
theorem delta_ueRates (base : List (SSIDTimePoint F)) (timeLapse : UInt64) (a : UETimePoint F)
    (c : UECounter) :
    c.delta (ueRates timeLapse (ueDeltas base a)) =
      c.value a - c.value (reference a (findUE a.station base)) := by
  cases c <;> rfl

end UECounter

/-! ## The associations of a point -/

/-- The associations of a station. -/
def DeviceTimePoint.entries (p : DeviceTimePoint F) (station : Str) : List (UETimePoint F) :=
  (p.ssidData.flatMap SSIDTimePoint.associations).filter fun a => a.station == station

theorem findUE_eq_head? (station : Str) (p : DeviceTimePoint F) :
    findUE station p.ssidData = (p.entries station).head? := by
  rw [findUE, DeviceTimePoint.entries, List.head?_filter]

/-- The time between the base and the data, which is not zero. -/
def timeLapse (base dtp : DeviceTimePoint F) : UInt64 :=
  if dtp.timestamp - base.timestamp = 0 then 1 else dtp.timestamp - base.timestamp

/-- An SSID of the new point is made of the one of the data with the same name. -/
theorem mem_newPoint_ssidData {base dtp : DeviceTimePoint F} {ssid : SSIDTimePoint F} :
    ssid ∈ (newPoint base dtp).ssidData ↔
      ∃ s ∈ dtp.ssidData, ssidRates base.ssidData (timeLapse base dtp) s = ssid :=
  List.mem_map

theorem mem_ssidRates_associations {base : List (SSIDTimePoint F)} {lapse : UInt64}
    {ssid : SSIDTimePoint F} {a : UETimePoint F} :
    a ∈ (ssidRates base lapse ssid).associations ↔
      ∃ b ∈ ssid.associations, ueRates lapse (ueDeltas base b) = a :=
  List.mem_map

/-- The associations of the new point are those of the data, with their differences. -/
theorem entries_newPoint (base dtp : DeviceTimePoint F) (station : Str) :
    (newPoint base dtp).entries station =
      (dtp.entries station).map fun a =>
        ueRates (timeLapse base dtp) (ueDeltas base.ssidData a) := by
  have hall : (newPoint base dtp).ssidData.flatMap SSIDTimePoint.associations =
      (dtp.ssidData.flatMap SSIDTimePoint.associations).map fun a =>
        ueRates (timeLapse base dtp) (ueDeltas base.ssidData a) := by
    show (dtp.ssidData.map _).flatMap _ = _
    rw [List.flatMap_map, List.map_flatMap]
    rfl
  rw [DeviceTimePoint.entries, DeviceTimePoint.entries, hall, List.filter_map]
  rfl

/-! ## The points an `AP` computes -/

namespace AP

/-- `db_DTP`: what is computed of a state message and the base, whether it is stored or not. -/
def computed (ap : AP F) (x : Delivery F) : Option (DeviceTimePoint F) :=
  match x.message with
  | .state state => if ap.gotBase then some (newPoint ap.base (ap.data x state)) else none
  | _ => none

theorem computed_of_state {ap : AP F} {x : Delivery F} {state : Document F}
    (hx : x.message = .state state) (hbase : ap.gotBase = true) :
    ap.computed x = some (newPoint ap.base (ap.data x state)) := by
  rw [computed, hx]
  exact if_pos hbase

theorem computed_eq_some {ap : AP F} {x : Delivery F} {p : DeviceTimePoint F}
    (h : ap.computed x = some p) :
    ∃ state, x.message = .state state ∧ ap.gotBase = true ∧
      p = newPoint ap.base (ap.data x state) := by
  unfold computed at h
  split at h
  · rename_i state hx
    split at h
    · rename_i hbase
      exact ⟨state, hx, hbase, (Option.some.inj h).symm⟩
    · cases h
  · cases h

/-- A stored point is the computed one, under its ids. -/
theorem computed_of_stored {ap : AP F} {x : Delivery F} {p : DeviceTimePoint F}
    (h : (ap.deliver x).2.timePoint = some p) :
    ∃ q, ap.computed x = some q ∧
      p = { q with
        id := x.env.uuid
        boardId := ap.boardId
        venueId := ap.venueId
        serialNumber := q.deviceInfo.serialNumber } := by
  cases hx : x.message with
  | state state =>
      simp only [deliver, hx, updateStats, toStore] at h
      split at h
      · rename_i hgot
        exact ⟨_, computed_of_state hx hgot.1, (Option.some.inj h).symm⟩
      · cases h
  | connection d => simp [deliver, hx, updateConnection] at h
  | health d => simp [deliver, hx] at h

/-- A stored point is made of the base and the data of its message. -/
theorem stored_eq {ap : AP F} {x : Delivery F} {state : Document F} {p : DeviceTimePoint F}
    (hmessage : x.message = .state state) (h : (ap.deliver x).2.timePoint = some p) :
    p = { newPoint ap.base (ap.data x state) with
      id := x.env.uuid
      boardId := ap.boardId
      venueId := ap.venueId
      serialNumber := (ap.data x state).deviceInfo.serialNumber } := by
  obtain ⟨q, hq, rfl⟩ := computed_of_stored h
  -- The point was computed of a state message, and this one has no other.
  obtain ⟨state', hstate, -, rfl⟩ := computed_eq_some hq
  obtain rfl : state = state' := Message.state.inj (hmessage.symm.trans hstate)
  rfl

end AP

end OwAnalytics.Ap
