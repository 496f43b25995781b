/-
  OwAnalytics.Ap.Point

  The new point `AP::UpdateStats` makes of a device's data and the data of its base:
  the differences of the counters, and the rates over the time between the two.
-/

import OwAnalytics.Ap.Json
import OwAnalytics.Ap.Objects

namespace OwAnalytics.Ap

variable {F : Type} [Double F]

/-- `safe_div`. -/
def safeDiv (a b : UInt64) : F := if b = 0 then 0 else Double.ofUInt64 a / Double.ofUInt64 b

/-- `safe_pct`. -/
def safePct (a b : UInt64) : F :=
  if b = 0 then 0 else Double.ofUInt64 100 * Double.ofUInt64 a / Double.ofUInt64 b

/-- `std::max`. -/
def maxDouble (a b : F) : F := if Double.lt a b then b else a

/-- `std::min`. -/
def minDouble (a b : F) : F := if Double.lt b a then b else a

/-- `Average` of a field. -/
def average {α : Type} (field : α → F) (values : List α) : F :=
  if values.isEmpty then 0
  else
    values.foldl (fun sum v => sum + field v) 0 / Double.ofUInt64 (UInt64.ofNat values.length)

/-- `find_ue`. -/
def findUE (station : Str) (tps : List (SSIDTimePoint F)) : Option (UETimePoint F) :=
  (tps.flatMap SSIDTimePoint.associations).find? fun association => association.station == station

/-- `new_connection`: a counter has gone back. -/
def newConnection (existing association : UETimePoint F) : Bool :=
  association.txPackets < existing.txPackets || association.rxPackets < existing.rxPackets ||
    association.txBytes < existing.txBytes || association.rxBytes < existing.rxBytes ||
    association.txFailed < existing.txFailed

/-- The rates of the device, with the base's data. -/
def apRates (base a : APTimePoint F) (timeLapse : UInt64) : APTimePoint F :=
  { a with
    txBytesDelta := a.txBytes - base.txBytes
    rxBytesDelta := a.rxBytes - base.rxBytes
    txPacketsDelta := a.txPackets - base.txPackets
    rxPacketsDelta := a.rxPackets - base.rxPackets
    txDroppedDelta := a.txDropped - base.txDropped
    rxDroppedDelta := a.rxDropped - base.rxDropped
    txErrorsDelta := a.txErrors - base.txErrors
    rxErrorsDelta := a.rxErrors - base.rxErrors
    txBytesBw := safeDiv (a.txBytes - base.txBytes) timeLapse
    rxBytesBw := safeDiv (a.rxBytes - base.rxBytes) timeLapse
    txPacketsBw := safeDiv (a.txPackets - base.txPackets) timeLapse
    rxPacketsBw := safeDiv (a.rxPackets - base.rxPackets) timeLapse
    txDroppedPct := safePct (a.txDropped - base.txDropped) a.txPackets
    rxDroppedPct := safePct (a.rxDropped - base.rxDropped) a.rxPackets
    txErrorsPct := safePct (a.txErrors - base.txErrors) a.txPackets
    rxErrorsPct := safePct (a.rxErrors - base.rxErrors) a.rxPackets }

/-- The rates of a radio over what is taken off its counters. -/
def radioRatesOver (base radio : RadioTimePoint F) (timeLapse : UInt64) : RadioTimePoint F :=
  { radio with
    activePct := safePct ((radio.activeMs - base.activeMs) / 1000) timeLapse
    busyPct := safePct ((radio.busyMs - base.busyMs) / 1000) timeLapse
    receivePct := safePct ((radio.receiveMs - base.receiveMs) / 1000) timeLapse
    transmitPct := safePct ((radio.transmitMs - base.transmitMs) / 1000) timeLapse }

/-- The rates of a radio; of the base's radios on its channel the last one counts. -/
def radioRates (base : List (RadioTimePoint F)) (timeLapse : UInt64) (radio : RadioTimePoint F) :
    RadioTimePoint F :=
  match (base.filter fun b => b.channel == radio.channel).getLast? with
  | some b => radioRatesOver b radio timeLapse
  | none => radioRatesOver {} radio timeLapse

/-- The differences of an association, to `{}` where it is a new one. -/
def ueDeltas (base : List (SSIDTimePoint F)) (association : UETimePoint F) : UETimePoint F :=
  let existing : UETimePoint F :=
    match findUE association.station base with
    | some ue => if newConnection ue association then {} else ue
    | none => {}
  { association with
    txBytesDelta := association.txBytes - existing.txBytes
    rxBytesDelta := association.rxBytes - existing.rxBytes
    txPacketsDelta := association.txPackets - existing.txPackets
    rxPacketsDelta := association.rxPackets - existing.rxPackets
    txFailedDelta := association.txFailed - existing.txFailed
    txRetriesDelta := association.txRetries - existing.txRetries
    txDurationDelta := association.txDuration - existing.txDuration }

/-- The rates of an association, made of its differences. -/
def ueRates (timeLapse : UInt64) (a : UETimePoint F) : UETimePoint F :=
  { a with
    txBytesBw := safeDiv a.txBytesDelta timeLapse
    rxBytesBw := safeDiv a.rxBytesDelta timeLapse
    txPacketsBw := safeDiv a.txPacketsDelta timeLapse
    rxPacketsBw := safeDiv a.rxPacketsDelta timeLapse
    txFailedPct := safePct a.txFailedDelta a.txPackets
    txRetriesPct := safePct a.txRetriesDelta a.txPackets
    txDurationPct := safePct (a.txDurationDelta / 1000000) timeLapse }

/-- The largest, the smallest and the average value of a rate; the first two start at zero. -/
def averagePoint (rate : UETimePoint F → F) (associations : List (UETimePoint F)) :
    AveragePoint F where
  max := associations.foldl (fun m a => maxDouble m (rate a)) 0
  min := associations.foldl (fun m a => minDouble m (rate a)) 0
  avg := average rate associations

/-- The associations of an SSID with their differences and rates, and what is made of them. -/
def ssidRates (base : List (SSIDTimePoint F)) (timeLapse : UInt64) (ssid : SSIDTimePoint F) :
    SSIDTimePoint F :=
  let associations := ssid.associations.map fun a => ueRates timeLapse (ueDeltas base a)
  { ssid with
    associations
    txBytesBw := averagePoint UETimePoint.txBytesBw associations
    rxBytesBw := averagePoint UETimePoint.rxBytesBw associations
    txPacketsBw := averagePoint UETimePoint.txPacketsBw associations
    rxPacketsBw := averagePoint UETimePoint.rxPacketsBw associations
    txFailedPct := averagePoint UETimePoint.txFailedPct associations
    txRetriesPct := averagePoint UETimePoint.txRetriesPct associations
    txDurationPct := averagePoint UETimePoint.txDurationPct associations }

/-- `db_DTP` before it gets its id: the data, and the differences and rates to the base. -/
def newPoint (base dtp : DeviceTimePoint F) : DeviceTimePoint F :=
  let timeLapse := if dtp.timestamp - base.timestamp = 0 then 1 else dtp.timestamp - base.timestamp
  { dtp with
    apData := apRates base.apData dtp.apData timeLapse
    radioData := dtp.radioData.map (radioRates base.radioData timeLapse)
    ssidData := dtp.ssidData.map (ssidRates base.ssidData timeLapse) }

end OwAnalytics.Ap
