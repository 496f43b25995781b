/-
  OwAnalytics.Ap.Frame

  What the parts of the try block leave alone: each keeps the properties that have no
  part in what it writes.
-/

import OwAnalytics.Ap.Parse

namespace OwAnalytics.Ap

open Throwing Document

variable {F : Type} [Double F]

/-- A property that the parts of the try block keep: of the device info it may mention the serial
    number, of the time point the device info. -/
structure Closed (P : Work F → Prop) : Prop where
  info : ∀ w i, i.serialNumber = w.info.serialNumber → P w → P { w with info := i }
  point : ∀ w p, p.deviceInfo = w.point.deviceInfo → P w → P { w with point := p }

/-- A property that they keep though it may mention of the device info also whether the device is
    connected. -/
structure ClosedDevice (P : Work F → Prop) : Prop where
  info : ∀ w i, i.serialNumber = w.info.serialNumber → i.connected = w.info.connected → P w →
    P { w with info := i }
  point : ∀ w p, p.deviceInfo = w.point.deviceInfo → P w → P { w with point := p }

theorem Closed.device {P : Work F → Prop} (h : Closed P) : ClosedDevice P where
  info := fun w i hserial _ => h.info w i hserial
  point := h.point

/-- The numbers of the associations by band are the same. -/
structure SameCounts (i j : DeviceInfo F) : Prop where
  two : i.associations2g = j.associations2g
  five : i.associations5g = j.associations5g
  six : i.associations6g = j.associations6g

/-- A property that is kept up to the associations: it may mention also the numbers of these, and
    of the time point the SSIDs. -/
structure ClosedParts (P : Work F → Prop) : Prop where
  info : ∀ w i, i.serialNumber = w.info.serialNumber → i.connected = w.info.connected →
    SameCounts i w.info → P w → P { w with info := i }
  point : ∀ w p, p.deviceInfo = w.point.deviceInfo → p.ssidData = w.point.ssidData → P w →
    P { w with point := p }

theorem ClosedDevice.parts {P : Work F → Prop} (h : ClosedDevice P) : ClosedParts P where
  info := fun w i hserial hconnected _ => h.info w i hserial hconnected
  point := fun w p hinfo _ => h.point w p hinfo

namespace Parse

variable {P : Work F → Prop} (hP : ClosedParts P)

include hP

theorem keeps_setInfo {f : DeviceInfo F → DeviceInfo F}
    (hf : ∀ i, (f i).serialNumber = i.serialNumber ∧ (f i).connected = i.connected ∧
      SameCounts (f i) i) :
    Computation.Keeps P (setInfo f) :=
  Computation.keeps_modify fun w hw =>
    hP.info w _ (hf w.info).1 (hf w.info).2.1 (hf w.info).2.2 hw

theorem keeps_setPoint {f : DeviceTimePoint F → DeviceTimePoint F}
    (hf : ∀ p, (f p).deviceInfo = p.deviceInfo ∧ (f p).ssidData = p.ssidData) :
    Computation.Keeps P (setPoint f) :=
  Computation.keeps_modify fun w hw => hP.point w _ (hf w.point).1 (hf w.point).2 hw

end Parse

open Parse

section Keeps

variable {P : Work F → Prop} (hP : ClosedParts P)

include hP

theorem keeps_parseMemory (memory : Document F) : Computation.Keeps P (parseMemory memory) := by
  refine Computation.keeps_bind (Computation.keeps_ofOption P _) fun _ => ?_
  refine Computation.keeps_bind (Computation.keeps_ofOption P _) fun _ => ?_
  refine Computation.keeps_bind (keeps_setPoint hP fun _ => ⟨by rfl, by rfl⟩) fun _ => ?_
  exact keeps_setInfo hP fun _ => ⟨by rfl, by rfl, by rfl, by rfl, by rfl⟩

theorem keeps_parseUnit (state : Document F) : Computation.Keeps P (parseUnit state) := by
  unfold parseUnit
  split
  · exact Computation.keeps_pure P ()
  · refine Computation.keeps_bind (Computation.keeps_ofOption P _) fun _ => ?_
    refine Computation.keeps_bind
      (keeps_setInfo hP fun _ => ⟨by rfl, by rfl, by rfl, by rfl, by rfl⟩) fun _ => ?_
    refine Computation.keeps_bind (Computation.keeps_ofOption P _) fun _ => ?_
    refine Computation.keeps_bind
      (keeps_setInfo hP fun _ => ⟨by rfl, by rfl, by rfl, by rfl, by rfl⟩) fun _ => ?_
    split
    · exact Computation.keeps_pure P ()
    · exact keeps_parseMemory hP _

theorem keeps_parseRadio (radio : Document F) : Computation.Keeps P (parseRadio radio) := by
  unfold parseRadio
  split
  · refine Computation.keeps_bind (Computation.keeps_ofOption P _) fun _ => ?_
    exact Computation.keeps_bind (keeps_setPoint hP fun _ => ⟨by rfl, by rfl⟩) fun _ =>
      Computation.keeps_pure P _
  · exact Computation.keeps_pure P _

theorem keeps_parseRadios (state : Document F) : Computation.Keeps P (parseRadios state) := by
  unfold parseRadios
  split
  · exact Computation.keeps_bind
      (Computation.keeps_mapEach fun radio _ => keeps_parseRadio hP radio) fun _ =>
        Computation.keeps_pure P _
  · exact Computation.keeps_pure P _

theorem keeps_parseCounter (counters : Document F) (field : String)
    (set : APTimePoint F → UInt64 → APTimePoint F) :
    Computation.Keeps P (parseCounter counters field set) :=
  Computation.keeps_bind (Computation.keeps_ofOption P _) fun _ =>
    keeps_setPoint hP fun _ => ⟨by rfl, by rfl⟩

theorem keeps_parseCounters (counters : Document F) :
    Computation.Keeps P (parseCounters counters) := by
  unfold parseCounters
  iterate 9 refine Computation.keeps_bind (keeps_parseCounter hP counters _ _) fun _ => ?_
  exact keeps_parseCounter hP counters _ _

theorem keeps_parseInterfaceCounters (interface : Document F) :
    Computation.Keeps P (parseInterfaceCounters interface) := by
  unfold parseInterfaceCounters
  split
  · exact keeps_parseCounters hP _
  · exact Computation.keeps_pure P ()

end Keeps

section Associations

variable {P : Work F → Prop} (hP : ClosedDevice P) (hcache : ∀ w cache, P w → P { w with cache })
  (hhistory : ∀ w history, P w → P { w with history })

include hcache hhistory

theorem keeps_parseAssociation (env : Env F) (association : Document F) (ctx : SSIDContext F) :
    Computation.Keeps P (parseAssociation env association ctx) := by
  refine Computation.keeps_bind (Computation.keeps_ofOption P _) fun _ => ?_
  refine Computation.keeps_bind (Computation.keeps_ofOption P _) fun _ => ?_
  refine Computation.keeps_bind (Computation.keeps_within hcache) fun _ => ?_
  refine Computation.keeps_bind (Computation.keeps_modify fun w => hhistory w _) fun _ => ?_
  exact Computation.keeps_bind (Computation.keeps_ofOption P _) fun _ => Computation.keeps_pure P _

include hP

theorem keeps_parseAssociations (env : Env F) (venueId : Str) (radioMap : RadioMap)
    (clients : InterfaceClientEntryMap) (head : SSIDTimePoint F) (location : UInt32)
    (ssid : Document F) : Computation.Keeps P
      (parseAssociations env venueId radioMap clients head location ssid) := by
  unfold parseAssociations
  split
  · exact Computation.keeps_pure P _
  · refine Computation.keeps_bind (Computation.keeps_modify fun w hw => ?_) fun _ => ?_
    · -- of the device info only the numbers of the associations are changed
      refine hP.info w _ ?_ ?_ hw <;> unfold countAssociations <;> split <;> rfl
    · exact Computation.keeps_bind (Computation.keeps_get P) fun _ =>
        Computation.keeps_mapEach fun association _ =>
          keeps_parseAssociation hcache hhistory env association _

theorem keeps_parseSSID (env : Env F) (venueId : Str) (radioMap : RadioMap)
    (clients : InterfaceClientEntryMap) (ssid : Document F) :
    Computation.Keeps P (parseSSID env venueId radioMap clients ssid) := by
  refine Computation.keeps_bind (Computation.keeps_ofOption P _) fun head => ?_
  refine Computation.keeps_bind ?_ fun _ => Computation.keeps_modify fun w => hP.point w _ rfl
  exact keeps_parseAssociations hP hcache hhistory env venueId radioMap clients head.1 head.2 ssid

theorem keeps_parseInterface (env : Env F) (venueId : Str) (radioMap : RadioMap)
    (interface : Document F) :
    Computation.Keeps P (parseInterface env venueId radioMap interface) := by
  refine Computation.keeps_bind (keeps_parseInterfaceCounters hP.parts interface) fun _ => ?_
  unfold parseSSIDs
  split
  · exact Computation.keeps_forEach fun ssid _ =>
      keeps_parseSSID hP hcache hhistory env venueId radioMap _ ssid
  · exact Computation.keeps_pure P ()

theorem keeps_parseBody (env : Env F) (venueId : Str) (state : Document F) :
    Computation.Keeps P (parseBody env venueId state) := by
  refine Computation.keeps_bind (keeps_parseUnit hP.parts state) fun _ => ?_
  refine Computation.keeps_bind (Computation.keeps_modify fun w => hP.point w _ rfl) fun _ => ?_
  refine Computation.keeps_bind (keeps_parseRadios hP.parts state) fun radioMap => ?_
  refine Computation.keeps_bind (Computation.keeps_ofOption P _) fun interfaces => ?_
  refine Computation.keeps_bind (Computation.keeps_modify fun w => hP.info w _ rfl rfl) fun _ => ?_
  exact Computation.keeps_forEach fun interface _ =>
    keeps_parseInterface hP hcache hhistory env venueId radioMap interface

end Associations

end OwAnalytics.Ap
