/-
  OwAnalytics.Services.Registry

  The registry of the other services (`MicroService::BusMessageReceived` and
  `MicroService::GetServices`).  Services announce themselves on the bus when they
  join, from time to time, and when they leave; every message that is handled to its
  end closes with a sweep of the services that have not been heard of for two minutes.
  A value that cannot be converted throws, and the handler is over.
-/

import OwAnalytics.Boards.Handler
import OwAnalytics.Lib.Throwing

namespace OwAnalytics.Services

open Boards (Poco)
open Throwing

/-! ## The events of the bus -/

/-- `KafkaTopics::ServiceEvents`. -/
def EVENT_JOIN : Str := "join".toList

/-- The event of a service that leaves. -/
def EVENT_LEAVE : Str := "leave".toList

/-- The event of a service that is alive. -/
def EVENT_KEEP_ALIVE : Str := "keep-alive".toList

/-- The event that takes a token back. -/
def EVENT_REMOVE_TOKEN : Str := "remove-token".toList

/-- `Types::MicroServiceMeta`. -/
structure MicroServiceMeta where
  id : UInt64
  type : Str
  privateEndPoint : Str
  publicEndPoint : Str
  accessKey : Str
  version : Str
  lastUpdate : UInt64
deriving DecidableEq

/-- `Services_`, by private endpoint. -/
abbrev MicroServiceMetaMap := Std.ExtTreeMap Str MicroServiceMeta compare

/-- The registry, and the tokens `AuthClient::RemovedCachedToken` has been called with. -/
structure MicroService where
  services : MicroServiceMetaMap := ∅
  removedTokens : List Str := []

/-- `Poco::toLower`. -/
def toLower (s : Str) : Str := s.map Char.toLower

variable {F : Type}

/-- `Object::get`; the value of a field that is missing is empty. -/
def get (d : Document F) (field : String) : Document F := (d.find? field).getD .null

section Messages

variable (p : Poco F) (ID_ : UInt64) (d : Document F)

/-- A field as a string; one that is not there throws. -/
def text {σ : Type} (field : String) : Computation σ Str := .ofOption (p.toString (get d field))

/-- A join or a keep-alive, received at this time. -/
def serviceInfo {σ : Type} (id received : UInt64) : Computation σ MicroServiceMeta := do
  let type ← text p d "type"
  let privateEndPoint ← text p d "privateEndPoint"
  let publicEndPoint ← text p d "publicEndPoint"
  let accessKey ← text p d "key"
  let version ← text p d "version"
  return { id, type := toLower type, privateEndPoint, publicEndPoint, accessKey, version,
           lastUpdate := received }

/-- What is done about an event of the bus. -/
def handleEvent (received : UInt64) : Computation MicroService Unit := do
  let id ← .ofOption (p.toUInt64 (get d "id"))
  let event ← text p d "event"
  if id ≠ ID_ then
    if event = EVENT_JOIN ∨ event = EVENT_KEEP_ALIVE ∨ event = EVENT_LEAVE then
      if d.contains "type" ∧ d.contains "publicEndPoint" ∧ d.contains "privateEndPoint" ∧
          d.contains "version" ∧ d.contains "key" then
        let privateEndPoint ← text p d "privateEndPoint"
        if event = EVENT_LEAVE then
          .modify fun m => { m with services := m.services.erase privateEndPoint }
        else
          let info ← serviceInfo p d id received
          .modify fun m => { m with services := m.services.insert privateEndPoint info }
      else pure ()
    else if event = EVENT_REMOVE_TOKEN then
      if d.contains "token" then
        let token ← text p d "token"
        .modify fun m => { m with removedTokens := m.removedTokens ++ [token] }
      else pure ()
    else pure ()
  else pure ()

end Messages

/-- The loop over the services that erases the old ones; the difference is unsigned. -/
def sweepLoop (now : UInt64) :
    List (Str × MicroServiceMeta) → MicroServiceMetaMap → MicroServiceMetaMap
  | [], services => services
  | e :: rest, services =>
    if 120 < now - e.2.lastUpdate then sweepLoop now rest (services.erase e.1)
    else sweepLoop now rest services

/-- `BusMessageReceived`, of what the payload is parsed to (`none` if that throws), with the times
    at which the message is received and at which the services are swept. -/
def busMessageReceived (p : Poco F) (ID_ : UInt64) (payload : Option (Document F))
    (received now : UInt64) : Computation MicroService Unit := do
  match payload with
  | some (.obj fields) =>
    let d : Document F := .obj fields
    if d.contains "id" ∧ d.contains "event" then handleEvent p ID_ d received else pure ()
    .modify fun m => { m with services := sweepLoop now m.services.toList m.services }
  | _ => .ofOption none

/-- `GetServices`. -/
def getServices (m : MicroService) (type : Str) : List MicroServiceMeta :=
  (m.services.toList.map Prod.snd).filter fun info => info.type == toLower type

/-! ## The sweep -/

/-- The loop erases the entries that are too old and no other. -/
theorem getElem?_sweepLoop (now : UInt64) (entries : List (Str × MicroServiceMeta))
    (services : MicroServiceMetaMap) (k : Str) :
    (sweepLoop now entries services)[k]? =
      if ∃ e ∈ entries, e.1 = k ∧ 120 < now - e.2.lastUpdate then none else services[k]? := by
  induction entries generalizing services with
  | nil => simp [sweepLoop]
  | cons e rest ih =>
      rw [sweepLoop]
      simp only [List.mem_cons, exists_eq_or_imp]
      by_cases hold : 120 < now - e.2.lastUpdate
      · rw [if_pos hold, ih, Std.ExtTreeMap.getElem?_erase]
        by_cases hk : e.1 = k
        · rw [if_pos (Std.LawfulEqCmp.compare_eq_iff_eq.mpr hk), ite_self,
            if_pos (.inl ⟨hk, hold⟩)]
        · rw [if_neg (mt Std.LawfulEqCmp.compare_eq_iff_eq.mp hk)]
          simp only [hk, false_and, false_or]
      · rw [if_neg hold, ih]
        simp only [hold, and_false, false_or]

theorem getElem?_sweep (now : UInt64) (services : MicroServiceMetaMap) (k : Str) :
    (sweepLoop now services.toList services)[k]? =
      services[k]?.filter fun info => now - info.lastUpdate ≤ 120 := by
  have hentry : (∃ e ∈ services.toList, e.1 = k ∧ 120 < now - e.2.lastUpdate) ↔
      ∃ info, services[k]? = some info ∧ 120 < now - info.lastUpdate := by
    refine ⟨?_, ?_⟩
    · rintro ⟨⟨k', info⟩, hmem, rfl, hold⟩
      exact ⟨info, Std.ExtTreeMap.mem_toList_iff_getElem?_eq_some.mp hmem, hold⟩
    · rintro ⟨info, hinfo, hold⟩
      exact ⟨(k, info), Std.ExtTreeMap.mem_toList_iff_getElem?_eq_some.mpr hinfo, rfl, hold⟩
  rw [getElem?_sweepLoop]
  simp only [hentry]
  cases services[k]? with
  | none => simp
  | some info =>
      by_cases hold : 120 < now - info.lastUpdate
      · simp [Option.filter, hold, UInt64.not_le.mpr hold]
      · simp [Option.filter, hold, UInt64.not_lt.mp hold]

end OwAnalytics.Services
