/-
  OwAnalytics.Services.Announcements

  The messages with which a service announces itself
  (`MicroService::MakeSystemEventMessage`), and what the others read in them
  (`MicroService::BusMessageReceived`): exactly what the service is.
-/

import OwAnalytics.Services.RegistryHistory
import OwAnalytics.Storage.JsonReading
import OwAnalytics.Storage.JsonText

namespace OwAnalytics.Services

open Boards (Poco)
open Document Expiry Throwing

variable {F : Type}

/-- What a service knows of itself. -/
structure Identity where
  id : UInt64
  daemonAppName : Str
  myPublicEndPoint : Str
  myPrivateEndPoint : Str
  myHash : Str
  version : Str

namespace Identity

/-- The fields `MakeSystemEventMessage` sets, in the order of the source. -/
def eventFields (svc : Identity) (type : Str) : List (String × Document F) :=
  [("event", .str type),
    ("id", .unsigned svc.id),
    ("type", .str (toLower svc.daemonAppName)),
    ("publicEndPoint", .str svc.myPublicEndPoint),
    ("privateEndPoint", .str svc.myPrivateEndPoint),
    ("key", .str svc.myHash),
    ("version", .str svc.version)]

/-- `MakeSystemEventMessage`. -/
def makeSystemEventMessage (L : JsonLibrary F) (svc : Identity) (type : Str) : Str :=
  L.stringify (object (svc.eventFields type))

/-- The service as the others put it down, when they hear of it. -/
def toMeta (svc : Identity) (received : UInt64) : MicroServiceMeta where
  id := svc.id
  type := toLower svc.daemonAppName
  privateEndPoint := svc.myPrivateEndPoint
  publicEndPoint := svc.myPublicEndPoint
  accessKey := svc.myHash
  version := svc.version
  lastUpdate := received

/-- What a message of a service is a report of: nothing of one's own. -/
def reportOf (svc : Identity) (ID_ : UInt64) (type : Str) (received : UInt64) :
    Option (Report Str MicroServiceMeta) :=
  if svc.id = ID_ then none
  else some (svc.myPrivateEndPoint, if type = EVENT_LEAVE then none else some (svc.toMeta received))

end Identity

/-! ## Reading an announcement -/

/-- What is read of the fields of a document that a service has made. -/
structure Tells (p : Poco F) (svc : Identity) (type : Str) (d : Document F) : Prop where
  id : (d.find? "id").bind p.toUInt64 = some svc.id
  event : textOf p d "event" = some type
  type : textOf p d "type" = some (toLower svc.daemonAppName)
  publicEndPoint : textOf p d "publicEndPoint" = some svc.myPublicEndPoint
  privateEndPoint : textOf p d "privateEndPoint" = some svc.myPrivateEndPoint
  accessKey : textOf p d "key" = some svc.myHash
  version : textOf p d "version" = some svc.version

section Tells

variable {p : Poco F} {svc : Identity} {type : Str} {d : Document F}

theorem contains_of_textOf {field : String} {s : Str} (hs : textOf p d field = some s) :
    d.contains field = true := by
  obtain ⟨v, hv, -⟩ := Option.bind_eq_some_iff.mp hs
  rw [Document.contains, hv]
  rfl

variable (h : Tells p svc type d)
include h

theorem Tells.hasFields : HasFields d :=
  ⟨contains_of_textOf h.type, contains_of_textOf h.publicEndPoint,
    contains_of_textOf h.privateEndPoint, contains_of_textOf h.version,
    contains_of_textOf h.accessKey⟩

theorem Tells.info? (received : UInt64) :
    info? p d svc.id received = some (svc.toMeta received) := by
  rw [Services.info?, h.type, h.privateEndPoint, h.publicEndPoint, h.accessKey, h.version]
  show some (MicroServiceMeta.mk _ (toLower (toLower svc.daemonAppName)) _ _ _ _ _) = _
  rw [toLower_toLower]
  rfl

/-- The others put the service down, or take it away if it leaves. -/
theorem Tells.announced (ID_ : UInt64)
    (hkind : type = EVENT_JOIN ∨ type = EVENT_KEEP_ALIVE ∨ type = EVENT_LEAVE)
    (received : UInt64) : announced p ID_ d received = svc.reportOf ID_ type received := by
  rw [Services.announced, h.id, h.event, Identity.reportOf]
  simp only [Option.bind_eq_bind, Option.bind_some]
  by_cases hown : svc.id = ID_
  · rw [if_neg (fun hother => hother.1 hown), if_pos hown]
  · rw [if_pos ⟨hown, hkind, h.hasFields⟩, if_neg hown, h.privateEndPoint, Option.bind_some]
    split
    · rfl
    · rw [h.info?]
      rfl

theorem Tells.reads (ID_ : UInt64)
    (hkind : type = EVENT_JOIN ∨ type = EVENT_KEEP_ALIVE ∨ type = EVENT_LEAVE)
    (received : UInt64) : Reads p ID_ d received := by
  rw [reads_iff p ID_ h.id h.event]
  refine ⟨fun _ _ _ => ⟨?_, fun _ => ?_⟩, fun _ hremove => absurd hremove (ne_removeToken hkind)⟩
  · rw [h.privateEndPoint]
    exact Option.some_ne_none _
  · rw [h.info?]
    exact Option.some_ne_none _

end Tells

/-- What is read of an announcement is an object that tells of the service. -/
theorem parse_makeSystemEventMessage {L : JsonLibrary F} (hL : L.Inverts) (svc : Identity)
    (type : Str) :
    ∃ members, L.parse (svc.makeSystemEventMessage L type) = some (.obj members) ∧
      Tells L.toPoco svc type (.obj members) := by
  have hordered : ∀ e ∈ svc.eventFields (F := F) type, e.2.Ordered := by
    simp only [Identity.eventFields, List.mem_cons, List.not_mem_nil, or_false, forall_eq_or_imp,
      forall_eq]
    exact ⟨.str _, .unsigned _, .str _, .str _, .str _, .str _, .str _⟩
  have hparse := hL.parse_stringify (Ordered.object hordered)
  have hkeys : ((svc.eventFields (F := F) type).map Prod.fst).Nodup := by
    simp [Identity.eventFields]
  have hfind := JsonLibrary.find?_reread (L := L) rfl (List.Subset.refl _) hkeys
  simp only [Identity.eventFields, List.mem_cons, List.not_mem_nil, or_false, forall_eq_or_imp,
    forall_eq] at hfind
  obtain ⟨hevent, hid, htype, hpublic, hprivate, hkey, hversion⟩ := hfind
  -- a string is read back as it was written
  have htext : ∀ {field : String} {s : Str} {d : Document F},
      d.find? field = some (L.reread (.str s)) → textOf L.toPoco d field = some s := by
    intro field s d hd
    rw [textOf, hd]
    rfl
  refine ⟨_, hparse, ?_, htext hevent, htext htype, htext hpublic, htext hprivate, htext hkey,
    htext hversion⟩
  exact (congrArg (Option.bind · L.toPoco.toUInt64) hid).trans (hL.uint64_unsigned svc.id)

/-- What a service announces, the others put down: the message goes through the text and comes
    out as the service is, and one's own is passed over. -/
theorem receive_announcement {L : JsonLibrary F} (hL : L.Inverts) (svc : Identity) (ID_ : UInt64)
    {type : Str} (hkind : type = EVENT_JOIN ∨ type = EVENT_KEEP_ALIVE ∨ type = EVENT_LEAVE)
    (received now : UInt64) (s : MicroService) :
    contents ((receive L.toPoco ID_
        { payload := L.parse (svc.makeSystemEventMessage L type), received, now }).attempt s)
      = fresh now (put (contents s) (svc.reportOf ID_ type received)) := by
  obtain ⟨members, hparse, htells⟩ := parse_makeSystemEventMessage hL svc type
  rw [hparse]
  rcases receive_spec L.toPoco ID_ { payload := some (.obj members), received, now } s with
    ⟨-, -, hnot⟩ | ⟨s', hs', hcontents, -⟩
  · exact absurd (fun _ _ => htells.reads ID_ hkind received) hnot
  · rw [Computation.attempt, hs', hcontents]
    show fresh now (put _ (announced L.toPoco ID_ (.obj members) received)) = _
    rw [htells.announced ID_ hkind]

end OwAnalytics.Services
