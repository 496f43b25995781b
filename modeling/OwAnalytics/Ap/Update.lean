/-
  OwAnalytics.Ap.Update

  `AP::UpdateStats`, `AP::UpdateConnection` and `AP::UpdateHealth`: the device info,
  the three flags and the base of an `AP`, and what a message has it store.
-/

import OwAnalytics.Ap.Parse
import OwAnalytics.Ap.Point

namespace OwAnalytics.Ap

open Throwing Document

/-- `AP`. -/
structure AP (F : Type) [Zero F] where
  venueId : Str
  boardId : Str
  /-- `DI_`. -/
  info : DeviceInfo F
  /-- `tp_base_`. -/
  base : DeviceTimePoint F := {}
  gotHealth : Bool := false
  gotConnection : Bool := false
  gotBase : Bool := false

/-- What a message is given to store, besides the client history. -/
structure Stored (F : Type) [Zero F] where
  timePoint : Option (DeviceTimePoint F) := none
  event : Option DeviceAvailabilityEvent := none

variable {F : Type} [Double F]

namespace AP

/-! ## State messages -/

/-- The state of the try block where it begins. -/
def begin (ap : AP F) (cache : WifiClientCache) : Work F :=
  { info := { ap.info with states := ap.info.states + 1, connected := true }, cache }

/-- The try block on a state message: its result and what it leaves. -/
def parsed (env : Env F) (cache : WifiClientCache) (ap : AP F) (state : Document F) :
    Option Unit × Work F :=
  parse env ap.venueId state (ap.begin cache)

/-- The point that is stored for the data of a state message, if one is. -/
def toStore (env : Env F) (ap : AP F) (dtp : DeviceTimePoint F) : Option (DeviceTimePoint F) :=
  if ap.gotBase ∧ ap.gotConnection ∧ ap.gotHealth then
    some
      { newPoint ap.base dtp with
        id := env.uuid
        boardId := ap.boardId
        venueId := ap.venueId
        serialNumber := dtp.deviceInfo.serialNumber }
  else none

/-- `UpdateStats`, with the cache and the rows of the client history it leaves.  What the try
    block has left is used whether it has thrown or not. -/
def updateStats (env : Env F) (cache : WifiClientCache) (ap : AP F) (state : Document F) :
    AP F × Stored F × Work F :=
  let work := (ap.parsed env cache state).2
  ({ ap with info := work.info, base := work.point, gotBase := true },
    { timePoint := ap.toStore env work.point }, work)

/-! ## Connection messages -/

/-- `if (d.contains("firmware")) ...`; a firmware that is not a string is compared and throws
    where it is assigned. -/
def readFirmware (env : Env F) (d : Document F) : Computation (AP F) Unit :=
  match d.find? "firmware" with
  | none => pure ()
  | some (.str firmware) =>
      .modify fun ap =>
        if firmware = ap.info.lastFirmware then ap
        else
          { ap with
            info := { ap.info with lastFirmware := firmware, lastFirmwareUpdate := env.now } }
  | some _ => .ofOption none

/-- `GetJSON` into a string of `DI_`. -/
def readString (d : Document F) (field : String) (set : DeviceInfo F → Str → DeviceInfo F) :
    Computation (AP F) Unit := do
  let s ← .ofOption (getJSON getString field d [])
  .modify fun ap => { ap with info := set ap.info s }

/-- `BuildAvailabilityIdempotencyKey`. -/
def buildAvailabilityIdempotencyKey (serialNumber : Str) (disconnection : Document F)
    (eventTime : UInt64) : Str :=
  let sourceEventId := getOptionalStringJSON "uuid" disconnection
  if sourceEventId ≠ [] then
    "availability:".toList ++ serialNumber ++ ":offline:uuid:".toList ++ sourceEventId
  else
    "availability:".toList ++ serialNumber ++ ":offline:timestamp:".toList ++
      (toString eventTime.toNat).toList

/-- `PersistOfflineAvailabilityTransition`: the event that is given to the storage, if one is;
    `none` for an exception. -/
def offlineTransition (env : Env F) (boardId : Str) (device : DeviceInfo F)
    (disconnection : Document F) : Option (Option DeviceAvailabilityEvent) :=
  if !device.connected then some none
  else do
    let eventTime ← getJSON getUInt64 "timestamp" disconnection 0
    if eventTime = 0 then some none
    else
      let connectionIp := getOptionalStringJSON "connectionIp" disconnection
      let sessionId := getOptionalStringJSON "session_id" disconnection
      some (some
        { id := env.uuid
          boardId
          serialNumber := device.serialNumber
          eventType := "offline".toList
          eventTime
          reason := getOptionalStringJSON "reason" disconnection
          connectionIp := if connectionIp = [] then device.connectionIp else connectionIp
          sessionId :=
            if sessionId = [] then getOptionalStringJSON "sessionId" disconnection else sessionId
          eventId := getOptionalStringJSON "uuid" disconnection
          idempotencyKey :=
            buildAvailabilityIdempotencyKey device.serialNumber disconnection eventTime })

/-- The `ping` of a connection message. -/
def ping (env : Env F) (d : Document F) : Computation (AP F) (Option DeviceAvailabilityEvent) := do
  .modify fun ap =>
    { ap with
      gotConnection := true, info := { ap.info with connected := true, lastPing := env.now } }
  readString d "compatible" fun i deviceType => { i with deviceType }
  readString d "platform" fun i platform => { i with platform }
  readString d "connectionIp" fun i connectionIp => { i with connectionIp }
  readString d "locale" fun i locale => { i with locale }
  let lastConnection ← .ofOption (getJSON getUInt64 "timestamp" d env.now)
  .modify fun ap => { ap with info := { ap.info with lastConnection } }
  readFirmware env d
  return none

/-- The `disconnection` of a connection message. -/
def disconnection (env : Env F) (d : Document F) :
    Computation (AP F) (Option DeviceAvailabilityEvent) := do
  let lastDisconnection ← .ofOption (getJSON getUInt64 "timestamp" d 0)
  .modify fun ap => { ap with info := { ap.info with lastDisconnection } }
  let ap ← .get
  let event ← .ofOption (offlineTransition env ap.boardId ap.info d)
  .modify fun ap =>
    { ap with
      gotBase := false
      gotHealth := false
      gotConnection := false
      info := { ap.info with connected := false } }
  return event

/-- The `capabilities` of a connection message. -/
def capabilities (env : Env F) (d : Document F) :
    Computation (AP F) (Option DeviceAvailabilityEvent) := do
  .modify fun ap =>
    { ap with
      gotConnection := true
      info := { ap.info with connected := true, lastConnection := env.now } }
  readString d "compatible" fun i deviceType => { i with deviceType }
  readString d "platform" fun i platform => { i with platform }
  readFirmware env d
  readString d "connectionIp" fun i connectionIp => { i with connectionIp }
  readString d "locale" fun i locale => { i with locale }
  return none

/-- The try block of `UpdateConnection`. -/
def connection (env : Env F) (d : Document F) :
    Computation (AP F) (Option DeviceAvailabilityEvent) :=
  match d.find? "ping", d.find? "disconnection", d.find? "capabilities" with
  | some d, _, _ => ping env d
  | none, some d, _ => disconnection env d
  | none, none, some d => capabilities env d
  | none, none, none => return none

/-- `AP::UpdateConnection`. -/
def updateConnection (env : Env F) (ap : AP F) (d : Document F) : AP F × Stored F :=
  let ap := { ap with info := { ap.info with pings := ap.info.pings + 1, lastContact := env.now } }
  let (event, ap) := connection env d ap
  (ap, { event := event.join })

/-! ## Health messages -/

/-- The try block of `UpdateHealth`. -/
def health (d : Document F) : Computation (AP F) Unit := do
  .modify fun ap => { ap with gotHealth := true }
  let lastHealth ← .ofOption (getJSON getUInt64 "timestamp" d 0)
  .modify fun ap => { ap with info := { ap.info with lastHealth } }
  let health ← .ofOption (getJSON getUInt64 "sanity" d 0)
  .modify fun ap => { ap with info := { ap.info with health } }

/-- `AP::UpdateHealth`. -/
def updateHealth (ap : AP F) (d : Document F) : AP F := (health d).attempt ap

/-! ## What a message keeps -/

/-- The property has no part in the device info, but for its serial number. -/
def InfoFree (P : AP F → Prop) : Prop :=
  ∀ ap i, i.serialNumber = ap.info.serialNumber → P ap → P { ap with info := i }

/-- The property has no part in the device info, but for its serial number and whether the device
    is connected. -/
def DeviceFree (P : AP F → Prop) : Prop :=
  ∀ ap i, i.serialNumber = ap.info.serialNumber → i.connected = ap.info.connected → P ap →
    P { ap with info := i }

theorem InfoFree.deviceFree {P : AP F → Prop} (h : InfoFree P) : DeviceFree P :=
  fun ap i hserial _ => h ap i hserial

section Keeps

variable {P : AP F → Prop} (hP : DeviceFree P)

include hP

theorem keeps_setInfo {f : DeviceInfo F → DeviceInfo F}
    (hf : ∀ i, (f i).serialNumber = i.serialNumber ∧ (f i).connected = i.connected) :
    Computation.Keeps P (.modify fun ap => { ap with info := f ap.info }) :=
  Computation.keeps_modify fun ap hap => hP ap _ (hf ap.info).1 (hf ap.info).2 hap

theorem keeps_readString (d : Document F) (field : String)
    {set : DeviceInfo F → Str → DeviceInfo F}
    (hset : ∀ i s, (set i s).serialNumber = i.serialNumber ∧
      (set i s).connected = i.connected) :
    Computation.Keeps P (readString d field set) :=
  Computation.keeps_bind (Computation.keeps_ofOption P _) fun s =>
    keeps_setInfo hP fun i => hset i s

theorem keeps_readFirmware (env : Env F) (d : Document F) :
    Computation.Keeps P (readFirmware env d) := by
  unfold readFirmware
  split
  · exact Computation.keeps_pure P ()
  · refine Computation.keeps_modify fun ap hap => ?_
    dsimp only
    split
    · exact hap
    · exact hP ap _ rfl rfl hap
  · exact Computation.keeps_ofOption P _

/-- A ping keeps what holds with the connection flag set and the device connected. -/
theorem keeps_ping (env : Env F) (d : Document F) {ap : AP F}
    (hap : P { ap with gotConnection := true, info := { ap.info with connected := true } }) :
    P (ping env d ap).2 := by
  unfold ping
  rw [Computation.bind_of_some (Computation.modify_apply _ _)]
  have hstart : P
      { ap with
        gotConnection := true, info := { ap.info with connected := true, lastPing := env.now } } :=
    hP { ap with gotConnection := true, info := { ap.info with connected := true } }
      { ap.info with connected := true, lastPing := env.now } rfl rfl hap
  refine Computation.keeps_bind (keeps_readString hP d _ fun _ _ => ⟨by rfl, by rfl⟩) (fun _ => ?_)
    _ hstart
  refine Computation.keeps_bind (keeps_readString hP d _ fun _ _ => ⟨by rfl, by rfl⟩) fun _ => ?_
  refine Computation.keeps_bind (keeps_readString hP d _ fun _ _ => ⟨by rfl, by rfl⟩) fun _ => ?_
  refine Computation.keeps_bind (keeps_readString hP d _ fun _ _ => ⟨by rfl, by rfl⟩) fun _ => ?_
  refine Computation.keeps_bind (Computation.keeps_ofOption P _) fun lastConnection => ?_
  refine Computation.keeps_bind
    (keeps_setInfo (f := fun i => { i with lastConnection }) hP fun _ => ⟨rfl, rfl⟩) fun _ => ?_
  exact Computation.keeps_bind (keeps_readFirmware hP env d) fun _ => Computation.keeps_pure P _

theorem keeps_capabilities (env : Env F) (d : Document F) {ap : AP F}
    (hap : P { ap with gotConnection := true, info := { ap.info with connected := true } }) :
    P (capabilities env d ap).2 := by
  unfold capabilities
  rw [Computation.bind_of_some (Computation.modify_apply _ _)]
  have hstart : P
      { ap with
        gotConnection := true
        info := { ap.info with connected := true, lastConnection := env.now } } :=
    hP { ap with gotConnection := true, info := { ap.info with connected := true } }
      { ap.info with connected := true, lastConnection := env.now } rfl rfl hap
  refine Computation.keeps_bind (keeps_readString hP d _ fun _ _ => ⟨by rfl, by rfl⟩) (fun _ => ?_)
    _ hstart
  refine Computation.keeps_bind (keeps_readString hP d _ fun _ _ => ⟨by rfl, by rfl⟩) fun _ => ?_
  refine Computation.keeps_bind (keeps_readFirmware hP env d) fun _ => ?_
  refine Computation.keeps_bind (keeps_readString hP d _ fun _ _ => ⟨by rfl, by rfl⟩) fun _ => ?_
  exact Computation.keeps_bind (keeps_readString hP d _ fun _ _ => ⟨by rfl, by rfl⟩) fun _ =>
    Computation.keeps_pure P _

omit hP in
/-- A property without the flags is kept by every connection message. -/
theorem keeps_connection (hP : InfoFree P)
    (hflags : ∀ ap health connection base, P ap →
      P { ap with gotHealth := health, gotConnection := connection, gotBase := base })
    (env : Env F) (d : Document F) : Computation.Keeps P (connection env d) := by
  intro ap hap
  have hgot : P
      { ap with gotConnection := true, info := { ap.info with connected := true } } :=
    hP { ap with gotConnection := true } { ap.info with connected := true } rfl
      (hflags ap ap.gotHealth true ap.gotBase hap)
  unfold connection
  cases d.find? "ping" with
  | some ping => exact keeps_ping hP.deviceFree env ping hgot
  | none =>
      cases d.find? "disconnection" with
      -- The reset of the flags is the last assignment of a disconnection.
      | some dis =>
          refine Computation.keeps_bind (Computation.keeps_ofOption P _)
            (fun lastDisconnection => ?_) _ hap
          refine Computation.keeps_bind (keeps_setInfo (f := fun i => { i with lastDisconnection })
            hP.deviceFree fun _ => ⟨rfl, rfl⟩) fun _ => ?_
          refine Computation.keeps_bind (Computation.keeps_get P) fun _ => ?_
          refine Computation.keeps_bind (Computation.keeps_ofOption P _) fun _ => ?_
          refine Computation.keeps_bind (Computation.keeps_modify fun ap hap => ?_) fun _ =>
            Computation.keeps_pure P _
          exact hP { ap with gotHealth := false, gotConnection := false, gotBase := false }
            { ap.info with connected := false } rfl (hflags ap false false false hap)
      | none =>
          cases d.find? "capabilities" with
          | some capabilities => exact keeps_capabilities hP.deviceFree env capabilities hgot
          | none => exact hap

/-- A property without the health flag is kept by every health message. -/
theorem keeps_health (hhealth : ∀ ap, P ap → P { ap with gotHealth := true }) (d : Document F) :
    Computation.Keeps P (health d) := by
  refine Computation.keeps_bind (Computation.keeps_modify hhealth) fun _ => ?_
  refine Computation.keeps_bind (Computation.keeps_ofOption P _) fun lastHealth => ?_
  refine Computation.keeps_bind
    (keeps_setInfo (f := fun i => { i with lastHealth }) hP fun _ => ⟨rfl, rfl⟩) fun _ => ?_
  exact Computation.keeps_bind (Computation.keeps_ofOption P _) fun health =>
    keeps_setInfo (f := fun i => { i with health }) hP fun _ => ⟨rfl, rfl⟩

end Keeps

end AP

/-! ## Runs -/

/-- The loop of `Utils::IntToSerialNumber`: the last hexadecimal digits of a number. -/
def serialDigits : Nat → UInt64 → Str → Str
  | 0, _, digits => digits
  | i + 1, s, digits =>
      let b := (s &&& 0x0f).toNat
      let digit := if b < 10 then Char.ofNat (b + '0'.toNat) else Char.ofNat (b - 10 + 'a'.toNat)
      serialDigits i (s >>> 4) (digit :: digits)

/-- `Utils::IntToSerialNumber`. -/
def intToSerialNumber (s : UInt64) : Str := serialDigits 12 s []

theorem length_serialDigits (i : Nat) (s : UInt64) (digits : Str) :
    (serialDigits i s digits).length = i + digits.length := by
  induction i generalizing s digits with
  | zero => simp [serialDigits]
  | succ i ih =>
      rw [serialDigits, ih, List.length_cons]
      omega

theorem intToSerialNumber_ne_nil (s : UInt64) : intToSerialNumber s ≠ [] := by
  intro hnil
  have hlength := length_serialDigits 12 s []
  rw [show serialDigits 12 s [] = [] from hnil] at hlength
  exact absurd hlength (by decide)

/-- The messages that an access point is given. -/
inductive Message (F : Type)
  | state (d : Document F)
  | connection (d : Document F)
  | health (d : Document F)

/-- A message as it is handled: with the time, the ids and the cache of that moment. -/
structure Delivery (F : Type) where
  message : Message F
  env : Env F
  cache : WifiClientCache

namespace AP

/-- One message. -/
def deliver (ap : AP F) (x : Delivery F) : AP F × Stored F :=
  match x.message with
  | .state d => ((ap.updateStats x.env x.cache d).1, (ap.updateStats x.env x.cache d).2.1)
  | .connection d => ap.updateConnection x.env d
  | .health d => (ap.updateHealth d, {})

/-- The `AP` after a sequence of messages. -/
def after (ap : AP F) (xs : List (Delivery F)) : AP F := xs.foldl (fun ap x => (ap.deliver x).1) ap

@[simp] theorem after_nil (ap : AP F) : ap.after [] = ap := rfl

theorem after_concat (ap : AP F) (xs : List (Delivery F)) (x : Delivery F) :
    ap.after (xs ++ [x]) = ((ap.after xs).deliver x).1 := by
  rw [after, List.foldl_append]
  rfl

/-- An `AP` that has not got a message yet. -/
def create (mac : UInt64) (venueId boardId : Str) : AP F :=
  { venueId, boardId, info := { serialNumber := intToSerialNumber mac } }

end AP

end OwAnalytics.Ap
