/-
  OwAnalytics.Ap.Parse

  The try block of `AP::UpdateStats`: a state message is read into the device info of
  the `AP` and a new time point, and for each association a row of the client history
  and an entry of the client cache are made on the way.  A throw ends the block and
  leaves all of them as they are.
-/

import OwAnalytics.Ap.Cache
import OwAnalytics.Ap.Json
import OwAnalytics.Ap.Objects

namespace OwAnalytics.Ap

open Throwing Document

/-- What the handling of one message depends on besides the message. -/
structure Env (F : Type) where
  /-- `Utils::Now()`. -/
  now : UInt64
  /-- `MicroServiceCreateUUID()`. -/
  uuid : Str
  /-- `dump()`. -/
  dump : Document F → Str
  /-- What `operator[]` of a constant object reads for a key that is not there, of which the
      library promises nothing. -/
  missing : Document F

/-- What the try block writes to. -/
structure Work (F : Type) [Zero F] where
  /-- `DI_`. -/
  info : DeviceInfo F
  /-- `DTP`. -/
  point : DeviceTimePoint F := {}
  cache : WifiClientCache
  /-- The rows given to `WifiClientHistoryDB`. -/
  history : List WifiClientHistory := []

variable {F : Type} [Double F]

/-- A part of the try block. -/
abbrev Parse (F : Type) [Double F] (α : Type) := Computation (Work F) α

namespace Parse

/-- A change of the device info. -/
def setInfo (f : DeviceInfo F → DeviceInfo F) : Parse F Unit :=
  .modify fun w => { w with info := f w.info }

/-- A change of the point that is being made. -/
def setPoint (f : DeviceTimePoint F → DeviceTimePoint F) : Parse F Unit :=
  .modify fun w => { w with point := f w.point }

end Parse

open Parse

/-! ## Unit and radios -/

/-- The memory of the unit, with its percentage. -/
def parseMemory (memory : Document F) : Parse F Unit := do
  let freeMem ← .ofOption (getJSON getUInt64 "free" memory 0)
  let totalMem ← .ofOption (getJSON getUInt64 "total" memory 0)
  setPoint fun p =>
    { p with
      resourceData :=
        { memoryFree := getOptionalUInt64JSON "free" memory
          memoryTotal := getOptionalUInt64JSON "total" memory
          memoryCached := getOptionalUInt64JSON "cached" memory
          memoryBuffered := getOptionalUInt64JSON "buffered" memory } }
  setInfo fun i =>
    { i with
      memory :=
        if totalMem ≠ 0 then
          Double.ofUInt64 (totalMem - freeMem) / Double.ofUInt64 totalMem * Double.ofUInt64 100
        else 0 }

/-- The `unit` of a state message. -/
def parseUnit (state : Document F) : Parse F Unit :=
  match state.find? "unit" with
  | none => pure ()
  | some unit => do
      let lastState ← .ofOption (getJSON getUInt64 "localtime" unit 0)
      setInfo fun i => { i with lastState }
      let uptime ← .ofOption (getJSON getUInt64 "uptime" unit 0)
      setInfo fun i => { i with uptime }
      match unit.find? "memory" with
      | none => pure ()
      | some memory => parseMemory memory

/-- The number of a band, 2 for a text that is none. -/
def bandToInt (band : Str) : UInt64 :=
  if band = "2G".toList then 2
  else if band = "5G".toList then 5
  else if band = "6G".toList then 6
  else 2

/-- `radio_map`: the band and the channel of each radio by its number. -/
abbrev RadioMap := List (UInt32 × UInt32)

/-- The time point of a radio, and its entry in `radio_map`. -/
def radioTimePoint (radio : Document F) : Option (RadioTimePoint F × (UInt32 × UInt32)) := do
  let channel ← getJSON getUInt64 "channel" radio 2
  let band ←
    -- An empty list has no first entry to read; without a list the channel decides.
    match radio.array? "band" with
    | some [] => none
    | some (first :: _) => first.getString.map bandToInt
    | none => some (if channel ≤ 16 then 2 else 5)
  let busyMs ← getJSON getUInt64 "busy_ms" radio 0
  let receiveMs ← getJSON getUInt64 "receive_ms" radio 0
  let transmitMs ← getJSON getUInt64 "transmit_ms" radio 0
  let txPower ← getJSON getUInt64 "tx_power" radio 0
  let activeMs ← getJSON getUInt64 "active_ms" radio 0
  let entry := (band.toUInt32, channel.toUInt32)
  -- The channel is read a second time, with another default.
  let channel ← getJSON getUInt64 "channel" radio 0
  let channelWidth : UInt64 :=
    match radio.find? "channel_width" with
    | none | some .null => 0
    | some (.str c) => strtoull c
    | some (.unsigned n) => n
    | some (.integer n) => n.toUInt64
    -- Neither a text nor a number.
    | some _ => 20
  let noise ← getJSON getInt64 "noise" radio (-90)
  some
    ({ band
       channelWidth
       activeMs
       busyMs
       receiveMs
       transmitMs
       txPower
       channel
       temperature := getOptionalDoubleJSON "temperature" radio
       noise := if noise = 0 then -90 else noise }, entry)

/-- A radio with a channel is pushed, and its entry in `radio_map` returned. -/
def parseRadio (radio : Document F) : Parse F RadioMap :=
  if radio.contains "channel" then do
    let (rtp, entry) ← .ofOption (radioTimePoint radio)
    setPoint fun p => { p with radioData := p.radioData ++ [rtp] }
    return [entry]
  else return []

/-- The `radios` of a state message. -/
def parseRadios (state : Document F) : Parse F RadioMap :=
  match state.array? "radios" with
  | some radios => do
      let entries ← .mapEach radios parseRadio
      return entries.flatten
  | none => return []

/-! ## Interfaces -/

section Counters

variable (counters : Document F)

/-- `GetJSON` of one counter. -/
def parseCounter (field : String) (set : APTimePoint F → UInt64 → APTimePoint F) :
    Parse F Unit := do
  let n ← .ofOption (getJSON getUInt64 field counters 0)
  setPoint fun p => { p with apData := set p.apData n }

/-- The counters of an interface, in the order of the source. -/
def parseCounters : Parse F Unit := do
  parseCounter counters "collisions" fun a collisions => { a with collisions }
  parseCounter counters "multicast" fun a multicast => { a with multicast }
  parseCounter counters "rx_bytes" fun a rxBytes => { a with rxBytes }
  parseCounter counters "rx_dropped" fun a rxDropped => { a with rxDropped }
  parseCounter counters "rx_errors" fun a rxErrors => { a with rxErrors }
  parseCounter counters "rx_packets" fun a rxPackets => { a with rxPackets }
  parseCounter counters "tx_bytes" fun a txBytes => { a with txBytes }
  parseCounter counters "tx_dropped" fun a txDropped => { a with txDropped }
  parseCounter counters "tx_errors" fun a txErrors => { a with txErrors }
  parseCounter counters "tx_packets" fun a txPackets => { a with txPackets }

end Counters

/-- `InterfaceClientEntry`. -/
structure InterfaceClientEntry where
  ipv4Addresses : List Str := []
  ipv6Addresses : List Str := []

/-- `InterfaceClientEntryMap_t`. -/
abbrev InterfaceClientEntryMap := Str → Option InterfaceClientEntry

/-- The texts of an array, if the member is one. -/
def addresses (field : String) (client : Document F) : Option (List Str) :=
  match client.array? field with
  | some ips => ips.mapM getString
  | none => some []

/-- The addresses of a client are put down under its MAC. -/
def parseClient (client : Document F) : Computation InterfaceClientEntryMap Unit :=
  match client.find? "mac" with
  | some (.str mac) => do
      let ipv4Addresses ← .ofOption (addresses "ipv4_addresses" client)
      let ipv6Addresses ← .ofOption (addresses "ipv6_addresses" client)
      .modify fun icem =>
        Function.update icem (macFilter mac) (some { ipv4Addresses, ipv6Addresses })
  | _ => pure ()

/-- The clients of an interface, up to the first that throws. -/
def clients (interface : Document F) : InterfaceClientEntryMap :=
  match interface.array? "clients" with
  | some clients => (Computation.forEach clients parseClient).attempt fun _ => none
  | none => fun _ => none

/-- The number of the radio that `$ref` names, if it has three parts. -/
def radioRef (radio : Document F) : Option (Option UInt32) :=
  match radio.find? "$ref" with
  | none => some none
  | some ref => do
      match tokens (← ref.getString) '/' with
      | [_, _, part] => return some (strtol part).toUInt64.toUInt32
      | _ => return none

/-- The head of an SSID: its time point without associations, and `radio_location`. -/
def ssidHead (env : Env F) (radioMap : RadioMap) (ssid : Document F) :
    Option (SSIDTimePoint F × UInt32) := do
  let (band, channel, location) ←
    match ssid.find? "band", ssid.find? "radio" with
    | some band, radio => do
        let band := bandToInt (← band.getString)
        let location ← radioRef (radio.getD env.missing)
        let channel := (location.bind fun l => radioMap[l.toNat]?).map Prod.snd
        some (band, (channel.getD 0).toUInt64, location.getD 0)
    | none, some radio => do
        let location ← radioRef radio
        match location.bind fun l => radioMap[l.toNat]? with
        | some (band, channel) => some (band.toUInt64, channel.toUInt64, location.getD 0)
        | none => some (2, 0, location.getD 0)
    | none, none => some (2, 0, 0)
  let bssid ← getJSON getString "bssid" ssid []
  let mode ← getJSON getString "mode" ssid []
  let name ← getJSON getString "ssid" ssid []
  return ({ bssid, mode, ssid := name, band, channel }, location)

/-- `associations_2g += n` and its siblings. -/
def countAssociations (radioMap : RadioMap) (location : UInt32) (n : UInt64)
    (i : DeviceInfo F) : DeviceInfo F :=
  match radioMap[location.toNat]? with
  | some (2, _) => { i with associations2g := i.associations2g + n }
  | some (5, _) => { i with associations5g := i.associations5g + n }
  | some (6, _) => { i with associations6g := i.associations6g + n }
  | _ => i

/-! ## Associations -/

/-- What the rows of the associations of one SSID are made with. -/
structure SSIDContext (F : Type) [Zero F] where
  ssid : SSIDTimePoint F
  clients : InterfaceClientEntryMap
  radioData : List (RadioTimePoint F)
  venueId : Str

section Association

variable (env : Env F) (association : Document F)

/-- The time point of an association, but for its TID statistics and its rates. -/
def uePoint : Option (UETimePoint F) := do
  let station ← getJSON getString "station" association []
  let rssi ← getJSON getInt64 "rssi" association 0
  -- Absent byte counters are told from zero, unlike all others.
  let txBytes := getOptionalUInt64JSON "tx_bytes" association
  let rxBytes := getOptionalUInt64JSON "rx_bytes" association
  let txDuration ← getJSON getUInt64 "tx_duration" association 0
  let rxPackets ← getJSON getUInt64 "rx_packets" association 0
  let txPackets ← getJSON getUInt64 "tx_packets" association 0
  let txRetries ← getJSON getUInt64 "tx_retries" association 0
  let txFailed ← getJSON getUInt64 "tx_failed" association 0
  let connected ← getJSON getUInt64 "connected" association 0
  let inactive ← getJSON getUInt64 "inactive" association 0
  some
    { station
      rssi
      txBytesPresent := txBytes.isSome
      txBytes := txBytes.getD 0
      rxBytesPresent := rxBytes.isSome
      rxBytes := rxBytes.getD 0
      txDuration
      rxPackets
      txPackets
      txRetries
      txFailed
      connected
      inactive
      fingerprint := ((association.find? "fingerprint").map env.dump).getD [] }

/-- What of the row of the client history is read from the association a second time. -/
def historyFields : Option WifiClientHistory := do
  let rxBitrate ← getJSON₂ getUInt32 "rx_rate" "bitrate" association 0
  let rxChwidth ← getJSON₂ getUInt32 "rx_rate" "chwidth" association 0
  let rxMcs ← getJSON₂ getUInt16 "rx_rate" "mcs" association 0
  let rxNss ← getJSON₂ getUInt16 "rx_rate" "nss" association 0
  let rxVht ← getJSON₂ getBool "rx_rate" "vht" association false
  let txBitrate ← getJSON₂ getUInt32 "tx_rate" "bitrate" association 0
  let txChwidth ← getJSON₂ getUInt32 "tx_rate" "chwidth" association 0
  let txMcs ← getJSON₂ getUInt16 "tx_rate" "mcs" association 0
  let txNss ← getJSON₂ getUInt16 "tx_rate" "nss" association 0
  let txVht ← getJSON₂ getBool "tx_rate" "vht" association false
  let rxBytes ← getJSON getUInt64 "rx_bytes" association 0
  let txBytes ← getJSON getUInt64 "tx_bytes" association 0
  let rxDuration ← getJSON getUInt64 "rx_duration" association 0
  let txDuration ← getJSON getUInt64 "tx_duration" association 0
  let rxPackets ← getJSON getUInt64 "rx_packets" association 0
  let txPackets ← getJSON getUInt64 "tx_packets" association 0
  let ackSignal ← getJSON getInt64 "ack_signal" association 0
  let ackSignalAvg ← getJSON getInt64 "ack_signal_avg" association 0
  let connected ← getJSON getUInt64 "connected" association 0
  let inactive ← getJSON getUInt64 "inactive" association 0
  let txRetries ← getJSON getUInt64 "tx_retries" association 0
  some
    { timestamp := env.now
      rxBitrate
      rxChwidth
      rxMcs
      rxNss
      rxVht
      txBitrate
      txChwidth
      txMcs
      txNss
      txVht
      rxBytes
      txBytes
      rxDuration
      txDuration
      rxPackets
      txPackets
      ackSignal
      ackSignalAvg
      connected
      inactive
      txRetries }

/-- The row of the client history. -/
def historyRow (ctx : SSIDContext F) (tp : UETimePoint F) (fields : WifiClientHistory) :
    WifiClientHistory :=
  let client := (ctx.clients (macFilter tp.station)).getD {}
  let radio := (ctx.radioData.find? fun rd => rd.band == ctx.ssid.band).getD {}
  { fields with
    stationId := macFilter tp.station
    bssid := macFilter ctx.ssid.bssid
    ssid := ctx.ssid.ssid
    rssi := tp.rssi
    ipv4 := client.ipv4Addresses.headD []
    ipv6 := client.ipv6Addresses.headD []
    channelWidth := radio.channelWidth
    noise := radio.noise
    txPower := radio.txPower
    channel := radio.channel
    activeMs := radio.activeMs
    busyMs := radio.busyMs
    receiveMs := radio.receiveMs
    mode := ctx.ssid.mode
    venueId := ctx.venueId }

/-- An element of `tid_stats`. -/
def tidStat (d : Document F) : Option TidStatEntry := do
  let rxMsdu ← getJSON getUInt64 "rx_msdu" d 0
  let txMsdu ← getJSON getUInt64 "tx_msdu" d 0
  let txMsduFailed ← getJSON getUInt64 "tx_msdu_failed" d 0
  let txMsduRetries ← getJSON getUInt64 "tx_msdu_retries" d 0
  return { rxMsdu, txMsdu, txMsduFailed, txMsduRetries }

/-- `tx_rate` or `rx_rate` of an association. -/
def ueRate (field : String) : Option UERate :=
  match association.find? field with
  | none => some {}
  | some rate => do
      let bitrate ← getJSON getUInt64 "bitrate" rate 0
      let mcs ← getJSON getUInt64 "mcs" rate 0
      let nss ← getJSON getUInt64 "nss" rate 0
      let chwidth ← getJSON getUInt64 "chwidth" rate 0
      let ht ← getJSON getBool "ht" rate false
      let sgi ← getJSON getBool "sgi" rate false
      return { bitrate, mcs, nss, chwidth, ht, sgi }

/-- The TID statistics and the rates, which are read after the row is given away. -/
def ueRest : Option (List TidStatEntry × UERate × UERate) := do
  let tidstats ←
    match association.array? "tid_stats" with
    | some stats => stats.mapM tidStat
    | none => some []
  let txRate ← ueRate association "tx_rate"
  let rxRate ← ueRate association "rx_rate"
  return (tidstats, txRate, rxRate)

/-- An association: its point, its row of the history, and its number in the cache. -/
def parseAssociation (ctx : SSIDContext F) : Parse F (UETimePoint F) := do
  let tp ← .ofOption (uePoint env association)
  let fields ← .ofOption (historyFields env association)
  .within Work.cache (fun w cache => { w with cache })
    (WifiClientCache.addSerialNumber ctx.venueId (historyRow ctx tp fields).stationId)
  .modify fun w => { w with history := w.history ++ [historyRow ctx tp fields] }
  let (tidstats, txRate, rxRate) ← .ofOption (ueRest association)
  return { tp with tidstats, txRate, rxRate }

end Association

/-! ## The whole message -/

/-- The associations of an SSID, each counted for its radio before any is read. -/
def parseAssociations (env : Env F) (venueId : Str) (radioMap : RadioMap)
    (clients : InterfaceClientEntryMap) (head : SSIDTimePoint F) (location : UInt32)
    (ssid : Document F) : Parse F (List (UETimePoint F)) :=
  match ssid.array? "associations" with
  | none => pure []
  | some items => do
      setInfo (countAssociations radioMap location (UInt64.ofNat items.length))
      let w ← .get
      .mapEach items fun association =>
        parseAssociation env association
          { ssid := head, clients, radioData := w.point.radioData, venueId }

/-- An SSID; if one of its associations throws, it leaves no entry. -/
def parseSSID (env : Env F) (venueId : Str) (radioMap : RadioMap)
    (clients : InterfaceClientEntryMap) (ssid : Document F) : Parse F Unit := do
  let (head, location) ← .ofOption (ssidHead env radioMap ssid)
  let associations ← parseAssociations env venueId radioMap clients head location ssid
  setPoint fun p => { p with ssidData := p.ssidData ++ [{ head with associations }] }

/-- The `counters` of an interface, if it has them. -/
def parseInterfaceCounters (interface : Document F) : Parse F Unit :=
  match interface.find? "counters" with
  | some counters => parseCounters counters
  | none => pure ()

/-- The `ssids` of an interface, if it has them. -/
def parseSSIDs (env : Env F) (venueId : Str) (radioMap : RadioMap) (interface : Document F) :
    Parse F Unit :=
  match interface.find? "ssids" with
  | some ssids =>
      .forEach ssids.elements (parseSSID env venueId radioMap (clients interface))
  | none => pure ()

/-- An interface of the state message. -/
def parseInterface (env : Env F) (venueId : Str) (radioMap : RadioMap) (interface : Document F) :
    Parse F Unit := do
  parseInterfaceCounters interface
  parseSSIDs env venueId radioMap interface

/-- `operator[]` of the message: an object and null take a key that is not there. -/
def subscript (d : Document F) (field : String) : Option (Document F) :=
  match d with
  | .obj _ => some ((d.find? field).getD .null)
  | .null => some .null
  | _ => none

/-- The try block, up to its last statement. -/
def parseBody (env : Env F) (venueId : Str) (state : Document F) : Parse F Unit := do
  parseUnit state
  .modify fun w => { w with point := { w.point with timestamp := w.info.lastState } }
  let radioMap ← parseRadios state
  let interfaces ← .ofOption (subscript state "interfaces")
  setInfo fun i => { i with associations2g := 0, associations5g := 0, associations6g := 0 }
  .forEach interfaces.elements (parseInterface env venueId radioMap)

/-- The try block. -/
def parse (env : Env F) (venueId : Str) (state : Document F) : Parse F Unit := do
  parseBody env venueId state
  .modify fun w => { w with point := { w.point with deviceInfo := w.info } }

end OwAnalytics.Ap
