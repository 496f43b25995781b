/-
  OwAnalytics.Storage.TimePointJson

  A time point as a row of its table: `to_json` and `from_json` of the records of
  `RESTAPI_AnalyticsObjects.cpp` that a `DeviceTimePoint` is made of, and the two
  conversions of `storage_timepoints.cpp`.  A `from_json` that throws keeps what it
  has read and answers so; the conversions do not look at its answer.
-/

import OwAnalytics.Ap.Objects
import OwAnalytics.Storage.JsonFields

namespace OwAnalytics.Ap

open Boards Document

variable {F : Type} [Zero F] (L : JsonLibrary F)

/-! ## Device information -/

/-- `DeviceInfo::to_json`. -/
def DeviceInfo.toJson (i : DeviceInfo F) : Document F :=
  object
    [("boardId", .str i.boardId), ("type", .str i.type), ("serialNumber", .str i.serialNumber),
      ("deviceType", .str i.deviceType), ("platform", .str i.platform),
      ("lastContact", .unsigned i.lastContact), ("lastPing", .unsigned i.lastPing),
      ("lastState", .unsigned i.lastState), ("lastFirmware", .str i.lastFirmware),
      ("lastFirmwareUpdate", .unsigned i.lastFirmwareUpdate),
      ("lastConnection", .unsigned i.lastConnection),
      ("lastDisconnection", .unsigned i.lastDisconnection), ("pings", .unsigned i.pings),
      ("states", .unsigned i.states), ("connected", .bool i.connected),
      ("connectionIp", .str i.connectionIp), ("associations_2g", .unsigned i.associations2g),
      ("associations_5g", .unsigned i.associations5g),
      ("associations_6g", .unsigned i.associations6g), ("health", .unsigned i.health),
      ("lastHealth", .unsigned i.lastHealth), ("locale", .str i.locale),
      ("uptime", .unsigned i.uptime), ("memory", .float i.memory)]

/-- `DeviceInfo::from_json`. -/
def DeviceInfo.fromJson (i : DeviceInfo F) (d : Document F) : DeviceInfo F :=
  (inTurn
    [stringFromJson L.toPoco d "boardId" fun i boardId => { i with boardId },
      stringFromJson L.toPoco d "type" fun i type => { i with type },
      stringFromJson L.toPoco d "serialNumber" fun i serialNumber => { i with serialNumber },
      stringFromJson L.toPoco d "deviceType" fun i deviceType => { i with deviceType },
      stringFromJson L.toPoco d "platform" fun i platform => { i with platform },
      uint64FromJson L.toPoco d "lastContact" fun i lastContact => { i with lastContact },
      uint64FromJson L.toPoco d "lastPing" fun i lastPing => { i with lastPing },
      uint64FromJson L.toPoco d "lastState" fun i lastState => { i with lastState },
      stringFromJson L.toPoco d "lastFirmware" fun i lastFirmware => { i with lastFirmware },
      uint64FromJson L.toPoco d "lastFirmwareUpdate" fun i lastFirmwareUpdate =>
        { i with lastFirmwareUpdate },
      uint64FromJson L.toPoco d "lastConnection" fun i lastConnection => { i with lastConnection },
      uint64FromJson L.toPoco d "lastDisconnection" fun i lastDisconnection =>
        { i with lastDisconnection },
      uint64FromJson L.toPoco d "pings" fun i pings => { i with pings },
      uint64FromJson L.toPoco d "states" fun i states => { i with states },
      boolFromJson L.toPoco d "connected" fun i connected => { i with connected },
      stringFromJson L.toPoco d "connectionIp" fun i connectionIp => { i with connectionIp },
      uint64FromJson L.toPoco d "associations_2g" fun i associations2g =>
        { i with associations2g },
      uint64FromJson L.toPoco d "associations_5g" fun i associations5g =>
        { i with associations5g },
      uint64FromJson L.toPoco d "associations_6g" fun i associations6g =>
        { i with associations6g },
      uint64FromJson L.toPoco d "health" fun i health => { i with health },
      uint64FromJson L.toPoco d "lastHealth" fun i lastHealth => { i with lastHealth },
      stringFromJson L.toPoco d "locale" fun i locale => { i with locale },
      uint64FromJson L.toPoco d "uptime" fun i uptime => { i with uptime },
      doubleFromJson L d "memory" fun i memory => { i with memory }] i).1

/-! ## Associations -/

/-- `UE_rate::to_json`. -/
def UERate.toJson (r : UERate) : Document F :=
  object
    [("bitrate", .unsigned r.bitrate), ("mcs", .unsigned r.mcs), ("nss", .unsigned r.nss),
      ("ht", .bool r.ht), ("sgi", .bool r.sgi), ("chwidth", .unsigned r.chwidth)]

/-- `UE_rate::from_json`. -/
def UERate.fromJson (L : JsonLibrary F) (r : UERate) (d : Document F) : UERate :=
  (inTurn
    [uint64FromJson L.toPoco d "bitrate" fun r bitrate => { r with bitrate },
      uint64FromJson L.toPoco d "mcs" fun r mcs => { r with mcs },
      uint64FromJson L.toPoco d "nss" fun r nss => { r with nss },
      boolFromJson L.toPoco d "ht" fun r ht => { r with ht },
      boolFromJson L.toPoco d "sgi" fun r sgi => { r with sgi },
      uint64FromJson L.toPoco d "chwidth" fun r chwidth => { r with chwidth }] r).1

/-- `Fingerprint::to_json`, of its text. -/
def Fingerprint.toJson (json : Str) : Document F :=
  if json.isEmpty then object []
  else
    match L.parse json with
    | some (.obj members) => .obj members
    | _ => object []

/-- `Fingerprint::from_json`. -/
def Fingerprint.fromJson (_json : Str) (d : Document F) : Str := L.stringify d

/-- `UETimePoint::to_json`. -/
def UETimePoint.toJson (u : UETimePoint F) : Document F :=
  object <| present
    [("station", some (.str u.station)), ("rssi", some (.integer u.rssi)),
      ("tx_bytes", if u.txBytesPresent then some (.unsigned u.txBytes) else none),
      ("rx_bytes", if u.rxBytesPresent then some (.unsigned u.rxBytes) else none),
      ("tx_duration", some (.unsigned u.txDuration)),
      ("rx_packets", some (.unsigned u.rxPackets)), ("tx_packets", some (.unsigned u.txPackets)),
      ("tx_retries", some (.unsigned u.txRetries)), ("tx_failed", some (.unsigned u.txFailed)),
      ("connected", some (.unsigned u.connected)), ("inactive", some (.unsigned u.inactive)),
      ("tx_rate", some u.txRate.toJson), ("rx_rate", some u.rxRate.toJson),
      ("fingerprint", some (Fingerprint.toJson L u.fingerprint)),
      ("tx_bytes_bw", some (.float u.txBytesBw)), ("rx_bytes_bw", some (.float u.rxBytesBw)),
      ("tx_packets_bw", some (.float u.txPacketsBw)),
      ("rx_packets_bw", some (.float u.rxPacketsBw)),
      ("tx_failed_pct", some (.float u.txFailedPct)),
      ("tx_retries_pct", some (.float u.txRetriesPct)),
      ("tx_duration_pct", some (.float u.txDurationPct)),
      ("tx_bytes_delta", some (.unsigned u.txBytesDelta)),
      ("rx_bytes_delta", some (.unsigned u.rxBytesDelta)),
      ("tx_packets_delta", some (.unsigned u.txPacketsDelta)),
      ("rx_packets_delta", some (.unsigned u.rxPacketsDelta)),
      ("tx_failed_delta", some (.unsigned u.txFailedDelta)),
      ("tx_retries_delta", some (.unsigned u.txRetriesDelta)),
      ("tx_duration_delta", some (.unsigned u.txDurationDelta))]

/-- `UETimePoint::from_json`, with its answer. -/
def UETimePoint.decode (d : Document F) : Decoder (UETimePoint F) :=
  inTurn
    [stringFromJson L.toPoco d "station" fun u station => { u with station },
      int64FromJson L d "rssi" fun u rssi => { u with rssi },
      counterFromJson L d "tx_bytes" fun u txBytes =>
        { u with txBytesPresent := txBytes.isSome, txBytes := txBytes.getD 0 },
      counterFromJson L d "rx_bytes" fun u rxBytes =>
        { u with rxBytesPresent := rxBytes.isSome, rxBytes := rxBytes.getD 0 },
      uint64FromJson L.toPoco d "tx_duration" fun u txDuration => { u with txDuration },
      uint64FromJson L.toPoco d "rx_packets" fun u rxPackets => { u with rxPackets },
      uint64FromJson L.toPoco d "tx_packets" fun u txPackets => { u with txPackets },
      uint64FromJson L.toPoco d "tx_retries" fun u txRetries => { u with txRetries },
      uint64FromJson L.toPoco d "tx_failed" fun u txFailed => { u with txFailed },
      uint64FromJson L.toPoco d "connected" fun u connected => { u with connected },
      uint64FromJson L.toPoco d "inactive" fun u inactive => { u with inactive },
      objectFromJson d "tx_rate" (UERate.fromJson L) (·.txRate) fun u txRate => { u with txRate },
      objectFromJson d "rx_rate" (UERate.fromJson L) (·.rxRate) fun u rxRate => { u with rxRate },
      objectFromJson d "fingerprint" (Fingerprint.fromJson L) (·.fingerprint)
        fun u fingerprint => { u with fingerprint },
      doubleFromJson L d "tx_bytes_bw" fun u txBytesBw => { u with txBytesBw },
      doubleFromJson L d "rx_bytes_bw" fun u rxBytesBw => { u with rxBytesBw },
      doubleFromJson L d "tx_packets_bw" fun u txPacketsBw => { u with txPacketsBw },
      doubleFromJson L d "rx_packets_bw" fun u rxPacketsBw => { u with rxPacketsBw },
      doubleFromJson L d "tx_failed_pct" fun u txFailedPct => { u with txFailedPct },
      doubleFromJson L d "tx_retries_pct" fun u txRetriesPct => { u with txRetriesPct },
      doubleFromJson L d "tx_duration_pct" fun u txDurationPct => { u with txDurationPct },
      uint64FromJson L.toPoco d "tx_bytes_delta" fun u txBytesDelta => { u with txBytesDelta },
      uint64FromJson L.toPoco d "rx_bytes_delta" fun u rxBytesDelta => { u with rxBytesDelta },
      uint64FromJson L.toPoco d "tx_packets_delta" fun u txPacketsDelta =>
        { u with txPacketsDelta },
      uint64FromJson L.toPoco d "rx_packets_delta" fun u rxPacketsDelta =>
        { u with rxPacketsDelta },
      uint64FromJson L.toPoco d "tx_failed_delta" fun u txFailedDelta => { u with txFailedDelta },
      uint64FromJson L.toPoco d "tx_retries_delta" fun u txRetriesDelta =>
        { u with txRetriesDelta },
      uint64FromJson L.toPoco d "tx_duration_delta" fun u txDurationDelta =>
        { u with txDurationDelta }]

/-- `UETimePoint::from_json`. -/
def UETimePoint.fromJson (u : UETimePoint F) (d : Document F) : UETimePoint F :=
  (UETimePoint.decode L d u).1

/-! ## The access point -/

/-- `APTimePoint::to_json`, which sets `tx_packets` twice. -/
def APTimePoint.toJson (a : APTimePoint F) : Document F :=
  object
    [("collisions", .unsigned a.collisions), ("multicast", .unsigned a.multicast),
      ("rx_bytes", .unsigned a.rxBytes), ("rx_dropped", .unsigned a.rxDropped),
      ("rx_errors", .unsigned a.rxErrors), ("rx_packets", .unsigned a.rxPackets),
      ("tx_bytes", .unsigned a.txBytes), ("tx_packets", .unsigned a.txPackets),
      ("tx_dropped", .unsigned a.txDropped), ("tx_errors", .unsigned a.txErrors),
      ("tx_packets", .unsigned a.txPackets), ("tx_bytes_bw", .float a.txBytesBw),
      ("rx_bytes_bw", .float a.rxBytesBw), ("rx_dropped_pct", .float a.rxDroppedPct),
      ("tx_dropped_pct", .float a.txDroppedPct), ("rx_packets_bw", .float a.rxPacketsBw),
      ("tx_packets_bw", .float a.txPacketsBw), ("rx_errors_pct", .float a.rxErrorsPct),
      ("tx_errors_pct", .float a.txErrorsPct), ("tx_bytes_delta", .unsigned a.txBytesDelta),
      ("rx_bytes_delta", .unsigned a.rxBytesDelta),
      ("rx_dropped_delta", .unsigned a.rxDroppedDelta),
      ("tx_dropped_delta", .unsigned a.txDroppedDelta),
      ("rx_packets_delta", .unsigned a.rxPacketsDelta),
      ("tx_packets_delta", .unsigned a.txPacketsDelta),
      ("rx_errors_delta", .unsigned a.rxErrorsDelta),
      ("tx_errors_delta", .unsigned a.txErrorsDelta)]

/-- `APTimePoint::from_json`. -/
def APTimePoint.fromJson (a : APTimePoint F) (d : Document F) : APTimePoint F :=
  (inTurn
    [uint64FromJson L.toPoco d "collisions" fun a collisions => { a with collisions },
      uint64FromJson L.toPoco d "multicast" fun a multicast => { a with multicast },
      uint64FromJson L.toPoco d "rx_bytes" fun a rxBytes => { a with rxBytes },
      uint64FromJson L.toPoco d "rx_dropped" fun a rxDropped => { a with rxDropped },
      uint64FromJson L.toPoco d "rx_errors" fun a rxErrors => { a with rxErrors },
      uint64FromJson L.toPoco d "rx_packets" fun a rxPackets => { a with rxPackets },
      uint64FromJson L.toPoco d "tx_bytes" fun a txBytes => { a with txBytes },
      uint64FromJson L.toPoco d "tx_packets" fun a txPackets => { a with txPackets },
      uint64FromJson L.toPoco d "tx_dropped" fun a txDropped => { a with txDropped },
      uint64FromJson L.toPoco d "tx_errors" fun a txErrors => { a with txErrors },
      uint64FromJson L.toPoco d "tx_packets" fun a txPackets => { a with txPackets },
      doubleFromJson L d "tx_bytes_bw" fun a txBytesBw => { a with txBytesBw },
      doubleFromJson L d "rx_bytes_bw" fun a rxBytesBw => { a with rxBytesBw },
      doubleFromJson L d "rx_dropped_pct" fun a rxDroppedPct => { a with rxDroppedPct },
      doubleFromJson L d "tx_dropped_pct" fun a txDroppedPct => { a with txDroppedPct },
      doubleFromJson L d "rx_packets_bw" fun a rxPacketsBw => { a with rxPacketsBw },
      doubleFromJson L d "tx_packets_bw" fun a txPacketsBw => { a with txPacketsBw },
      doubleFromJson L d "rx_errors_pct" fun a rxErrorsPct => { a with rxErrorsPct },
      doubleFromJson L d "tx_errors_pct" fun a txErrorsPct => { a with txErrorsPct },
      uint64FromJson L.toPoco d "tx_bytes_delta" fun a txBytesDelta => { a with txBytesDelta },
      uint64FromJson L.toPoco d "rx_bytes_delta" fun a rxBytesDelta => { a with rxBytesDelta },
      uint64FromJson L.toPoco d "rx_dropped_delta" fun a rxDroppedDelta =>
        { a with rxDroppedDelta },
      uint64FromJson L.toPoco d "tx_dropped_delta" fun a txDroppedDelta =>
        { a with txDroppedDelta },
      uint64FromJson L.toPoco d "rx_packets_delta" fun a rxPacketsDelta =>
        { a with rxPacketsDelta },
      uint64FromJson L.toPoco d "tx_packets_delta" fun a txPacketsDelta =>
        { a with txPacketsDelta },
      uint64FromJson L.toPoco d "rx_errors_delta" fun a rxErrorsDelta => { a with rxErrorsDelta },
      uint64FromJson L.toPoco d "tx_errors_delta" fun a txErrorsDelta =>
        { a with txErrorsDelta }] a).1

/-! ## Radios -/

/-- `RadioTimePoint::to_json`. -/
def RadioTimePoint.toJson (r : RadioTimePoint F) : Document F :=
  object
    [("band", .unsigned r.band), ("channel_width", .unsigned r.channelWidth),
      ("active_ms", .unsigned r.activeMs), ("busy_ms", .unsigned r.busyMs),
      ("receive_ms", .unsigned r.receiveMs), ("transmit_ms", .unsigned r.transmitMs),
      ("tx_power", .unsigned r.txPower), ("channel", .unsigned r.channel),
      ("temperature", r.temperature.elim .null .float), ("noise", .integer r.noise),
      ("active_pct", .float r.activePct), ("busy_pct", .float r.busyPct),
      ("receive_pct", .float r.receivePct), ("transmit_pct", .float r.transmitPct)]

/-- `RadioTimePoint::from_json`, with its answer. -/
def RadioTimePoint.decode (d : Document F) : Decoder (RadioTimePoint F) :=
  inTurn
    [uint64FromJson L.toPoco d "band" fun r band => { r with band },
      uint64FromJson L.toPoco d "channel_width" fun r channelWidth => { r with channelWidth },
      uint64FromJson L.toPoco d "active_ms" fun r activeMs => { r with activeMs },
      uint64FromJson L.toPoco d "busy_ms" fun r busyMs => { r with busyMs },
      uint64FromJson L.toPoco d "receive_ms" fun r receiveMs => { r with receiveMs },
      uint64FromJson L.toPoco d "transmit_ms" fun r transmitMs => { r with transmitMs },
      uint64FromJson L.toPoco d "tx_power" fun r txPower => { r with txPower },
      uint64FromJson L.toPoco d "channel" fun r channel => { r with channel },
      fun r => ({ r with temperature := optionalDoubleFromJson L d "temperature" }, true),
      int64FromJson L d "noise" fun r noise => { r with noise },
      doubleFromJson L d "active_pct" fun r activePct => { r with activePct },
      doubleFromJson L d "busy_pct" fun r busyPct => { r with busyPct },
      doubleFromJson L d "receive_pct" fun r receivePct => { r with receivePct },
      doubleFromJson L d "transmit_pct" fun r transmitPct => { r with transmitPct }]

/-- `RadioTimePoint::from_json`. -/
def RadioTimePoint.fromJson (r : RadioTimePoint F) (d : Document F) : RadioTimePoint F :=
  (RadioTimePoint.decode L d r).1

/-! ## SSIDs -/

/-- `AveragePoint::to_json`. -/
def AveragePoint.toJson (a : AveragePoint F) : Document F :=
  object [("min", .float a.min), ("max", .float a.max), ("avg", .float a.avg)]

/-- `AveragePoint::from_json`. -/
def AveragePoint.fromJson (a : AveragePoint F) (d : Document F) : AveragePoint F :=
  (inTurn
    [doubleFromJson L d "min" fun a min => { a with min },
      doubleFromJson L d "max" fun a max => { a with max },
      doubleFromJson L d "avg" fun a avg => { a with avg }] a).1

/-- `SSIDTimePoint::to_json`. -/
def SSIDTimePoint.toJson (s : SSIDTimePoint F) : Document F :=
  object
    [("bssid", .str s.bssid), ("mode", .str s.mode), ("ssid", .str s.ssid),
      ("band", .unsigned s.band), ("channel", .unsigned s.channel),
      ("associations", .arr (s.associations.map (UETimePoint.toJson L))),
      ("tx_bytes_bw", s.txBytesBw.toJson), ("rx_bytes_bw", s.rxBytesBw.toJson),
      ("tx_packets_bw", s.txPacketsBw.toJson), ("rx_packets_bw", s.rxPacketsBw.toJson),
      ("tx_failed_pct", s.txFailedPct.toJson), ("tx_retries_pct", s.txRetriesPct.toJson),
      ("tx_duration_pct", s.txDurationPct.toJson)]

/-- `SSIDTimePoint::from_json`, with its answer. -/
def SSIDTimePoint.decode (d : Document F) : Decoder (SSIDTimePoint F) :=
  inTurn
    [stringFromJson L.toPoco d "bssid" fun s bssid => { s with bssid },
      stringFromJson L.toPoco d "mode" fun s mode => { s with mode },
      stringFromJson L.toPoco d "ssid" fun s ssid => { s with ssid },
      uint64FromJson L.toPoco d "band" fun s band => { s with band },
      uint64FromJson L.toPoco d "channel" fun s channel => { s with channel },
      vectorFromJson d "associations" (UETimePoint.fromJson L {})
        fun s newItem => { s with associations := s.associations ++ [newItem] },
      objectFromJson d "tx_bytes_bw" (AveragePoint.fromJson L) (·.txBytesBw)
        fun s txBytesBw => { s with txBytesBw },
      objectFromJson d "rx_bytes_bw" (AveragePoint.fromJson L) (·.rxBytesBw)
        fun s rxBytesBw => { s with rxBytesBw },
      objectFromJson d "tx_packets_bw" (AveragePoint.fromJson L) (·.txPacketsBw)
        fun s txPacketsBw => { s with txPacketsBw },
      objectFromJson d "rx_packets_bw" (AveragePoint.fromJson L) (·.rxPacketsBw)
        fun s rxPacketsBw => { s with rxPacketsBw },
      objectFromJson d "tx_failed_pct" (AveragePoint.fromJson L) (·.txFailedPct)
        fun s txFailedPct => { s with txFailedPct },
      objectFromJson d "tx_retries_pct" (AveragePoint.fromJson L) (·.txRetriesPct)
        fun s txRetriesPct => { s with txRetriesPct },
      objectFromJson d "tx_duration_pct" (AveragePoint.fromJson L) (·.txDurationPct)
        fun s txDurationPct => { s with txDurationPct }]

/-- `SSIDTimePoint::from_json`. -/
def SSIDTimePoint.fromJson (s : SSIDTimePoint F) (d : Document F) : SSIDTimePoint F :=
  (SSIDTimePoint.decode L d s).1

/-! ## Resources -/

/-- `DeviceResourceTimePoint::to_json`. -/
def DeviceResourceTimePoint.toJson (r : DeviceResourceTimePoint) : Document F :=
  object <| present
    [("memory_free", r.memoryFree.map .unsigned), ("memory_total", r.memoryTotal.map .unsigned),
      ("memory_cached", r.memoryCached.map .unsigned),
      ("memory_buffered", r.memoryBuffered.map .unsigned)]

/-- `DeviceResourceTimePoint::from_json`. -/
def DeviceResourceTimePoint.fromJson (L : JsonLibrary F) (r : DeviceResourceTimePoint)
    (d : Document F) : DeviceResourceTimePoint :=
  (inTurn
    [counterFromJson L d "memory_free" fun r memoryFree => { r with memoryFree },
      counterFromJson L d "memory_total" fun r memoryTotal => { r with memoryTotal },
      counterFromJson L d "memory_cached" fun r memoryCached => { r with memoryCached },
      counterFromJson L d "memory_buffered" fun r memoryBuffered =>
        { r with memoryBuffered }] r).1

end OwAnalytics.Ap

/-! ## Rows -/

namespace OwAnalytics.TimePointDB

open Ap

variable {F : Type} [Zero F] (L : JsonLibrary F)

/-- `TimePointDBRecordType`, the columns in their order. -/
structure Record where
  id : Str
  boardId : Str
  timestamp : UInt64
  apData : Str
  ssidData : Str
  radioData : Str
  deviceInfo : Str
  serialNumber : Str
  resourceData : Str
  venueId : Str

/-- `Convert` of a time point into a row. -/
def toRecord (p : DeviceTimePoint F) : Record where
  id := p.id
  boardId := p.boardId
  timestamp := p.timestamp
  apData := L.stringify p.apData.toJson
  ssidData := arrayToString L (p.ssidData.map (SSIDTimePoint.toJson L))
  radioData := arrayToString L (p.radioData.map RadioTimePoint.toJson)
  deviceInfo := L.stringify p.deviceInfo.toJson
  serialNumber := p.serialNumber
  resourceData := L.stringify p.resourceData.toJson
  venueId := p.venueId

/-- `Convert` of a row into a time point; `none` for an exception. -/
def fromRecord (r : Record) : Option (DeviceTimePoint F) := do
  let apData ← toObject L (APTimePoint.fromJson L) {} r.apData
  let ssidData := toObjectArray L (SSIDTimePoint.fromJson L {}) r.ssidData
  let radioData := toObjectArray L (RadioTimePoint.fromJson L {}) r.radioData
  let deviceInfo ← toObject L (DeviceInfo.fromJson L) {} r.deviceInfo
  let resourceData ← toObject L (DeviceResourceTimePoint.fromJson L) {} r.resourceData
  pure
    { id := r.id
      boardId := r.boardId
      venueId := r.venueId
      timestamp := r.timestamp
      apData
      ssidData
      radioData
      resourceData
      deviceInfo
      serialNumber := r.serialNumber }

end OwAnalytics.TimePointDB
