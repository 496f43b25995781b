/-
  OwAnalytics.Ap.Objects

  The records of `RESTAPI_AnalyticsObjects.h` that an `AP` fills, with all their
  fields.
-/

import OwAnalytics.Objects

namespace OwAnalytics.Ap

/-- `DeviceInfo`. -/
structure DeviceInfo (F : Type) [Zero F] where
  boardId : Str := []
  type : Str := []
  serialNumber : Str := []
  deviceType : Str := []
  platform : Str := []
  lastContact : UInt64 := 0
  lastPing : UInt64 := 0
  lastState : UInt64 := 0
  lastFirmware : Str := []
  lastFirmwareUpdate : UInt64 := 0
  lastConnection : UInt64 := 0
  lastDisconnection : UInt64 := 0
  pings : UInt64 := 0
  states : UInt64 := 0
  connected : Bool := false
  connectionIp : Str := []
  associations2g : UInt64 := 0
  associations5g : UInt64 := 0
  associations6g : UInt64 := 0
  health : UInt64 := 0
  lastHealth : UInt64 := 0
  locale : Str := []
  uptime : UInt64 := 0
  memory : F := 0
deriving DecidableEq

/-- `TIDstat_entry`. -/
structure TidStatEntry where
  rxMsdu : UInt64 := 0
  txMsdu : UInt64 := 0
  txMsduFailed : UInt64 := 0
  txMsduRetries : UInt64 := 0
deriving DecidableEq

/-- `UE_rate`. -/
structure UERate where
  bitrate : UInt64 := 0
  mcs : UInt64 := 0
  nss : UInt64 := 0
  ht : Bool := false
  sgi : Bool := false
  chwidth : UInt64 := 0
deriving DecidableEq

/-- `AveragePoint`. -/
structure AveragePoint (F : Type) [Zero F] where
  min : F := 0
  max : F := 0
  avg : F := 0
deriving DecidableEq

/-- `UETimePoint`. -/
structure UETimePoint (F : Type) [Zero F] where
  station : Str := []
  rssi : Int64 := 0
  txBytes : UInt64 := 0
  rxBytes : UInt64 := 0
  txDuration : UInt64 := 0
  rxPackets : UInt64 := 0
  txPackets : UInt64 := 0
  txRetries : UInt64 := 0
  txFailed : UInt64 := 0
  connected : UInt64 := 0
  inactive : UInt64 := 0
  txBytesPresent : Bool := false
  rxBytesPresent : Bool := false
  txBytesBw : F := 0
  rxBytesBw : F := 0
  txPacketsBw : F := 0
  rxPacketsBw : F := 0
  txFailedPct : F := 0
  txRetriesPct : F := 0
  txDurationPct : F := 0
  txBytesDelta : UInt64 := 0
  rxBytesDelta : UInt64 := 0
  txDurationDelta : UInt64 := 0
  rxPacketsDelta : UInt64 := 0
  txPacketsDelta : UInt64 := 0
  txRetriesDelta : UInt64 := 0
  txFailedDelta : UInt64 := 0
  txRate : UERate := {}
  rxRate : UERate := {}
  fingerprint : Str := []
  tidstats : List TidStatEntry := []
deriving DecidableEq

/-- `SSIDTimePoint`. -/
structure SSIDTimePoint (F : Type) [Zero F] where
  bssid : Str := []
  mode : Str := []
  ssid : Str := []
  band : UInt64 := 0
  channel : UInt64 := 0
  associations : List (UETimePoint F) := []
  txBytesBw : AveragePoint F := {}
  rxBytesBw : AveragePoint F := {}
  txPacketsBw : AveragePoint F := {}
  rxPacketsBw : AveragePoint F := {}
  txFailedPct : AveragePoint F := {}
  txRetriesPct : AveragePoint F := {}
  txDurationPct : AveragePoint F := {}
deriving DecidableEq

/-- `APTimePoint`. -/
structure APTimePoint (F : Type) [Zero F] where
  collisions : UInt64 := 0
  multicast : UInt64 := 0
  rxBytes : UInt64 := 0
  rxDropped : UInt64 := 0
  rxErrors : UInt64 := 0
  rxPackets : UInt64 := 0
  txBytes : UInt64 := 0
  txDropped : UInt64 := 0
  txErrors : UInt64 := 0
  txPackets : UInt64 := 0
  txBytesBw : F := 0
  rxBytesBw : F := 0
  rxDroppedPct : F := 0
  txDroppedPct : F := 0
  rxPacketsBw : F := 0
  txPacketsBw : F := 0
  rxErrorsPct : F := 0
  txErrorsPct : F := 0
  txBytesDelta : UInt64 := 0
  rxBytesDelta : UInt64 := 0
  rxDroppedDelta : UInt64 := 0
  txDroppedDelta : UInt64 := 0
  rxPacketsDelta : UInt64 := 0
  txPacketsDelta : UInt64 := 0
  rxErrorsDelta : UInt64 := 0
  txErrorsDelta : UInt64 := 0
deriving DecidableEq

/-- `RadioTimePoint`. -/
structure RadioTimePoint (F : Type) [Zero F] where
  band : UInt64 := 0
  channelWidth : UInt64 := 0
  activeMs : UInt64 := 0
  busyMs : UInt64 := 0
  receiveMs : UInt64 := 0
  transmitMs : UInt64 := 0
  txPower : UInt64 := 0
  channel : UInt64 := 0
  temperature : Option F := none
  noise : Int64 := 0
  activePct : F := 0
  busyPct : F := 0
  receivePct : F := 0
  transmitPct : F := 0
deriving DecidableEq

/-- `DeviceResourceTimePoint`. -/
structure DeviceResourceTimePoint where
  memoryFree : Option UInt64 := none
  memoryTotal : Option UInt64 := none
  memoryCached : Option UInt64 := none
  memoryBuffered : Option UInt64 := none
deriving DecidableEq

/-- `DeviceTimePoint`. -/
structure DeviceTimePoint (F : Type) [Zero F] where
  id : Str := []
  boardId : Str := []
  venueId : Str := []
  timestamp : UInt64 := 0
  apData : APTimePoint F := {}
  ssidData : List (SSIDTimePoint F) := []
  radioData : List (RadioTimePoint F) := []
  resourceData : DeviceResourceTimePoint := {}
  deviceInfo : DeviceInfo F := {}
  serialNumber : Str := []
deriving DecidableEq

/-- `WifiClientHistory`. -/
structure WifiClientHistory where
  timestamp : UInt64
  stationId : Str := []
  bssid : Str := []
  ssid : Str := []
  rssi : Int64 := 0
  rxBitrate : UInt32 := 0
  rxChwidth : UInt32 := 0
  rxMcs : UInt16 := 0
  rxNss : UInt16 := 0
  rxVht : Bool := false
  txBitrate : UInt32 := 0
  txChwidth : UInt32 := 0
  txMcs : UInt16 := 0
  txNss : UInt16 := 0
  txVht : Bool := false
  rxBytes : UInt64 := 0
  txBytes : UInt64 := 0
  rxDuration : UInt64 := 0
  txDuration : UInt64 := 0
  rxPackets : UInt64 := 0
  txPackets : UInt64 := 0
  ipv4 : Str := []
  ipv6 : Str := []
  channelWidth : UInt64 := 0
  noise : Int64 := 0
  txPower : UInt64 := 0
  channel : UInt64 := 0
  activeMs : UInt64 := 0
  busyMs : UInt64 := 0
  receiveMs : UInt64 := 0
  mode : Str := []
  ackSignal : Int64 := 0
  ackSignalAvg : Int64 := 0
  connected : UInt64 := 0
  inactive : UInt64 := 0
  txRetries : UInt64 := 0
  venueId : Str := []
deriving DecidableEq

/-- `DeviceAvailabilityEvent`. -/
structure DeviceAvailabilityEvent where
  id : Str
  boardId : Str
  serialNumber : Str
  eventType : Str
  eventTime : UInt64
  reason : Str
  connectionIp : Str
  sessionId : Str
  eventId : Str
  idempotencyKey : Str
deriving DecidableEq

end OwAnalytics.Ap
