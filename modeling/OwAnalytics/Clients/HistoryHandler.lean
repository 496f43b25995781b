/-
  OwAnalytics.Clients.HistoryHandler

  `RESTAPI_wificlienthistory_handler` (`DoGet`, `DoDelete`): the venue and the client
  of a request, the conditions put together from them as text, and what the database
  and the cache answer.  Both calls are split at the query: what is decided before it,
  and what is made of its result.  `none` stands for an exception that no handler
  catches: a number out of range, or a format text with more places than arguments.
-/

import OwAnalytics.Ap.CacheLookup
import OwAnalytics.Lib.Sql
import OwAnalytics.Mcp.Mac
import OwAnalytics.Rest.Parameters
import OwAnalytics.Storage.Boards
import OwAnalytics.Storage.OrderBy

namespace OwAnalytics.Clients

open Ap (WifiClientCache WifiClientHistory intToSerialNumber)
open Mcp (isHex)
open Sql (escape)
open Storage

/-! ## Errors -/

/-- `RESTAPI::Errors::msg`. -/
structure Msg where
  errNum : Nat
  errTxt : String
deriving DecidableEq

namespace Errors

/-- `RESTAPI::Errors::ACCESS_DENIED`. -/
def ACCESS_DENIED : Msg := ⟨7, "Access denied."⟩

/-- `RESTAPI::Errors::MissingOrInvalidParameters`. -/
def MissingOrInvalidParameters : Msg := ⟨1018, "Invalid or missing parameters."⟩

/-- `RESTAPI::Errors::InvalidSerialNumber`. -/
def InvalidSerialNumber : Msg := ⟨1020, "Invalid Serial Number."⟩

/-- `RESTAPI::Errors::VenueMustExist`. -/
def VenueMustExist : Msg := ⟨1023, "Venue does not exist."⟩

/-- `RESTAPI::Errors::InvalidLOrderBy`. -/
def InvalidLOrderBy : Msg := ⟨1043, "Invalid orderBy specification."⟩

end Errors

/-- What a client is answered. -/
inductive Response
  | fieldList (names : List Str)
  | badRequest (e : Msg)
  | unAuthorized (e : Msg)
  | ok
  | numbers (entries : List Str)
  | count (n : Nat)
  | records (entries : List WifiClientHistory)

/-! ## The request -/

/-- `SecurityObjects::USER_ROLE`. -/
inductive UserRole
  | unknown
  | root
  | admin
  | subscriber
  | csr
  | system
  | installer
  | noc
  | accounting
  | partner
deriving DecidableEq

/-- The query parameters, the client in the path, and the role of the user. -/
structure Request where
  parameters : Rest.Parameters
  client : Option Str
  userRole : UserRole

/-- The page of a request, `QB_`. -/
structure QueryBlock where
  offset : UInt64 := 0
  limit : UInt64 := 100

namespace Request

/-- The first parameter of a name. -/
def find? (r : Request) (name : String) : Option Str := r.parameters.first? name.toList

/-- `GetParameter` of a text. -/
def getParameter (r : Request) (name : String) : Str := r.parameters.getText name.toList []

/-- `GetParameter` of a number, 0 where there is none. -/
def getNumber (r : Request) (name : String) : Option UInt64 :=
  (r.parameters.getNumber name.toList 0).toOption

/-- `GetBoolParameter`. -/
def getBoolParameter (r : Request) (name : String) : Bool :=
  r.parameters.getBoolParameter name.toList false

/-- `GetBinding("client")`. -/
def stationId (r : Request) : Str := r.client.getD []

end Request

/-- `Utils::ValidSerialNumber`. -/
def validSerialNumber (serial : Str) : Bool := serial.length < 30 && serial.all isHex

/-! ## Texts of queries -/

/-- `fmt::format` of a text whose only braces are the places of the arguments. -/
def format : Str → List Str → Option Str
  | [], _ => some []
  | '{' :: '}' :: rest, a :: args => (format rest args).map (a ++ ·)
  | '{' :: '}' :: _, [] => none
  | c :: rest, args => (format rest args).map (c :: ·)

/-- A number as `fmt::format` writes it. -/
def decimal (n : UInt64) : Str := Nat.toDigits 10 n.toNat

/-- The condition of `DoGet`. -/
def getClause (venue stationId : Str) (fromDate endDate : UInt64) : Option Str :=
  if fromDate ≠ 0 ∧ endDate ≠ 0 then
    format
      " venue_id='{}' and station_id='{}' and timestamp>={} and timestamp<={} ".toList
      [venue, stationId, decimal fromDate, decimal endDate]
  else if fromDate ≠ 0 ∧ endDate = 0 then
    format " venue_id='{}' and station_id='{}' and timestamp>={} ".toList
      [venue, stationId, decimal fromDate]
  else if fromDate = 0 ∧ endDate ≠ 0 then
    format " venue_id='{}' and station_id='{}' and timestamp<={} ".toList
      [venue, stationId, decimal endDate]
  else
    format " venue_id='{}' and station_id='{}' ".toList [venue, stationId]

/-- The condition of `DoDelete`; the last text has a place more than arguments. -/
def deleteClause (venue stationId : Str) (fromDate endDate : UInt64) : Option Str :=
  if fromDate ≠ 0 ∧ endDate ≠ 0 then
    format
      " venue_id='{}' and station_id='{}' and timestamp>={} and timestamp<={} ".toList
      [venue, stationId, decimal fromDate, decimal endDate]
  else if fromDate ≠ 0 ∧ endDate = 0 then
    format " venue_id='{}' and station_id='{}' and timestamp>={} ".toList
      [venue, stationId, decimal fromDate]
  else if fromDate = 0 ∧ endDate ≠ 0 then
    format " venue_id='{}' and station_id='{}' and timestamp<={} ".toList
      [venue, stationId, decimal endDate]
  else
    format "venue_id='{}' and  station_id='{}' ".toList [stationId]

/-- The keys of `FieldNames_`, the columns of the table. -/
def fieldNames : List Str :=
  ["ack_signal", "ack_signal_avg", "active_ms", "bssid", "busy_ms", "channel", "channel_width",
    "connected", "inactive", "ipv4", "ipv6", "mode", "noise", "receive_ms", "rssi", "rx_bitrate",
    "rx_bytes", "rx_chwidth", "rx_duration", "rx_mcs", "rx_nss", "rx_packets", "rx_vht", "ssid",
    "station_id", "timestamp", "tx_bitrate", "tx_bytes", "tx_chwidth", "tx_duration", "tx_mcs",
    "tx_nss", "tx_packets", "tx_power", "tx_retries", "tx_vht", "venue_id"].map String.toList

/-- The order of a listing; `none` for one that is refused. -/
def Request.orderBy (r : Request) : Option Str :=
  let orderBy := " ORDER BY timestamp DESC ".toList
  match r.find? "orderBy" with
  | none => some orderBy
  | some arg =>
    match ORM.prepareOrderBy fieldNames arg orderBy with
    | (true, orderBy) => some orderBy
    | (false, _) => none

/-! ## What is asked -/

/-- The venue text `DoGet` goes on with: the parameter, escaped, or the venue of the board. -/
def selectVenue (boards : List BoardRow) (r : Request) : Option Str :=
  let venue := escape (r.getParameter "venue")
  if venue.isEmpty then
    if (r.getParameter "boardId").isEmpty then none
    else
      match BoardsDB.getRecord boards (r.getParameter "boardId") with
      | none => none
      | some b =>
        match b.venueList with
        | [] => none
        | v :: _ => if v.id.isEmpty then none else some v.id
  else some venue

/-- What `DoGet` does after its checks. -/
inductive GetPlan
  | returnFieldList
  | badRequest (e : Msg)
  | findNumbers (venue macFilter : Str)
  | count (clause : Str)
  | getRecords (clause orderBy : Str)
deriving DecidableEq

/-- `DoGet` up to its query. -/
def getPlan (boards : List BoardRow) (r : Request) : Option GetPlan :=
  if r.getBoolParameter "orderSpec" then some .returnFieldList
  else
    match selectVenue boards r with
    | none => some (.badRequest Errors.VenueMustExist)
    | some venue =>
      if r.getBoolParameter "macsOnly" then
        some (.findNumbers venue (r.getParameter "macFilter"))
      else if validSerialNumber r.stationId = false then
        some (.badRequest Errors.InvalidSerialNumber)
      else
        match r.orderBy with
        | none => some (.badRequest Errors.InvalidLOrderBy)
        | some orderBy => do
          let fromDate ← r.getNumber "fromDate"
          let endDate ← r.getNumber "endDate"
          let clause ← getClause venue r.stationId fromDate endDate
          return if r.getBoolParameter "countOnly" then .count clause
            else .getRecords clause orderBy

/-- What `DoDelete` does after its checks. -/
inductive DeletePlan
  | badRequest (e : Msg)
  | unAuthorized (e : Msg)
  | deleteRecords (clause : Str)
deriving DecidableEq

/-- `DoDelete` up to its statement. -/
def deletePlan (r : Request) : Option DeletePlan :=
  if r.userRole ≠ .admin ∧ r.userRole ≠ .root then some (.unAuthorized Errors.ACCESS_DENIED)
  else
    let venue := escape (r.getParameter "venue")
    if venue.isEmpty then some (.badRequest Errors.VenueMustExist)
    else if validSerialNumber r.stationId = false then
      some (.badRequest Errors.InvalidSerialNumber)
    else do
      let fromDate ← r.getNumber "fromDate"
      let endDate ← r.getNumber "endDate"
      let clause ← deleteClause venue r.stationId fromDate endDate
      return .deleteRecords clause

/-! ## What is answered -/

/-- The columns the conditions compare. -/
def columns : Sql.Columns WifiClientHistory where
  text column :=
    if column = "venue_id".toList then some WifiClientHistory.venueId
    else if column = "station_id".toList then some WifiClientHistory.stationId
    else none
  number column :=
    if column = "timestamp".toList then some fun row => row.timestamp.toNat else none

/-- The rows of the table; they are numbered by 64-bit integers. -/
abbrev HistoryTable := {rows : List WifiClientHistory // rows.length < 2 ^ 63}

/-- The database: how it reads conditions, and the order it puts the rows of a query into. -/
structure Database where
  engine : Sql.Engine columns
  arrange : Str → List WifiClientHistory → List WifiClientHistory
  arrange_perm : ∀ orderBy rows, (arrange orderBy rows).Perm rows

/-- `GetRecords`; a condition that is refused leaves the list of records empty. -/
def getRecords (db : Database) (rows : List WifiClientHistory) (qb : QueryBlock)
    (clause orderBy : Str) : List WifiClientHistory :=
  match db.engine.selects clause with
  | none => []
  | some p => ((db.arrange orderBy (rows.filter p)).drop qb.offset.toNat).take qb.limit.toNat

/-- `Count`; a condition that is refused counts nothing. -/
def count (db : Database) (rows : List WifiClientHistory) (clause : Str) : Nat :=
  match db.engine.selects clause with
  | none => 0
  | some p => rows.countP p

/-- `DeleteRecords`, its result and the table after it. -/
def deleteRecords (db : Database) (table : HistoryTable) (clause : Str) : Bool × HistoryTable :=
  match db.engine.selects clause with
  | none => (false, table)
  | some p =>
    (true, ⟨table.val.filter fun row => !p row,
      lt_of_le_of_lt (List.length_filter_le _ _) table.property⟩)

/-- `DoGet`, with the exceptions that no handler catches. -/
def doGet (db : Database) (boards : List BoardRow) (cache : WifiClientCache) (table : HistoryTable)
    (qb : QueryBlock) (r : Request) : Option Response := do
  match ← getPlan boards r with
  | .returnFieldList => return .fieldList fieldNames
  | .badRequest e => return .badRequest e
  | .findNumbers venue macFilter =>
    let macs ← cache.findNumbers venue macFilter qb.offset qb.limit
    return .numbers (macs.map intToSerialNumber)
  | .count clause => return .count (count db table.val clause)
  | .getRecords clause orderBy => return .records (getRecords db table.val qb clause orderBy)

/-- The answer, and the table after it. -/
def doDelete (db : Database) (table : HistoryTable) (r : Request) :
    Option (Response × HistoryTable) := do
  match ← deletePlan r with
  | .badRequest e => return (.badRequest e, table)
  | .unAuthorized e => return (.unAuthorized e, table)
  | .deleteRecords clause =>
    let (deleted, table) := deleteRecords db table clause
    return (if deleted then .ok else .badRequest Errors.MissingOrInvalidParameters, table)

end OwAnalytics.Clients
