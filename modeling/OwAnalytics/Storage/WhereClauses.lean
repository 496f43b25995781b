/-
  OwAnalytics.Storage.WhereClauses

  The where clauses of the selections by serial number (`storage/storage_timepoints.cpp`,
  `storage/storage_device_availability_events.cpp`) as the texts they are put together
  as.  `ORM::Escape` doubles the quotes of the board and of the serial number, so the
  clauses are read as the tests they are meant to be, whatever the two texts are.
-/

import OwAnalytics.Clients.HistoryClauses
import OwAnalytics.Lib.SqlTests
import OwAnalytics.Storage.AvailabilityEvents
import OwAnalytics.Storage.RecordsBySerial

namespace OwAnalytics

open Ap (DeviceAvailabilityEvent)
open Clients (format number_decimal scan_decimal)
open Sql (Mode Test Token lexFrom lexFrom_append scan scan_append)

namespace ORM

/-- `ORM::Escape`. -/
def escape (S : Str) : Str :=
  S.foldl (fun R i => if i = '\'' then R ++ "''".toList else R ++ [i]) []

theorem foldl_escape (R S : Str) :
    S.foldl (fun R i => if i = '\'' then R ++ "''".toList else R ++ [i]) R = R ++ Sql.escape S := by
  induction S generalizing R with
  | nil => exact (List.append_nil R).symm
  | cons c rest ih =>
      rw [List.foldl_cons, ih, Sql.escape]
      split
      · rw [List.append_assoc]
        rfl
      · rw [List.append_assoc]
        rfl

theorem escape_eq (S : Str) : escape S = Sql.escape S := foldl_escape [] S

end ORM

/-! ## The tables -/

/-- The columns of `TimePoint_Fields`; their names are put into lower case. -/
def TimePointDB.columns : Sql.Columns TimePointDB.Record where
  text column :=
    List.lookup column
      [("id".toList, TimePointDB.Record.id), ("boardid".toList, TimePointDB.Record.boardId),
       ("ap_data".toList, TimePointDB.Record.apData),
       ("ssid_data".toList, TimePointDB.Record.ssidData),
       ("radio_data".toList, TimePointDB.Record.radioData),
       ("device_info".toList, TimePointDB.Record.deviceInfo),
       ("serialnumber".toList, TimePointDB.Record.serialNumber),
       ("resource_data".toList, TimePointDB.Record.resourceData),
       ("venueid".toList, TimePointDB.Record.venueId)]
  number column :=
    List.lookup column [("timestamp".toList, fun row => row.timestamp.toNat)]

/-- The columns of `DeviceAvailabilityEvent_Fields`. -/
def Storage.DeviceAvailabilityEventsDB.columns : Sql.Columns DeviceAvailabilityEvent where
  text column :=
    List.lookup column
      [("id".toList, DeviceAvailabilityEvent.id),
       ("board_id".toList, DeviceAvailabilityEvent.boardId),
       ("serialnumber".toList, DeviceAvailabilityEvent.serialNumber),
       ("event_type".toList, DeviceAvailabilityEvent.eventType),
       ("reason".toList, DeviceAvailabilityEvent.reason),
       ("connection_ip".toList, DeviceAvailabilityEvent.connectionIp),
       ("session_id".toList, DeviceAvailabilityEvent.sessionId),
       ("event_id".toList, DeviceAvailabilityEvent.eventId),
       ("idempotency_key".toList, DeviceAvailabilityEvent.idempotencyKey)]
  number column :=
    List.lookup column [("event_time".toList, fun row => row.eventTime.toNat)]

/-! ## The clauses -/

namespace WhereClauses

section

variable (boardId serialNumber : Str) (startTime endTime : UInt64)

/-- The clause of the four selections of a window. -/
def window : Option Str :=
  format
    " boardId='{}' and serialNumber='{}' and (timestamp >= {}) and (timestamp < {}) ".toList
    [ORM.escape boardId, ORM.escape serialNumber, Clients.decimal startTime,
      Clients.decimal endTime]

/-- The clause of `SelectLatestRecordAtOrBeforeBySerial`. -/
def latestAtOrBefore (minimumTime boundaryTime : UInt64) : Option Str :=
  format
    " boardId='{}' and serialNumber='{}' and (timestamp >= {}) and (timestamp <= {}) ".toList
    [ORM.escape boardId, ORM.escape serialNumber, Clients.decimal minimumTime,
      Clients.decimal boundaryTime]

/-- The clause of `SelectEarliestRecordAtOrAfterBySerial`. -/
def earliestAtOrAfter (boundaryTime : UInt64) : Option Str :=
  format " boardId='{}' and serialNumber='{}' and (timestamp >= {}) ".toList
    [ORM.escape boardId, ORM.escape serialNumber, Clients.decimal boundaryTime]

/-- The clause of `CountOfflineEventsByBoardAndSerial`. -/
def offlineEvents : Option Str :=
  format
    (" board_id='{}' and serialNumber='{}' and event_type='offline' and ".toList ++
      "(event_time >= {}) and (event_time < {}) ".toList)
    [ORM.escape boardId, ORM.escape serialNumber, Clients.decimal startTime,
      Clients.decimal endTime]

end

/-! ## As they are read -/

/-- A text up to an open quote, an escaped text, and the rest. -/
theorem lexFrom_escaped {m : Mode} {before : Str} {ts : List Token}
    (hbefore : scan m before = (ts, .literal [])) (S rest : Str) :
    lexFrom m (before ++ (ORM.escape S ++ rest)) = (lexFrom (.literal S) rest).map (ts ++ ·) := by
  have hescape : scan (.literal []) (ORM.escape S) = ([], .literal S) := by
    rw [ORM.escape_eq]
    exact Sql.scan_escape [] S
  rw [lexFrom_append, hbefore, lexFrom_append, hescape, Option.map_map]
  rfl

/-- A text, a number, and the rest. -/
theorem lexFrom_numeral {m : Mode} {before : Str} {ts : List Token}
    (hbefore : scan m before = (ts, .between)) (n : UInt64) (rest : Str) :
    lexFrom m (before ++ (Clients.decimal n ++ rest)) =
      (lexFrom (.digits (Clients.decimal n)) rest).map (ts ++ ·) := by
  rw [lexFrom_append, hbefore, lexFrom_append, scan_decimal, Option.map_map]
  rfl

section

variable (boardId serialNumber : Str)

/-- The comparisons with the device, up to the quote behind the serial number. -/
theorem lexFrom_device (rest : Str) :
    lexFrom .between (" boardId='".toList ++ (ORM.escape boardId ++
        ("' and serialNumber='".toList ++ (ORM.escape serialNumber ++ rest)))) =
      (lexFrom (.literal serialNumber) rest).map
        ([.word "boardId".toList, .symbol '=', .literal boardId, .word "and".toList,
          .word "serialNumber".toList, .symbol '='] ++ ·) := by
  have hboard : scan .between " boardId='".toList =
      ([.word "boardId".toList, .symbol '='], .literal []) := rfl
  have hserial : scan (.literal boardId) "' and serialNumber='".toList =
      ([.literal boardId, .word "and".toList, .word "serialNumber".toList, .symbol '='],
        .literal []) := rfl
  rw [lexFrom_escaped hboard, lexFrom_escaped hserial, Option.map_map]
  rfl

/-- The lower bound of the time stamps. -/
theorem lexFrom_atLeast (n : UInt64) (rest : Str) :
    lexFrom (.literal serialNumber)
        ("' and (timestamp >= ".toList ++ (Clients.decimal n ++ rest)) =
      (lexFrom (.digits (Clients.decimal n)) rest).map
        ([.literal serialNumber, .word "and".toList, .symbol '(', .word "timestamp".toList,
          .symbol '>', .symbol '='] ++ ·) :=
  lexFrom_numeral rfl n rest

theorem readTests_window (startTime endTime : UInt64) :
    (window boardId serialNumber startTime endTime).bind Sql.readTests =
      some [.is "boardId".toList boardId, .is "serialNumber".toList serialNumber,
        .atLeast "timestamp".toList startTime.toNat, .below "timestamp".toList endTime.toNat] := by
  have htext : window boardId serialNumber startTime endTime =
      some (" boardId='".toList ++ (ORM.escape boardId ++ ("' and serialNumber='".toList ++
        (ORM.escape serialNumber ++ ("' and (timestamp >= ".toList ++ (Clients.decimal startTime ++
          (") and (timestamp < ".toList ++ (Clients.decimal endTime ++ ") ".toList)))))))) := by
    rw [window]
    simp [format]
  have hend : scan (.digits (Clients.decimal startTime)) ") and (timestamp < ".toList =
      ([.digits (Clients.decimal startTime), .symbol ')', .word "and".toList, .symbol '(',
        .word "timestamp".toList, .symbol '<'], .between) := rfl
  have hlast : lexFrom (.digits (Clients.decimal endTime)) ") ".toList =
      some [.digits (Clients.decimal endTime), .symbol ')'] := rfl
  rw [htext, Option.bind_some, Sql.readTests, Sql.lex_eq_lexFrom, lexFrom_device, lexFrom_atLeast,
    lexFrom_numeral hend, hlast, ← number_decimal startTime, ← number_decimal endTime]
  rfl

theorem readTests_latestAtOrBefore (minimumTime boundaryTime : UInt64) :
    (latestAtOrBefore boardId serialNumber minimumTime boundaryTime).bind Sql.readTests =
      some [.is "boardId".toList boardId, .is "serialNumber".toList serialNumber,
        .atLeast "timestamp".toList minimumTime.toNat,
        .atMost "timestamp".toList boundaryTime.toNat] := by
  have htext : latestAtOrBefore boardId serialNumber minimumTime boundaryTime =
      some (" boardId='".toList ++ (ORM.escape boardId ++ ("' and serialNumber='".toList ++
        (ORM.escape serialNumber ++ ("' and (timestamp >= ".toList ++
          (Clients.decimal minimumTime ++ (") and (timestamp <= ".toList ++
            (Clients.decimal boundaryTime ++ ") ".toList)))))))) := by
    rw [latestAtOrBefore]
    simp [format]
  have hend : scan (.digits (Clients.decimal minimumTime)) ") and (timestamp <= ".toList =
      ([.digits (Clients.decimal minimumTime), .symbol ')', .word "and".toList, .symbol '(',
        .word "timestamp".toList, .symbol '<', .symbol '='], .between) := rfl
  have hlast : lexFrom (.digits (Clients.decimal boundaryTime)) ") ".toList =
      some [.digits (Clients.decimal boundaryTime), .symbol ')'] := rfl
  -- read piece by piece: the serial numbers are literals, the times are numerals
  rw [htext, Option.bind_some, Sql.readTests, Sql.lex_eq_lexFrom, lexFrom_device, lexFrom_atLeast,
    lexFrom_numeral hend, hlast, ← number_decimal minimumTime, ← number_decimal boundaryTime]
  rfl

theorem readTests_earliestAtOrAfter (boundaryTime : UInt64) :
    (earliestAtOrAfter boardId serialNumber boundaryTime).bind Sql.readTests =
      some [.is "boardId".toList boardId, .is "serialNumber".toList serialNumber,
        .atLeast "timestamp".toList boundaryTime.toNat] := by
  have htext : earliestAtOrAfter boardId serialNumber boundaryTime =
      some (" boardId='".toList ++ (ORM.escape boardId ++ ("' and serialNumber='".toList ++
        (ORM.escape serialNumber ++ ("' and (timestamp >= ".toList ++
          (Clients.decimal boundaryTime ++ ") ".toList)))))) := by
    rw [earliestAtOrAfter]
    simp [format]
  have hlast : lexFrom (.digits (Clients.decimal boundaryTime)) ") ".toList =
      some [.digits (Clients.decimal boundaryTime), .symbol ')'] := rfl
  rw [htext, Option.bind_some, Sql.readTests, Sql.lex_eq_lexFrom, lexFrom_device, lexFrom_atLeast,
    hlast, ← number_decimal boundaryTime]
  rfl

set_option maxRecDepth 2000 in
theorem readTests_offlineEvents (startTime endTime : UInt64) :
    (offlineEvents boardId serialNumber startTime endTime).bind Sql.readTests =
      some [.is "board_id".toList boardId, .is "serialNumber".toList serialNumber,
        .is "event_type".toList "offline".toList, .atLeast "event_time".toList startTime.toNat,
        .below "event_time".toList endTime.toNat] := by
  have htext : offlineEvents boardId serialNumber startTime endTime =
      some (" board_id='".toList ++ (ORM.escape boardId ++ ("' and serialNumber='".toList ++
        (ORM.escape serialNumber ++ ("' and event_type='offline' and (event_time >= ".toList ++
          (Clients.decimal startTime ++ (") and (event_time < ".toList ++
            (Clients.decimal endTime ++ ") ".toList)))))))) := by
    rw [offlineEvents]
    simp [format]
  have hboard : scan .between " board_id='".toList =
      ([.word "board_id".toList, .symbol '='], .literal []) := rfl
  have hserial : scan (.literal boardId) "' and serialNumber='".toList =
      ([.literal boardId, .word "and".toList, .word "serialNumber".toList, .symbol '='],
        .literal []) := rfl
  have hstart :
      scan (.literal serialNumber) "' and event_type='offline' and (event_time >= ".toList =
      ([.literal serialNumber, .word "and".toList, .word "event_type".toList, .symbol '=',
        .literal "offline".toList, .word "and".toList, .symbol '(', .word "event_time".toList,
        .symbol '>', .symbol '='], .between) := rfl
  have hend : scan (.digits (Clients.decimal startTime)) ") and (event_time < ".toList =
      ([.digits (Clients.decimal startTime), .symbol ')', .word "and".toList, .symbol '(',
        .word "event_time".toList, .symbol '<'], .between) := rfl
  have hlast : lexFrom (.digits (Clients.decimal endTime)) ") ".toList =
      some [.digits (Clients.decimal endTime), .symbol ')'] := rfl
  -- the ids stay inside their literals, so the text ends every token where the clause does
  rw [htext, Option.bind_some, Sql.readTests, Sql.lex_eq_lexFrom, lexFrom_escaped hboard,
    lexFrom_escaped hserial, lexFrom_numeral hstart, lexFrom_numeral hend, hlast,
    ← number_decimal startTime, ← number_decimal endTime]
  rfl

end

/-! ## What they select -/

/-- The clause is a condition, and what it selects are the rows that have the property. -/
def Selects {ρ : Type} (columns : Sql.Columns ρ) (clause : Option Str) (P : ρ → Prop) : Prop :=
  ∃ text p, clause = some text ∧ Sql.selected columns text = some p ∧ ∀ row, p row = true ↔ P row

theorem selects_of_readTests {ρ : Type} {columns : Sql.Columns ρ} {clause : Option Str}
    {ts : List Test} {p : ρ → Bool} {P : ρ → Prop} (hread : clause.bind Sql.readTests = some ts)
    (hpassing : Sql.passing columns ts = some p) (hp : ∀ row, p row = true ↔ P row) :
    Selects columns clause P := by
  obtain ⟨text, hclause, htext⟩ := Option.bind_eq_some_iff.mp hread
  refine ⟨text, p, hclause, ?_, hp⟩
  rw [Sql.selected, htext, Option.bind_some, hpassing]

/-- What such a clause selects of a table. -/
theorem Selects.filter_eq {ρ : Type} {columns : Sql.Columns ρ} {clause : Option Str}
    {P : ρ → Prop} [DecidablePred P] (h : Selects columns clause P) :
    ∃ text p, clause = some text ∧ Sql.selected columns text = some p ∧
      ∀ rows : List ρ, rows.filter p = rows.filter fun row => P row := by
  obtain ⟨text, p, hclause, hselected, hp⟩ := h
  refine ⟨text, p, hclause, hselected, fun rows => List.filter_congr fun row _ => ?_⟩
  rw [Bool.eq_iff_iff, hp, decide_eq_true_iff]

section

variable (boardId serialNumber : Str)

theorem selects_window (startTime endTime : UInt64) :
    Selects TimePointDB.columns (window boardId serialNumber startTime endTime) fun row =>
      row.boardId = boardId ∧ row.serialNumber = serialNumber ∧
        startTime ≤ row.timestamp ∧ row.timestamp < endTime := by
  apply selects_of_readTests (readTests_window boardId serialNumber startTime endTime) rfl
  intro row
  simp [UInt64.le_iff_toNat_le, UInt64.lt_iff_toNat_lt]

theorem selects_latestAtOrBefore (minimumTime boundaryTime : UInt64) :
    Selects TimePointDB.columns (latestAtOrBefore boardId serialNumber minimumTime boundaryTime)
      fun row => row.boardId = boardId ∧ row.serialNumber = serialNumber ∧
        minimumTime ≤ row.timestamp ∧ row.timestamp ≤ boundaryTime := by
  apply selects_of_readTests
    (readTests_latestAtOrBefore boardId serialNumber minimumTime boundaryTime) rfl
  intro row
  simp [UInt64.le_iff_toNat_le]

theorem selects_earliestAtOrAfter (boundaryTime : UInt64) :
    Selects TimePointDB.columns (earliestAtOrAfter boardId serialNumber boundaryTime) fun row =>
      row.boardId = boardId ∧ row.serialNumber = serialNumber ∧ boundaryTime ≤ row.timestamp := by
  apply selects_of_readTests (readTests_earliestAtOrAfter boardId serialNumber boundaryTime) rfl
  intro row
  simp [UInt64.le_iff_toNat_le]

theorem selects_offlineEvents (startTime endTime : UInt64) :
    Selects Storage.DeviceAvailabilityEventsDB.columns
      (offlineEvents boardId serialNumber startTime endTime) fun row =>
        row.boardId = boardId ∧ row.serialNumber = serialNumber ∧
          row.eventType = "offline".toList ∧ startTime ≤ row.eventTime ∧
            row.eventTime < endTime := by
  apply selects_of_readTests (readTests_offlineEvents boardId serialNumber startTime endTime) rfl
  intro row
  simp [UInt64.le_iff_toNat_le, UInt64.lt_iff_toNat_lt]

end

/-- The rows that the selections of a window are modelled with are those of the clause. -/
theorem matching_eq_selected (q : TimePointDB.Query) :
    ∃ text p, window q.boardId q.serialNumber q.startTime q.endTime = some text ∧
      Sql.selected TimePointDB.columns text = some p ∧
        ∀ db : TimePointDB.RecordTable, db.rows.filter p = db.matching q := by
  obtain ⟨text, p, hclause, hselected, hfilter⟩ :=
    (selects_window q.boardId q.serialNumber q.startTime q.endTime).filter_eq
  exact ⟨text, p, hclause, hselected, fun db => hfilter db.rows⟩

/-- And so are the events that are counted. -/
theorem offlineEvents_eq_selected (boardId serialNumber : Str) (startTime endTime : UInt64) :
    ∃ text p, offlineEvents boardId serialNumber startTime endTime = some text ∧
      Sql.selected Storage.DeviceAvailabilityEventsDB.columns text = some p ∧
        ∀ rows, rows.filter p = Storage.DeviceAvailabilityEventsDB.offlineEvents rows boardId
          serialNumber startTime endTime :=
  (selects_offlineEvents boardId serialNumber startTime endTime).filter_eq

/-- Between quotes an escaped text is one literal with the text as its value; so no two texts have
    one escape, and the clauses select by the board and the serial number they are given. -/
theorem escaped_text_is_one_literal :
    (∀ S, scan .between ('\'' :: (ORM.escape S ++ ['\''])) = ([], .quote S)) ∧
    (∀ S T, T.head? ≠ some '\'' →
      Sql.lex ('\'' :: (ORM.escape S ++ '\'' :: T)) = (Sql.lex T).map (.literal S :: ·)) ∧
    Function.Injective ORM.escape ∧
    ∀ boardId serialNumber,
      (∀ startTime endTime,
        Selects TimePointDB.columns (window boardId serialNumber startTime endTime) fun row =>
          row.boardId = boardId ∧ row.serialNumber = serialNumber ∧
            startTime ≤ row.timestamp ∧ row.timestamp < endTime) ∧
      (∀ minimumTime boundaryTime,
        Selects TimePointDB.columns
          (latestAtOrBefore boardId serialNumber minimumTime boundaryTime) fun row =>
            row.boardId = boardId ∧ row.serialNumber = serialNumber ∧
              minimumTime ≤ row.timestamp ∧ row.timestamp ≤ boundaryTime) ∧
      (∀ boundaryTime,
        Selects TimePointDB.columns (earliestAtOrAfter boardId serialNumber boundaryTime)
          fun row => row.boardId = boardId ∧ row.serialNumber = serialNumber ∧
            boundaryTime ≤ row.timestamp) ∧
      ∀ startTime endTime,
        Selects Storage.DeviceAvailabilityEventsDB.columns
          (offlineEvents boardId serialNumber startTime endTime) fun row =>
            row.boardId = boardId ∧ row.serialNumber = serialNumber ∧
              row.eventType = "offline".toList ∧ startTime ≤ row.eventTime ∧
                row.eventTime < endTime := by
  have hescape : ORM.escape = Sql.escape := funext ORM.escape_eq
  rw [hescape]
  refine ⟨Sql.scan_quoted, fun S T hT => Sql.lex_quoted S hT, Sql.escape_injective, ?_⟩
  intro boardId serialNumber
  exact ⟨selects_window boardId serialNumber, selects_latestAtOrBefore boardId serialNumber,
    selects_earliestAtOrAfter boardId serialNumber, selects_offlineEvents boardId serialNumber⟩

end WhereClauses

end OwAnalytics
