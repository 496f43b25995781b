/-
  OwAnalytics.Storage.RecordsBySerial

  The four selections of the time points of one device (`SelectRecordsBySerial`,
  `SelectResourceRecordsBySerial`, `SelectRadioRecordsBySerial` and
  `SelectSsidRecordsBySerial` of `storage/storage_timepoints.cpp`), over the rows as
  they are stored.  They send the same statement for different columns, and ask for one
  row more than they may return.
-/

import OwAnalytics.Storage.JsonText
import OwAnalytics.Storage.RssiParser
import OwAnalytics.Storage.TimePoints

namespace OwAnalytics.TimePointDB

open Ap Boards
open Storage (limitWithOverflowSentinel parseSsidDataForRssi)

variable {F : Type} [Zero F] (L : JsonLibrary F)

/-! ## Rows and columns -/

/-- `order by timestamp, id ASC`. -/
abbrev rowLe : Record → Record → Prop := thenLe (keyLe Record.timestamp) (keyLe Record.id)

/-- The columns `id` and `timestamp`, and one with a JSON text. -/
abbrev TextColumns := Str × UInt64 × Str

/-- The loop of `ParseRadioData`; `none` where an element is no object. -/
def parseRadios : List (Document F) → Option (List (RadioTimePoint F))
  | [] => some []
  | .obj fields :: rest =>
    match RadioTimePoint.decode L (.obj fields) {} with
    | (radio, true) => (parseRadios rest).map (radio :: ·)
    | (_, false) => parseRadios rest
  -- `extract` throws, and the handler gives up the whole list.
  | _ :: _ => none

/-- `ParseRadioData`: its answer and its list. -/
def parseRadioData (json : Str) : Bool × List (RadioTimePoint F) :=
  if json.isEmpty then (true, [])
  else
    match L.parse json with
    | some (.arr items) =>
      match parseRadios L items with
      | some radios => (true, radios)
      | none => (false, [])
    | _ => (false, [])

/-! What the loops make of a row: a point, nothing if they skip it, or an exception. -/

/-- A row of `SelectRecordsBySerial`: none is skipped, and `Convert` may throw. -/
def convertRecord (row : Record) : Option (Option (DeviceTimePoint F)) :=
  (fromRecord L row).map some

/-- A row of the resource selection, whose text may throw. -/
def convertResource (row : TextColumns) : Option (Option (DeviceTimePoint F)) :=
  (toObject L (DeviceResourceTimePoint.fromJson L) {} row.2.2).map fun resourceData =>
    some { id := row.1, timestamp := row.2.1, resourceData }

/-- A row of the radio selection, skipped if its text cannot be parsed. -/
def convertRadio (row : TextColumns) : Option (Option (DeviceTimePoint F)) :=
  match parseRadioData L row.2.2 with
  | (true, radioData) => some (some { id := row.1, timestamp := row.2.1, radioData })
  | (false, _) => some none

/-- A row of the SSID selection, skipped if its text cannot be parsed. -/
def convertSsid (row : TextColumns) : Option (Option (DeviceTimePoint F)) :=
  match parseSsidDataForRssi L row.2.2 with
  | (true, ssidData) => some (some { id := row.1, timestamp := row.2.1, ssidData })
  | (false, _) => some none

/-- The points of the rows, unless one of them throws. -/
def convertRows {C : Type} (convert : C → Option (Option (DeviceTimePoint F))) (rows : List C) :
    Option (List (DeviceTimePoint F)) :=
  (rows.mapM convert).map List.reduceOption

/-! ## The selections -/

/-- What a selection is asked for. -/
structure Query where
  boardId : Str
  serialNumber : Str
  startTime : UInt64
  endTime : UInt64
  maxRecords : UInt64

/-- What `SelectRecords` and `GetRecordsPerDevice` are asked for. -/
structure LatestQuery where
  boardId : Str
  fromDate : UInt64
  lastDate : UInt64
  maxRecords : UInt64

/-- The statements that are sent to the table. -/
inductive Statement
  | bySerial (q : Query)
  /-- The time points of a board. -/
  | timeLine (q : LatestQuery)
  | latestPerDevice (q : LatestQuery)
  /-- A page of the rows of a board. -/
  | page (boardId : Str) (offset : Nat)

/-- The table `timepoints`, its rows in the order of the database.  They have different ids, the
    vector of a result has room for all of them, and a statement may fail. -/
structure RecordTable where
  rows : List Record
  nodup_id : (rows.map Record.id).Nodup
  length_lt : rows.length < 2 ^ 64
  succeeds : Statement → Bool

/-- What a selection leaves: its answer, `Recs` and `*limitExceeded`. -/
structure Selected (F : Type) [Zero F] where
  answer : Bool
  recs : List (DeviceTimePoint F)
  limitExceeded : Bool

namespace RecordTable

/-- The rows of the `WhereClause`. -/
def matching (db : RecordTable) (q : Query) : List Record :=
  db.rows.filter fun row =>
    row.boardId = q.boardId ∧ row.serialNumber = q.serialNumber ∧
      q.startTime ≤ row.timestamp ∧ row.timestamp < q.endTime

/-- The rows of the statement. -/
def rawRecords (db : RecordTable) (q : Query) : List Record :=
  let ordered := (db.matching q).insertionSort rowLe
  if q.maxRecords > 0 then ordered.take (limitWithOverflowSentinel q.maxRecords).toNat else ordered

/-- `Join`, for these columns. -/
def join {C : Type} (db : RecordTable) (q : Query) (columns : Record → C) : Option (List C) :=
  if db.succeeds (.bySerial q) then some ((db.rawRecords q).map columns) else none

section Selections

variable (L : JsonLibrary F) (db : RecordTable) (q : Query)

/-- A selection of these columns; `none` for an exception. -/
def select {C : Type} (columns : Record → C) (convert : C → Option (Option (DeviceTimePoint F))) :
    Option (Selected F) :=
  if q.endTime ≤ q.startTime then some { answer := true, recs := [], limitExceeded := false }
  else
    match db.join q columns with
    | none => some { answer := false, recs := [], limitExceeded := false }
    | some rawRecords =>
      (convertRows convert rawRecords).map fun recs =>
        { answer := true
          recs
          limitExceeded := decide (q.maxRecords > 0 ∧ rawRecords.length > q.maxRecords.toNat) }

/-- `SelectRecordsBySerial`. -/
def selectRecordsBySerial : Option (Selected F) := db.select q id (convertRecord L)

/-- `SelectResourceRecordsBySerial`. -/
def selectResourceRecordsBySerial : Option (Selected F) :=
  db.select q (fun row => (row.id, row.timestamp, row.resourceData)) (convertResource L)

/-- `SelectRadioRecordsBySerial`. -/
def selectRadioRecordsBySerial : Option (Selected F) :=
  db.select q (fun row => (row.id, row.timestamp, row.radioData)) (convertRadio L)

/-- `RssiSsidRecordCountExceedsLimit`. -/
def rssiSsidRecordCountExceedsLimit (rawRecordCount : Nat) (maxRecords : UInt64) : Bool :=
  decide (maxRecords > 0 ∧ rawRecordCount > maxRecords.toNat)

/-- `SelectSsidRecordsBySerial`, which returns no points when there are too many. -/
def selectSsidRecordsBySerial : Option (Selected F) :=
  if q.endTime ≤ q.startTime then some { answer := true, recs := [], limitExceeded := false }
  else
    match db.join q fun row => (row.id, row.timestamp, row.ssidData) with
    | none => some { answer := false, recs := [], limitExceeded := false }
    | some rawRecords =>
      if rssiSsidRecordCountExceedsLimit rawRecords.length q.maxRecords then
        some { answer := true, recs := [], limitExceeded := true }
      else
        (convertRows (convertSsid L) rawRecords).map fun recs =>
          { answer := true, recs, limitExceeded := false }

end Selections

end RecordTable

/-- The four selections. -/
inductive Selection
  | records
  | resource
  | radio
  | ssid

namespace Selection

variable (L : JsonLibrary F)

/-- The selection, over a table. -/
def run (s : Selection) (db : RecordTable) (q : Query) : Option (Selected F) :=
  match s with
  | .records => db.selectRecordsBySerial L q
  | .resource => db.selectResourceRecordsBySerial L q
  | .radio => db.selectRadioRecordsBySerial L q
  | .ssid => db.selectSsidRecordsBySerial L q

/-- What the selection makes of a row. -/
def point (s : Selection) (row : Record) : Option (Option (DeviceTimePoint F)) :=
  match s with
  | .records => convertRecord L row
  | .resource => convertResource L (row.id, row.timestamp, row.resourceData)
  | .radio => convertRadio L (row.id, row.timestamp, row.radioData)
  | .ssid => convertSsid L (row.id, row.timestamp, row.ssidData)

end Selection

/-! ## Texts that can be read -/

section Texts

variable {L : JsonLibrary F}

omit [Zero F] in
/-- Empty, or the text of an object. -/
def IsObjectText (L : JsonLibrary F) (text : Str) : Prop :=
  text = [] ∨ ∃ fields, L.parse text = some (.obj fields)

omit [Zero F] in
/-- Empty, or the text of an array of objects. -/
def IsArrayText (L : JsonLibrary F) (text : Str) : Prop :=
  text = [] ∨ ∃ items, L.parse text = some (.arr items) ∧ ∀ d ∈ items, ∃ fields, d = .obj fields

omit [Zero F] in
/-- A row whose texts are those of its records. -/
structure Record.WellFormed (L : JsonLibrary F) (row : Record) : Prop where
  apData : IsObjectText L row.apData
  ssidData : IsArrayText L row.ssidData
  radioData : IsArrayText L row.radioData
  deviceInfo : IsObjectText L row.deviceInfo
  resourceData : IsObjectText L row.resourceData

omit [Zero F] in
theorem isSome_toObject {R : Type} (decode : R → Document F → R) (result : R) (text : Str) :
    (toObject L decode result text).isSome = true ↔ IsObjectText L text := by
  rw [toObject, IsObjectText]
  by_cases hempty : text = []
  · simp [hempty]
  · rw [if_neg (by simpa using hempty), or_iff_right hempty]
    split
    · rename_i fields hparse
      exact iff_of_true rfl ⟨fields, hparse⟩
    · rename_i hparse
      refine iff_of_false Bool.false_ne_true ?_
      rintro ⟨fields, h⟩
      exact hparse fields h

theorem parseRadios_isSome {items : List (Document F)}
    (h : ∀ d ∈ items, ∃ fields, d = .obj fields) :
    (parseRadios L items).isSome = true := by
  induction items with
  | nil => rfl
  | cons d rest ih =>
      rw [List.forall_mem_cons] at h
      obtain ⟨⟨fields, rfl⟩, hrest⟩ := h
      rw [parseRadios]
      split
      · rw [Option.isSome_map]
        exact ih hrest
      · exact ih hrest

theorem exists_parseRadioData {text : Str} (h : IsArrayText L text) :
    ∃ radios, parseRadioData L text = (true, radios) := by
  rw [parseRadioData]
  by_cases hempty : text = []
  · exact ⟨[], by simp [hempty]⟩
  · obtain ⟨items, hparse, hobj⟩ := h.resolve_left hempty
    obtain ⟨radios, hradios⟩ := Option.isSome_iff_exists.mp (parseRadios_isSome (L := L) hobj)
    rw [if_neg (by simpa using hempty), hparse]
    exact ⟨radios, by simp only [hradios]⟩

theorem exists_parseSsidDataForRssi {text : Str} (h : IsArrayText L text) :
    ∃ ssids, parseSsidDataForRssi L text = (true, ssids) := by
  by_cases hempty : text = []
  · exact ⟨[], by rw [hempty]; rfl⟩
  · obtain ⟨items, hparse, -⟩ := h.resolve_left hempty
    exact ⟨_, Storage.parseSsidDataForRssi_array hempty hparse⟩

namespace Selection

/-- What a selection reads of a row without a handler. -/
def Reads (L : JsonLibrary F) (s : Selection) (row : Record) : Prop :=
  match s with
  | .records =>
    IsObjectText L row.apData ∧ IsObjectText L row.deviceInfo ∧ IsObjectText L row.resourceData
  | .resource => IsObjectText L row.resourceData
  | .radio => True
  | .ssid => True

omit [Zero F] in
/-- The selection of whole rows reads what the others read. -/
theorem Reads.of_records {row : Record} (h : Selection.records.Reads L row) (s : Selection) :
    s.Reads L row := by
  cases s with
  | records => exact h
  | resource => exact h.2.2
  | radio => trivial
  | ssid => trivial

/-- A row throws unless these texts are objects. -/
theorem isSome_point_iff {s : Selection} {row : Record} :
    (s.point L row).isSome = true ↔ s.Reads L row := by
  cases s with
  | records =>
      rw [point, convertRecord, Option.isSome_map, fromRecord]
      rw [Reads, ← isSome_toObject (APTimePoint.fromJson L) {} row.apData,
        ← isSome_toObject (DeviceInfo.fromJson L) {} row.deviceInfo,
        ← isSome_toObject (DeviceResourceTimePoint.fromJson L) {} row.resourceData]
      cases toObject L (APTimePoint.fromJson L) {} row.apData with
      | none => simp
      | some apData =>
          cases toObject L (DeviceInfo.fromJson L) {} row.deviceInfo with
          | none => simp
          | some deviceInfo =>
              cases toObject L (DeviceResourceTimePoint.fromJson L) {} row.resourceData with
              | none => simp
              | some resourceData => simp
  -- the other selections look at one column, and two of them never throw
  | resource =>
      rw [point, convertResource, Option.isSome_map]
      exact isSome_toObject _ _ _
  | radio =>
      rw [point, convertRadio]
      refine iff_of_true ?_ trivial
      split <;> rfl
  | ssid =>
      rw [point, convertSsid]
      refine iff_of_true ?_ trivial
      split <;> rfl

/-- A row that is well formed gives a point. -/
theorem exists_point {s : Selection} {row : Record} (h : row.WellFormed L) :
    ∃ p, s.point L row = some (some p) := by
  cases s with
  | records =>
      have hsome : (Selection.records.point L row).isSome = true :=
        isSome_point_iff.mpr ⟨h.apData, h.deviceInfo, h.resourceData⟩
      rw [point, convertRecord, Option.isSome_map] at hsome
      obtain ⟨p, hp⟩ := Option.isSome_iff_exists.mp hsome
      exact ⟨p, by rw [point, convertRecord, hp]; rfl⟩
  | resource =>
      obtain ⟨resourceData, hresource⟩ := Option.isSome_iff_exists.mp
        ((isSome_toObject (DeviceResourceTimePoint.fromJson L) {} row.resourceData).mpr
          h.resourceData)
      exact ⟨_, by rw [point, convertResource, hresource]; rfl⟩
  | radio =>
      obtain ⟨radioData, hradio⟩ := exists_parseRadioData h.radioData
      exact ⟨_, by rw [point, convertRadio]; dsimp only; rw [hradio]⟩
  | ssid =>
      obtain ⟨ssidData, hssid⟩ := exists_parseSsidDataForRssi h.ssidData
      exact ⟨_, by rw [point, convertSsid]; dsimp only; rw [hssid]⟩

end Selection

/-- The columns that are no texts come out as they are. -/
theorem fromRecord_columns {row : Record} {p : DeviceTimePoint F} (h : fromRecord L row = some p) :
    p.id = row.id ∧ p.boardId = row.boardId ∧ p.timestamp = row.timestamp ∧
      p.serialNumber = row.serialNumber := by
  simp only [fromRecord, Option.pure_def, Option.bind_eq_bind, Option.bind_eq_some_iff,
    Option.some.injEq] at h
  obtain ⟨apData, -, deviceInfo, -, resourceData, -, rfl⟩ := h
  exact ⟨rfl, rfl, rfl, rfl⟩

theorem isSome_fromRecord {row : Record} :
    (fromRecord L row).isSome = true ↔ Selection.records.Reads L row := by
  have hpoint : (Selection.records.point L row).isSome = true ↔ Selection.records.Reads L row :=
    Selection.isSome_point_iff
  rwa [Selection.point, convertRecord, Option.isSome_map] at hpoint

/-! ## The loops over the rows -/

theorem convertRows_nil {C : Type} (convert : C → Option (Option (DeviceTimePoint F))) :
    convertRows convert [] = some [] := rfl

theorem convertRows_cons {C : Type} (convert : C → Option (Option (DeviceTimePoint F))) (row : C)
    (rest : List C) :
    convertRows convert (row :: rest) =
      (convert row).bind fun p => (convertRows convert rest).map (p.toList ++ ·) := by
  rw [convertRows, convertRows, List.mapM_cons]
  cases convert row with
  | none => rfl
  | some p =>
      cases rest.mapM convert with
      | none => rfl
      | some ps => cases p <;> rfl

theorem convertRows_map {C : Type} (columns : Record → C)
    (convert : C → Option (Option (DeviceTimePoint F))) (rows : List Record) :
    convertRows convert (rows.map columns) =
      convertRows (fun row => convert (columns row)) rows := by
  induction rows with
  | nil => rfl
  | cons row rest ih => rw [List.map_cons, convertRows_cons, convertRows_cons, ih]

/-- The loop goes through iff no row throws. -/
theorem isSome_convertRows {C : Type} {convert : C → Option (Option (DeviceTimePoint F))}
    {rows : List C} :
    (convertRows convert rows).isSome = true ↔ ∀ row ∈ rows, (convert row).isSome = true := by
  induction rows with
  | nil => simp [convertRows_nil]
  | cons row rest ih =>
      rw [convertRows_cons, List.forall_mem_cons, ← ih]
      cases convert row with
      | none => simp
      | some p => simp

/-- Rows that all give a point are converted one by one. -/
theorem exists_convertRows {C : Type} {convert : C → Option (Option (DeviceTimePoint F))}
    (rows : List C) (h : ∀ row ∈ rows, ∃ p, convert row = some (some p)) :
    ∃ ps, convertRows convert rows = some ps ∧
      List.Forall₂ (fun row p => convert row = some (some p)) rows ps := by
  induction rows with
  | nil => exact ⟨[], convertRows_nil convert, .nil⟩
  | cons row rest ih =>
      rw [List.forall_mem_cons] at h
      obtain ⟨⟨p, hp⟩, hrest⟩ := h
      obtain ⟨ps, hps, hforall⟩ := ih hrest
      refine ⟨p :: ps, ?_, .cons hp hforall⟩
      rw [convertRows_cons, hp, hps]
      rfl

end Texts

/-! ## The limit -/

theorem le_limitWithOverflowSentinel (maxRecords : UInt64) :
    maxRecords ≤ limitWithOverflowSentinel maxRecords ∧
      (maxRecords.toNat + 1 < 2 ^ 64 →
        (limitWithOverflowSentinel maxRecords).toNat = maxRecords.toNat + 1) := by
  rw [limitWithOverflowSentinel]
  split_ifs with hmax
  · refine ⟨UInt64.le_refl _, fun hlt => ?_⟩
    rw [hmax] at hlt
    exact absurd hlt (by decide)
  · have hlt : maxRecords.toNat + 1 < 2 ^ 64 := by
      have hne : maxRecords.toNat ≠ 2 ^ 64 - 1 := fun heq =>
        hmax (UInt64.toNat_inj.mp (by rw [heq]; rfl))
      have := maxRecords.toNat_lt
      omega
    have hadd : (maxRecords + 1).toNat = maxRecords.toNat + 1 := by
      rw [UInt64.toNat_add, show (1 : UInt64).toNat = 1 from rfl, Nat.mod_eq_of_lt hlt]
    refine ⟨?_, fun _ => hadd⟩
    rw [UInt64.le_iff_toNat_le, hadd]
    exact Nat.le_succ _

namespace RecordTable

variable {db : RecordTable} {q : Query}

/-- The statement has more rows than may be returned. -/
def Exceeds (db : RecordTable) (q : Query) : Prop :=
  q.maxRecords > 0 ∧ (db.rawRecords q).length > q.maxRecords.toNat

instance (db : RecordTable) (q : Query) : Decidable (db.Exceeds q) :=
  inferInstanceAs (Decidable (_ ∧ _))

theorem length_matching_lt (db : RecordTable) (q : Query) : (db.matching q).length < 2 ^ 64 :=
  Nat.lt_of_le_of_lt (List.length_filter_le _ _) db.length_lt

/-- A window that is empty or inverted has no rows. -/
theorem matching_of_le (db : RecordTable) (h : q.endTime ≤ q.startTime) : db.matching q = [] := by
  rw [matching, List.filter_eq_nil_iff]
  intro row _ hrow
  obtain ⟨-, -, hstart, hend⟩ := of_decide_eq_true hrow
  exact UInt64.lt_irrefl _ (UInt64.lt_of_le_of_lt hstart (UInt64.lt_of_lt_of_le hend h))

/-- The row that is asked for in excess shows that there are too many. -/
theorem exceeds_iff :
    db.Exceeds q ↔ 0 < q.maxRecords ∧ q.maxRecords.toNat < (db.matching q).length := by
  refine and_congr_right fun hpos => ?_
  have hlength := db.length_matching_lt q
  have hlimit := (le_limitWithOverflowSentinel q.maxRecords).2
  rw [rawRecords, if_pos hpos, List.length_take, List.length_insertionSort]
  -- The sentinel is one more, unless the limit is the greatest number there is.
  by_cases hlt : q.maxRecords.toNat + 1 < 2 ^ 64
  · rw [hlimit hlt]
    omega
  · -- all rows of the table are fewer than the limit
    have hle := (UInt64.le_iff_toNat_le).mp (le_limitWithOverflowSentinel q.maxRecords).1
    omega

theorem rawRecords_of_not_exceeds (h : ¬ db.Exceeds q) :
    db.rawRecords q = (db.matching q).insertionSort rowLe := by
  rw [rawRecords]
  split_ifs with hpos
  · have hfew : (db.matching q).length ≤ q.maxRecords.toNat := by
      by_contra hmany
      exact h (exceeds_iff.mpr ⟨hpos, by omega⟩)
    have hle := (UInt64.le_iff_toNat_le).mp (le_limitWithOverflowSentinel q.maxRecords).1
    exact List.take_of_length_le (by rw [List.length_insertionSort]; omega)
  · rfl

theorem mem_of_mem_rawRecords {row : Record} (h : row ∈ db.rawRecords q) : row ∈ db.rows := by
  have hsorted : row ∈ (db.matching q).insertionSort rowLe := by
    rw [rawRecords] at h
    split_ifs at h
    · exact List.mem_of_mem_take h
    · exact h
  rw [List.mem_insertionSort] at hsorted
  exact List.mem_of_mem_filter hsorted

end RecordTable

namespace Selection

variable {L : JsonLibrary F} {db : RecordTable} {q : Query}

theorem run_of_le (s : Selection) (h : q.endTime ≤ q.startTime) :
    s.run L db q = some { answer := true, recs := [], limitExceeded := false } := by
  cases s with
  | ssid => exact if_pos h
  | _ => exact if_pos h

/-- The points of the rows; only the selection of SSIDs returns none when there are too many. -/
theorem run_of_lt (s : Selection) (db : RecordTable) (h : ¬ q.endTime ≤ q.startTime)
    (hsucceeds : db.succeeds (.bySerial q) = true) :
    (¬ db.Exceeds q ∨ s ≠ .ssid →
        s.run L db q = (convertRows (s.point L) (db.rawRecords q)).map fun recs =>
          { answer := true, recs, limitExceeded := decide (db.Exceeds q) }) ∧
      (db.Exceeds q → s = .ssid →
        s.run L db q = some { answer := true, recs := [], limitExceeded := true }) := by
  have hselect : ∀ {C : Type} (columns : Record → C)
      (convert : C → Option (Option (DeviceTimePoint F))),
      db.select q columns convert =
        (convertRows (fun row => convert (columns row)) (db.rawRecords q)).map fun recs =>
          { answer := true, recs, limitExceeded := decide (db.Exceeds q) } := by
    intro C columns convert
    rw [RecordTable.select, if_neg h, RecordTable.join, if_pos hsucceeds, ← convertRows_map]
    simp only [List.length_map]
    rfl
  cases s with
  | records => exact ⟨fun _ => hselect id (convertRecord L), nofun⟩
  | resource => exact ⟨fun _ => hselect _ (convertResource L), nofun⟩
  | radio => exact ⟨fun _ => hselect _ (convertRadio L), nofun⟩
  -- the SSID selection tests the limit before it converts
  | ssid =>
      have hexceeds : RecordTable.rssiSsidRecordCountExceedsLimit
          ((db.rawRecords q).map fun row => (row.id, row.timestamp, row.ssidData)).length
          q.maxRecords = decide (db.Exceeds q) := by
        rw [List.length_map]
        rfl
      rw [run, RecordTable.selectSsidRecordsBySerial, if_neg h, RecordTable.join,
        if_pos hsucceeds]
      simp only [hexceeds]
      refine ⟨fun hnot => ?_, fun hexc _ => ?_⟩
      · have hno : ¬ db.Exceeds q := hnot.resolve_right (fun hne => hne rfl)
        rw [decide_eq_false hno, if_neg Bool.false_ne_true, convertRows_map]
        rfl
      · rw [decide_eq_true hexc, if_pos rfl]

end Selection

/-- A selection says that the limit is exceeded iff there is one and more rows match; otherwise it
    returns a point for each row that matches, once, in the order of the statement.  A window that
    is empty or inverted has none, and the limit of the statement is not smaller than the limit. -/
theorem sample_limit_exact (L : JsonLibrary F) (s : Selection) (db : RecordTable) (q : Query)
    (hrows : ∀ row ∈ db.rows, row.WellFormed L) (hsucceeds : db.succeeds (.bySerial q) = true) :
    ∃ result, s.run L db q = some result ∧ result.answer = true ∧
      (result.limitExceeded = true ↔
        0 < q.maxRecords ∧ q.maxRecords.toNat < (db.matching q).length) ∧
      (result.limitExceeded = false →
        ∃ ordered : List Record, ordered.Perm (db.matching q) ∧ ordered.Pairwise rowLe ∧
          List.Forall₂ (fun row p => s.point L row = some (some p)) ordered result.recs) ∧
      (q.endTime ≤ q.startTime → result.recs = []) ∧
      q.maxRecords ≤ limitWithOverflowSentinel q.maxRecords := by
  have hlimit := (le_limitWithOverflowSentinel q.maxRecords).1
  by_cases hwindow : q.endTime ≤ q.startTime
  · have hnone := RecordTable.matching_of_le db hwindow
    refine ⟨_, s.run_of_le hwindow, rfl, ?_, fun _ => ⟨[], ?_⟩, fun _ => rfl, hlimit⟩
    · simp [hnone]
    · rw [hnone]
      exact ⟨.refl _, .nil, .nil⟩
  · obtain ⟨hpoints, hcleared⟩ := s.run_of_lt (L := L) db hwindow hsucceeds
    by_cases hexceeds : db.Exceeds q
    · -- what is returned beyond the limit is left open
      have hflag : ∃ result, s.run L db q = some result ∧ result.answer = true ∧
          result.limitExceeded = true := by
        by_cases hssid : s = .ssid
        · exact ⟨_, hcleared hexceeds hssid, rfl, rfl⟩
        · obtain ⟨ps, hps, -⟩ := exists_convertRows (db.rawRecords q) fun row hrow =>
            Selection.exists_point (s := s) (hrows row (RecordTable.mem_of_mem_rawRecords hrow))
          refine ⟨_, (hpoints (.inr hssid)).trans (by rw [hps]; rfl), rfl, ?_⟩
          exact decide_eq_true hexceeds
      obtain ⟨result, hrun, hanswer, hexc⟩ := hflag
      refine ⟨result, hrun, hanswer, iff_of_true hexc (RecordTable.exceeds_iff.mp hexceeds),
        fun hfalse => ?_, fun h => absurd h hwindow, hlimit⟩
      rw [hexc] at hfalse
      cases hfalse
    · obtain ⟨ps, hps, hforall⟩ := exists_convertRows (db.rawRecords q) fun row hrow =>
        Selection.exists_point (s := s) (hrows row (RecordTable.mem_of_mem_rawRecords hrow))
      have hrun := hpoints (.inl hexceeds)
      rw [hps] at hrun
      refine ⟨_, hrun, rfl, ?_, fun _ => ?_, fun h => absurd h hwindow, hlimit⟩
      · rw [decide_eq_true_iff]
        exact RecordTable.exceeds_iff
      · refine ⟨db.rawRecords q, ?_, ?_, hforall⟩
        · rw [RecordTable.rawRecords_of_not_exceeds hexceeds]
          exact List.perm_insertionSort rowLe _
        · rw [RecordTable.rawRecords_of_not_exceeds hexceeds]
          exact List.pairwise_insertionSort rowLe _

/-- A row of the device without a text. -/
def emptyRow (id : Str) (timestamp : UInt64) : Record where
  id := id
  boardId := ['b']
  timestamp := timestamp
  apData := []
  ssidData := []
  radioData := []
  deviceInfo := []
  serialNumber := ['s']
  resourceData := []
  venueId := ['v']

omit [Zero F] in
theorem wellFormed_emptyRow (L : JsonLibrary F) (id : Str) (timestamp : UInt64) :
    (emptyRow id timestamp).WellFormed L :=
  ⟨.inl rfl, .inl rfl, .inl rfl, .inl rfl, .inl rfl⟩

/-- Two rows of one time. -/
def twoRows : RecordTable where
  rows := [emptyRow ['y'] 5, emptyRow ['x'] 5]
  nodup_id := by decide
  length_lt := by decide
  succeeds _ := true

/-- The rows of one device from 0 on. -/
def allOf (maxRecords : UInt64) : Query where
  boardId := ['b']
  serialNumber := ['s']
  startTime := 0
  endTime := 9
  maxRecords := maxRecords

theorem sample_limit_exact_twoRows :
    ∃ result, Selection.ssid.run JsonText.library twoRows (allOf 1) = some result ∧
      result.answer = true ∧
      (result.limitExceeded = true ↔
        0 < (allOf 1).maxRecords ∧
          (allOf 1).maxRecords.toNat < (twoRows.matching (allOf 1)).length) ∧
      (result.limitExceeded = false →
        ∃ ordered : List Record, ordered.Perm (twoRows.matching (allOf 1)) ∧
          ordered.Pairwise rowLe ∧
          List.Forall₂ (fun row p => Selection.ssid.point JsonText.library row = some (some p))
            ordered result.recs) ∧
      ((allOf 1).endTime ≤ (allOf 1).startTime → result.recs = []) ∧
      (allOf 1).maxRecords ≤ limitWithOverflowSentinel (allOf 1).maxRecords := by
  refine sample_limit_exact JsonText.library .ssid twoRows (allOf 1) (fun row hrow => ?_) rfl
  rcases List.mem_cons.mp hrow with rfl | hrow
  · exact wellFormed_emptyRow _ _ _
  · rw [List.mem_singleton.mp hrow]
    exact wellFormed_emptyRow _ _ _

end OwAnalytics.TimePointDB
