/-
  OwAnalytics.Storage.LatestPerDevice

  `GetRecordsPerDevice` with `GetCurrentDeviceFromBoard` (`storage/storage_timepoints.cpp`).
  The database selects the latest row of each device and cuts the list off; the rows of
  devices that are not monitored any more are taken out afterwards.
-/

import OwAnalytics.Lib.DistinctOn
import OwAnalytics.Storage.RecordsBySerial

namespace OwAnalytics.TimePointDB

open Ap

variable {F : Type} [Zero F]

/-! ## The selection -/

/-- `order by serialNumber, timestamp DESC, id DESC`. -/
abbrev latestLe : Record → Record → Prop :=
  thenLe (keyLe Record.serialNumber) (thenLe (keyGe Record.timestamp) (keyGe Record.id))

/-- The `whereClause`. -/
def perDeviceClause (q : LatestQuery) (row : Record) : Bool :=
  row.boardId = q.boardId &&
    if q.fromDate ≠ 0 ∨ q.lastDate ≠ 0 then
      if q.fromDate ≠ 0 ∧ q.lastDate ≠ 0 then
        decide (row.timestamp ≥ q.fromDate ∧ row.timestamp ≤ q.lastDate)
      else if q.fromDate ≠ 0 then decide (row.timestamp ≥ q.fromDate)
      else decide (row.timestamp ≤ q.lastDate)
    else true

/-- `GetCurrentDeviceFromBoard`, of the devices that `VenueCoordinator::GetDevices` lists. -/
def getCurrentDeviceFromBoard (devices : List (DeviceInfo F)) : List Str :=
  (devices.map fun dev => dev.serialNumber).dedup

/-- One turn of the loop over the rows. -/
def convertCurrent (L : JsonLibrary F) (currentSerials : List Str) (row : Record) :
    Option (Option (DeviceTimePoint F)) :=
  (fromRecord L row).map fun point =>
    if currentSerials.contains point.serialNumber then some point else none

/-- The rows of the statement. -/
def RecordTable.latestRows (db : RecordTable) (q : LatestQuery) : List Record :=
  (distinctOn Record.serialNumber
    ((db.rows.filter (perDeviceClause q)).insertionSort latestLe)).take q.maxRecords.toNat

/-- `GetRecordsPerDevice`: its answer and the records; `none` for an exception. -/
def RecordTable.getRecordsPerDevice (L : JsonLibrary F) (db : RecordTable)
    (devices : List (DeviceInfo F)) (q : LatestQuery) : Option (Bool × List (DeviceTimePoint F)) :=
  if q.maxRecords = 0 then some (true, [])
  else if db.succeeds (.latestPerDevice q) then
    let currentSerials := getCurrentDeviceFromBoard devices
    if currentSerials.isEmpty then some (true, [])
    else
      (convertRows (convertCurrent L currentSerials) (db.latestRows q)).map
        fun recs => (true, recs)
  else some (false, [])

/-! ## The latest of each device -/

/-- A row of the board with a time stamp within the bounds that are given. -/
def Within (q : LatestQuery) (row : Record) : Prop :=
  row.boardId = q.boardId ∧ (q.fromDate ≠ 0 → q.fromDate ≤ row.timestamp) ∧
    (q.lastDate ≠ 0 → row.timestamp ≤ q.lastDate)

instance (q : LatestQuery) : DecidablePred (Within q) :=
  fun _ => inferInstanceAs (Decidable (_ ∧ _))

theorem perDeviceClause_iff {q : LatestQuery} {row : Record} :
    perDeviceClause q row = true ↔ Within q row := by
  unfold perDeviceClause Within
  by_cases hfrom : q.fromDate = 0 <;> by_cases hlast : q.lastDate = 0 <;> simp [hfrom, hlast]

namespace RecordTable

/-- The row of a device within the bounds that is greatest by its time stamp and its id. -/
structure IsLatest (db : RecordTable) (q : LatestQuery) (row : Record) : Prop where
  mem : row ∈ db.rows
  within : Within q row
  greatest : ∀ other ∈ db.rows, Within q other → other.serialNumber = row.serialNumber →
    rowLe other row

/-- The serial numbers with a row within the bounds, each once and in their order. -/
def reporting (db : RecordTable) (q : LatestQuery) : List Str :=
  ((db.rows.filter fun row => Within q row).map Record.serialNumber).dedup.insertionSort (keyLe id)

variable {db : RecordTable} {q : LatestQuery} {row : Record}

theorem eq_of_rowLe {a b : Record} (ha : a ∈ db.rows) (hb : b ∈ db.rows) (hab : rowLe a b)
    (hba : rowLe b a) : a = b :=
  List.inj_on_of_nodup_map db.nodup_id ha hb (keyLe_antisymm (hab.2 hba.1) (hba.2 hab.1))

theorem IsLatest.unique {row' : Record} (h : db.IsLatest q row) (h' : db.IsLatest q row')
    (heq : row.serialNumber = row'.serialNumber) : row = row' :=
  eq_of_rowLe h.mem h'.mem (h'.greatest row h.mem h.within heq)
    (h.greatest row' h'.mem h'.within heq.symm)

/-- The rows before they are cut off. -/
abbrev distinctRows (db : RecordTable) (q : LatestQuery) : List Record :=
  distinctOn Record.serialNumber ((db.rows.filter (perDeviceClause q)).insertionSort latestLe)

/-- They have the serial numbers that report, in their order. -/
theorem map_distinctRows : (db.distinctRows q).map Record.serialNumber = db.reporting q := by
  have hfilter : db.rows.filter (perDeviceClause q) = db.rows.filter fun row => Within q row :=
    List.filter_congr fun row _ => Bool.eq_iff_iff.mpr
      (perDeviceClause_iff.trans (decide_eq_true_iff).symm)
  have hsorted : ((db.rows.filter (perDeviceClause q)).insertionSort latestLe).Pairwise
      (keyLe Record.serialNumber) :=
    (List.pairwise_insertionSort latestLe _).imp fun h => h.1
  have hperm : (((db.rows.filter (perDeviceClause q)).insertionSort latestLe).map
      Record.serialNumber).dedup.Perm (db.reporting q) := by
    rw [hfilter, reporting]
    exact ((List.perm_insertionSort latestLe _).map _).dedup.trans
      (List.perm_insertionSort (keyLe id) _).symm
  rw [map_distinctOn_of_sorted hsorted]
  refine hperm.eq_of_pairwise (fun a b _ _ hab hba => keyLe_antisymm hab hba) ?_
    (List.pairwise_insertionSort (keyLe id) _)
  have hserials : (((db.rows.filter (perDeviceClause q)).insertionSort latestLe).map
      Record.serialNumber).Pairwise (keyLe id) := List.pairwise_map.mpr hsorted
  exact hserials.sublist (List.dedup_sublist _)

theorem nodup_reporting : (db.reporting q).Nodup :=
  (List.perm_insertionSort (keyLe id) _).nodup_iff.mpr (List.nodup_dedup _)

/-- They are the latest rows of the devices. -/
theorem mem_distinctRows : row ∈ db.distinctRows q ↔ db.IsLatest q row := by
  have hlatest : ∀ x, x ∈ db.distinctRows q → db.IsLatest q x := by
    intro x hx
    have hmem : ∀ y, y ∈ (db.rows.filter (perDeviceClause q)).insertionSort latestLe ↔
        y ∈ db.rows ∧ Within q y := by
      intro y
      rw [List.mem_insertionSort, List.mem_filter, perDeviceClause_iff]
    obtain ⟨hin, hwithin⟩ := (hmem x).mp (mem_of_mem_distinctOn hx)
    refine ⟨hin, hwithin, fun other hother hwithin' heq => ?_⟩
    have : Std.Refl latestLe := ⟨fun a => (total_of latestLe a a).elim id id⟩
    have hfirst := first_of_mem_distinctOn (fun _ _ h => h.1)
      (List.pairwise_insertionSort latestLe _) hx ((hmem other).mpr ⟨hother, hwithin'⟩) heq
    -- within one device the order is the reverse one of time stamps and ids
    refine hfirst.2 ?_
    rw [keyLe, heq]
    exact (total_of (keyLe id) x.serialNumber x.serialNumber).elim id id
  refine ⟨hlatest row, fun h => ?_⟩
  have hserial : row.serialNumber ∈ db.reporting q := by
    rw [reporting, List.mem_insertionSort, List.mem_dedup]
    exact List.mem_map_of_mem (List.mem_filter.mpr ⟨h.mem, decide_eq_true h.within⟩)
  rw [← map_distinctRows] at hserial
  obtain ⟨x, hx, heq⟩ := List.mem_map.mp hserial
  exact (hlatest x hx).unique h heq ▸ hx

/-- What is left are the latest rows of the first devices. -/
theorem mem_latestRows : row ∈ db.latestRows q ↔
    db.IsLatest q row ∧ row.serialNumber ∈ (db.reporting q).take q.maxRecords.toNat := by
  have htake : (db.reporting q).take q.maxRecords.toNat =
      (db.latestRows q).map Record.serialNumber := by
    rw [← map_distinctRows, latestRows, List.map_take]
  rw [htake]
  refine ⟨fun h => ⟨mem_distinctRows.mp (List.mem_of_mem_take h), List.mem_map_of_mem h⟩, ?_⟩
  rintro ⟨hlatest, hserial⟩
  obtain ⟨x, hx, heq⟩ := List.mem_map.mp hserial
  exact (mem_distinctRows.mp (List.mem_of_mem_take hx)).unique hlatest heq ▸ hx

end RecordTable

/-! ## What is returned -/

/-- One record for each device that is monitored and reports within the bounds, its latest, for as
    many devices as are asked for if there are as many. -/
structure ReturnsLatest (L : JsonLibrary F) (db : RecordTable) (q : LatestQuery)
    (currentSerials : List Str) (recs : List (DeviceTimePoint F)) (rows : List Record) : Prop where
  decoded : List.Forall₂ (fun row p => fromRecord L row = some p) rows recs
  latest : ∀ row ∈ rows, db.IsLatest q row
  monitored : ∀ row ∈ rows, row.serialNumber ∈ currentSerials
  once : (rows.map Record.serialNumber).Nodup
  length_eq : rows.length =
    min q.maxRecords.toNat ((db.reporting q).filter fun s => s ∈ currentSerials).length

/-- The first devices that report, in the order of their serial numbers and as many as are asked
    for, are all monitored, or none is that comes after them. -/
def LimitKeeps (db : RecordTable) (q : LatestQuery) (currentSerials : List Str) : Prop :=
  (∀ s ∈ (db.reporting q).take q.maxRecords.toNat, s ∈ currentSerials) ∨
    ∀ s ∈ (db.reporting q).drop q.maxRecords.toNat, s ∉ currentSerials

/-- No device is monitored, or the latest rows of these first devices can be read, monitored or
    not. -/
def Readable (L : JsonLibrary F) (db : RecordTable) (q : LatestQuery) (currentSerials : List Str) :
    Prop :=
  currentSerials = [] ∨ ∀ row, db.IsLatest q row →
    row.serialNumber ∈ (db.reporting q).take q.maxRecords.toNat → Selection.records.Reads L row

variable {L : JsonLibrary F} {currentSerials : List Str}

/-- The loop goes through iff all rows can be read, and keeps those of monitored devices. -/
theorem convertRows_convertCurrent (currentSerials : List Str) (rows : List Record) :
    ((convertRows (convertCurrent L currentSerials) rows).isSome = true ↔
        ∀ row ∈ rows, Selection.records.Reads L row) ∧
      ∀ recs, convertRows (convertCurrent L currentSerials) rows = some recs →
        List.Forall₂ (fun row p => fromRecord L row = some p)
          (rows.filter fun row => row.serialNumber ∈ currentSerials) recs := by
  refine ⟨?_, ?_⟩
  · refine isSome_convertRows.trans (forall₂_congr fun row _ => ?_)
    rw [convertCurrent, Option.isSome_map]
    exact isSome_fromRecord
  · induction rows with
    | nil =>
        intro recs hrecs
        obtain rfl := Option.some.inj hrecs
        exact .nil
    | cons row rest ih =>
        intro recs hrecs
        rw [convertRows_cons] at hrecs
        obtain ⟨o, hrow, hrest⟩ := Option.bind_eq_some_iff.mp hrecs
        obtain ⟨ps, hps, rfl⟩ := Option.map_eq_some_iff.mp hrest
        obtain ⟨p, hp, rfl⟩ := Option.map_eq_some_iff.mp hrow
        -- The serial number that is compared is that of the point, which is the row's.
        have hserial := (fromRecord_columns hp).2.2.2
        by_cases hmonitored : row.serialNumber ∈ currentSerials
        · rw [List.filter_cons_of_pos (by simpa using hmonitored), hserial,
            if_pos (by simpa using hmonitored)]
          exact .cons hp (ih ps hps)
        · rw [List.filter_cons_of_neg (by simpa using hmonitored), hserial,
            if_neg (by simpa using hmonitored)]
          exact ih ps hps

/-- The rows of monitored devices that are left, of those there are. -/
theorem length_filter_latestRows (db : RecordTable) (q : LatestQuery) :
    ((db.latestRows q).filter fun row => row.serialNumber ∈ currentSerials).length =
        min q.maxRecords.toNat ((db.reporting q).filter fun s => s ∈ currentSerials).length ↔
      LimitKeeps db q currentSerials := by
  have hlength : ((db.latestRows q).filter fun row => row.serialNumber ∈ currentSerials).length =
      (((db.reporting q).take q.maxRecords.toNat).filter fun s => s ∈ currentSerials).length := by
    rw [← RecordTable.map_distinctRows, ← List.map_take, List.filter_map, List.length_map]
    rfl
  rw [hlength, length_filter_take_iff, LimitKeeps]
  simp

section Returned

variable {db : RecordTable} {q : LatestQuery} {devices : List (DeviceInfo F)}

/-- Without monitored devices nothing is read. -/
theorem returnsLatest_of_nil (L : JsonLibrary F) (db : RecordTable) (q : LatestQuery) :
    ReturnsLatest L db q [] [] [] :=
  ⟨.nil, by simp, by simp, List.nodup_nil, by simp⟩

/-- With some, the rows that are left are converted. -/
theorem getRecordsPerDevice_of_ne_nil (hmax : q.maxRecords ≠ 0)
    (hsucceeds : db.succeeds (.latestPerDevice q) = true)
    (hne : getCurrentDeviceFromBoard devices ≠ []) :
    db.getRecordsPerDevice L devices q =
      (convertRows (convertCurrent L (getCurrentDeviceFromBoard devices)) (db.latestRows q)).map
        fun recs => (true, recs) := by
  rw [RecordTable.getRecordsPerDevice, if_neg hmax, if_pos hsucceeds]
  simp only [List.isEmpty_iff, hne, if_false]

theorem readable_iff (hne : currentSerials ≠ []) :
    Readable L db q currentSerials ↔
      (convertRows (convertCurrent L currentSerials) (db.latestRows q)).isSome = true := by
  rw [(convertRows_convertCurrent (L := L) currentSerials (db.latestRows q)).1, Readable,
    or_iff_right hne]
  simp only [RecordTable.mem_latestRows, and_imp]

/-- What is returned as it should be is as long as it should be. -/
theorem keeps_of_returnsLatest {recs : List (DeviceTimePoint F)} {rows : List Record}
    (hmax : q.maxRecords ≠ 0) (hsucceeds : db.succeeds (.latestPerDevice q) = true)
    (hrecs : db.getRecordsPerDevice L devices q = some (true, recs))
    (hreturns : ReturnsLatest L db q (getCurrentDeviceFromBoard devices) recs rows) :
    LimitKeeps db q (getCurrentDeviceFromBoard devices) ∧
      Readable L db q (getCurrentDeviceFromBoard devices) := by
  by_cases hempty : getCurrentDeviceFromBoard devices = []
  · rw [hempty]
    exact ⟨.inr fun s _ => List.not_mem_nil, .inl rfl⟩
  · rw [getRecordsPerDevice_of_ne_nil hmax hsucceeds hempty] at hrecs
    obtain ⟨ps, hps, heq⟩ := Option.map_eq_some_iff.mp hrecs
    obtain ⟨-, rfl⟩ := Prod.mk.inj heq
    refine ⟨length_filter_latestRows db q |>.mp ?_, (readable_iff hempty).mpr (by rw [hps]; rfl)⟩
    rw [((convertRows_convertCurrent _ _).2 ps hps).length_eq, ← hreturns.decoded.length_eq,
      hreturns.length_eq]

/-- The latest rows of monitored devices are what should be returned, if they are as many. -/
theorem exists_returnsLatest (hmax : q.maxRecords ≠ 0)
    (hsucceeds : db.succeeds (.latestPerDevice q) = true)
    (hkeeps : LimitKeeps db q (getCurrentDeviceFromBoard devices))
    (hreadable : Readable L db q (getCurrentDeviceFromBoard devices)) :
    ∃ recs rows, db.getRecordsPerDevice L devices q = some (true, recs) ∧
      ReturnsLatest L db q (getCurrentDeviceFromBoard devices) recs rows := by
  by_cases hempty : getCurrentDeviceFromBoard devices = []
  · refine ⟨[], [], ?_, hempty ▸ returnsLatest_of_nil L db q⟩
    rw [RecordTable.getRecordsPerDevice, if_neg hmax, if_pos hsucceeds, hempty]
    rfl
  · rw [getRecordsPerDevice_of_ne_nil hmax hsucceeds hempty]
    obtain ⟨ps, hps⟩ := Option.isSome_iff_exists.mp ((readable_iff hempty).mp hreadable)
    refine ⟨ps, _, by rw [hps]; rfl, (convertRows_convertCurrent _ _).2 ps hps,
      fun row hrow => ?_, fun row hrow => ?_, ?_, (length_filter_latestRows db q).mpr hkeeps⟩
    · exact (RecordTable.mem_latestRows.mp (List.mem_of_mem_filter hrow)).1
    · exact of_decide_eq_true (List.mem_filter.mp hrow).2
    -- one row for each device, so none occurs twice
    · have hnodup : ((db.latestRows q).map Record.serialNumber).Nodup := by
        rw [RecordTable.latestRows, List.map_take, RecordTable.map_distinctRows]
        exact RecordTable.nodup_reporting.sublist (List.take_sublist _ _)
      exact hnodup.sublist (List.filter_sublist.map _)

end Returned

/-- `GetRecordsPerDevice` returns the latest records of the monitored devices iff those that are
    not monitored do not take their places and the rows can be read. -/
theorem latest_per_device_iff (L : JsonLibrary F) (db : RecordTable)
    (devices : List (DeviceInfo F)) (q : LatestQuery) (hmax : 0 < q.maxRecords)
    (hsucceeds : db.succeeds (.latestPerDevice q) = true) :
    (∃ recs rows, db.getRecordsPerDevice L devices q = some (true, recs) ∧
        ReturnsLatest L db q (getCurrentDeviceFromBoard devices) recs rows) ↔
      LimitKeeps db q (getCurrentDeviceFromBoard devices) ∧
        Readable L db q (getCurrentDeviceFromBoard devices) := by
  have hne : q.maxRecords ≠ 0 := UInt64.pos_iff_ne_zero.mp hmax
  refine ⟨?_, fun ⟨hkeeps, hreadable⟩ => exists_returnsLatest hne hsucceeds hkeeps hreadable⟩
  rintro ⟨recs, rows, hrecs, hreturns⟩
  exact keeps_of_returnsLatest hne hsucceeds hrecs hreturns

/-! ## A retired device -/

/-- A row of each of two devices of a board. -/
def twoDevices : RecordTable where
  rows := [{ emptyRow ['x'] 5 with serialNumber := ['1'] },
    { emptyRow ['y'] 3 with serialNumber := ['2'] }]
  nodup_id := by decide
  length_lt := by decide
  succeeds _ := true

/-- Any time stamp of the board. -/
def anyTime (maxRecords : UInt64) : LatestQuery where
  boardId := ['b']
  fromDate := 0
  lastDate := 0
  maxRecords := maxRecords

/-- One device is monitored. -/
def onlyDevice (serialNumber : Str) : List (DeviceInfo Int64) := [{ serialNumber := serialNumber }]

/-- The row of the device that is not monitored any more takes the only place. -/
theorem retired_device_takes_place :
    ¬ ∀ (db : RecordTable) (devices : List (DeviceInfo Int64)) (q : LatestQuery),
      0 < q.maxRecords → db.succeeds (.latestPerDevice q) = true →
        ∃ recs rows, db.getRecordsPerDevice JsonText.library devices q = some (true, recs) ∧
          ReturnsLatest JsonText.library db q (getCurrentDeviceFromBoard devices) recs rows := by
  intro h
  obtain ⟨recs, rows, hrecs, hreturns⟩ :=
    h twoDevices (onlyDevice ['2']) (anyTime 1) (by decide) rfl
  have hkeeps := (keeps_of_returnsLatest (by decide) rfl hrecs hreturns).1
  -- it comes first, and the monitored one after it
  have hreporting : twoDevices.reporting (anyTime 1) = [['1'], ['2']] := by decide +kernel
  rw [LimitKeeps, hreporting] at hkeeps
  exact absurd hkeeps (by decide)

theorem latest_per_device_iff_twoDevices :
    (∃ recs rows,
        twoDevices.getRecordsPerDevice JsonText.library (onlyDevice ['1']) (anyTime 1)
            = some (true, recs) ∧
          ReturnsLatest JsonText.library twoDevices (anyTime 1)
            (getCurrentDeviceFromBoard (onlyDevice ['1'])) recs rows) ↔
      LimitKeeps twoDevices (anyTime 1) (getCurrentDeviceFromBoard (onlyDevice ['1'])) ∧
        Readable JsonText.library twoDevices (anyTime 1)
          (getCurrentDeviceFromBoard (onlyDevice ['1'])) :=
  latest_per_device_iff JsonText.library twoDevices (onlyDevice ['1']) (anyTime 1) (by decide) rfl

end OwAnalytics.TimePointDB
