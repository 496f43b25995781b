/-
  OwAnalytics.Storage.BoardStats

  `GetStats` of `storage/storage_timepoints.cpp`: the number of rows of a board and the
  bounds of their time stamps.  The rows are visited page by page, in whatever order the
  database has them, and the bounds are those of the first and the last row; a first
  point of 0 stands for none.
-/

import OwAnalytics.Lib.Paging
import OwAnalytics.Storage.RecordsBySerial

namespace OwAnalytics.TimePointDB

open Ap

variable {F : Type} [Zero F]

/-! ## The iteration -/

/-- `DeviceTimePointStats`. -/
structure DeviceTimePointStats where
  firstPoint : UInt64 := 0
  lastPoint : UInt64 := 0
  count : UInt64 := 0

namespace RecordTable

/-- The rows of the board, in the order of the database. -/
def boardRows (db : RecordTable) (boardId : Str) : List Record :=
  db.rows.filter fun row => row.boardId = boardId

/-- `GetRecords`, where a page without rows is reported like a failure. -/
def getRecords (L : JsonLibrary F) (db : RecordTable) (boardId : Str) (offset howMany : Nat) :
    Option (List (DeviceTimePoint F)) :=
  let rows := ((db.boardRows boardId).drop offset).take howMany
  if db.succeeds (.page boardId offset) && !rows.isEmpty then convertRows (convertRecord L) rows
  else none

/-- `Batch` of `Iterate`. -/
def batch : Nat := 50

theorem forall₂_getRecords {L : JsonLibrary F} {db : RecordTable} {boardId : Str}
    {offset howMany : Nat} {points : List (DeviceTimePoint F)}
    (h : db.getRecords L boardId offset howMany = some points) :
    List.Forall₂ (fun row p => fromRecord L row = some p)
      (((db.boardRows boardId).drop offset).take howMany) points := by
  rw [getRecords] at h
  generalize ((db.boardRows boardId).drop offset).take howMany = rows at h ⊢
  split at h
  · have hsome : ∀ row ∈ rows, ∃ p, convertRecord L row = some (some p) := fun row hrow => by
      obtain ⟨o, ho⟩ := Option.isSome_iff_exists.mp
        (isSome_convertRows.mp (Option.isSome_iff_exists.mpr ⟨_, h⟩) row hrow)
      obtain ⟨p, -, rfl⟩ := Option.map_eq_some_iff.mp ho
      exact ⟨p, ho⟩
    obtain ⟨ps, hps, hforall⟩ := exists_convertRows rows hsome
    obtain rfl := Option.some.inj (h.symm.trans hps)
    refine hforall.imp fun row p hp => ?_
    obtain ⟨p', hp', heq⟩ := Option.map_eq_some_iff.mp hp
    rwa [Option.some.inj heq] at hp'
  · cases h

variable (L : JsonLibrary F) (db : RecordTable) (boardId : Str)

/-- The pages that `Iterate` asks for. -/
def pager : Pager (DeviceTimePoint F) where
  batch := batch
  batch_pos := by decide
  total := (db.boardRows boardId).length
  page offset := db.getRecords L boardId offset batch
  length_le h := by
    rw [← (forall₂_getRecords h).length_eq, List.length_take, List.length_drop]
    exact Nat.min_le_right _ _

/-- The callback of `GetStats`. -/
def addPoint (S : DeviceTimePointStats) (R : DeviceTimePoint F) : DeviceTimePointStats × Bool :=
  ({ count := S.count + 1
     firstPoint := if S.firstPoint = 0 then R.timestamp else S.firstPoint
     lastPoint := R.timestamp }, true)

/-- `GetStats`, which always answers `true`. -/
def getStats : DeviceTimePointStats := (db.pager L boardId).iterate addPoint 0 {}

end RecordTable

/-! ## What the callback makes of the time stamps -/

/-- One turn of the callback. -/
def addTime (S : DeviceTimePointStats) (timestamp : UInt64) : DeviceTimePointStats where
  count := S.count + 1
  firstPoint := if S.firstPoint = 0 then timestamp else S.firstPoint
  lastPoint := timestamp

/-- The first point is the first that is not 0, the last point the last one. -/
theorem foldl_addTime (S : DeviceTimePointStats) (times : List UInt64) :
    (times.foldl addTime S).count = S.count + UInt64.ofNat times.length ∧
      (times.foldl addTime S).firstPoint =
        (if S.firstPoint = 0 then (times.find? (· ≠ 0)).getD 0 else S.firstPoint) ∧
      (times.foldl addTime S).lastPoint = times.getLast?.getD S.lastPoint := by
  induction times generalizing S with
  | nil =>
      refine ⟨(UInt64.add_zero _).symm, ?_, rfl⟩
      split_ifs with hzero
      · exact hzero
      · rfl
  | cons t times ih =>
      obtain ⟨hcount, hfirst, hlast⟩ := ih (addTime S t)
      rw [List.foldl_cons]
      refine ⟨?_, ?_, ?_⟩
      · rw [hcount, List.length_cons, UInt64.ofNat_add, addTime]
        dsimp only
        rw [UInt64.add_assoc, UInt64.add_comm 1]
        rfl
      · -- A first point of 0 is replaced by the next time stamp, once it is not 0 it stays.
        rw [hfirst, addTime]
        dsimp only
        by_cases hzero : S.firstPoint = 0
        · by_cases ht : t = 0
          · simp [hzero, ht]
          · simp [hzero, ht]
        · simp [hzero]
      · rw [hlast, List.getLast?_cons, addTime]
        rfl

/-- The number of the time stamps and their bounds, 0 where there are none. -/
structure IsStats (times : List UInt64) (S : DeviceTimePointStats) : Prop where
  count : S.count.toNat = times.length
  none : times = [] → S.firstPoint = 0 ∧ S.lastPoint = 0
  least : times ≠ [] → S.firstPoint ∈ times ∧ ∀ t ∈ times, S.firstPoint ≤ t
  greatest : times ≠ [] → S.lastPoint ∈ times ∧ ∀ t ∈ times, t ≤ S.lastPoint

/-- A least time stamp comes first and a greatest one last, and one is 0 only if all are. -/
structure BoundsAtEnds (times : List UInt64) : Prop where
  first : ∀ t ∈ times.head?, ∀ u ∈ times, t ≤ u
  last : ∀ t ∈ times.getLast?, ∀ u ∈ times, u ≤ t
  zero : 0 ∈ times → ∀ t ∈ times, t = 0

/-- The first time stamp that is not 0 is least iff the first one is and 0 is not among others. -/
theorem least_find_iff {a : UInt64} {rest : List UInt64} {first : UInt64}
    (hfirst : first = ((a :: rest).find? (· ≠ 0)).getD 0) :
    (first ∈ a :: rest ∧ ∀ t ∈ a :: rest, first ≤ t) ↔
      (∀ t ∈ a :: rest, a ≤ t) ∧ (0 ∈ a :: rest → ∀ t ∈ a :: rest, t = 0) := by
  have ha : a ∈ a :: rest := List.mem_cons_self
  by_cases hall : ∀ t ∈ a :: rest, t = 0
  · have hzero : first = 0 := by
      rw [hfirst, List.find?_eq_none.mpr fun t ht => by simpa using hall t ht]
      rfl
    have hle : ∀ u : UInt64, u = 0 → ∀ t ∈ a :: rest, u ≤ t := fun u hu t ht => by
      rw [hu, hall t ht]
      exact UInt64.le_refl 0
    refine iff_of_true ⟨?_, hle first hzero⟩ ⟨hle a (hall a ha), fun _ => hall⟩
    rw [hzero, ← hall a ha]
    exact ha
  · by_cases h0 : 0 ∈ a :: rest
    · -- the time stamp that is found is not 0, which is least
      refine iff_of_false (fun h => ?_) fun h => hall (h.2 h0)
      obtain ⟨t, ht⟩ : ∃ t, (a :: rest).find? (· ≠ 0) = some t := by
        rw [← Option.isSome_iff_exists, List.find?_isSome]
        simp only [not_forall] at hall
        obtain ⟨t, ht, hne⟩ := hall
        exact ⟨t, ht, by simpa using hne⟩
      have hne : first ≠ 0 := by
        rw [hfirst, ht]
        simpa using List.find?_some ht
      exact hne (UInt64.le_antisymm (h.2 0 h0) UInt64.zero_le)
    · have hne : a ≠ 0 := fun heq => h0 (heq ▸ ha)
      have hhead : first = a := by
        rw [hfirst, List.find?_cons_of_pos (by simpa using hne)]
        rfl
      rw [hhead, and_iff_right ha, and_iff_left fun hmem => absurd hmem h0]

theorem isStats_foldl_iff {times : List UInt64} (hlength : times.length < 2 ^ 64) :
    IsStats times (times.foldl addTime {}) ↔ BoundsAtEnds times := by
  obtain ⟨hcount, hfirst, hlast⟩ := foldl_addTime {} times
  rw [if_pos rfl] at hfirst
  have hcount' : (times.foldl addTime {}).count.toNat = times.length := by
    rw [hcount, UInt64.zero_add, UInt64.toNat_ofNat', Nat.mod_eq_of_lt hlength]
  generalize times.foldl addTime {} = S at *
  cases times with
  | nil => exact iff_of_true ⟨hcount', fun _ => ⟨hfirst, hlast⟩, nofun, nofun⟩ ⟨nofun, nofun, nofun⟩
  | cons a rest =>
      have hne : a :: rest ≠ [] := List.cons_ne_nil a rest
      rw [List.getLast?_eq_some_getLast hne, Option.getD_some] at hlast
      have hgetLast : ∀ {t}, t ∈ (a :: rest).getLast? ↔ S.lastPoint = t := fun {t} => by
        rw [List.getLast?_eq_some_getLast hne, Option.mem_some_iff, hlast]
      -- The list has a head and a last element, and each bound is to be one of them.
      have hleast := least_find_iff hfirst
      refine ⟨fun h => ⟨fun t ht => ?_, fun t ht => ?_, (hleast.mp (h.least hne)).2⟩, fun h =>
        ⟨hcount', fun hnil => absurd hnil hne, fun _ => ?_,
          fun _ => ⟨?_, h.last _ (hgetLast.mpr rfl)⟩⟩⟩
      · rw [← Option.some.inj ht]
        exact (hleast.mp (h.least hne)).1
      · rw [← hgetLast.mp ht]
        exact (h.greatest hne).2
      · exact hleast.mpr ⟨h.first a rfl, h.zero⟩
      · rw [hlast]
        exact List.getLast_mem hne

/-! ## The rows that are visited -/

namespace RecordTable

variable {L : JsonLibrary F} {db : RecordTable} {boardId : Str}

/-- The statements for the pages of the board succeed. -/
def PagesSucceed (db : RecordTable) (boardId : Str) : Prop :=
  ∀ k, batch * k < (db.boardRows boardId).length → db.succeeds (.page boardId (batch * k)) = true

theorem isSome_getRecords {offset : Nat} (h : offset < (db.boardRows boardId).length) :
    (db.getRecords L boardId offset batch).isSome = true ↔
      db.succeeds (.page boardId offset) = true ∧
        ∀ row ∈ ((db.boardRows boardId).drop offset).take batch,
          Selection.records.Reads L row := by
  have hrows : (((db.boardRows boardId).drop offset).take batch).isEmpty = false := by
    rw [List.isEmpty_eq_false_iff, ← List.length_pos_iff, List.length_take, List.length_drop, batch]
    omega
  rw [getRecords]
  simp only [hrows, Bool.not_false, Bool.and_true]
  by_cases hsucceeds : db.succeeds (.page boardId offset) = true
  · rw [if_pos hsucceeds, and_iff_right hsucceeds, isSome_convertRows]
    exact forall₂_congr fun row _ => Selection.isSome_point_iff (s := .records)
  · rw [if_neg hsucceeds]
    exact iff_of_false Bool.false_ne_true fun h => hsucceeds h.1

/-- All pages with rows are read iff their statements succeed and their rows can be read. -/
theorem readsFrom_pager :
    (db.pager L boardId).ReadsFrom (db.boardRows boardId) 0 ↔
      db.PagesSucceed boardId ∧ ∀ row ∈ db.boardRows boardId, Selection.records.Reads L row := by
  rw [← Pager.forall_mem_pages (show 0 < batch by decide), PagesSucceed, ← forall₂_and]
  refine forall_congr' fun k => ?_
  rw [Nat.zero_add]
  exact forall_congr' fun hlt => isSome_getRecords hlt

theorem length_boardRows_lt (db : RecordTable) (boardId : Str) :
    (db.boardRows boardId).length < 2 ^ 64 :=
  Nat.lt_of_le_of_lt (List.length_filter_le _ _) db.length_lt

/-- The statistics are those of the first rows of the board, and of all of them iff all pages are
    read. -/
theorem exists_getStats (L : JsonLibrary F) (db : RecordTable) (boardId : Str) :
    ∃ n, db.getStats L boardId =
        (((db.boardRows boardId).take n).map Record.timestamp).foldl addTime {} ∧
      ((db.boardRows boardId).length ≤ n ↔
        (db.pager L boardId).ReadsFrom (db.boardRows boardId) 0) := by
  obtain ⟨n, hvisited, hiff⟩ := Pager.exists_visited (p := db.pager L boardId)
    (fun h => forall₂_getRecords h) 0
  refine ⟨n, ?_, hiff⟩
  have htimes : ((db.pager L boardId).visited 0).map DeviceTimePoint.timestamp =
      ((db.boardRows boardId).take n).map Record.timestamp := by
    rw [List.drop_zero] at hvisited
    refine (List.forall₂_eq_eq_eq ▸ List.forall₂_map_left_iff.mpr (List.forall₂_map_right_iff.mpr
      (hvisited.imp fun row p hp => ?_))).symm
    exact (fromRecord_columns hp).2.2.1.symm
  -- `addPoint` always asks for more, so the pages are visited as far as they can be read.
  rw [getStats, Pager.iterate_of_goes _ (fun _ _ => rfl), ← htimes, List.foldl_map]
  rfl

/-- Statistics that are right are those of all rows, which have their bounds at the ends. -/
theorem bounds_of_isStats
    (h : IsStats ((db.boardRows boardId).map Record.timestamp) (db.getStats L boardId)) :
    (db.pager L boardId).ReadsFrom (db.boardRows boardId) 0 ∧
      BoundsAtEnds ((db.boardRows boardId).map Record.timestamp) := by
  obtain ⟨n, hstats, hcomplete⟩ := db.exists_getStats L boardId
  have hlt := db.length_boardRows_lt boardId
  have hcount := h.count
  rw [hstats, (foldl_addTime {} _).1, UInt64.zero_add, UInt64.toNat_ofNat', List.length_map,
    List.length_map, List.length_take, Nat.mod_eq_of_lt (by omega)] at hcount
  -- The count is only right if no row is left out.
  have hn : (db.boardRows boardId).length ≤ n := by omega
  rw [hstats, List.take_of_length_le hn, isStats_foldl_iff (by rwa [List.length_map])] at h
  exact ⟨hcomplete.mp hn, h⟩

theorem isStats_of_bounds (hreads : (db.pager L boardId).ReadsFrom (db.boardRows boardId) 0)
    (hbounds : BoundsAtEnds ((db.boardRows boardId).map Record.timestamp)) :
    IsStats ((db.boardRows boardId).map Record.timestamp) (db.getStats L boardId) := by
  obtain ⟨n, hstats, hcomplete⟩ := db.exists_getStats L boardId
  rw [hstats, List.take_of_length_le (hcomplete.mpr hreads), isStats_foldl_iff]
  · exact hbounds
  · rw [List.length_map]
    exact db.length_boardRows_lt boardId

end RecordTable

/-- Two rows, the later one first. -/
def laterFirst : RecordTable where
  rows := [emptyRow ['y'] 5, emptyRow ['x'] 3]
  nodup_id := by decide
  length_lt := by decide
  succeeds _ := true

end OwAnalytics.TimePointDB
