/-
  OwAnalytics.Storage.Iterate

  `ORM::DB::Iterate` over the pages of `ORM::DB::GetRecords` (`framework/orm.h`), for any
  type of rows: a table that stays as it is and whose rows can be read is gone through
  once, in the order of the database, until the callback stops.  The loop of
  `Storage::onTimer` over the boards does the same with pages of its own.
-/

import OwAnalytics.Lib.Readers
import OwAnalytics.Storage.BoardStats
import OwAnalytics.Storage.Cleanup

namespace OwAnalytics

namespace ORM

open Readers

/-- `ORM::DB`, while the table stays as it is: the rows in the order in which queries without an
    order return them, how a row is read, with `none` for an exception, and whether the statement
    for the page at an offset succeeds. -/
structure DB (Row Record : Type) where
  rows : List Row
  convert : Row → Option Record
  succeeds : Nat → Bool

namespace DB

variable {Row Record σ : Type} (db : DB Row Record) (selected : Row → Bool)

/-- The rows the where clause selects. -/
def selection : List Row := db.rows.filter selected

/-- `GetRecords`, where a page without rows is reported like a failure. -/
def getRecords (offset howMany : Nat) : Option (List Record) :=
  let rows := ((db.selection selected).drop offset).take howMany
  if db.succeeds offset && !rows.isEmpty then rows.mapM db.convert else none

/-- `Batch` of `Iterate`. -/
def batch : Nat := 50

theorem getRecords_eq_some {offset howMany : Nat} {records : List Record}
    (h : db.getRecords selected offset howMany = some records) :
    List.Forall₂ (fun row record => db.convert row = some record)
      (((db.selection selected).drop offset).take howMany) records := by
  rw [getRecords] at h
  generalize ((db.selection selected).drop offset).take howMany = rows at h ⊢
  split at h
  · exact forall₂_mapM h
  · cases h

/-- The pages that `Iterate` asks for. -/
def pager : Pager Record where
  batch := batch
  batch_pos := by decide
  total := (db.selection selected).length
  page offset := db.getRecords selected offset batch
  length_le h := by
    rw [← (db.getRecords_eq_some selected h).length_eq, List.length_take, List.length_drop]
    exact Nat.min_le_right _ _

/-- `Iterate`, with what the callback keeps between its calls. -/
def iterate (f : σ → Record → σ × Bool) (s : σ) : σ := (db.pager selected).iterate f 0 s

/-! ## All rows -/

/-- The records of the rows that the where clause selects. -/
def records : List Record := (db.selection selected).filterMap db.convert

/-- The statements for the pages succeed, and the rows can be read. -/
structure Readable : Prop where
  succeeds : ∀ offset, db.succeeds offset = true
  converts : ∀ row ∈ db.selection selected, (db.convert row).isSome = true

variable {db selected}

/-- The page at an offset with rows is read if its statement succeeds and its rows can be read. -/
theorem isSome_getRecords (hsucceeds : ∀ offset, db.succeeds offset = true) {offset : Nat}
    (hoffset : offset < (db.selection selected).length) :
    (db.getRecords selected offset batch).isSome = true ↔
      ∀ row ∈ ((db.selection selected).drop offset).take batch, (db.convert row).isSome = true := by
  have hrows : (((db.selection selected).drop offset).take batch).isEmpty = false := by
    rw [List.isEmpty_eq_false_iff, ← List.length_pos_iff, List.length_take, List.length_drop]
    have hpos : 0 < batch := by decide
    omega
  rw [getRecords, hsucceeds, hrows]
  exact isSome_mapM

/-- Every page with rows is read, also where the last one is full, iff all rows can be read. -/
theorem readsFrom_iff (hsucceeds : ∀ offset, db.succeeds offset = true) :
    (db.pager selected).ReadsFrom (db.selection selected) 0 ↔
      ∀ row ∈ db.selection selected, (db.convert row).isSome = true := by
  rw [← Pager.forall_mem_pages (show 0 < batch by decide)]
  refine forall_congr' fun k => ?_
  rw [Nat.zero_add]
  exact forall_congr' fun hk => isSome_getRecords hsucceeds hk

/-- Of any table the first rows are visited, in their order; where the statements succeed, these are
    all rows iff each of them can be read.  A row that cannot ends the iteration before its page,
    and `Iterate` answers as if there were no more. -/
theorem exists_visited (db : DB Row Record) (selected : Row → Bool) :
    ∃ n, List.Forall₂ (fun row record => db.convert row = some record)
        ((db.selection selected).take n) ((db.pager selected).visited 0) ∧
      ((∀ offset, db.succeeds offset = true) →
        ((db.selection selected).length ≤ n ↔
          ∀ row ∈ db.selection selected, (db.convert row).isSome = true)) := by
  obtain ⟨n, hvisited, hall⟩ := Pager.exists_visited (p := db.pager selected)
    (fun hpage => db.getRecords_eq_some selected hpage) 0
  exact ⟨n, hvisited, fun hsucceeds => hall.trans (readsFrom_iff hsucceeds)⟩

theorem Readable.visited_eq (h : db.Readable selected) :
    (db.pager selected).visited 0 = db.records selected := by
  obtain ⟨n, hvisited, hall⟩ := exists_visited db selected
  have hn : (db.selection selected).length ≤ n := (hall h.succeeds).mpr h.converts
  rw [List.take_of_length_le hn] at hvisited
  exact eq_filterMap hvisited

/-- The callback is called on the records in their order, until it stops. -/
theorem Readable.exists_iterate (h : db.Readable selected) (f : σ → Record → σ × Bool) (s : σ) :
    ∃ k, Pager.StopsAfter f s (db.records selected) k ∧
      db.iterate selected f s = Pager.after f s ((db.records selected).take k) ∧
      (db.iterate selected (Pager.logged f) (s, [])).2 = (db.records selected).take k := by
  obtain ⟨k, hk, hstate, hlog⟩ := Pager.exists_visit f s [] (db.records selected)
  refine ⟨k, hk, ?_, ?_⟩
  · rw [iterate, Pager.iterate_eq_visit, h.visited_eq]
    exact hstate
  · rw [iterate, Pager.iterate_eq_visit, h.visited_eq]
    exact hlog

/-- Every row is a record of its own. -/
theorem Readable.length_records (h : db.Readable selected) :
    (db.records selected).length = (db.selection selected).length := by
  obtain ⟨ys, hys⟩ := Option.isSome_iff_exists.mp (isSome_mapM.mpr h.converts)
  have hforall := forall₂_mapM hys
  rw [records, ← eq_filterMap hforall, hforall.length_eq]

end DB

end ORM

/-! ## The statistics of a board -/

namespace TimePointDB.RecordTable

open Ap

variable {F : Type} [Zero F]

/-- The table of the time points, as the board's statements find it. -/
def timePointsDB (L : JsonLibrary F) (db : RecordTable) (boardId : Str) :
    ORM.DB Record (DeviceTimePoint F) where
  rows := db.rows
  convert := fromRecord L
  succeeds offset := db.succeeds (.page boardId offset)

theorem convertRows_convertRecord (L : JsonLibrary F) (rows : List Record) :
    convertRows (convertRecord L) rows = rows.mapM (fromRecord L) := by
  induction rows with
  | nil => rfl
  | cons row rest ih =>
      rw [convertRows_cons, ih, List.mapM_cons, convertRecord]
      cases fromRecord L row with
      | none => rfl
      | some p => cases rest.mapM (fromRecord L) <;> rfl

/-- `GetStats` is an iteration over that table. -/
theorem getStats_eq_iterate (L : JsonLibrary F) (db : RecordTable) (boardId : Str) :
    db.getStats L boardId =
      (db.timePointsDB L boardId).iterate (fun row => row.boardId = boardId) addPoint {} := by
  have hpager : db.pager L boardId =
      (db.timePointsDB L boardId).pager fun row => row.boardId = boardId := by
    rw [pager, ORM.DB.pager, Pager.mk.injEq]
    refine ⟨rfl, rfl, ?_⟩
    funext offset
    rw [getRecords, convertRows_convertRecord]
    rfl
  rw [getStats, ORM.DB.iterate, hpager]

end TimePointDB.RecordTable

/-! ## The boards -/

/-- `Iterate` calls its callback on the rows in their order, each once, until a call stops it;
    and the cleanup goes through all boards in theirs. -/
theorem paged_loops_visit_once {Row Record σ : Type} (db : ORM.DB Row Record)
    (selected : Row → Bool) (h : db.Readable selected) (c : Storage.Cleanup)
    (hboards : ∀ start, c.succeeds (.boards start) = true) :
    (db.records selected).length = (db.selection selected).length ∧
    (∀ (f : σ → Record → σ × Bool) (s : σ), ∃ k, Pager.StopsAfter f s (db.records selected) k ∧
      db.iterate selected f s = Pager.after f s ((db.records selected).take k) ∧
      (db.iterate selected (Pager.logged f) (s, [])).2 = (db.records selected).take k) ∧
    ∃ visits : List (UInt64 × AnalyticsObjects.BoardInfo),
      visits.map Prod.snd = c.boards.map Storage.BoardRow.toBoard ∧
        ∀ t, c.cleanBoards 0 t = visits.foldl (fun t v => c.cleanBoard v.1 t v.2) t := by
  refine ⟨h.length_records, h.exists_iterate, c.visited 0, ?_, c.cleanBoards_eq 0⟩
  exact c.map_visited hboards 0

/-- A table that ends with a full page. -/
def fullPage : ORM.DB Nat Nat where
  rows := List.range 50
  convert := some
  succeeds _ := true

/-- As many boards as a page has. -/
def hundredBoards : Storage.Cleanup where
  boards := (List.range 100).map fun i => { id := Nat.toDigits 10 i }
  nowAt _ := 0
  nowAtHistory := 0
  maxDays := 14
  succeeds _ := true

/-- The full page is followed by an empty one: its rows are handed over once each, up to the one at
    which the callback stops, and so are all boards. -/
theorem paged_loops_visit_full_pages :
    (fullPage.records fun _ => true).length = (fullPage.selection fun _ => true).length ∧
    (∀ (f : Nat → Nat → Nat × Bool) (s : Nat), ∃ k,
      Pager.StopsAfter f s (fullPage.records fun _ => true) k ∧
      fullPage.iterate (fun _ => true) f s =
        Pager.after f s ((fullPage.records fun _ => true).take k) ∧
      (fullPage.iterate (fun _ => true) (Pager.logged f) (s, [])).2 =
        (fullPage.records fun _ => true).take k) ∧
    ∃ visits : List (UInt64 × AnalyticsObjects.BoardInfo),
      visits.map Prod.snd = hundredBoards.boards.map Storage.BoardRow.toBoard ∧
        ∀ t, hundredBoards.cleanBoards 0 t =
          visits.foldl (fun t v => hundredBoards.cleanBoard v.1 t v.2) t :=
  paged_loops_visit_once (σ := Nat) fullPage (fun _ => true)
    ⟨fun _ => rfl, fun _ _ => rfl⟩ hundredBoards fun _ => rfl

end OwAnalytics
