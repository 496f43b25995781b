/-
  OwAnalytics.Storage.Cleanup

  `Storage::onTimer` (`StorageService.cpp`): the periodic deletion of old rows.  The
  boards are read page by page, with a reading of the clock for each page; the time
  points and the availability events of a board go by its retention, the client
  history by `wificlient.age.limit`.
-/

import OwAnalytics.Storage.AvailabilityEvents
import OwAnalytics.Storage.Boards

namespace OwAnalytics.Storage

open AnalyticsObjects Ap

/-- `EffectiveBoardRetention`. -/
def effectiveBoardRetention (board : BoardInfo) : UInt64 :=
  board.venueList.foldl
    (fun retention venue => if venue.retention > retention then venue.retention else retention) 0

/-- `RetentionCutoff`. -/
def retentionCutoff (now retention : UInt64) : UInt64 :=
  if retention = 0 ∨ retention ≥ now then 0 else now - retention

/-- The tables the cleanup deletes from. -/
structure Tables where
  timePoints : List DeviceTimePoint
  events : List DeviceAvailabilityEvent
  history : List WifiClientHistory

namespace Cleanup

/-- The statements of a cleanup. -/
inductive Statement
  | boards (start : Nat)
  | timePoints (boardId : Str)
  | events (boardId : Str)
  | history
deriving DecidableEq

end Cleanup

/-- What one cleanup meets: the boards, the clock, the configuration and the statements that
    succeed. -/
structure Cleanup where
  boards : List BoardRow
  /-- `Utils::Now()` for the page that begins there. -/
  nowAt : Nat → UInt64
  /-- `Utils::Now()` after the boards. -/
  nowAtHistory : UInt64
  /-- `wificlient.age.limit`. -/
  maxDays : UInt64
  succeeds : Cleanup.Statement → Bool

namespace Cleanup

/-- The number of boards the cleanup asks for at a time. -/
def batch : Nat := 100

/-- `GetRecords` of a page; an empty page is reported like a failure. -/
def getRecords (c : Cleanup) (start : Nat) : List BoardInfo :=
  if c.succeeds (.boards start) then ((c.boards.drop start).take batch).map BoardRow.toBoard
  else []

/-- The rows that `DeleteRecords` leaves, where the statement succeeds. -/
def deleteRecords {α : Type} (succeeds : Bool) (selected : α → Bool) (rows : List α) : List α :=
  if succeeds then rows.filter fun r => !selected r else rows

/-- The body of the cleanup's loop, for one board. -/
def cleanBoard (c : Cleanup) (now : UInt64) (t : Tables) (board : BoardInfo) : Tables :=
  let retention := effectiveBoardRetention board
  if retention = 0 then t
  else
    -- a statement that fails does not keep the other from running
    let cutoff := retentionCutoff now retention
    { t with
      timePoints :=
        deleteRecords (c.succeeds (.timePoints board.info.id))
          (fun r => r.boardId = board.info.id ∧ r.timestamp < cutoff) t.timePoints
      events :=
        if c.succeeds (.events board.info.id) then
          DeviceAvailabilityEventsDB.deleteExpiredEventsForBoard t.events board.info.id cutoff
        else t.events }

theorem length_getRecords_le (c : Cleanup) (start : Nat) :
    (c.getRecords start).length ≤ c.boards.length - start := by
  unfold getRecords
  split
  · rw [List.length_map, List.length_take, List.length_drop]
    omega
  · exact Nat.zero_le _

/-- The loop over the pages. -/
def cleanBoards (c : Cleanup) (start : Nat) (t : Tables) : Tables :=
  let boardList := c.getRecords start
  if boardList.isEmpty then t
  else
    let t := boardList.foldl (c.cleanBoard (c.nowAt start)) t
    -- a page that is not full is the last
    if boardList.length < batch then t else c.cleanBoards (start + boardList.length) t
termination_by c.boards.length - start
decreasing_by
  have hle := c.length_getRecords_le start
  have hfull : ¬ (c.getRecords start).length < 100 := by assumption
  show c.boards.length - (start + (c.getRecords start).length) < c.boards.length - start
  omega

/-- The earliest time a row of the client history may have. -/
def lowerDate (c : Cleanup) : UInt64 := c.nowAtHistory - c.maxDays * 60 * 60 * 24

/-- `onTimer`. -/
def onTimer (c : Cleanup) (t : Tables) : Tables :=
  let t := c.cleanBoards 0 t
  { t with
    history :=
      deleteRecords (c.succeeds .history) (fun r => r.timestamp < c.lowerDate) t.history }

/-! ## The boards in the order they are cleaned -/

/-- The boards that are cleaned, each with the reading of the clock for its page. -/
def visited (c : Cleanup) (start : Nat) : List (UInt64 × BoardInfo) :=
  let boardList := c.getRecords start
  if boardList.isEmpty then []
  else
    boardList.map (c.nowAt start, ·) ++
      if boardList.length < batch then [] else c.visited (start + boardList.length)
termination_by c.boards.length - start
decreasing_by
  have hle := c.length_getRecords_le start
  have hfull : ¬ (c.getRecords start).length < 100 := by assumption
  show c.boards.length - (start + (c.getRecords start).length) < c.boards.length - start
  omega

theorem cleanBoards_eq (c : Cleanup) (start : Nat) (t : Tables) :
    c.cleanBoards start t =
      (c.visited start).foldl (fun t v => c.cleanBoard v.1 t v.2) t := by
  fun_induction cleanBoards c start t with
  | case1 start t boardList hempty =>
      rw [visited, if_pos hempty]
      rfl
  | case2 start t boardList hempty t' hlast =>
      rw [visited, if_neg hempty, if_pos hlast, List.append_nil, List.foldl_map]
  | case3 start t boardList hempty t' hfull ih =>
      rw [visited, if_neg hempty, if_neg hfull, List.foldl_append, List.foldl_map, ih]

theorem mem_getRecords {c : Cleanup} {start : Nat} {board : BoardInfo}
    (h : board ∈ c.getRecords start) : ∃ row ∈ c.boards, board = row.toBoard := by
  unfold getRecords at h
  split at h
  · obtain ⟨row, hrow, rfl⟩ := List.mem_map.mp h
    exact ⟨row, List.mem_of_mem_drop (List.mem_of_mem_take hrow), rfl⟩
  · cases h

/-- What is cleaned is a board of the table, at the reading of the clock for a page. -/
theorem mem_visited {c : Cleanup} {start : Nat} {v : UInt64 × BoardInfo}
    (h : v ∈ c.visited start) :
    (∃ page, v.1 = c.nowAt page) ∧ ∃ row ∈ c.boards, v.2 = row.toBoard := by
  fun_induction visited c start with
  | case1 start boardList hempty => cases h
  | case2 start boardList hempty ih =>
      rcases List.mem_append.mp h with h | h
      · obtain ⟨board, hboard, rfl⟩ := List.mem_map.mp h
        exact ⟨⟨start, rfl⟩, mem_getRecords hboard⟩
      · split at h
        · cases h
        · rename_i hfull
          exact ih hfull h

/-- The pages go through the whole table, also where the last one is full. -/
theorem map_visited {c : Cleanup} (hsucceeds : ∀ start, c.succeeds (.boards start) = true)
    (start : Nat) :
    (c.visited start).map Prod.snd = (c.boards.drop start).map BoardRow.toBoard := by
  fun_induction visited c start with
  | case1 start boardList hempty =>
      -- an empty page is the end of the table
      have hnil : (c.boards.drop start).take batch = [] := by
        have hmap := List.isEmpty_iff.mp hempty
        rw [show boardList = c.getRecords start from rfl, getRecords, if_pos (hsucceeds start)]
          at hmap
        exact List.map_eq_nil_iff.mp hmap
      rcases List.take_eq_nil_iff.mp hnil with hbatch | hnil
      · cases hbatch
      · rw [hnil]
        rfl
  | case2 start boardList hempty ih =>
      have hpage : boardList = ((c.boards.drop start).take batch).map BoardRow.toBoard := by
        rw [show boardList = c.getRecords start from rfl, getRecords, if_pos (hsucceeds start)]
      have hlength : boardList.length = min batch (c.boards.length - start) := by
        rw [hpage, List.length_map, List.length_take, List.length_drop]
      have hfirst : (boardList.map (c.nowAt start, ·)).map Prod.snd = boardList := by
        rw [List.map_map]
        exact List.map_id _
      rw [List.map_append, hfirst]
      split
      · rename_i hlast
        -- the page is all that is left
        have hall : (c.boards.drop start).take batch = c.boards.drop start := by
          refine List.take_of_length_le ?_
          rw [List.length_drop]
          omega
        rw [List.map_nil, List.append_nil, hpage, hall]
      · -- a full page is followed by the others
        rename_i hfull
        have hbatch : boardList.length = batch := by omega
        rw [ih hfull, hbatch, hpage, ← List.map_append, ← List.drop_drop, List.take_append_drop]

/-! ## What is deleted -/

/-- A row of that time is older than the retention, over the integers. -/
def Expired (now retention time : UInt64) : Prop :=
  time.toNat + retention.toNat < now.toNat

theorem lt_retentionCutoff_iff {now retention time : UInt64} (hpos : retention ≠ 0) :
    time < retentionCutoff now retention ↔ Expired now retention time := by
  unfold retentionCutoff Expired
  by_cases hge : retention ≥ now
  · rw [if_pos (.inr hge)]
    rw [ge_iff_le, UInt64.le_iff_toNat_le] at hge
    refine ⟨?_, ?_⟩
    · intro h
      exact absurd h UInt64.not_lt_zero
    · intro h
      omega
  · rw [if_neg (by simp [hpos, hge]), UInt64.lt_iff_toNat_lt]
    rw [ge_iff_le, UInt64.not_le, UInt64.lt_iff_toNat_lt] at hge
    rw [UInt64.toNat_sub_of_le _ _ (by rw [UInt64.le_iff_toNat_le]; omega)]
    omega

theorem mem_deleteRecords {α : Type} {succeeds : Bool} {selected : α → Bool} {rows : List α}
    {r : α} : r ∈ deleteRecords succeeds selected rows ↔
      r ∈ rows ∧ ¬ (succeeds = true ∧ selected r = true) := by
  cases succeeds <;> simp [deleteRecords]

/-- The cleaning of a board at a time deletes rows of that board and that time. -/
structure Deletes (v : UInt64 × BoardInfo) (boardId : Str) (time : UInt64) : Prop where
  retained : effectiveBoardRetention v.2 ≠ 0
  boardId : boardId = v.2.info.id
  expired : Expired v.1 (effectiveBoardRetention v.2) time

/-- Both statements compare with the cutoff. -/
theorem deletes_iff {v : UInt64 × BoardInfo} {boardId : Str} {time : UInt64}
    (hpos : effectiveBoardRetention v.2 ≠ 0) :
    Deletes v boardId time ↔
      boardId = v.2.info.id ∧ time < retentionCutoff v.1 (effectiveBoardRetention v.2) := by
  rw [lt_retentionCutoff_iff hpos]
  exact ⟨fun h => ⟨h.boardId, h.expired⟩, fun h => ⟨hpos, h.1, h.2⟩⟩

theorem mem_timePoints_cleanBoard (c : Cleanup) (v : UInt64 × BoardInfo) (t : Tables)
    (row : DeviceTimePoint) :
    row ∈ (c.cleanBoard v.1 t v.2).timePoints ↔ row ∈ t.timePoints ∧
      ¬ (c.succeeds (.timePoints v.2.info.id) = true ∧ Deletes v row.boardId row.timestamp) := by
  unfold cleanBoard
  dsimp only
  split
  · rename_i hzero
    exact ⟨fun h => ⟨h, fun hdeletes => hdeletes.2.retained hzero⟩, And.left⟩
  · rename_i hpos
    rw [mem_deleteRecords, decide_eq_true_eq, deletes_iff hpos]

theorem mem_events_cleanBoard (c : Cleanup) (v : UInt64 × BoardInfo) (t : Tables)
    (row : DeviceAvailabilityEvent) :
    row ∈ (c.cleanBoard v.1 t v.2).events ↔ row ∈ t.events ∧
      ¬ (c.succeeds (.events v.2.info.id) = true ∧ Deletes v row.boardId row.eventTime) := by
  unfold cleanBoard
  dsimp only
  split
  · rename_i hzero
    exact ⟨fun h => ⟨h, fun hdeletes => hdeletes.2.retained hzero⟩, And.left⟩
  · rename_i hpos
    rw [deletes_iff hpos]
    unfold DeviceAvailabilityEventsDB.deleteExpiredEventsForBoard
    cases c.succeeds (.events v.2.info.id) <;> simp [imp_iff_not_or]

/-- Rows are left that no step of a loop deletes. -/
theorem mem_foldl {σ α β : Type} {f : σ → β → σ} {rows : σ → List α} {deletes : β → α → Prop}
    (hstep : ∀ s b r, r ∈ rows (f s b) ↔ r ∈ rows s ∧ ¬ deletes b r) (bs : List β) (s : σ) (r : α) :
    r ∈ rows (bs.foldl f s) ↔ r ∈ rows s ∧ ∀ b ∈ bs, ¬ deletes b r := by
  induction bs generalizing s with
  | nil => simp
  | cons b bs ih => rw [List.foldl_cons, ih, hstep, List.forall_mem_cons, and_assoc]

theorem mem_timePoints_onTimer {c : Cleanup} {t : Tables} {row : DeviceTimePoint} :
    row ∈ (c.onTimer t).timePoints ↔ row ∈ t.timePoints ∧ ∀ v ∈ c.visited 0,
      ¬ (c.succeeds (.timePoints v.2.info.id) = true ∧ Deletes v row.boardId row.timestamp) := by
  show row ∈ (c.cleanBoards 0 t).timePoints ↔ _
  rw [cleanBoards_eq]
  exact mem_foldl (fun t v row => mem_timePoints_cleanBoard c v t row) _ t row

theorem mem_events_onTimer {c : Cleanup} {t : Tables} {row : DeviceAvailabilityEvent} :
    row ∈ (c.onTimer t).events ↔ row ∈ t.events ∧ ∀ v ∈ c.visited 0,
      ¬ (c.succeeds (.events v.2.info.id) = true ∧ Deletes v row.boardId row.eventTime) := by
  show row ∈ (c.cleanBoards 0 t).events ↔ _
  rw [cleanBoards_eq]
  exact mem_foldl (fun t v row => mem_events_cleanBoard c v t row) _ t row

/-- The cleaning of the boards leaves the client history alone. -/
theorem history_cleanBoards (c : Cleanup) (t : Tables) :
    (c.cleanBoards 0 t).history = t.history := by
  rw [cleanBoards_eq]
  induction c.visited 0 generalizing t with
  | nil => rfl
  | cons v rest ih =>
      rw [List.foldl_cons, ih, cleanBoard]
      dsimp only
      split <;> rfl

theorem mem_history_onTimer {c : Cleanup} {t : Tables} {row : WifiClientHistory} :
    row ∈ (c.onTimer t).history ↔ row ∈ t.history ∧
      ¬ (c.succeeds .history = true ∧ row.timestamp < c.lowerDate) := by
  show row ∈ deleteRecords _ _ (c.cleanBoards 0 t).history ↔ _
  rw [mem_deleteRecords, history_cleanBoards, decide_eq_true_eq]

/-- A board that the cleanup holds against rows of that board and time. -/
def Holds (c : Cleanup) (boardId : Str) (time : UInt64) : Prop :=
  ∃ page, ∃ board ∈ c.boards, board.id = boardId ∧
    effectiveBoardRetention board.toBoard ≠ 0 ∧
      Expired (c.nowAt page) (effectiveBoardRetention board.toBoard) time

theorem holds_of_deletes {c : Cleanup} {v : UInt64 × BoardInfo} {boardId : Str} {time : UInt64}
    (hv : v ∈ c.visited 0) (h : Deletes v boardId time) : c.Holds boardId time := by
  obtain ⟨⟨page, hpage⟩, board, hboard, hv2⟩ := mem_visited hv
  obtain ⟨hretained, hid, hexpired⟩ := h
  rw [hv2] at hretained hid
  rw [hpage, hv2] at hexpired
  exact ⟨page, board, hboard, hid.symm, hretained, hexpired⟩

/-- A time point or an event is deleted only where a board of its id is held against it. -/
theorem holds_of_timePoint {c : Cleanup} {t : Tables} {row : DeviceTimePoint}
    (h : row ∈ t.timePoints) (hgone : row ∉ (c.onTimer t).timePoints) :
    c.Holds row.boardId row.timestamp := by
  rw [mem_timePoints_onTimer] at hgone
  simp only [h, true_and, not_forall, not_not] at hgone
  obtain ⟨v, hv, -, hdeletes⟩ := hgone
  exact holds_of_deletes hv hdeletes

theorem holds_of_event {c : Cleanup} {t : Tables} {row : DeviceAvailabilityEvent}
    (h : row ∈ t.events) (hgone : row ∉ (c.onTimer t).events) :
    c.Holds row.boardId row.eventTime := by
  rw [mem_events_onTimer] at hgone
  simp only [h, true_and, not_forall, not_not] at hgone
  obtain ⟨v, hv, -, hdeletes⟩ := hgone
  exact holds_of_deletes hv hdeletes

/-! ## The limits over the integers -/

/-- A time below `now - limit`. -/
def Old (now limit time : Int) : Prop := time < now - limit

/-- The cutoffs of a cleanup are those over the integers: the seconds of the age limit, their
    difference to the clock, and the difference for each board, which stops at zero. -/
structure NoWrap (c : Cleanup) : Prop where
  boards : ∀ v ∈ c.visited 0, effectiveBoardRetention v.2 ≠ 0 →
    ((retentionCutoff v.1 (effectiveBoardRetention v.2)).toNat : Int)
      = max 0 (v.1.toNat - (effectiveBoardRetention v.2).toNat)
  seconds : (c.maxDays * 60 * 60 * 24).toNat = c.maxDays.toNat * 86400
  history : (c.lowerDate.toNat : Int) = c.nowAtHistory.toNat - c.maxDays.toNat * 86400

/-- Every row a cleanup deletes is older than its limit, the retention of its board or the age
    limit of the client history, and no cutoff wraps around. -/
structure DeletesOnlyOld (c : Cleanup) : Prop where
  timePoints : ∀ t, ∀ row ∈ t.timePoints, row ∉ (c.onTimer t).timePoints →
    ∃ page, ∃ board ∈ c.boards, board.id = row.boardId ∧
      Old (c.nowAt page).toNat (effectiveBoardRetention board.toBoard).toNat row.timestamp.toNat
  events : ∀ t, ∀ row ∈ t.events, row ∉ (c.onTimer t).events →
    ∃ page, ∃ board ∈ c.boards, board.id = row.boardId ∧
      Old (c.nowAt page).toNat (effectiveBoardRetention board.toBoard).toNat row.eventTime.toNat
  history : ∀ t, ∀ row ∈ t.history, row ∉ (c.onTimer t).history →
    Old c.nowAtHistory.toNat (c.maxDays.toNat * 86400) row.timestamp.toNat
  cutoffs : c.NoWrap

theorem old_of_expired {now retention time : UInt64} (h : Expired now retention time) :
    Old now.toNat retention.toNat time.toNat := by
  unfold Expired Old at *
  omega

/-- The guard keeps the difference of a board from wrapping. -/
theorem toNat_retentionCutoff {now retention : UInt64} (hpos : retention ≠ 0) :
    ((retentionCutoff now retention).toNat : Int) = max 0 (now.toNat - retention.toNat) := by
  unfold retentionCutoff
  by_cases hge : retention ≥ now
  · rw [if_pos (.inr hge), UInt64.toNat_zero]
    rw [ge_iff_le, UInt64.le_iff_toNat_le] at hge
    omega
  · rw [if_neg (by simp [hpos, hge])]
    rw [ge_iff_le, UInt64.not_le, UInt64.lt_iff_toNat_lt] at hge
    rw [UInt64.toNat_sub_of_le _ _ (by rw [UInt64.le_iff_toNat_le]; omega)]
    omega

/-- The seconds of the age limit are taken modulo `2 ^ 64`. -/
theorem toNat_maxDays (c : Cleanup) :
    (c.maxDays * 60 * 60 * 24).toNat = c.maxDays.toNat * 86400 % 2 ^ 64 := by
  have hproduct : c.maxDays * 60 * 60 * 24 = c.maxDays * 86400 := by
    rw [UInt64.mul_assoc, UInt64.mul_assoc]
    rfl
  rw [hproduct, UInt64.toNat_mul]
  rfl

/-- So is their difference to the clock. -/
theorem toNat_lowerDate (c : Cleanup) :
    c.lowerDate.toNat =
      (2 ^ 64 - c.maxDays.toNat * 86400 % 2 ^ 64 + c.nowAtHistory.toNat) % 2 ^ 64 := by
  rw [lowerDate, UInt64.toNat_sub, toNat_maxDays]

/-- A cleanup deletes only what is old, and no cutoff wraps around, iff the age limit of the
    client history in seconds is no more than the clock. -/
theorem deletesOnlyOld_iff (c : Cleanup) :
    c.DeletesOnlyOld ↔ c.maxDays.toNat * 86400 ≤ c.nowAtHistory.toNat := by
  have hdate := c.toNat_lowerDate
  have hseconds := c.toNat_maxDays
  have hnow := c.nowAtHistory.toNat_lt
  refine ⟨?_, ?_⟩
  · intro h
    have hexact := h.cutoffs.history
    omega
  · intro hle
    refine ⟨fun t row hrow hgone => ?timePoints, fun t row hrow hgone => ?events,
      fun t row hrow hgone => ?history, ⟨fun v _ hpos => toNat_retentionCutoff hpos, ?_, ?_⟩⟩
    case timePoints =>
      obtain ⟨page, board, hboard, hid, -, hexpired⟩ := holds_of_timePoint hrow hgone
      exact ⟨page, board, hboard, hid, old_of_expired hexpired⟩
    case events =>
      obtain ⟨page, board, hboard, hid, -, hexpired⟩ := holds_of_event hrow hgone
      exact ⟨page, board, hboard, hid, old_of_expired hexpired⟩
    case history =>
      -- the cutoff is the difference over the integers
      rw [mem_history_onTimer, UInt64.lt_iff_toNat_lt] at hgone
      simp only [hrow, true_and, not_not] at hgone
      obtain ⟨-, hlt⟩ := hgone
      unfold Old
      omega
    · omega
    · omega

/-- A limit of 20000 days, longer than the clock has run. -/
def longLimit : Cleanup where
  boards := []
  nowAt _ := 1700000000
  nowAtHistory := 1700000000
  maxDays := 20000
  succeeds _ := true

/-- The cutoff wraps around, and the row of this second is deleted. -/
theorem longLimit_deletes_new : ¬ ∀ c : Cleanup, c.DeletesOnlyOld := by
  intro h
  have hold := (h longLimit).history ⟨[], [], [{ timestamp := 1700000000 }]⟩
    { timestamp := 1700000000 } (List.mem_singleton_self _)
  rw [mem_history_onTimer] at hold
  have hlt : (1700000000 : UInt64) < longLimit.lowerDate := by decide
  have hold := hold fun hkept => hkept.2 ⟨rfl, hlt⟩
  exact absurd hold (by unfold Old; decide)

end Cleanup

end OwAnalytics.Storage
