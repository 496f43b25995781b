/-
  OwAnalytics.Storage.RetentionWindows

  The cleanup against the requests.  `RetentionCutoff` and `ValidateRetention` compute
  their limits separately; no cleanup deletes a row that a later accepted window could
  ask for, and every row beyond the retention is gone after the next cleanup.
-/

import OwAnalytics.Lib.Transitions
import OwAnalytics.Mcp.RouterId
import OwAnalytics.Storage.Cleanup

namespace OwAnalytics.Storage

open AnalyticsObjects Ap Mcp Transitions

namespace RetentionWindows

/-! ## Runs of cleanups and requests -/

/-- The tables, the latest reading of the clock and the rows that cleanups have deleted. -/
structure State where
  tables : Tables
  clock : UInt64
  deletedPoints : List DeviceTimePoint
  deletedEvents : List DeviceAvailabilityEvent

/-- What goes on beside the tables and their cleanup. -/
inductive Action
  | cleanup (c : Cleanup)
  /-- A request that reads the clock. -/
  | request (now : UInt64)
  /-- The devices' rows. -/
  | store (timePoints : List DeviceTimePoint) (events : List DeviceAvailabilityEvent)

/-- The readings of a cleanup come after that one and in order. -/
structure ClockFrom (clock : UInt64) (c : Cleanup) : Prop where
  first : clock ≤ c.nowAt 0
  pages : ∀ a b, a ≤ b → c.nowAt a ≤ c.nowAt b
  last : ∀ a, c.nowAt a ≤ c.nowAtHistory

/-- The tables after a cleanup, and what was in them before and is not any more. -/
def State.clean (s : State) (c : Cleanup) : State :=
  let tables := c.onTimer s.tables
  { tables
    clock := c.nowAtHistory
    deletedPoints := s.deletedPoints ++ s.tables.timePoints.filter (· ∉ tables.timePoints)
    deletedEvents := s.deletedEvents ++ s.tables.events.filter (· ∉ tables.events) }

/-- A step of the service: the clock is never set back. -/
inductive Step : State → Action → State → Prop
  | cleanup {s c} (h : ClockFrom s.clock c) : Step s (.cleanup c) (s.clean c)
  | request {s now} (h : s.clock ≤ now) : Step s (.request now) { s with clock := now }
  | store {s timePoints events} :
      Step s (.store timePoints events)
        { s with
          tables := { s.tables with
            timePoints := s.tables.timePoints ++ timePoints
            events := s.tables.events ++ events } }

/-- Any tables, and nothing deleted yet. -/
def system : System State Action where
  init s := s.deletedPoints = [] ∧ s.deletedEvents = []
  step := Step

/-- The retention of the board is that one. -/
def FixedRetention (boardId : Str) (retention : UInt64) (boards : List BoardRow) : Prop :=
  ∀ board ∈ boards, board.id = boardId → effectiveBoardRetention board.toBoard = retention

/-- It is so at every cleanup. -/
def Fixed (boardId : Str) (retention : UInt64) (_ : State) : Action → Prop
  | .cleanup c => FixedRetention boardId retention c.boards
  | _ => True

/-! ## What has been deleted -/

/-- Every deleted row of the board is older than the retention at the latest reading. -/
structure Inv (boardId : Str) (retention : UInt64) (s : State) : Prop where
  points : ∀ row ∈ s.deletedPoints, row.boardId = boardId →
    Cleanup.Expired s.clock retention row.timestamp
  events : ∀ row ∈ s.deletedEvents, row.boardId = boardId →
    Cleanup.Expired s.clock retention row.eventTime

/-- What is too old stays so. -/
theorem expired_mono {clock now retention time : UInt64} (h : clock ≤ now)
    (hexpired : Cleanup.Expired clock retention time) : Cleanup.Expired now retention time := by
  unfold Cleanup.Expired at *
  rw [UInt64.le_iff_toNat_le] at h
  omega

/-- What a cleanup holds against a row of the board is its retention. -/
theorem expired_of_holds {c : Cleanup} {boardId : Str} {retention clock time : UInt64}
    (hclock : ClockFrom clock c) (hfixed : FixedRetention boardId retention c.boards)
    (h : c.Holds boardId time) : Cleanup.Expired c.nowAtHistory retention time := by
  obtain ⟨page, board, hboard, hid, -, hexpired⟩ := h
  rw [hfixed board hboard hid] at hexpired
  exact expired_mono (hclock.last page) hexpired

theorem ClockFrom.le {clock : UInt64} {c : Cleanup} (h : ClockFrom clock c) :
    clock ≤ c.nowAtHistory :=
  UInt64.le_trans h.first (h.last 0)

theorem inv_step {boardId : Str} {retention : UInt64} {s s' : State} {a : Action}
    (hfixed : Fixed boardId retention s a) (hinv : Inv boardId retention s)
    (h : Step s a s') : Inv boardId retention s' := by
  cases h with
  | cleanup hclock =>
      refine ⟨?_, ?_⟩
      · intro row hrow hboard
        rcases List.mem_append.mp hrow with hrow | hrow
        · exact expired_mono hclock.le (hinv.points row hrow hboard)
        · rw [List.mem_filter, decide_eq_true_eq] at hrow
          exact expired_of_holds hclock hfixed
            (hboard ▸ Cleanup.holds_of_timePoint hrow.1 hrow.2)
      · intro row hrow hboard
        rcases List.mem_append.mp hrow with hrow | hrow
        · exact expired_mono hclock.le (hinv.events row hrow hboard)
        · rw [List.mem_filter, decide_eq_true_eq] at hrow
          exact expired_of_holds hclock hfixed (hboard ▸ Cleanup.holds_of_event hrow.1 hrow.2)
  | request hclock =>
      -- a later reading makes what is too old no younger
      exact
        { points := fun row hrow hboard => expired_mono hclock (hinv.points row hrow hboard)
          events := fun row hrow hboard => expired_mono hclock (hinv.events row hrow hboard) }
  | store => exact ⟨hinv.points, hinv.events⟩

theorem inv_of_reachable {boardId : Str} {retention : UInt64} {s : State}
    (h : ReachableUnder system (Fixed boardId retention) s) : Inv boardId retention s := by
  refine h.invariant (fun s hs => ?init) fun s a s' _ hfixed hinv hstep => ?step
  case init =>
    refine ⟨?_, ?_⟩
    · rw [hs.1]
      exact nofun
    · rw [hs.2]
      exact nofun
  case step => exact inv_step hfixed hinv hstep

/-! ## The retention of a request -/

/-- The retention of a board record is the effective one of its board. -/
theorem effectiveBoardRetention_toBoard {row : BoardRow} (h : row.venueId ≠ []) :
    effectiveBoardRetention row.toBoard = row.retention := by
  have hempty : row.venueId.isEmpty = false := by simpa using h
  simp only [effectiveBoardRetention, BoardRow.toBoard, hempty, Bool.false_eq_true, if_false,
    List.foldl_cons, List.foldl_nil]
  split
  · rfl
  · rename_i hzero
    rw [gt_iff_lt, UInt64.not_lt] at hzero
    exact UInt64.le_antisymm UInt64.zero_le hzero

/-- A router is resolved to a board of the table, with its retention. -/
theorem resolve_retention {fetch : Str → DeviceFetch} {boards : List BoardRow} {routerId : Str}
    {r : Bandwidth.Resolved}
    (h : resolve fetch (fun v => some (BoardsDB.findBoardVenueRecordsByVenue boards v)) routerId =
      .ok r) :
    ∃ board ∈ boards, board.id = r.resolvedBoardId ∧
      effectiveBoardRetention board.toBoard = r.retention := by
  obtain ⟨hvenue, records, hrecords, hresolved⟩ := resolve_ok h
  obtain rfl := Option.some.inj hrecords
  unfold resolveBoardForVenue at hresolved
  split at hresolved
  · cases hresolved
  · rename_i record hrecord
    obtain rfl := Except.ok.inj hresolved
    have hmem : record ∈ BoardsDB.findBoardVenueRecordsByVenue boards (fetch routerId).venue := by
      have hin := List.mem_singleton_self record
      rw [← hrecord] at hin
      exact (List.mem_filter.mp hin).1
    unfold BoardsDB.findBoardVenueRecordsByVenue at hmem
    rw [if_neg (by simpa using hvenue)] at hmem
    obtain ⟨board, hboard, rfl⟩ := List.mem_map.mp hmem
    obtain ⟨hboard, hvenueId⟩ := List.mem_filter.mp (List.mem_of_mem_take hboard)
    -- the board has a venue, that of the device
    have hne : board.venueId ≠ [] := by
      rw [beq_iff_eq] at hvenueId
      rw [hvenueId]
      exact hvenue
    exact ⟨board, hboard, rfl, effectiveBoardRetention_toBoard hne⟩
  · cases hresolved

/-! ## Windows and cleanups -/

/-- A window that `ValidateRetention` passes begins within the retention. -/
theorem not_in_window {clock now retention skew time : UInt64} {w : Window}
    (hclock : clock ≤ now) (hw : validateRetention w retention now skew = .ok ())
    (h : Cleanup.Expired clock retention time) : ¬ (w.startTime ≤ time ∧ time < w.endTime) := by
  rintro ⟨hstart, -⟩
  obtain ⟨-, -, hretained, -⟩ := validateRetention_ok_iff.mp hw
  -- the clock has not gone back since the row was deleted
  unfold Cleanup.Expired at h
  rw [UInt64.le_iff_toNat_le] at hclock hstart
  omega

/-- A cleanup whose statements succeed visits every board, at a reading after its start. -/
theorem deletes_of_old {c : Cleanup} {boardId : Str} {retention start time : UInt64}
    (hsucceeds : ∀ statement, c.succeeds statement = true) (hstart : ∀ page, start ≤ c.nowAt page)
    (hfixed : FixedRetention boardId retention c.boards)
    (hboard : ∃ board ∈ c.boards, board.id = boardId) (hpos : retention ≠ 0)
    (h : Cleanup.Old start.toNat retention.toNat time.toNat) :
    ∃ v ∈ c.visited 0, Cleanup.Deletes v boardId time := by
  obtain ⟨board, hboard, hid⟩ := hboard
  have hvisited : board.toBoard ∈ (c.visited 0).map Prod.snd := by
    rw [Cleanup.map_visited (fun page => hsucceeds (.boards page)) 0, List.drop_zero]
    exact List.mem_map_of_mem hboard
  obtain ⟨v, hv, hsnd⟩ := List.mem_map.mp hvisited
  obtain ⟨⟨page, hpage⟩, -⟩ := Cleanup.mem_visited hv
  have hretention : effectiveBoardRetention v.2 = retention := by
    rw [hsnd]
    exact hfixed board hboard hid
  -- the page is read after the start of the cleanup
  have hnow := hstart page
  refine ⟨v, hv, hretention ▸ hpos, ?_, ?_⟩
  · rw [hsnd]
    exact hid.symm
  · rw [hretention, hpage]
    unfold Cleanup.Expired Cleanup.Old at *
    rw [UInt64.le_iff_toNat_le] at hnow
    omega

/-- With a fixed retention of a board, no row of the board that a cleanup has deleted is in a window
    that `ValidateRetention` passes later; and a cleanup whose statements succeed leaves no row of
    the board that is older than the retention when it starts. -/
theorem cleanup_keeps_windows (boardId : Str) (retention : UInt64) :
    (∀ s, ReachableUnder system (Fixed boardId retention) s →
      ∀ (boards : List BoardRow) (fetch : Str → DeviceFetch) (routerId : Str)
        (r : Bandwidth.Resolved) (now skew : UInt64) (w : Window),
        FixedRetention boardId retention boards →
        resolve fetch (fun v => some (BoardsDB.findBoardVenueRecordsByVenue boards v)) routerId =
          .ok r →
        r.resolvedBoardId = boardId → s.clock ≤ now →
        validateRetention w r.retention now skew = .ok () →
          (∀ row ∈ s.deletedPoints, row.boardId = boardId →
            ¬ (w.startTime ≤ row.timestamp ∧ row.timestamp < w.endTime)) ∧
          ∀ row ∈ s.deletedEvents, row.boardId = boardId →
            ¬ (w.startTime ≤ row.eventTime ∧ row.eventTime < w.endTime)) ∧
    ∀ (c : Cleanup) (t : Tables) (start : UInt64), retention ≠ 0 →
      (∀ statement, c.succeeds statement = true) → (∀ page, start ≤ c.nowAt page) →
      FixedRetention boardId retention c.boards → (∃ board ∈ c.boards, board.id = boardId) →
        (∀ row ∈ (c.onTimer t).timePoints, row.boardId = boardId →
          ¬ Cleanup.Old start.toNat retention.toNat row.timestamp.toNat) ∧
        ∀ row ∈ (c.onTimer t).events, row.boardId = boardId →
          ¬ Cleanup.Old start.toNat retention.toNat row.eventTime.toNat := by
  refine ⟨?_, ?_⟩
  · intro s hs boards fetch routerId r now skew w hfixed hresolve hid hclock hw
    -- the request goes by the retention that the cleanups went by
    obtain ⟨board, hboard, hboardId, hretention⟩ := resolve_retention hresolve
    rw [← hretention, hfixed board hboard (hboardId.trans hid)] at hw
    have hinv := inv_of_reachable hs
    exact ⟨fun row hrow hof => not_in_window hclock hw (hinv.points row hrow hof),
      fun row hrow hof => not_in_window hclock hw (hinv.events row hrow hof)⟩
  · intro c t start hpos hsucceeds hstart hfixed hboard
    refine ⟨?_, ?_⟩
    · intro row hrow hof hold
      obtain ⟨v, hv, hdeletes⟩ := deletes_of_old hsucceeds hstart hfixed hboard hpos hold
      exact (Cleanup.mem_timePoints_onTimer.mp hrow).2 v hv ⟨hsucceeds _, hof ▸ hdeletes⟩
    · intro row hrow hof hold
      obtain ⟨v, hv, hdeletes⟩ := deletes_of_old hsucceeds hstart hfixed hboard hpos hold
      exact (Cleanup.mem_events_onTimer.mp hrow).2 v hv ⟨hsucceeds _, hof ▸ hdeletes⟩

/-! ## A cleanup and a request -/

/-- A board that keeps an hour. -/
def hourBoard : BoardRow := { id := ['b'], venueId := ['v'], retention := 3600, interval := 60 }

/-- A cleanup at 5000. -/
def hourCleanup : Cleanup where
  boards := [hourBoard]
  nowAt _ := 5000
  nowAtHistory := 5000
  maxDays := 0
  succeeds _ := true

/-- A time point of the board, outside the retention of a later request. -/
def oldPoint : DeviceTimePoint :=
  { id := ['p'], boardId := ['b'], timestamp := 1399, ssidData := [], serialNumber := ['r'] }

/-- A state in which only that time point is stored. -/
def withOldPoint : State where
  tables := { timePoints := [oldPoint], events := [], history := [] }
  clock := 0
  deletedPoints := []
  deletedEvents := []

theorem cleanup_keeps_windows_at_limit :
    oldPoint ∉ (hourCleanup.onTimer withOldPoint.tables).timePoints ∧
      ∀ row ∈ (withOldPoint.clean hourCleanup).deletedPoints, row.boardId = ['b'] →
        ¬ (1400 ≤ row.timestamp ∧ row.timestamp < 5000) := by
  have hfixed : FixedRetention ['b'] 3600 [hourBoard] := by
    intro board hboard _
    obtain rfl := List.mem_singleton.mp hboard
    decide
  refine ⟨?_, ?_⟩
  · intro hrow
    refine ((cleanup_keeps_windows ['b'] 3600).2 hourCleanup withOldPoint.tables 5000 (by decide)
      (fun _ => rfl) (fun _ => UInt64.le_refl _) hfixed
      ⟨hourBoard, List.mem_singleton_self _, rfl⟩).1 oldPoint hrow rfl ?_
    unfold Cleanup.Old
    decide
  -- the window begins an hour before the cleanup, after the point that goes
  · have hclock : ClockFrom withOldPoint.clock hourCleanup :=
      ⟨by decide, fun _ _ _ => UInt64.le_refl _, fun _ => UInt64.le_refl _⟩
    have hstart : ReachableUnder system (Fixed ['b'] 3600) withOldPoint := .init ⟨rfl, rfl⟩
    have hstep : system.step withOldPoint (.cleanup hourCleanup) (withOldPoint.clean hourCleanup) :=
      .cleanup hclock
    have hat : Fixed ['b'] 3600 withOldPoint (.cleanup hourCleanup) := hfixed
    have hreach : ReachableUnder system (Fixed ['b'] 3600) (withOldPoint.clean hourCleanup) :=
      hstart.step hat hstep
    have hwindow : validateRetention ⟨1400, 5000, 1⟩ 3600 5000 0 = .ok () := by rfl
    exact ((cleanup_keeps_windows ['b'] 3600).1 _ hreach [hourBoard]
      (fun _ => { result := .success, status := 200, venue := ['v'] }) ['r'] _ 5000 0
      ⟨1400, 5000, 1⟩ hfixed rfl rfl (UInt64.le_refl _) hwindow).1

end RetentionWindows

end OwAnalytics.Storage
