/-
  OwAnalytics.Venue.ZombieBoards

  A zombie is a board with a watcher after its `DoDelete` has answered.  None turns
  up, and no row of a deleted board is stored, as long as `GetBoardList` is careful;
  once it is not, one can turn up.
-/

import OwAnalytics.Venue.DeletedBoards

namespace OwAnalytics.Venue.BoardRequests

open Transitions AnalyticsObjects

/-- A board has a watcher after its `DoDelete` has answered. -/
def Zombie (s : State) : Prop := ∃ id ∈ s.deleted, s.coordinator.watchers[id]? ≠ none

/-- No step stores a time point or an availability event of the board. -/
def StoresNothing (s : State) (id : Str) : Prop :=
  ∀ a s', s.step a = some s' →
    s'.timePoints.count id ≤ s.timePoints.count id ∧ s'.events.count id ≤ s.events.count id

variable {s s' : State}

/-! ## The rows of the tables -/

/-- The step stores no time point and no event. -/
def Fewer (s s' : State) : Prop :=
  s'.timePoints.Sublist s.timePoints ∧ s'.events.Sublist s.events

theorem fewer_refl (s : State) : Fewer s s := ⟨.refl _, .refl _⟩

theorem fewer_stepGetBoardList {ok : Bool} (hstep : s.stepGetBoardList ok = some s') :
    Fewer s s' := by
  unfold State.stepGetBoardList at hstep
  split at hstep
  · split at hstep
    · split at hstep <;> obtain rfl := Option.some.inj hstep <;> exact fewer_refl s
    · obtain rfl := Option.some.inj hstep
      exact fewer_refl s
  · cases hstep

theorem fewer_stepSweep {prov : Prov} {gone : Bool} {this : WatcherPtr}
    (hstep : s.stepSweep prov gone this = some s') : Fewer s s' := by
  unfold State.stepSweep at hstep
  split at hstep
  · obtain rfl := Option.some.inj hstep
    exact fewer_refl s
  · split at hstep
    · obtain ⟨coordinator, -, hs'⟩ := Option.bind_eq_some_iff.mp hstep
      obtain rfl := Option.some.inj hs'
      exact fewer_refl s
    · split at hstep
      · obtain ⟨coordinator, -, hs'⟩ := Option.bind_eq_some_iff.mp hstep
        obtain rfl := Option.some.inj hs'
        exact fewer_refl s
      · obtain rfl := Option.some.inj hstep
        exact fewer_refl s
  · cases hstep

theorem fewer_stepReconcile {ok : Bool} {prov : Prov} (hstep : s.stepReconcile ok prov = some s') :
    Fewer s s' := by
  unfold State.stepReconcile at hstep
  split at hstep
  · obtain rfl := Option.some.inj hstep
    exact fewer_refl s
  · obtain ⟨coordinator, -, hs'⟩ := Option.bind_eq_some_iff.mp hstep
    obtain rfl := Option.some.inj hs'
    exact fewer_refl s
  · cases hstep

theorem fewer_stepRetire {ok : Bool} (hstep : s.stepRetire ok = some s') : Fewer s s' := by
  unfold State.stepRetire at hstep
  split at hstep
  · obtain rfl := Option.some.inj hstep
    exact fewer_refl s
  · rename_i step _ _ _
    split at hstep
    · cases step with
      | boards =>
          obtain rfl := Option.some.inj hstep
          exact fewer_refl s
      | timePoints =>
          obtain rfl := Option.some.inj hstep
          exact ⟨List.filter_sublist, .refl _⟩
      | events =>
          obtain rfl := Option.some.inj hstep
          exact ⟨.refl _, List.filter_sublist⟩
    · obtain rfl := Option.some.inj hstep
      exact fewer_refl s
  · cases hstep

theorem fewer_stepRequest {n : Nat} {ok : Bool} (hstep : s.stepRequest n ok = some s') :
    Fewer s s' := by
  unfold State.stepRequest at hstep
  split at hstep
  · cases hstep
  · split at hstep <;> obtain rfl := Option.some.inj hstep <;> exact fewer_refl s
  · split at hstep
    · obtain ⟨coordinator, -, hs'⟩ := Option.bind_eq_some_iff.mp hstep
      obtain rfl := Option.some.inj hs'
      exact fewer_refl s
    · cases hstep
  · obtain rfl := Option.some.inj hstep
    cases ok <;> exact fewer_refl s
  -- The statements that delete rows of the board, each of which may fail.
  · obtain rfl := Option.some.inj hstep
    cases ok with
    | true => exact ⟨List.filter_sublist, .refl _⟩
    | false => exact fewer_refl s
  · obtain rfl := Option.some.inj hstep
    cases ok with
    | true => exact ⟨.refl _, List.filter_sublist⟩
    | false => exact fewer_refl s
  · split at hstep
    · cases hstep
    · split at hstep <;> obtain rfl := Option.some.inj hstep <;> exact fewer_refl s
  · split at hstep <;> obtain rfl := Option.some.inj hstep <;> exact fewer_refl s
  · split at hstep
    · obtain rfl := Option.some.inj hstep
      exact fewer_refl s
    · cases hstep

/-- A step that stores a row is one of the worker of a watcher, for the board of the watcher. -/
theorem rows_step {a : Label} (hstep : s.step a = some s') :
    Fewer s s' ∨ ∃ (id : Str) (w : VenueWatcher), s.coordinator.watchers[id]? = some w ∧
      (s'.timePoints = s.timePoints ++ [w.boardId] ∧ s'.events = s.events ∨
        s'.timePoints = s.timePoints ∧ s'.events = s.events ++ [w.boardId]) := by
  cases a with
  | getBoardList ok => exact .inl (fewer_stepGetBoardList hstep)
  | sweep prov gone this => exact .inl (fewer_stepSweep hstep)
  | reconcile ok prov => exact .inl (fewer_stepReconcile hstep)
  | retire ok => exact .inl (fewer_stepRetire hstep)
  | request n ok => exact .inl (fewer_stepRequest hstep)
  -- The threads and handlers below touch neither table.
  | wake =>
      simp only [State.step] at hstep
      split at hstep
      · obtain rfl := Option.some.inj hstep
        exact .inl (fewer_refl s)
      · cases hstep
  | timer =>
      simp only [State.step] at hstep
      split at hstep
      · obtain rfl := Option.some.inj hstep
        exact .inl (fewer_refl s)
      · cases hstep
  | doDelete n id =>
      simp only [State.step] at hstep
      split at hstep
      · split at hstep
        · cases hstep
        · obtain rfl := Option.some.inj hstep
          exact .inl (fewer_refl s)
      · cases hstep
  | doPost n body uuid =>
      simp only [State.step] at hstep
      split at hstep
      · split at hstep
        · obtain rfl := Option.some.inj hstep
          exact .inl (fewer_refl s)
        · cases hstep
      · cases hstep
  -- The two steps that store are those of a worker whose watcher is still in the map.
  | storeTimePoint id =>
      simp only [State.step] at hstep
      split at hstep
      · rename_i w hw
        obtain rfl := Option.some.inj hstep
        exact .inr ⟨id, w, hw, .inl ⟨rfl, rfl⟩⟩
      · cases hstep
  | storeEvent id =>
      simp only [State.step] at hstep
      split at hstep
      · rename_i w hw
        obtain rfl := Option.some.inj hstep
        exact .inr ⟨id, w, hw, .inr ⟨rfl, rfl⟩⟩
      · cases hstep

/-- Nothing is stored for a board without a watcher. -/
theorem storesNothing_of_no_watcher (h : Inv s) {id : Str}
    (hid : s.coordinator.watchers[id]? = none) : StoresNothing s id := by
  intro a s' hstep
  rcases rows_step hstep with ⟨htimePoints, hevents⟩ | ⟨k, w, hw, hrows⟩
  · exact ⟨htimePoints.count_le id, hevents.count_le id⟩
  · -- The watcher stores rows of the board it is for, which is another one.
    obtain ⟨reg, howned⟩ := VenueCoordinator.reachable_inv h.coordinator
    have hboard : w.boardId = k := howned.boardId k w hw
    have hne : w.boardId ≠ id := by
      rintro rfl
      rw [hboard, hw] at hid
      cases hid
    have hcount : [w.boardId].count id = 0 := List.count_eq_zero.mpr (by simpa using hne.symm)
    rcases hrows with ⟨htimePoints, hevents⟩ | ⟨htimePoints, hevents⟩
    · rw [htimePoints, hevents, List.count_append, hcount]
      exact ⟨le_rfl, le_rfl⟩
    · rw [htimePoints, hevents, List.count_append, hcount]
      exact ⟨le_rfl, le_rfl⟩

/-! ## Runs that are not careful -/

/-- There is always an address for another watcher. -/
theorem exists_unused (c : VenueCoordinator) : ∃ this, c.inUse this = false := by
  obtain ⟨this, hthis⟩ :=
    Infinite.exists_notMem_finset (c.watchers.toList.map fun entry => entry.2.this).toFinset
  refine ⟨this, ?_⟩
  rw [VenueCoordinator.inUse, List.any_eq_false]
  intro entry hentry heq
  apply hthis
  rw [List.mem_toFinset, List.mem_map]
  exact ⟨entry, hentry, by simpa using heq⟩

/-- The sweep may get past a board without doing anything, the provisioning service not
    answering. -/
theorem sweep_past {b : BoardInfo} {todo : List BoardInfo}
    (hholder : s.holder = .working (.sweep (b :: todo))) :
    ∃ a, s.step a = some { s with holder := .working (.sweep todo) } := by
  obtain ⟨this, hthis⟩ := exists_unused s.coordinator
  let prov : Prov := fun _ _ => { success := false }
  refine ⟨.sweep prov false this, ?_⟩
  simp only [State.step, State.stepSweep, hholder]
  cases hwatching : s.coordinator.watching b.info.id with
  | true => rfl
  | false =>
      have hstart : (s.coordinator.startBoard b prov this).2 = s.coordinator := by
        cases hvenue : b.venueList.isEmpty with
        | true => simp only [VenueCoordinator.startBoard, hvenue, if_true]
        | false =>
            simp [VenueCoordinator.startBoard, VenueCoordinator.getDevicesForBoard, hvenue, prov]
      have hsame : s.coordinator.step (.startBoard b prov this) = some s.coordinator := by
        simp [VenueCoordinator.step, hwatching, hthis, hstart]
      simp only [Bool.not_false, if_true, hsame]
      cases b.venueList.isEmpty <;> rfl

theorem sweep_past_all {P : State → Prop} (pre : List BoardInfo) {todo : List BoardInfo}
    (hholder : s.holder = .working (.sweep (pre ++ todo)))
    (h : CanReach State.step P { s with holder := .working (.sweep todo) }) :
    CanReach State.step P s := by
  induction pre generalizing s with
  | nil =>
      rw [List.nil_append] at hholder
      rw [← hholder] at h
      exact h
  | cons b rest ih =>
      obtain ⟨a, ha⟩ := sweep_past hholder
      exact canReach_step ha (ih rfl h)

/-- What a `DoDelete` that is past `StopBoard` still has to do does not touch the watchers. -/
theorem canReach_zombie {id : Str} (hid : PastStop s id)
    (hwatcher : s.coordinator.watchers[id]? ≠ none) : CanReach State.step Zombie s := by
  rcases hid with hid | ⟨n, hn⟩
  · exact canReach_here ⟨id, hid, hwatcher⟩
  · -- The request goes on, whether the storage deletes or not, until it is done with the board.
    have hevents : ∀ t : State, t.requests n = .deleteEvents id →
        t.coordinator = s.coordinator → CanReach State.step Zombie t := by
      intro t ht hcoordinator
      apply canReach_step (a := .request n false)
      · simp only [State.step, State.stepRequest, ht]
        rfl
      · apply canReach_here
        refine ⟨id, List.mem_cons_self, ?_⟩
        show t.coordinator.watchers[id]? ≠ none
        rw [hcoordinator]
        exact hwatcher
    have htimePoints : ∀ t : State, t.requests n = .deleteTimePoints id →
        t.coordinator = s.coordinator → CanReach State.step Zombie t := by
      intro t ht hcoordinator
      apply canReach_step (a := .request n false)
      · simp only [State.step, State.stepRequest, ht]
        rfl
      · exact hevents _ (Function.update_self ..) hcoordinator
    cases hr : s.requests n with
    | deleteRecord k =>
        rw [hr] at hn
        obtain rfl : k = id := hn
        apply canReach_step (a := .request n false)
        · simp only [State.step, State.stepRequest, hr]
          rfl
        · exact htimePoints _ (Function.update_self ..) rfl
    | deleteTimePoints k =>
        rw [hr] at hn
        obtain rfl : k = id := hn
        exact htimePoints s hr rfl
    | deleteEvents k =>
        rw [hr] at hn
        obtain rfl : k = id := hn
        exact hevents s hr rfl
    | idle => rw [hr] at hn; exact hn.elim
    | getRecord k => rw [hr] at hn; exact hn.elim
    | stopBoard k => rw [hr] at hn; exact hn.elim
    | findBoardsByVenue b => rw [hr] at hn; exact hn.elim
    | createRecord b => rw [hr] at hn; exact hn.elim
    | addBoard k => rw [hr] at hn; exact hn.elim

/-- The sweep gets to a board it has in its list, and the provisioning service answers. -/
theorem canReach_of_sweep {b : BoardInfo} {l : List BoardInfo}
    (hholder : s.holder = .working (.sweep l)) (hb : b ∈ l) (hvenue : b.venueList ≠ [])
    (hwatching : s.coordinator.watching b.info.id = false) (hpast : PastStop s b.info.id) :
    CanReach State.step Zombie s := by
  obtain ⟨pre, todo, rfl⟩ := List.append_of_mem hb
  apply sweep_past_all pre hholder
  obtain ⟨this, hthis⟩ := exists_unused s.coordinator
  let prov : Prov := fun _ _ => { success := true }
  have hempty : b.venueList.isEmpty = false := by simpa using hvenue
  -- The board has no device, which is enough for a watcher.
  have hstart : s.coordinator.step (.startBoard b prov this)
      = some (s.coordinator.startWatcher b [] this) := by
    have hdevices : s.coordinator.getDevicesForBoard b prov = (some [], true, s.coordinator) := rfl
    simp [VenueCoordinator.step, hwatching, hthis, VenueCoordinator.startBoard, hempty, hdevices]
  have hsweep :
      State.step { s with holder := .working (.sweep (b :: todo)) } (.sweep prov false this)
      = some { s with
          coordinator := s.coordinator.startWatcher b [] this
          holder := .working (.sweep todo) } := by
    simp only [State.step, State.stepSweep, hwatching, Bool.not_false, if_true, hstart, hempty]
    rfl
  apply canReach_step hsweep
  refine canReach_zombie hpast ?_
  show (s.coordinator.watchers.insert b.info.id _)[b.info.id]? ≠ none
  rw [VenueCoordinator.getElem?_insert_eq, if_pos rfl]
  exact Option.some_ne_none _

/-- After a step that is not careful, a deleted board can have a watcher. -/
theorem canReach_of_not_careful {a : Label} (hstep : s.step a = some s')
    (hcareful : ¬ Careful s a) : CanReach State.step Zombie s' := by
  cases a with
  | getBoardList ok =>
      simp only [Careful, Startable, Classical.not_imp, not_forall, not_not] at hcareful
      obtain ⟨hok, offset, hholder, b, hb, hvenue, hwatching, hpast⟩ := hcareful
      simp only [State.step, State.stepGetBoardList, hholder, hok, if_true] at hstep
      split at hstep
      · obtain rfl := Option.some.inj hstep
        exact canReach_of_sweep rfl hb hvenue hwatching hpast
      · -- The next batch cannot be read, which ends the listing.
        obtain rfl := Option.some.inj hstep
        apply canReach_step (a := .getBoardList false) rfl
        exact canReach_of_sweep rfl hb hvenue hwatching hpast
  | wake => exact absurd trivial hcareful
  | sweep prov gone this => exact absurd trivial hcareful
  | timer => exact absurd trivial hcareful
  | reconcile ok prov => exact absurd trivial hcareful
  | retire ok => exact absurd trivial hcareful
  | doDelete n id => exact absurd trivial hcareful
  | doPost n body uuid => exact absurd trivial hcareful
  | request n ok => exact absurd trivial hcareful
  | storeTimePoint id => exact absurd trivial hcareful
  | storeEvent id => exact absurd trivial hcareful

/-- In a state reached by careful steps no board whose `DoDelete` has answered has a watcher, and
    no step stores a row of it; after the first step that is not careful, such a board can have
    a watcher. -/
theorem zombie_iff_not_careful (h : ReachableUnder system Careful s) :
    (∀ id ∈ s.deleted, s.coordinator.watchers[id]? = none ∧ StoresNothing s id) ∧
      ∀ a s', s.step a = some s' → ¬ Careful s a → CanReach State.step Zombie s' := by
  have hinv : Inv s := inv_of_careful h
  refine ⟨?_, fun _ _ hstep hcareful => canReach_of_not_careful hstep hcareful⟩
  intro id hid
  have hnone : s.coordinator.watchers[id]? = none := hinv.noWatcher id (.inl hid)
  exact ⟨hnone, storesNothing_of_no_watcher hinv hnone⟩

/-! ## A sweep during a delete -/

/-- A new board is deleted while the sweep that was to start it reads the table: after `StopBoard`
    and before `DeleteRecord`. -/
def sweepDuringDelete : List Label :=
  let body : BoardInfo := { info := { name := ['n'] }, venueList := [{ id := ['v'] }] }
  [.doPost 0 body ['a'], .request 0 true, .request 0 true, .request 0 true,
    .doDelete 0 ['a'], .request 0 true, .request 0 true,
    .wake, .getBoardList true,
    .request 0 true, .request 0 true, .request 0 true,
    .sweep (fun _ _ => { success := true, devices := [1] }) false 7]

/-- The board is deleted, its watcher runs, and its worker stores a time point. -/
theorem zombie_sweepDuringDelete :
    ∃ s s', run State.step {} sweepDuringDelete = some s ∧ Reachable system s ∧
      ['a'] ∈ s.deleted ∧ s.getRecord ['a'] = none ∧ s.coordinator.watchers[['a']]? ≠ none ∧
      s.step (.storeTimePoint ['a']) = some s' ∧
      s.timePoints.count ['a'] < s'.timePoints.count ['a'] := by
  have hrun : (run State.step {} sweepDuringDelete).map (fun s =>
      (s.deleted, (s.getRecord ['a']).isSome, s.timePoints,
        (s.coordinator.watchers[['a']]?).map fun w => w.boardId))
      = some ([['a']], false, [], some ['a']) := by
    decide +kernel
  obtain ⟨s, hs, hvalues⟩ := Option.map_eq_some_iff.mp hrun
  simp only [Prod.mk.injEq, Option.map_eq_some_iff] at hvalues
  obtain ⟨hdeleted, hrecord, hrows, w, hw, hboard⟩ := hvalues
  -- the watcher is there although its board is not, and it stores for it
  have hstore : s.step (.storeTimePoint ['a'])
      = some { s with timePoints := s.timePoints ++ [w.boardId] } := by
    simp only [State.step, hw]
  refine ⟨s, _, hs, ?_, ?_, ?_, ?_, hstore, ?_⟩
  · exact reachable_of_run (S := system) (fun _ _ _ hnext => hnext) (.init ⟨[], [], [], rfl⟩) hs
  · rw [hdeleted]
    exact List.mem_singleton_self _
  · exact Option.not_isSome_iff_eq_none.mp (by rw [hrecord]; exact Bool.false_ne_true)
  · rw [hw]
    exact Option.some_ne_none _
  · show List.count _ s.timePoints < List.count _ (s.timePoints ++ [w.boardId])
    rw [hrows, hboard]
    decide

/-- A board is created and deleted, no sweep coming in between. -/
def postAndDelete : List Label :=
  let body : BoardInfo := { info := { name := ['n'] }, venueList := [{ id := ['v'] }] }
  [.doPost 0 body ['a'], .request 0 true, .request 0 true, .request 0 true,
    .doDelete 0 ['a'], .request 0 true, .request 0 true, .request 0 true, .request 0 true,
    .request 0 true]

theorem zombie_iff_not_careful_postAndDelete :
    ∃ s, run State.step {} postAndDelete = some s ∧ s.deleted = [['a']] ∧
      (∀ id ∈ s.deleted, s.coordinator.watchers[id]? = none ∧ StoresNothing s id) ∧
      ∀ a s', s.step a = some s' → ¬ Careful s a → CanReach State.step Zombie s' := by
  have hrun : (run State.step {} postAndDelete).map State.deleted = some [['a']] := by
    decide +kernel
  obtain ⟨s, hs, hdeleted⟩ := Option.map_eq_some_iff.mp hrun
  have hcareful : ∀ a ∈ postAndDelete, ∀ t, Careful t a := by
    intro a ha t
    simp only [postAndDelete, List.mem_cons, List.not_mem_nil, or_false] at ha
    rcases ha with rfl | rfl | rfl | rfl | rfl | rfl | rfl | rfl | rfl | rfl <;> trivial
  have hreach : ReachableUnder system Careful s :=
    reachableUnder_of_run (S := system) (fun _ _ _ hnext => hnext) (.init ⟨[], [], [], rfl⟩)
      hcareful hs
  exact ⟨s, hs, hdeleted, zombie_iff_not_careful hreach⟩

end OwAnalytics.Venue.BoardRequests
