/-
  OwAnalytics.Venue.Watching

  `Watching` against `Watchers_`.  `StartBoard` writes both maps of the coordinator,
  `StopBoard` only one, so that a board that was stopped counts as watched from then
  on and no sweep of `run` starts it again.  As long as no board with a watcher is
  stopped the two maps have the same keys.
-/

import OwAnalytics.Venue.Coordinator

namespace OwAnalytics.Venue

open Transitions AnalyticsObjects

/-- A board of `BoardsToWatch_` when the sweep comes to it: what the provisioning service answers
    about its venue, and the address of its watcher if one is made. -/
structure Visit where
  board : BoardInfo
  prov : Prov
  /-- `Venue::Exists` answers that the venue is gone. -/
  gone : Bool
  this : WatcherPtr

/-- The board whose `StopBoard` a step goes through, be it called or on the retire path. -/
def Action.stopped : Action → Option Str
  | .stopBoard id => some id
  | .retireBoard b => some b.info.id
  | .startBoard b prov _ =>
      let answer := prov (firstVenue b).id (firstVenue b).monitorSubVenues
      if !b.venueList.isEmpty && !answer.success && !answer.venueExists then some b.info.id
      else none
  | .updateBoard _ (some b) prov =>
      let answer := prov (firstVenue b).id (firstVenue b).monitorSubVenues
      if !answer.success && !answer.venueExists then some b.info.id else none
  | .updateBoard _ none _ => none

namespace VenueCoordinator

/-- The loop of `run`, for one board. -/
def sweepBoard (c : VenueCoordinator) (v : Visit) : VenueCoordinator :=
  if !c.watching v.board.info.id then (c.startBoard v.board v.prov v.this).2
  else if v.gone then c.retireBoard v.board
  else c

/-- The loop of `run`, over all boards. -/
def sweep (c : VenueCoordinator) (visits : List Visit) : VenueCoordinator :=
  visits.foldl sweepBoard c

/-- The board has a watcher that was started: it is registered, with an `AP` for each device. -/
def Watched (c : VenueCoordinator) (id : Str) : Prop :=
  ∃ w, c.Watches id w ∧ w.boardId = id ∧ c.Registered id w

/-- `Watching` answers for the boards that are watched, and for no others. -/
def WatchingMeansWatched (c : VenueCoordinator) : Prop :=
  ∀ id, c.watching id = true ↔ c.Watched id

/-- The next sweep starts every board that has a venue and no watcher, if the provisioning
    service gives its devices. -/
def SweepStarts (c : VenueCoordinator) : Prop :=
  ∀ visits : List Visit, (visits.map fun v => v.board.info.id).Nodup →
    ∀ v ∈ visits, v.board.venueList ≠ [] →
      (v.prov (firstVenue v.board).id (firstVenue v.board).monitorSubVenues).success = true →
      ¬ c.Watched v.board.info.id → ∃ w, (c.sweep visits).Watches v.board.info.id w

/-- No board with a watcher is stopped. -/
def KeepsWatchers (c : VenueCoordinator) (a : Action) : Prop :=
  ∀ id, a.stopped = some id → c.watchers[id]? = none

variable {c c' : VenueCoordinator}

/-! ## The keys of the two maps -/

/-- The two maps have the same keys. -/
def SameKeys (c : VenueCoordinator) : Prop :=
  ∀ id, c.watching id = true ↔ (c.watchers[id]?).isSome = true

theorem stopBoard_of_none {id : Str} (h : c.watchers[id]? = none) : c.stopBoard id = c := by
  simp only [stopBoard, h]

theorem watching_stopBoard (c : VenueCoordinator) (id k : Str) :
    (c.stopBoard id).watching k = c.watching k := by
  unfold stopBoard
  split <;> rfl

/-- A stopped board has no watcher, and the others keep theirs. -/
theorem getElem?_stopBoard (c : VenueCoordinator) (id k : Str) :
    (c.stopBoard id).watchers[k]? = if k = id then none else c.watchers[k]? := by
  by_cases hk : k = id
  · subst hk
    rw [if_pos rfl]
    cases hw : c.watchers[k]? with
    | none => simp [stopBoard, hw]
    | some w => simp [stopBoard, hw]
  · rw [if_neg hk]
    unfold stopBoard
    split
    · rw [Std.ExtTreeMap.getElem?_erase]
      simp [Ne.symm hk]
    · rfl

/-- A board that is put into both maps. -/
theorem sameKeys_insert (h : c.SameKeys) (id : Str) (devices : List Serial) (w : VenueWatcher)
    (shared : Shared) :
    SameKeys
      { existingBoards := c.existingBoards.insert id devices
        watchers := c.watchers.insert id w
        shared } := by
  intro k
  show ((c.existingBoards.insert id devices)[k]?).isSome = true ↔
    ((c.watchers.insert id w)[k]?).isSome = true
  rw [getElem?_insert_eq, getElem?_insert_eq]
  by_cases hk : k = id
  · simp [hk]
  · rw [if_neg hk, if_neg hk]
    exact h k

theorem sameKeys_startWatcher (h : c.SameKeys) (b : BoardInfo) (devices : List Serial)
    (this : WatcherPtr) : (c.startWatcher b devices this).SameKeys :=
  sameKeys_insert h b.info.id devices _ _

/-- New devices are written only for a board that is known. -/
theorem sameKeys_updateWatcher (h : c.SameKeys) (id : Str) (devices : List Serial) :
    (c.updateWatcher id devices).SameKeys := by
  unfold updateWatcher
  split
  · exact h
  · rename_i existing hexisting
    have hknown : c.watching id = true := by
      rw [watching, hexisting]
      rfl
    obtain ⟨w, hw⟩ := Option.isSome_iff_exists.mp ((h id).mp hknown)
    split
    · simp only [hw]
      exact sameKeys_insert h id devices _ _
    · exact h

/-! ## Steps that keep the watchers -/

/-- Whether `GetDevicesForBoard` retires the board. -/
theorem getDevicesForBoard_retires (c : VenueCoordinator) (b : BoardInfo) (prov : Prov)
    (h : (prov (firstVenue b).id (firstVenue b).monitorSubVenues).success = false)
    (he : (prov (firstVenue b).id (firstVenue b).monitorSubVenues).venueExists = false) :
    c.getDevicesForBoard b prov = (none, false, c.stopBoard b.info.id) := by
  simp [getDevicesForBoard, h, he, retireBoard]

/-- It does so only where the venue is not there. -/
theorem fails_of_getDevicesForBoard {b : BoardInfo} {prov : Prov} {c'' : VenueCoordinator}
    (h : c.getDevicesForBoard b prov = (none, false, c'')) :
    (prov (firstVenue b).id (firstVenue b).monitorSubVenues).success = false ∧
      (prov (firstVenue b).id (firstVenue b).monitorSubVenues).venueExists = false := by
  unfold getDevicesForBoard at h
  dsimp only at h
  split at h
  · cases h
  · rename_i hfails
    refine ⟨Bool.eq_false_iff.mpr hfails, ?_⟩
    split at h <;> exact (Prod.mk.inj (Prod.mk.inj h).2).1

/-- Apart from stopping a board, a step starts a watcher, updates one or does nothing. -/
theorem step_of_not_stopped {a : Action} (h : c.step a = some c') (hstopped : a.stopped = none) :
    c' = c ∨ (∃ b devices this, c' = c.startWatcher b devices this) ∨
      ∃ id devices, c' = c.updateWatcher id devices := by
  cases a with
  | startBoard b prov this =>
      simp only [step] at h
      split at h
      · cases h
      · obtain rfl := Option.some.inj h
        by_cases hvenue : b.venueList.isEmpty
        · exact .inl (by simp [startBoard, hvenue])
        · rcases getDevicesForBoard_cases c b prov with ⟨devices, _, -, hget⟩ | hget | hget
          · exact .inr (.inl ⟨b, devices, this, by simp [startBoard, hvenue, hget]⟩)
          · -- The retire path is taken, which `stopped` says.
            obtain ⟨hs, he⟩ := fails_of_getDevicesForBoard hget
            simp [Action.stopped, hvenue, hs, he] at hstopped
          · exact .inl (by simp [startBoard, hvenue, hget])
  | updateBoard id record prov =>
      simp only [step] at h
      split at h
      · obtain rfl := Option.some.inj h
        cases record with
        | none => exact .inl rfl
        | some b =>
            rcases getDevicesForBoard_cases c b prov with ⟨devices, _, -, hget⟩ | hget | hget
            · exact .inr (.inr ⟨id, devices, by simp [updateBoard, hget]⟩)
            · obtain ⟨hs, he⟩ := fails_of_getDevicesForBoard hget
              simp [Action.stopped, hs, he] at hstopped
            · exact .inl (by simp [updateBoard, hget])
      · cases h
  | stopBoard id => cases hstopped
  | retireBoard b => cases hstopped

/-- A step that stops a board does nothing else. -/
theorem step_of_stopped {a : Action} (h : c.step a = some c') {id : Str}
    (hstopped : a.stopped = some id) : c' = c.stopBoard id := by
  cases a with
  | startBoard b prov this =>
      simp only [Action.stopped, Bool.and_eq_true, Bool.not_eq_true', Option.ite_none_right_eq_some,
        Option.some.injEq] at hstopped
      obtain ⟨⟨⟨hvenue, hs⟩, he⟩, rfl⟩ := hstopped
      simp only [step] at h
      -- The guard of the step is met, and the lookup answers that the venue is gone.
      split at h
      · cases h
      · rw [← Option.some.inj h]
        simp [startBoard, hvenue, getDevicesForBoard_retires c b prov hs he, retireBoard,
          stopBoard_stopBoard]
  | updateBoard k record prov =>
      cases record with
      | none => cases hstopped
      | some b =>
          simp only [Action.stopped, Bool.and_eq_true, Bool.not_eq_true',
            Option.ite_none_right_eq_some, Option.some.injEq] at hstopped
          obtain ⟨⟨hs, he⟩, rfl⟩ := hstopped
          simp only [step] at h
          split at h
          · rw [← Option.some.inj h]
            simp [updateBoard, getDevicesForBoard_retires c b prov hs he, retireBoard,
              stopBoard_stopBoard]
          · cases h
  | stopBoard k =>
      obtain rfl := Option.some.inj hstopped
      exact (Option.some.inj h).symm
  | retireBoard b =>
      obtain rfl := Option.some.inj hstopped
      exact (Option.some.inj h).symm

theorem sameKeys_step {a : Action} (hkeeps : c.KeepsWatchers a) (h : c.SameKeys)
    (hstep : c.step a = some c') : c'.SameKeys := by
  cases hstopped : a.stopped with
  | none =>
      rcases step_of_not_stopped hstep hstopped with
        rfl | ⟨b, devices, this, rfl⟩ | ⟨id, devices, rfl⟩
      · exact h
      · exact sameKeys_startWatcher h b devices this
      · exact sameKeys_updateWatcher h id devices
  | some id =>
      rw [step_of_stopped hstep hstopped, stopBoard_of_none (hkeeps id hstopped)]
      exact h

theorem sameKeys_of_keepsWatchers (h : ReachableUnder system KeepsWatchers c) : c.SameKeys := by
  refine h.invariant ?_ ?_
  · rintro _ rfl id
    simp [watching]
  · intro _ _ _ _ hkeeps hsame hstep
    exact sameKeys_step hkeeps hsame hstep

/-! ## The next sweep -/

theorem startBoard_cases (c : VenueCoordinator) (b : BoardInfo) (prov : Prov) (this : WatcherPtr) :
    (c.startBoard b prov this).2 = c ∨ (c.startBoard b prov this).2 = c.stopBoard b.info.id ∨
      ∃ devices, (c.startBoard b prov this).2 = c.startWatcher b devices this := by
  by_cases hvenue : b.venueList.isEmpty
  · exact .inl (by simp [startBoard, hvenue])
  · rcases getDevicesForBoard_cases c b prov with ⟨devices, _, -, hget⟩ | hget | hget
    · exact .inr (.inr ⟨devices, by simp [startBoard, hvenue, hget]⟩)
    · exact .inr (.inl (by simp [startBoard, hvenue, hget, retireBoard, stopBoard_stopBoard]))
    · exact .inl (by simp [startBoard, hvenue, hget])

/-- What the sweep does for a board does not touch the others. -/
theorem sweepBoard_of_ne (c : VenueCoordinator) (v : Visit) {k : Str} (hk : k ≠ v.board.info.id) :
    (c.sweepBoard v).watchers[k]? = c.watchers[k]? ∧
      (c.sweepBoard v).watching k = c.watching k := by
  have hstop : (c.stopBoard v.board.info.id).watchers[k]? = c.watchers[k]? := by
    rw [getElem?_stopBoard, if_neg hk]
  have hknown : (c.stopBoard v.board.info.id).watching k = c.watching k := watching_stopBoard _ _ _
  unfold sweepBoard
  -- in all branches the board itself is the only key that is written
  split
  · rcases startBoard_cases c v.board v.prov v.this with h | h | ⟨devices, h⟩
    · rw [h]
      exact ⟨rfl, rfl⟩
    · rw [h]
      exact ⟨hstop, hknown⟩
    · rw [h]
      refine ⟨?_, ?_⟩
      · show (c.watchers.insert v.board.info.id _)[k]? = _
        rw [getElem?_insert_eq, if_neg hk]
      · show ((c.existingBoards.insert v.board.info.id devices)[k]?).isSome = _
        rw [getElem?_insert_eq, if_neg hk]
        rfl
  · split
    · exact ⟨hstop, hknown⟩
    · exact ⟨rfl, rfl⟩

theorem sweep_of_notMem (c : VenueCoordinator) (visits : List Visit) {k : Str}
    (hk : k ∉ visits.map fun v => v.board.info.id) :
    (c.sweep visits).watchers[k]? = c.watchers[k]? ∧
      (c.sweep visits).watching k = c.watching k := by
  induction visits generalizing c with
  | nil => exact ⟨rfl, rfl⟩
  | cons v rest ih =>
      rw [List.map_cons, List.mem_cons, not_or] at hk
      obtain ⟨hw, hknown⟩ := ih (c.sweepBoard v) hk.2
      obtain ⟨hw', hknown'⟩ := sweepBoard_of_ne c v hk.1
      exact ⟨hw.trans hw', hknown.trans hknown'⟩

/-- The sweep starts a board that does not count as watched. -/
theorem sweepBoard_starts (c : VenueCoordinator) (v : Visit) (hvenue : v.board.venueList ≠ [])
    (hwatching : c.watching v.board.info.id = false)
    (hprov :
      (v.prov (firstVenue v.board).id (firstVenue v.board).monitorSubVenues).success = true) :
    ∃ w, (c.sweepBoard v).Watches v.board.info.id w := by
  have hempty : v.board.venueList.isEmpty = false := by simpa using hvenue
  rcases getDevicesForBoard_cases c v.board v.prov with ⟨devices, _, -, hget⟩ | hget | hget
  · have hstart : c.sweepBoard v = c.startWatcher v.board devices v.this := by
      simp [sweepBoard, hwatching, startBoard, hempty, hget]
    rw [hstart]
    exact ⟨_, Std.ExtTreeMap.getElem?_insert_self⟩
  · simp [getDevicesForBoard, hprov] at hget
  · simp [getDevicesForBoard, hprov] at hget

theorem sweepStarts_of_watchingMeansWatched (h : c.WatchingMeansWatched) : c.SweepStarts := by
  intro visits hnodup v hv hvenue hprov hnone
  obtain ⟨pre, post, rfl⟩ := List.append_of_mem hv
  rw [List.map_append, List.map_cons, List.nodup_append'] at hnodup
  obtain ⟨-, hpost, hdisjoint⟩ := hnodup
  have hpre : v.board.info.id ∉ pre.map fun v => v.board.info.id := fun hmem =>
    hdisjoint hmem List.mem_cons_self
  -- The board is not watched when the sweep comes to it, and no later board undoes what it does.
  have hwatching : (c.sweep pre).watching v.board.info.id = false := by
    rw [(sweep_of_notMem c pre hpre).2, Bool.eq_false_iff]
    exact fun hw => hnone ((h _).mp hw)
  obtain ⟨w, hw⟩ := sweepBoard_starts (c.sweep pre) v hvenue hwatching hprov
  refine ⟨w, ?_⟩
  show (c.sweep (pre ++ v :: post)).watchers[v.board.info.id]? = some w
  rw [sweep, List.foldl_append, List.foldl_cons]
  exact ((sweep_of_notMem _ post (List.nodup_cons.mp hpost).1).1).trans hw

/-! ## When watching means watched -/

theorem watched_iff (h : Reachable system c) (id : Str) :
    c.Watched id ↔ (c.watchers[id]?).isSome = true := by
  refine ⟨?_, ?_⟩
  · rintro ⟨w, hw, -, -⟩
    exact Option.isSome_iff_exists.mpr ⟨w, hw⟩
  · intro hw
    obtain ⟨w, hw⟩ := Option.isSome_iff_exists.mp hw
    have hinv : c.Inv := reachable_inv h
    have hregistered : c.Registered id w := hinv.registrationOk.registered id w hw
    obtain ⟨reg, howned⟩ := hinv
    exact ⟨w, hw, howned.boardId id w hw, hregistered⟩

theorem watchingMeansWatched_iff (h : Reachable system c) :
    c.WatchingMeansWatched ↔ c.SameKeys := by
  simp only [WatchingMeansWatched, SameKeys, watched_iff h]

/-- A board that counts as watched and has no watcher stays so for good. -/
theorem lost_for_good {labels : List Action} {t : VenueCoordinator}
    (hrun : run step c labels = some t) {id : Str} (hwatching : c.watching id = true)
    (hnone : c.watchers[id]? = none) : t.watching id = true ∧ t.watchers[id]? = none := by
  induction labels generalizing c with
  | nil =>
      obtain rfl := Option.some.inj hrun
      exact ⟨hwatching, hnone⟩
  | cons a rest ih =>
      obtain ⟨d, hstep, hrest⟩ := Option.bind_eq_some_iff.mp hrun
      refine ih hrest (watching_step hstep hwatching) (watchers_step_none hstep hnone ?_)
      -- `run` starts only boards that do not count as watched.
      rintro b prov this rfl rfl
      simp only [step, hwatching, Bool.true_or, if_true, reduceCtorEq] at hstep

/-- In a state reached without stopping a board that has a watcher, the boards that count as
    watched are those with a started watcher, and the next sweep starts the others; after the first
    step that stops such a board this never holds again. -/
theorem watching_iff_keepsWatchers (h : ReachableUnder system KeepsWatchers c) :
    (c.WatchingMeansWatched ∧ c.SweepStarts) ∧
      ∀ a c', c.step a = some c' → ¬ c.KeepsWatchers a →
        ∀ labels t, run step c' labels = some t → ¬ t.WatchingMeansWatched := by
  have hsame : c.SameKeys := sameKeys_of_keepsWatchers h
  have hwatched : c.WatchingMeansWatched := (watchingMeansWatched_iff h.reachable).mpr hsame
  refine ⟨⟨hwatched, sweepStarts_of_watchingMeansWatched hwatched⟩, ?_⟩
  intro a c' hstep hkeeps labels t hrun ht
  simp only [KeepsWatchers, not_forall] at hkeeps
  obtain ⟨id, hstopped, hwatcher⟩ := hkeeps
  have hwatching : c'.watching id = true := by
    rw [step_of_stopped hstep hstopped, watching_stopBoard, hsame]
    exact Option.isSome_iff_ne_none.mpr hwatcher
  have hnone : c'.watchers[id]? = none := by
    rw [step_of_stopped hstep hstopped, getElem?_stopBoard, if_pos rfl]
  obtain ⟨hlost, hlostNone⟩ := lost_for_good hrun hwatching hnone
  obtain ⟨w, hw, -, -⟩ := (ht id).mp hlost
  rw [Watches, hlostNone] at hw
  cases hw

/-! ## A retirement whose deletion fails -/

/-- A board that a sweep retires. -/
def retiredBoard : BoardInfo := { info := { id := ['a'] }, venueList := [{ id := ['v'] }] }

/-- A venue of one device. -/
def oneDevice : Prov := fun _ _ => { success := true, devices := [1] }

/-- The board is retired, `DeleteRecord` returns false, and its record is there for the next
    sweep. -/
theorem not_watched_after_failed_retirement :
    ∃ c, run step {} [.startBoard retiredBoard oneDevice 7, .retireBoard retiredBoard] = some c ∧
      Reachable system c ∧ ¬ c.WatchingMeansWatched ∧ ¬ c.SweepStarts := by
  have hrun : (run step {} [.startBoard retiredBoard oneDevice 7, .retireBoard retiredBoard]).map
      (fun c =>
        let after :=
          c.sweep [{ board := retiredBoard, prov := oneDevice, gone := false, this := 9 }]
        (c.watching ['a'], (c.watchers[['a']]?).isSome, (after.watchers[['a']]?).isSome))
      = some (true, false, false) := by
    decide +kernel
  obtain ⟨c, hc, hvalues⟩ := Option.map_eq_some_iff.mp hrun
  simp only [Prod.mk.injEq, Option.isSome_eq_false_iff, Option.isNone_iff_eq_none] at hvalues
  obtain ⟨hwatching, hnone, hafter⟩ := hvalues
  -- the watcher went with the retirement, and the board is still known
  have hunwatched : ¬ c.Watched ['a'] := by
    rintro ⟨w, hw, -, -⟩
    rw [Watches, hnone] at hw
    cases hw
  refine ⟨c, hc, reachable_of_run_start hc, fun h => hunwatched ((h ['a']).mp hwatching), ?_⟩
  intro h
  obtain ⟨w, hw⟩ := h [{ board := retiredBoard, prov := oneDevice, gone := false, this := 9 }]
    (List.nodup_singleton _) _ (List.mem_singleton_self _) (by simp [retiredBoard]) rfl hunwatched
  rw [Watches] at hw
  have hid : retiredBoard.info.id = ['a'] := rfl
  rw [hid, hafter] at hw
  cases hw

/-- A board is started and gets another device. -/
theorem watching_iff_keepsWatchers_started :
    ∃ c, run step {} [.startBoard retiredBoard oneDevice 7,
        .updateBoard ['a'] (some retiredBoard) fun _ _ => { success := true, devices := [1, 2] }]
        = some c ∧
      (c.WatchingMeansWatched ∧ c.SweepStarts) ∧
      ∀ a c', c.step a = some c' → ¬ c.KeepsWatchers a →
        ∀ labels t, run step c' labels = some t → ¬ t.WatchingMeansWatched := by
  obtain ⟨c, hc⟩ := Option.isSome_iff_exists.mp
    (by decide +kernel : (run step {} [.startBoard retiredBoard oneDevice 7,
        .updateBoard ['a'] (some retiredBoard) fun _ _ => { success := true, devices := [1, 2] }]
        ).isSome = true)
  have hkeeps : ∀ a ∈ [Action.startBoard retiredBoard oneDevice 7,
      .updateBoard ['a'] (some retiredBoard) fun _ _ => { success := true, devices := [1, 2] }],
      ∀ t, KeepsWatchers t a := by
    intro a ha t id hstopped
    simp only [List.mem_cons, List.not_mem_nil, or_false] at ha
    rcases ha with rfl | rfl <;> cases hstopped
  have hreach : ReachableUnder system KeepsWatchers c :=
    reachableUnder_of_run (S := system) (fun _ _ _ hnext => hnext) (.init rfl) hkeeps hc
  exact ⟨c, hc, watching_iff_keepsWatchers hreach⟩

end VenueCoordinator

end OwAnalytics.Venue
