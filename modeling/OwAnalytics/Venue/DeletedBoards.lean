/-
  OwAnalytics.Venue.DeletedBoards

  When a deleted board stays without a watcher.  `DoDelete` stops the watcher before
  it deletes the record, and does not hold the coordinator's mutex in between, so
  that a sweep can read the record of a board it has never started after there was
  no watcher to stop, and start one for a board that no longer exists.
-/

import OwAnalytics.Venue.BoardRequests

namespace OwAnalytics.Venue.BoardRequests

open Transitions AnalyticsObjects

/-- The request is a `DoDelete` of the board that has been through its `StopBoard`. -/
def Request.Stopped (id : Str) : Request → Prop
  | .deleteRecord k | .deleteTimePoints k | .deleteEvents k => k = id
  | _ => False

/-- A `DoDelete` of the board has been through its `StopBoard`, whether or not it has answered. -/
def PastStop (s : State) (id : Str) : Prop :=
  id ∈ s.deleted ∨ ∃ n, (s.requests n).Stopped id

/-- A board that `run` would start from a record it reads is not one that is being deleted. -/
def Startable (s : State) (b : BoardInfo) : Prop :=
  b.venueList ≠ [] → s.coordinator.watching b.info.id = false → ¬ PastStop s b.info.id

/-- `GetBoardList` puts no record into `BoardsToWatch_` of a board that was never started and whose
    `DoDelete` has been through its `StopBoard`. -/
def Careful (s : State) : Label → Prop
  | .getBoardList ok => ok = true → ∀ offset, s.holder = .listing offset →
      ∀ b ∈ s.listed offset, Startable s b
  | _ => True

/-- The boards the sweep under way is still to look at. -/
def State.pending (s : State) : List BoardInfo :=
  match s.holder with
  | .listing _ => s.boardsToWatch
  | .working (.sweep todo) | .retiring _ _ (.sweep todo) => todo
  | _ => []

/-- What the deletions keep: a board past its stop has no watcher, and a board that is yet to be
    started is one that can be. -/
structure Inv (s : State) : Prop where
  coordinator : Reachable VenueCoordinator.system s.coordinator
  noWatcher : ∀ id, PastStop s id → s.coordinator.watchers[id]? = none
  pending : ∀ b ∈ s.pending, Startable s b

variable {s s' : State}

/-! ## What the steps leave alone -/

/-- A step that keeps the requests, the deleted boards and the coordinator. -/
theorem inv_of_same (h : Inv s) (hcoordinator : s'.coordinator = s.coordinator)
    (hrequests : s'.requests = s.requests) (hdeleted : s'.deleted = s.deleted)
    (hpending : ∀ b ∈ s'.pending, Startable s b) : Inv s' := by
  have hpast : ∀ id, PastStop s' id ↔ PastStop s id := by
    intro id
    rw [PastStop, PastStop, hrequests, hdeleted]
  refine ⟨by rw [hcoordinator]; exact h.coordinator, ?_, ?_⟩
  · intro id hid
    rw [hcoordinator]
    exact h.noWatcher id ((hpast id).mp hid)
  · intro b hb hvenue hwatching
    rw [hcoordinator] at hwatching
    rw [hpast]
    exact hpending b hb hvenue hwatching

/-- A step of the coordinator that starts no board that is being deleted. -/
theorem inv_of_coordinator (h : Inv s) {a : Action}
    (hstep : s.coordinator.step a = some s'.coordinator) (hrequests : s'.requests = s.requests)
    (hdeleted : s'.deleted = s.deleted)
    (hstart : ∀ b prov this, a = .startBoard b prov this → ¬ PastStop s b.info.id)
    (hpending : ∀ b ∈ s'.pending, b ∈ s.pending) : Inv s' := by
  have hpast : ∀ id, PastStop s' id ↔ PastStop s id := by
    intro id
    rw [PastStop, PastStop, hrequests, hdeleted]
  refine ⟨h.coordinator.step trivial hstep, ?_, ?_⟩
  · intro id hid
    rw [hpast] at hid
    refine VenueCoordinator.watchers_step_none hstep (h.noWatcher id hid) ?_
    rintro b prov this ha rfl
    exact hstart b prov this ha hid
  · intro b hb hvenue hwatching
    rw [hpast]
    refine h.pending b (hpending b hb) hvenue ?_
    -- A board that is not known now was not known before.
    cases hold : s.coordinator.watching b.info.id with
    | false => rfl
    | true =>
        rw [VenueCoordinator.watching_step hstep hold] at hwatching
        cases hwatching

/-- A request that goes on, without having been through `StopBoard` at this step. -/
theorem inv_of_request (h : Inv s) {n : Nat} {r : Request}
    (hcoordinator : s'.coordinator = s.coordinator)
    (hrequests : s'.requests = Function.update s.requests n r)
    (hdeleted : ∀ id ∈ s'.deleted, PastStop s id)
    (hr : ∀ id, r.Stopped id → PastStop s id)
    (hpending : ∀ b ∈ s'.pending, b ∈ s.pending) : Inv s' := by
  -- no other request gets past its stop by this step
  have hpast : ∀ id, PastStop s' id → PastStop s id := by
    rintro id (hid | ⟨k, hk⟩)
    · exact hdeleted id hid
    · rw [hrequests] at hk
      by_cases hkn : k = n
      · subst hkn
        rw [Function.update_self] at hk
        exact hr id hk
      · rw [Function.update_of_ne hkn] at hk
        exact .inr ⟨k, hk⟩
  refine ⟨by rw [hcoordinator]; exact h.coordinator, ?_, ?_⟩
  · intro id hid
    rw [hcoordinator]
    exact h.noWatcher id (hpast id hid)
  · intro b hb hvenue hwatching hid
    rw [hcoordinator] at hwatching
    exact h.pending b (hpending b hb) hvenue hwatching (hpast _ hid)

/-! ## Steps of the coordinator -/

/-- A board without a venue is not started. -/
theorem startBoard_of_no_venue {c c' : VenueCoordinator} {b : BoardInfo} {prov : Prov}
    {this : WatcherPtr} (hvenue : b.venueList = [])
    (hstep : c.step (.startBoard b prov this) = some c') : c' = c := by
  simp only [VenueCoordinator.step] at hstep
  split at hstep
  · cases hstep
  · have hnone : (c.startBoard b prov this).2 = c := by simp [VenueCoordinator.startBoard, hvenue]
    rw [← Option.some.inj hstep, hnone]

/-- What is left of a task after the devices of a board have come in. -/
theorem pending_afterDevices (b : BoardInfo) (prov : Prov) (task : Task) :
    ({ s with holder := State.afterDevices b prov task } : State).pending
      = ({ s with holder := .working task } : State).pending := by
  unfold State.afterDevices
  simp only
  split
  · cases task <;> rfl
  · rfl

theorem inv_getBoardList {ok : Bool} (hcareful : Careful s (.getBoardList ok)) (h : Inv s)
    (hstep : s.stepGetBoardList ok = some s') : Inv s' := by
  unfold State.stepGetBoardList at hstep
  cases hholder : s.holder with
  | listing offset =>
      simp only [hholder] at hstep
      have hold : ∀ b ∈ s.boardsToWatch, Startable s b := by
        intro b hb
        apply h.pending
        simpa only [State.pending, hholder] using hb
      split at hstep
      · rename_i hok
        -- the batch was read with care: none of its boards is past its stop
        have hread : ∀ b ∈ s.listed offset, Startable s b := hcareful hok offset hholder
        split at hstep
        · obtain rfl := Option.some.inj hstep
          exact inv_of_same h rfl rfl rfl hread
        · obtain rfl := Option.some.inj hstep
          exact inv_of_same h rfl rfl rfl hread
      · obtain rfl := Option.some.inj hstep
        exact inv_of_same h rfl rfl rfl hold
  | free => simp only [hholder, reduceCtorEq] at hstep
  | working task => simp only [hholder, reduceCtorEq] at hstep
  | retiring id steps task => simp only [hholder, reduceCtorEq] at hstep

theorem inv_sweep {prov : Prov} {gone : Bool} {this : WatcherPtr} (h : Inv s)
    (hstep : s.stepSweep prov gone this = some s') : Inv s' := by
  unfold State.stepSweep at hstep
  split at hstep
  · obtain rfl := Option.some.inj hstep
    refine inv_of_same h rfl rfl rfl ?_
    intro b hb
    cases hb
  · rename_i b todo hholder
    have hpending : s.pending = b :: todo := by simp only [State.pending, hholder]
    split at hstep
    · rename_i hwatching
      obtain ⟨coordinator, hc, hs'⟩ := Option.bind_eq_some_iff.mp hstep
      obtain rfl := Option.some.inj hs'
      have htodo : ∀ x ∈ todo, x ∈ s.pending := by
        intro x hx
        rw [hpending]
        exact List.mem_cons_of_mem _ hx
      by_cases hvenue : b.venueList = []
      · -- A board without a venue is passed over.
        obtain rfl := startBoard_of_no_venue hvenue hc
        refine inv_of_same h rfl rfl rfl ?_
        intro x hx
        apply h.pending
        simp only [hvenue, List.isEmpty_nil, if_true, State.pending] at hx
        exact htodo x hx
      · -- The board is in the list, so it is not being deleted.
        have hnot : ¬ PastStop s b.info.id := by
          refine h.pending b ?_ hvenue (by simpa using hwatching)
          rw [hpending]
          exact List.mem_cons_self
        refine inv_of_coordinator h hc rfl rfl ?_ ?_
        · rintro b' prov' this' heq
          cases heq
          exact hnot
        · intro x hx
          have hempty : b.venueList.isEmpty = false := by simpa using hvenue
          simp only [hempty, Bool.false_eq_true, if_false] at hx
          have hsame := pending_afterDevices (s := { s with coordinator }) b prov (.sweep todo)
          exact htodo x (by rw [hsame] at hx; exact hx)
    · split at hstep
      · obtain ⟨coordinator, hc, hs'⟩ := Option.bind_eq_some_iff.mp hstep
        obtain rfl := Option.some.inj hs'
        refine inv_of_coordinator h hc rfl rfl ?_ ?_
        · rintro b' prov' this' heq
          cases heq
        · intro x hx
          rw [hpending]
          exact List.mem_cons_of_mem _ hx
      · obtain rfl := Option.some.inj hstep
        refine inv_of_same h rfl rfl rfl ?_
        intro x hx
        apply h.pending
        rw [hpending]
        exact List.mem_cons_of_mem _ hx
  · cases hstep

theorem inv_reconcile {ok : Bool} {prov : Prov} (h : Inv s)
    (hstep : s.stepReconcile ok prov = some s') : Inv s' := by
  unfold State.stepReconcile at hstep
  split at hstep
  · obtain rfl := Option.some.inj hstep
    refine inv_of_same h rfl rfl rfl ?_
    intro b hb
    cases hb
  · rename_i id todo hholder
    obtain ⟨coordinator, hc, hs'⟩ := Option.bind_eq_some_iff.mp hstep
    obtain rfl := Option.some.inj hs'
    refine inv_of_coordinator h hc rfl rfl ?_ ?_
    · rintro b prov' this' heq
      cases heq
    · intro x hx
      -- The timer has no boards to start.
      cases hrecord : (if ok then s.getRecord id else none) with
      | some b =>
          have hsame := pending_afterDevices (s := { s with coordinator }) b prov (.reconcile todo)
          simp only [hrecord] at hx
          rw [hsame] at hx
          cases hx
      | none =>
          simp only [hrecord] at hx
          cases hx
  · cases hstep

theorem inv_retire {ok : Bool} (h : Inv s) (hstep : s.stepRetire ok = some s') : Inv s' := by
  unfold State.stepRetire at hstep
  split at hstep
  · rename_i id task hholder
    obtain rfl := Option.some.inj hstep
    refine inv_of_same h rfl rfl rfl ?_
    -- Only a sweep goes on to start the boards of its list.
    intro b hb
    apply h.pending
    cases task with
    | sweep todo => simpa only [State.pending, hholder] using hb
    | reconcile todo => cases hb
  · rename_i id step steps task hholder
    have hkeep : ∀ b ∈ ({ s with holder := .retiring id steps task } : State).pending,
        Startable s b := by
      intro b hb
      apply h.pending
      cases task with
      | sweep todo => simpa only [State.pending, hholder] using hb
      | reconcile todo => cases hb
    -- Whether or not the statement succeeds, the next one follows.
    split at hstep
    · cases step with
      | boards =>
          obtain rfl := Option.some.inj hstep
          exact inv_of_same h rfl rfl rfl hkeep
      | timePoints =>
          obtain rfl := Option.some.inj hstep
          exact inv_of_same h rfl rfl rfl hkeep
      | events =>
          obtain rfl := Option.some.inj hstep
          exact inv_of_same h rfl rfl rfl hkeep
    · obtain rfl := Option.some.inj hstep
      exact inv_of_same h rfl rfl rfl hkeep
  · cases hstep

/-! ## Steps of the requests -/

/-- `StopBoard` leaves its board without a watcher. -/
theorem watchers_stopBoard (c : VenueCoordinator) (id : Str) :
    (c.stopBoard id).watchers[id]? = none := by
  cases hw : c.watchers[id]? with
  | none => simp [VenueCoordinator.stopBoard, hw]
  | some w => simp [VenueCoordinator.stopBoard, hw]

/-- `DoDelete` goes through its `StopBoard`, no sweep being under way. -/
theorem inv_stopBoard (h : Inv s) {n : Nat} {id : Str} {coordinator : VenueCoordinator}
    (hholder : s.holder = .free)
    (hc : s.coordinator.step (.stopBoard id) = some coordinator) :
    Inv ({ s with coordinator }.setRequest n (.deleteRecord id)) := by
  -- The one board that passes its `StopBoard` with this step is the request's own.
  have hpast : ∀ k, PastStop ({ s with coordinator }.setRequest n (.deleteRecord id)) k →
      k = id ∨ PastStop s k := by
    rintro k (hk | ⟨m, hm⟩)
    · exact .inr (.inl hk)
    · change (Function.update s.requests n (.deleteRecord id) m).Stopped k at hm
      by_cases hmn : m = n
      · subst hmn
        rw [Function.update_self] at hm
        exact .inl hm.symm
      · rw [Function.update_of_ne hmn] at hm
        exact .inr (.inr ⟨m, hm⟩)
  refine ⟨h.coordinator.step trivial hc, ?_, ?_⟩
  · intro k hk
    show coordinator.watchers[k]? = none
    rcases hpast k hk with rfl | hk
    · obtain rfl := Option.some.inj hc
      exact watchers_stopBoard _ _
    · refine VenueCoordinator.watchers_step_none hc (h.noWatcher k hk) ?_
      rintro b prov this heq
      cases heq
  · intro b hb
    have hnone : ({ s with coordinator }.setRequest n (.deleteRecord id)).pending = [] := by
      simp only [State.pending, State.setRequest, hholder]
    rw [hnone] at hb
    cases hb

/-- A request goes on without having passed more `StopBoard`s, and deletes no board. -/
theorem inv_setRequest {t : State} {n : Nat} {r : Request} (h : Inv s)
    (hcoordinator : t.coordinator = s.coordinator) (hrequests : t.requests = s.requests)
    (hdeleted : t.deleted = s.deleted) (hpending : t.pending = s.pending)
    (hr : ∀ id, r.Stopped id → (s.requests n).Stopped id) : Inv (t.setRequest n r) := by
  refine inv_of_request (n := n) (r := r) h hcoordinator ?_ ?_ ?_ ?_
  · show Function.update t.requests n r = _
    rw [hrequests]
  · intro id hid
    exact .inl (by rw [← hdeleted]; exact hid)
  · intro id hid
    exact .inr ⟨n, hr id hid⟩
  · intro b hb
    rw [← hpending]
    exact hb

theorem inv_request {n : Nat} {ok : Bool} (h : Inv s) (hstep : s.stepRequest n ok = some s') :
    Inv s' := by
  unfold State.stepRequest at hstep
  -- Only the step through `StopBoard` and the answer of `DoDelete` change what the invariant is of.
  cases hr : s.requests n with
  | idle => simp only [hr, reduceCtorEq] at hstep
  | getRecord id =>
      simp only [hr] at hstep
      split at hstep
      · obtain rfl := Option.some.inj hstep
        exact inv_setRequest h rfl rfl rfl rfl (fun _ hid => hid.elim)
      · obtain rfl := Option.some.inj hstep
        exact inv_setRequest h rfl rfl rfl rfl (fun _ hid => hid.elim)
  | stopBoard id =>
      simp only [hr] at hstep
      split at hstep
      · rename_i hholder
        obtain ⟨coordinator, hc, hs'⟩ := Option.bind_eq_some_iff.mp hstep
        obtain rfl := Option.some.inj hs'
        exact inv_stopBoard h hholder hc
      · cases hstep
  | deleteRecord id =>
      simp only [hr, Option.some.injEq] at hstep
      subst hstep
      cases ok with
      | true => exact inv_setRequest h rfl rfl rfl rfl (fun _ hid => by rw [hr]; exact hid)
      | false => exact inv_setRequest h rfl rfl rfl rfl (fun _ hid => by rw [hr]; exact hid)
  | deleteTimePoints id =>
      simp only [hr, Option.some.injEq] at hstep
      subst hstep
      cases ok with
      | true => exact inv_setRequest h rfl rfl rfl rfl (fun _ hid => by rw [hr]; exact hid)
      | false => exact inv_setRequest h rfl rfl rfl rfl (fun _ hid => by rw [hr]; exact hid)
  | deleteEvents id =>
      simp only [hr, Option.some.injEq] at hstep
      subst hstep
      -- The answer makes no difference to what has been through `StopBoard`.
      have hdeleted : ∀ k ∈ id :: s.deleted, PastStop s k := by
        intro k hk
        rcases List.mem_cons.mp hk with rfl | hk
        · exact .inr ⟨n, by rw [hr]; rfl⟩
        · exact .inl hk
      cases ok with
      | true => exact inv_of_request h rfl rfl hdeleted (fun _ hid => hid.elim) (fun _ hb => hb)
      | false => exact inv_of_request h rfl rfl hdeleted (fun _ hid => hid.elim) (fun _ hb => hb)
  | findBoardsByVenue b =>
      simp only [hr] at hstep
      split at hstep
      · cases hstep
      · split at hstep
        · obtain rfl := Option.some.inj hstep
          exact inv_setRequest h rfl rfl rfl rfl (fun _ hid => hid.elim)
        · obtain rfl := Option.some.inj hstep
          exact inv_setRequest h rfl rfl rfl rfl (fun _ hid => hid.elim)
  | createRecord b =>
      simp only [hr] at hstep
      split at hstep
      · obtain rfl := Option.some.inj hstep
        exact inv_setRequest h rfl rfl rfl rfl (fun _ hid => hid.elim)
      · obtain rfl := Option.some.inj hstep
        exact inv_setRequest h rfl rfl rfl rfl (fun _ hid => hid.elim)
  | addBoard id =>
      simp only [hr] at hstep
      split at hstep
      · rename_i hholder
        obtain rfl := Option.some.inj hstep
        refine inv_setRequest h rfl rfl rfl ?_ (fun _ hid => hid.elim)
        -- No sweep is under way, so no list is pending.
        simp only [State.pending, hholder]
      · cases hstep

theorem inv_step {a : Label} (hcareful : Careful s a) (h : Inv s) (hstep : s.step a = some s') :
    Inv s' := by
  cases a with
  | wake =>
      simp only [State.step] at hstep
      split at hstep
      · obtain rfl := Option.some.inj hstep
        -- The sweep waits for its list, so no board is pending.
        refine inv_of_same h rfl rfl rfl ?_
        intro b hb
        cases hb
      · cases hstep
  | getBoardList ok => exact inv_getBoardList hcareful h hstep
  | sweep prov gone this => exact inv_sweep h hstep
  | timer =>
      simp only [State.step] at hstep
      split at hstep
      · obtain rfl := Option.some.inj hstep
        -- A reconciliation starts no board.
        refine inv_of_same h rfl rfl rfl ?_
        intro b hb
        cases hb
      · cases hstep
  | reconcile ok prov => exact inv_reconcile h hstep
  | retire ok => exact inv_retire h hstep
  | doDelete n id =>
      simp only [State.step] at hstep
      split at hstep
      · split at hstep
        · cases hstep
        · obtain rfl := Option.some.inj hstep
          exact inv_of_request h rfl rfl (fun _ hid => .inl hid) (fun _ hid => hid.elim)
            (fun _ hb => hb)
      · cases hstep
  | doPost n body uuid =>
      simp only [State.step] at hstep
      split at hstep
      · split at hstep
        · obtain rfl := Option.some.inj hstep
          exact inv_of_request h rfl rfl (fun _ hid => .inl hid) (fun _ hid => hid.elim)
            (fun _ hb => hb)
        · cases hstep
      · cases hstep
  | request n ok => exact inv_request h hstep
  | storeTimePoint id =>
      simp only [State.step] at hstep
      split at hstep
      · obtain rfl := Option.some.inj hstep
        exact inv_of_same h rfl rfl rfl h.pending
      · cases hstep
  | storeEvent id =>
      simp only [State.step] at hstep
      split at hstep
      · obtain rfl := Option.some.inj hstep
        exact inv_of_same h rfl rfl rfl h.pending
      · cases hstep

theorem inv_of_careful (h : ReachableUnder system Careful s) : Inv s := by
  refine h.invariant ?_ ?_
  · rintro _ ⟨boards, timePoints, events, rfl⟩
    refine ⟨.init rfl, fun _ _ => by simp, ?_⟩
    intro b hb
    cases hb
  · intro _ _ _ _ hcareful hinv hstep
    exact inv_step hcareful hinv hstep

end OwAnalytics.Venue.BoardRequests
