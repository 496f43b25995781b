/-
  OwAnalytics.Venue.Shutdown

  The end of a watcher: `VenueWatcher::Start`, `run`, the `Post` functions and
  `Stop`, step by step, over a notification queue whose wait returns a message if
  there is one and else blocks until a message or a wake-up comes in.

  `Stop` clears `Running_`, sends one wake-up and joins the worker.  The wake-up is
  lost on a worker that is not waiting yet, and the flag is lost on a worker that has
  not set it yet.
-/

import OwAnalytics.Lib.Transitions
import OwAnalytics.Venue.Messages

namespace OwAnalytics.Venue.Shutdown

open Transitions

/-- Where `run` stands. -/
inductive WorkerPc
  | notStarted
  /-- The thread has started; it has not set `Running_` yet. -/
  | starting
  /-- It is about to call `waitDequeueNotification`. -/
  | calling
  /-- It is blocked in `waitDequeueNotification`. -/
  | waiting
  /-- `waitDequeueNotification` has returned; the loop condition comes next. -/
  | returned (msg : Option VenueMessage)
  /-- It is in the body of the loop. -/
  | handling (msg : VenueMessage)
  | ended

/-- Where the coordinator stands in the life of the watcher. -/
inductive OwnerPc
  /-- In `Start`: these receivers are still to be called, then the worker is started. -/
  | starting (todo : List MsgType)
  | started
  /-- In `Stop`, before `Running_ = false`. -/
  | stopping
  /-- In `Stop`, before `Queue_.wakeUpAll()`. -/
  | waking
  /-- In `Stop`, in `Worker_.join()`. -/
  | joining
  /-- In `Stop`: these receivers are still to be called. -/
  | deRegistering (todo : List MsgType)
  | stopped

/-- The flag, the queue, the two threads and the tables of the receivers. -/
structure State where
  running : Bool := false
  queue : List VenueMessage := []
  worker : WorkerPc := .notStarted
  owner : OwnerPc := .starting [.state, .connection, .health]
  /-- The receivers the watcher is registered with. -/
  registered : MsgType → Bool := fun _ => false
  /-- The receivers get no further message about a device of the watcher. -/
  streamEnded : Bool := false

/-- Which thread goes on, or what comes in from outside. -/
inductive Label
  | owner
  /-- The coordinator calls `Stop`. -/
  | stop
  | worker
  /-- A receiver calls the `Post` function of the message's type. -/
  | post (msg : VenueMessage)
  | endOfStream

namespace State

/-! ## The notification queue -/

/-- `Queue_.enqueueNotification`: a worker that waits gets the message at once. -/
def enqueueNotification (s : State) (msg : VenueMessage) : State :=
  match s.worker with
  | .waiting => { s with worker := .returned (some msg) }
  | _ => { s with queue := s.queue ++ [msg] }

/-- `Queue_.wakeUpAll`: a worker that waits gets nothing; nobody else takes notice. -/
def wakeUpAll (s : State) : State :=
  match s.worker with
  | .waiting => { s with worker := .returned none }
  | _ => s

/-- `Queue_.waitDequeueNotification`, up to the point where it returns or blocks. -/
def waitDequeueNotification (s : State) : State :=
  match s.queue with
  | msg :: rest => { s with queue := rest, worker := .returned (some msg) }
  | [] => { s with worker := .waiting }

/-! ## Steps -/

/-- `VenueWatcher::run`. -/
def stepWorker (s : State) : Option State :=
  match s.worker with
  | .notStarted => none
  | .starting => some { s with running := true, worker := .calling }
  | .calling => some s.waitDequeueNotification
  | .waiting => none
  | .returned (some msg) =>
      if s.running then some { s with worker := .handling msg }
      else some { s with worker := .ended }
  | .returned none => some { s with worker := .ended }
  | .handling _ => some { s with worker := .calling }
  | .ended => none

/-- `Start` and `Stop`, which the coordinator's thread runs. -/
def stepOwner (s : State) : Option State :=
  match s.owner with
  | .starting (x :: todo) =>
      some { s with registered := Function.update s.registered x true, owner := .starting todo }
  | .starting [] => some { s with worker := .starting, owner := .started }
  | .started => none
  | .stopping => some { s with running := false, owner := .waking }
  | .waking => some { s.wakeUpAll with owner := .joining }
  | .joining =>
      match s.worker with
      | .ended => some { s with owner := .deRegistering [.state, .connection, .health] }
      | _ => none
  | .deRegistering (x :: todo) =>
      some { s with
        registered := Function.update s.registered x false, owner := .deRegistering todo }
  | .deRegistering [] => some { s with owner := .stopped }
  | .stopped => none

/-- A step of a thread, if it is enabled. -/
def step (s : State) : Label → Option State
  | .owner => s.stepOwner
  | .stop =>
      match s.owner with
      | .started => some { s with owner := .stopping }
      | _ => none
  | .worker => s.stepWorker
  | .post msg =>
      if s.registered msg.type && !s.streamEnded then some (s.enqueueNotification msg) else none
  | .endOfStream => some { s with streamEnded := true }

end State

/-- A watcher from its construction. -/
abbrev system : System State Label := ofFun {} State.step

/-- `Stop` waits for a worker that waits for its queue, and no step of any thread wakes it. -/
structure Hung (s : State) : Prop where
  joining : s.owner = .joining
  waiting : s.worker = .waiting
  asleep : ∀ a s', s.step a = some s' → s'.worker = .waiting

/-- `Stop` clears `Running_` after `run` has set it, and sends its wake-up when the worker is
    waiting, will test `Running_` before it waits again, or has a message to wait for. -/
def Careful (s : State) : Label → Prop
  | .owner =>
      (s.owner = .stopping → s.worker ≠ .starting) ∧
        (s.owner = .waking → s.worker = .calling ∨ (∃ msg, s.worker = .handling msg) → s.queue ≠ [])
  | _ => True

/-! ## Careful runs -/

/-- The worker will find the flag cleared before it waits for a message that may not come. -/
def Ending (s : State) : Prop :=
  match s.worker with
  | .returned _ | .ended => True
  | .calling | .handling _ => s.queue ≠ []
  | .notStarted | .starting | .waiting => False

/-- What holds at the places of `Stop`. -/
def Inv (s : State) : Prop :=
  match s.owner with
  | .starting _ => s.worker = .notStarted
  | .started | .stopping => s.worker ≠ .notStarted
  | .waking => s.running = false ∧ s.worker ≠ .notStarted ∧ s.worker ≠ .starting
  | .joining => s.running = false ∧ Ending s
  | .deRegistering _ | .stopped => s.worker = .ended

variable {s s' : State}

/-- A worker that will end ends, or gets closer to its end. -/
theorem ending_stepWorker (hrunning : s.running = false) (h : Ending s)
    (hstep : s.stepWorker = some s') : s'.running = false ∧ s'.owner = s.owner ∧ Ending s' := by
  unfold State.stepWorker at hstep
  cases hw : s.worker with
  | notStarted => simp only [hw, reduceCtorEq] at hstep
  | starting => simp [Ending, hw] at h
  | waiting => simp [Ending, hw] at h
  | ended => simp only [hw, reduceCtorEq] at hstep
  | calling =>
      simp only [hw, Option.some.injEq] at hstep
      subst hstep
      -- The queue holds a message, so the call returns it.
      cases hq : s.queue with
      | nil => simp [Ending, hw, hq] at h
      | cons msg rest =>
          simp only [State.waitDequeueNotification, hq]
          exact ⟨hrunning, trivial, trivial⟩
  | returned msg =>
      cases msg with
      | none =>
          simp only [hw, Option.some.injEq] at hstep
          subst hstep
          exact ⟨hrunning, rfl, trivial⟩
      | some msg =>
          simp only [hw, hrunning, Bool.false_eq_true, if_false, Option.some.injEq] at hstep
          subst hstep
          exact ⟨rfl, rfl, trivial⟩
  | handling msg =>
      simp only [hw, Option.some.injEq] at hstep
      subst hstep
      refine ⟨hrunning, rfl, ?_⟩
      simpa [Ending, hw] using h

/-- A message that comes in keeps a worker that will end from waiting. -/
theorem ending_enqueue (h : Ending s) (msg : VenueMessage) :
    Ending (s.enqueueNotification msg) ∧ (s.enqueueNotification msg).running = s.running ∧
      (s.enqueueNotification msg).owner = s.owner := by
  cases hw : s.worker with
  | notStarted => simp [Ending, hw] at h
  | starting => simp [Ending, hw] at h
  | waiting => simp [Ending, hw] at h
  | calling => simp [State.enqueueNotification, hw, Ending]
  | handling m => simp [State.enqueueNotification, hw, Ending]
  | returned m => simp [State.enqueueNotification, hw, Ending]
  | ended => simp [State.enqueueNotification, hw, Ending]

theorem inv_init : Inv {} := rfl

/-- The worker's own steps before `Stop` joins it. -/
theorem worker_of_stepWorker (hstep : s.stepWorker = some s') :
    s'.owner = s.owner ∧ s'.worker ≠ .notStarted ∧ s'.worker ≠ .starting ∧
      (s.worker ≠ .starting → s'.running = s.running) := by
  unfold State.stepWorker at hstep
  split at hstep
  · cases hstep
  · rename_i hw
    obtain rfl := Option.some.inj hstep
    exact ⟨rfl, by simp, by simp, fun h => absurd hw h⟩
  · obtain rfl := Option.some.inj hstep
    unfold State.waitDequeueNotification
    split
    · exact ⟨rfl, by simp, by simp, fun _ => rfl⟩
    · exact ⟨rfl, by simp, by simp, fun _ => rfl⟩
  · cases hstep
  · split at hstep
    · obtain rfl := Option.some.inj hstep
      exact ⟨rfl, by simp, by simp, fun _ => rfl⟩
    · obtain rfl := Option.some.inj hstep
      exact ⟨rfl, by simp, by simp, fun _ => rfl⟩
  · obtain rfl := Option.some.inj hstep
    exact ⟨rfl, by simp, by simp, fun _ => rfl⟩
  · obtain rfl := Option.some.inj hstep
    exact ⟨rfl, by simp, by simp, fun _ => rfl⟩
  · cases hstep

/-- A message that comes in starts and ends no worker. -/
theorem worker_of_enqueue (s : State) (msg : VenueMessage) :
    (s.enqueueNotification msg).owner = s.owner ∧
      (s.enqueueNotification msg).running = s.running ∧
      (s.worker ≠ .waiting → (s.enqueueNotification msg).worker = s.worker) ∧
      (s.worker = .waiting → (s.enqueueNotification msg).worker = .returned (some msg)) := by
  unfold State.enqueueNotification
  split
  · rename_i hw
    exact ⟨rfl, rfl, fun h => absurd hw h, fun _ => rfl⟩
  · rename_i hw
    exact ⟨rfl, rfl, fun _ => rfl, fun h => absurd h hw⟩

/-- The wake-up reaches a worker that waits; the others find the flag cleared by themselves. -/
theorem ending_wakeUpAll (hw : s.worker ≠ .notStarted) (hw' : s.worker ≠ .starting)
    (hqueue : s.worker = .calling ∨ (∃ msg, s.worker = .handling msg) → s.queue ≠ []) :
    Ending s.wakeUpAll := by
  unfold State.wakeUpAll
  cases hpc : s.worker with
  | notStarted => exact absurd hpc hw
  | starting => exact absurd hpc hw'
  | waiting => trivial
  | calling => simpa [Ending, hpc] using hqueue (.inl hpc)
  | handling msg => simpa [Ending, hpc] using hqueue (.inr ⟨msg, hpc⟩)
  | returned msg => simp [Ending, hpc]
  | ended => simp [Ending, hpc]

@[simp] theorem running_wakeUpAll (s : State) : s.wakeUpAll.running = s.running := by
  unfold State.wakeUpAll
  split <;> rfl

theorem inv_stepOwner (hcareful : Careful s .owner) (h : Inv s) (hstep : s.stepOwner = some s') :
    Inv s' := by
  simp only [State.stepOwner] at hstep
  cases howner : s.owner with
  | starting todo =>
      have hw : s.worker = .notStarted := by simpa [Inv, howner] using h
      cases todo with
      | cons x rest =>
          simp only [howner, Option.some.injEq] at hstep
          subst hstep
          exact hw
      | nil =>
          simp only [howner, Option.some.injEq] at hstep
          subst hstep
          simp [Inv]
  | started => simp only [howner, reduceCtorEq] at hstep
  | stopping =>
      simp only [howner, Option.some.injEq] at hstep
      subst hstep
      have hw : s.worker ≠ .notStarted := by simpa [Inv, howner] using h
      -- a careful stop comes after the worker has started, or its flag would be set again
      exact ⟨rfl, hw, hcareful.1 howner⟩
  | waking =>
      simp only [howner, Option.some.injEq] at hstep
      subst hstep
      obtain ⟨hrunning, hw, hw'⟩ : s.running = false ∧ s.worker ≠ .notStarted ∧
          s.worker ≠ .starting := by simpa [Inv, howner] using h
      -- where the worker is about to wait, a careful wake-up finds a message queued for it
      exact ⟨(running_wakeUpAll s).trans hrunning, ending_wakeUpAll hw hw' (hcareful.2 howner)⟩
  | joining =>
      simp only [howner] at hstep
      split at hstep
      · rename_i hw
        obtain rfl := Option.some.inj hstep
        exact hw
      · cases hstep
  | deRegistering todo =>
      have hw : s.worker = .ended := by simpa [Inv, howner] using h
      cases todo with
      | cons x rest =>
          simp only [howner, Option.some.injEq] at hstep
          subst hstep
          exact hw
      | nil =>
          simp only [howner, Option.some.injEq] at hstep
          subst hstep
          exact hw
  | stopped => simp only [howner, reduceCtorEq] at hstep

theorem inv_stepWorker (h : Inv s) (hstep : s.stepWorker = some s') : Inv s' := by
  obtain ⟨howner', hw1, hw2, hrunning'⟩ := worker_of_stepWorker hstep
  unfold Inv at h ⊢
  rw [howner']
  cases howner : s.owner with
  | starting todo =>
      simp only [howner] at h
      -- the worker is not there yet, so it makes no step
      simp [State.stepWorker, h] at hstep
  | started => exact hw1
  | stopping => exact hw1
  | waking =>
      simp only [howner] at h
      exact ⟨by rw [hrunning' h.2.2, h.1], hw1, hw2⟩
  | joining =>
      simp only [howner] at h
      obtain ⟨hrunning, -, hending⟩ := ending_stepWorker h.1 h.2 hstep
      exact ⟨hrunning, hending⟩
  | deRegistering todo =>
      simp only [howner] at h
      simp [State.stepWorker, h] at hstep
  | stopped =>
      simp only [howner] at h
      simp [State.stepWorker, h] at hstep

theorem inv_enqueue (h : Inv s) (msg : VenueMessage) : Inv (s.enqueueNotification msg) := by
  obtain ⟨howner', hrunning', hsame, hwoken⟩ := worker_of_enqueue s msg
  -- A worker that waits gets the message, any other one stays where it is.
  have hpc : ∀ pc, pc ≠ .waiting → (∀ m, pc ≠ .returned m) → s.worker ≠ pc →
      (s.enqueueNotification msg).worker ≠ pc := by
    intro pc hpc hpc' hw
    by_cases hwaiting : s.worker = .waiting
    · rw [hwoken hwaiting]
      exact fun h => hpc' _ h.symm
    · rwa [hsame hwaiting]
  unfold Inv at h ⊢
  rw [howner']
  cases howner : s.owner with
  | starting todo =>
      simp only [howner] at h
      show (s.enqueueNotification msg).worker = .notStarted
      rw [hsame (by simp [h]), h]
  | started =>
      simp only [howner] at h
      exact hpc _ (by simp) (by simp) h
  | stopping =>
      simp only [howner] at h
      exact hpc _ (by simp) (by simp) h
  | waking =>
      simp only [howner] at h
      exact ⟨by rw [hrunning', h.1], hpc _ (by simp) (by simp) h.2.1,
        hpc _ (by simp) (by simp) h.2.2⟩
  | joining =>
      simp only [howner] at h
      exact ⟨by rw [hrunning', h.1], (ending_enqueue h.2 msg).1⟩
  | deRegistering todo =>
      simp only [howner] at h
      show (s.enqueueNotification msg).worker = .ended
      rw [hsame (by simp [h]), h]
  | stopped =>
      simp only [howner] at h
      show (s.enqueueNotification msg).worker = .ended
      rw [hsame (by simp [h]), h]

theorem inv_step {a : Label} (hcareful : Careful s a) (h : Inv s) (hstep : s.step a = some s') :
    Inv s' := by
  cases a with
  | owner => exact inv_stepOwner hcareful h hstep
  | stop =>
      simp only [State.step] at hstep
      split at hstep
      · rename_i howner
        obtain rfl := Option.some.inj hstep
        simpa [Inv, howner] using h
      · cases hstep
  | worker => exact inv_stepWorker h hstep
  | post msg =>
      simp only [State.step] at hstep
      split at hstep
      · obtain rfl := Option.some.inj hstep
        exact inv_enqueue h msg
      · cases hstep
  | endOfStream =>
      simp only [State.step, Option.some.injEq] at hstep
      subst hstep
      exact h

theorem inv_of_careful (h : ReachableUnder system Careful s) : Inv s := by
  refine h.invariant ?_ ?_
  · rintro _ rfl
    exact inv_init
  · intro _ _ _ _ hcareful hinv hstep
    exact inv_step hcareful hinv hstep

/-- In a run whose steps are careful, no state is hung. -/
theorem not_hung_of_careful (h : ReachableUnder system Careful s) : ¬ Hung s := by
  intro hhung
  have hending : s.running = false ∧ Ending s := by
    simpa [Inv, hhung.joining] using inv_of_careful h
  simpa [Ending, hhung.waiting] using hending.2

/-! ## Runs that are not careful -/

theorem hung_of_streamEnded (howner : s.owner = .joining) (hw : s.worker = .waiting)
    (hstream : s.streamEnded = true) : Hung s := by
  refine ⟨howner, hw, ?_⟩
  intro a s' hstep
  cases a with
  | owner => simp [State.step, State.stepOwner, howner, hw] at hstep
  | stop => simp [State.step, howner] at hstep
  | worker => simp [State.step, State.stepWorker, hw] at hstep
  | post msg => simp [State.step, hstream] at hstep
  | endOfStream =>
      simp only [State.step, Option.some.injEq] at hstep
      subst hstep
      exact hw

/-- A worker that is about to wait for an empty queue, after the only wake-up. -/
theorem canHang_of_calling (howner : s.owner = .joining) (hw : s.worker = .calling)
    (hqueue : s.queue = []) : CanReach State.step Hung s := by
  have hwait : s.step .worker = some { s with worker := .waiting } := by
    simp only [State.step, State.stepWorker, hw, State.waitDequeueNotification, hqueue]
  apply canReach_step hwait
  apply canReach_step (a := .endOfStream) rfl
  exact canReach_here (hung_of_streamEnded howner rfl rfl)

/-- A worker that finds the flag set handles what is queued and waits again. -/
theorem canHang_of_running (howner : s.owner = .joining) (hrunning : s.running = true)
    (hw : s.worker = .calling) : CanReach State.step Hung s := by
  -- On the messages in the queue, each of which takes one round of the loop.
  induction hqueue : s.queue generalizing s with
  | nil => exact canHang_of_calling howner hw hqueue
  | cons msg rest ih =>
      have hreturn : s.step .worker
          = some { s with queue := rest, worker := .returned (some msg) } := by
        simp only [State.step, State.stepWorker, hw, State.waitDequeueNotification, hqueue]
      apply canReach_step hreturn
      have hhandle : State.step { s with queue := rest, worker := .returned (some msg) } .worker
          = some { s with queue := rest, worker := .handling msg } := by
        simp [State.step, State.stepWorker, hrunning]
      apply canReach_step hhandle
      apply canReach_step (a := .worker) rfl
      exact ih howner hrunning rfl rfl

/-- After a step that is not careful, `Stop` can hang. -/
theorem canHang_of_not_careful {a : Label} (hstep : s.step a = some s')
    (hcareful : ¬ Careful s a) : CanReach State.step Hung s' := by
  cases a with
  | owner =>
      rw [Careful, not_and_or] at hcareful
      simp only [State.step, State.stepOwner] at hstep
      rcases hcareful with hflag | hwake
      · -- `run` sets the flag after `Stop` has cleared it.
        simp only [Classical.not_imp, not_not] at hflag
        obtain ⟨howner, hw⟩ := hflag
        simp only [howner, Option.some.injEq] at hstep
        subst hstep
        have hwake : State.step { s with running := false, owner := .waking } .owner
            = some { s with running := false, owner := .joining } := by
          simp only [State.step, State.stepOwner, State.wakeUpAll, hw]
        apply canReach_step hwake
        have hset : State.step { s with running := false, owner := .joining } .worker
            = some { s with running := true, worker := .calling, owner := .joining } := by
          simp only [State.step, State.stepWorker, hw]
        apply canReach_step hset
        exact canHang_of_running rfl rfl rfl
      · -- The wake-up comes before the worker waits.
        simp only [Classical.not_imp, not_not] at hwake
        obtain ⟨howner, hplace, hqueue⟩ := hwake
        simp only [howner, Option.some.injEq] at hstep
        rcases hplace with hw | ⟨msg, hw⟩
        · have hnone : s.wakeUpAll = s := by simp only [State.wakeUpAll, hw]
          rw [hnone] at hstep
          subst hstep
          exact canHang_of_calling rfl hw hqueue
        · have hnone : s.wakeUpAll = s := by simp only [State.wakeUpAll, hw]
          rw [hnone] at hstep
          subst hstep
          have hcall : State.step { s with owner := .joining } .worker
              = some { s with owner := .joining, worker := .calling } := by
            simp only [State.step, State.stepWorker, hw]
          apply canReach_step hcall
          exact canHang_of_calling rfl rfl hqueue
  | stop => exact absurd trivial hcareful
  | worker => exact absurd trivial hcareful
  | post msg => exact absurd trivial hcareful
  | endOfStream => exact absurd trivial hcareful

/-- No state reached by careful steps is hung, and after the first step that is not careful
    `Stop` can hang. -/
theorem hang_iff_not_careful (h : ReachableUnder system Careful s) :
    ¬ Hung s ∧ ∀ a s', s.step a = some s' → ¬ Careful s a → CanReach State.step Hung s' :=
  ⟨not_hung_of_careful h, fun _ _ hstep hcareful =>
    canHang_of_not_careful hstep hcareful⟩

/-! ## A wake-up during a message -/

/-- `Stop` runs up to its `join` while the worker handles a message, and no other one comes. -/
def wakeUpDuringMessage : List Label :=
  [.owner, .owner, .owner, .owner, .worker, .worker,
    .post { serialNumber := 1, type := .state, payload := .null }, .worker, .stop, .owner, .owner,
    .worker, .worker, .endOfStream]

theorem hung_wakeUpDuringMessage :
    ∃ s, run State.step {} wakeUpDuringMessage = some s ∧ Reachable system s ∧ Hung s := by
  have hrun : ∃ s, run State.step {} wakeUpDuringMessage = some s ∧ s.owner = .joining ∧
      s.worker = .waiting ∧ s.streamEnded = true := ⟨_, rfl, rfl, rfl, rfl⟩
  obtain ⟨s, hs, howner, hw, hstream⟩ := hrun
  exact ⟨s, hs, reachable_of_run_start hs, hung_of_streamEnded howner hw hstream⟩

/-- The same run up to the wake-up that comes too early. -/
def untilWakeUp : List Label :=
  [.owner, .owner, .owner, .owner, .worker, .worker,
    .post { serialNumber := 1, type := .state, payload := .null }, .worker, .stop, .owner]

theorem careful_untilWakeUp : Along State.step Careful {} untilWakeUp := by
  -- The owner's steps are those of `Start` and the one that clears `Running_`.
  simp [untilWakeUp, Along, State.step, State.stepOwner, State.stepWorker, Careful,
    State.waitDequeueNotification, State.enqueueNotification, Function.update]

theorem hang_iff_not_careful_untilWakeUp :
    ∃ s, run State.step {} untilWakeUp = some s ∧ ReachableUnder system Careful s ∧
      (s.owner = .waking ∧ (∃ msg, s.worker = .handling msg) ∧ s.queue = []) ∧ ¬ Hung s ∧
      ∃ s', s.step .owner = some s' ∧ ¬ Careful s .owner ∧ CanReach State.step Hung s' := by
  have hrun : ∃ s, run State.step {} untilWakeUp = some s ∧ s.owner = .waking ∧
      (∃ msg, s.worker = .handling msg) ∧ s.queue = [] := ⟨_, rfl, rfl, ⟨_, rfl⟩, rfl⟩
  obtain ⟨s, hs, howner, hworker, hqueue⟩ := hrun
  have hreach : ReachableUnder system Careful s :=
    careful_untilWakeUp.reachableUnder (fun _ _ _ h => h) (.init rfl) hs
  have hstep : s.step .owner = some { s.wakeUpAll with owner := .joining } := by
    simp only [State.step, State.stepOwner, howner]
  have hcareful : ¬ Careful s .owner := fun h => h.2 howner (.inr hworker) hqueue
  obtain ⟨hhung, hcan⟩ := hang_iff_not_careful hreach
  exact ⟨s, hs, hreach, ⟨howner, hworker, hqueue⟩, hhung, _, hstep, hcareful,
    hcan _ _ hstep hcareful⟩

end OwAnalytics.Venue.Shutdown
