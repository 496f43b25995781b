/-
  OwAnalytics.Venue.DeadlockReached

  The converse of careful locking: threads that cross can always be run on until they
  are deadlocked, so a run can deadlock once one of its steps is not careful.
-/

import OwAnalytics.Venue.Deadlock

namespace OwAnalytics.Venue.Locking

open Transitions Mutexes

/-- Some run from the state ends in a deadlock. -/
def CanDeadlock (s : State) : Prop :=
  CanReach State.step (fun s' => ∃ D, Deadlocked s'.owner s'.wants D) s

variable {s s' : State}

/-! ## Work left -/

/-- Whether the thread has dequeued and holds its mutex. -/
def WatcherPc.isLooking : WatcherPc → Bool
  | .looking _ => true
  | _ => false

/-- The steps a receiver still has to make before it unlocks its mutex, and one for a worker it
    has to wait for. -/
def State.postsLeft (s : State) (x : MsgType) : Nat :=
  match s.receiver x with
  | .posting _ (w :: targets) =>
      3 * targets.length + 4 + if (s.worker w).isLooking then 1 else 0
  | .posting _ [] => 1
  | .inPost _ _ targets => 3 * targets.length + 3
  | .waiting | .locking _ => 0

/-- The steps of the calls a thread in `UpdateBoard` still has to make. -/
def UpdaterPc.callsLeft : UpdaterPc → Nat
  | .calling _ _ _ ops => 2 * ops.length
  | .inCall _ _ _ _ ops => 2 * ops.length + 1
  | _ => 0

/-- The number of steps the receivers and the updater have left. -/
def State.workLeft (s : State) (n : Nat) : Nat :=
  s.postsLeft .connection + s.postsLeft .state + s.postsLeft .health
    + (s.updater n).pc.callsLeft

theorem workLeft_lt_of_post (x : MsgType) {n : Nat} (hx : s'.postsLeft x < s.postsLeft x)
    (hothers : ∀ y, s'.postsLeft y ≤ s.postsLeft y) (hupdater : s'.updater = s.updater) :
    s'.workLeft n < s.workLeft n := by
  have h1 := hothers .connection
  have h2 := hothers .state
  have h3 := hothers .health
  unfold State.workLeft
  rw [hupdater]
  cases x <;> omega

/-- A receiver that goes on leaves the posts of the others alone. -/
theorem postsLeft_setReceiver {t : State} {x : MsgType} {pc : ReceiverPc}
    (hreceiver : t.receiver = s.receiver) (hworker : t.worker = s.worker)
    (hx : (t.setReceiver x pc).postsLeft x < s.postsLeft x) (y : MsgType) :
    (t.setReceiver x pc).postsLeft y ≤ s.postsLeft y := by
  by_cases hy : y = x
  · subst hy
    omega
  · have hsame : (t.setReceiver x pc).receiver y = s.receiver y := by
      simp [State.setReceiver, hy, hreceiver]
    have hworkers : (t.setReceiver x pc).worker = s.worker := hworker
    unfold State.postsLeft
    rw [hsame, hworkers]

/-- A receiver that is in the `Post` function of a watcher gets on. -/
theorem progress_inPost (n : Nat) {x : MsgType} {msg : VenueMessage} {w : WatcherPtr}
    {targets : List WatcherPtr} (hpc : s.receiver x = .inPost msg w targets) :
    ∃ a s', s.step a = some s' ∧ s'.workLeft n < s.workLeft n := by
  refine ⟨.receiver x, _, by simp only [State.step, State.stepReceiver, hpc]; rfl, ?_⟩
  have hless : ∀ t : State, t.worker = s.worker →
      (t.setReceiver x (.posting msg targets)).postsLeft x < s.postsLeft x := by
    intro t ht
    have hself : (t.setReceiver x (.posting msg targets)).receiver x = .posting msg targets := by
      simp [State.setReceiver]
    unfold State.postsLeft
    rw [hself, hpc]
    cases targets with
    | nil =>
        show 1 < 3 * 0 + 3
        omega
    | cons v rest =>
        simp only [List.length_cons]
        split <;> omega
  exact workLeft_lt_of_post x (hless _ rfl) (postsLeft_setReceiver rfl rfl (hless _ rfl)) rfl

/-- A receiver that has posted to all watchers unlocks its mutex. -/
theorem progress_posted (n : Nat) {x : MsgType} {msg : VenueMessage}
    (hpc : s.receiver x = .posting msg []) :
    ∃ a s', s.step a = some s' ∧ s'.workLeft n < s.workLeft n := by
  refine ⟨.receiver x, _, by simp only [State.step, State.stepReceiver, hpc]; rfl, ?_⟩
  have hless : ∀ t : State, (t.setReceiver x .waiting).postsLeft x < s.postsLeft x := by
    intro t
    have hself : (t.setReceiver x .waiting).receiver x = .waiting := by simp [State.setReceiver]
    unfold State.postsLeft
    rw [hself, hpc]
    exact Nat.zero_lt_one
  exact workLeft_lt_of_post x (hless _) (postsLeft_setReceiver rfl rfl (hless _)) rfl

/-- A receiver locks a watcher's mutex that is free. -/
theorem progress_posting (n : Nat) {x : MsgType} {msg : VenueMessage} {w : WatcherPtr}
    {targets : List WatcherPtr} (hpc : s.receiver x = .posting msg (w :: targets))
    (hfree : s.owner (.watcher w) = none) :
    ∃ a s', s.step a = some s' ∧ s'.workLeft n < s.workLeft n := by
  refine ⟨.receiver x, _, by
    simp only [State.step, State.stepReceiver, hpc, State.lock, hfree, if_true]; rfl, ?_⟩
  have hless : ∀ t : State,
      (t.setReceiver x (.inPost msg w targets)).postsLeft x < s.postsLeft x := by
    intro t
    have hself : (t.setReceiver x (.inPost msg w targets)).receiver x = .inPost msg w targets := by
      simp [State.setReceiver]
    unfold State.postsLeft
    rw [hself, hpc]
    show 3 * targets.length + 3 < 3 * targets.length + 4 + _
    omega
  exact workLeft_lt_of_post x (hless _) (postsLeft_setReceiver rfl rfl (hless _)) rfl

/-- A worker that has looked its device up unlocks its mutex, which a receiver waits for. -/
theorem progress_looking (n : Nat) {x : MsgType} {msg msg' : VenueMessage} {w : WatcherPtr}
    {targets : List WatcherPtr} (hpc : s.receiver x = .posting msg (w :: targets))
    (hworker : s.worker w = .looking msg') :
    ∃ a s', s.step a = some s' ∧ s'.workLeft n < s.workLeft n := by
  refine ⟨.watcher w, _, by simp only [State.step, State.stepWatcher, hworker]; rfl, ?_⟩
  -- One worker looks no more, and none looks that has not before.
  have hlooking : ∀ v, (((s.unlock (.watcher w)).setWorker w .waiting).worker v).isLooking = true →
      (s.worker v).isLooking = true := by
    intro v hv
    by_cases hvw : v = w
    · subst hvw
      simp [State.setWorker, WatcherPc.isLooking] at hv
    · simpa [State.setWorker, State.unlock, hvw] using hv
  have hself : (((s.unlock (.watcher w)).setWorker w .waiting).worker w).isLooking = false := by
    simp [State.setWorker, WatcherPc.isLooking]
  apply workLeft_lt_of_post x
  · have hsame : ((s.unlock (.watcher w)).setWorker w .waiting).receiver x
        = .posting msg (w :: targets) := hpc
    unfold State.postsLeft
    rw [hsame, hpc]
    show 3 * targets.length + 4 + (if (WatcherPc.isLooking _) then 1 else 0)
      < 3 * targets.length + 4 + (if (s.worker w).isLooking then 1 else 0)
    rw [hself, hworker]
    exact Nat.lt_succ_self _
  · intro y
    have hsame : ((s.unlock (.watcher w)).setWorker w .waiting).receiver y = s.receiver y := rfl
    unfold State.postsLeft
    rw [hsame]
    cases s.receiver y with
    | posting m ts =>
        cases ts with
        | nil => exact Nat.le_refl _
        | cons v rest =>
            show 3 * rest.length + 4 + _ ≤ 3 * rest.length + 4 + _
            have hv := hlooking v
            split
            · rename_i hl
              rw [if_pos (hv hl)]
            · omega
    | waiting => exact Nat.le_refl _
    | locking m => exact Nat.le_refl _
    | inPost m v ts => exact Nat.le_refl _
  · rfl

/-- A thread in `UpdateBoard` that gets on leaves the receivers alone. -/
theorem workLeft_lt_of_call {n : Nat} {t : State} {pc : UpdaterPc}
    (hreceiver : t.receiver = s.receiver) (hworker : t.worker = s.worker)
    (hless : pc.callsLeft < (s.updater n).pc.callsLeft) :
    (t.setPc n pc).workLeft n < s.workLeft n := by
  have hposts : ∀ y, (t.setPc n pc).postsLeft y = s.postsLeft y := by
    intro y
    show t.postsLeft y = s.postsLeft y
    unfold State.postsLeft
    rw [hreceiver, hworker]
  have hself : ((t.setPc n pc).updater n).pc = pc := by simp [State.setPc, State.setUpdater]
  unfold State.workLeft
  rw [hposts, hposts, hposts, hself]
  omega

/-- A thread that is in a call of a receiver comes back from it. -/
theorem progress_inCall {n : Nat} {id : Str} {w : VenueWatcher} {job : Job} {op : RegOp}
    {ops : List RegOp} (hpc : (s.updater n).pc = .inCall id w job op ops) :
    ∃ a s', s.step a = some s' ∧ s'.workLeft n < s.workLeft n := by
  refine ⟨.updater n, _, by simp only [State.step, State.stepUpdater, hpc]; rfl, ?_⟩
  apply workLeft_lt_of_call (s := s) rfl rfl
  rw [hpc]
  show 2 * ops.length < 2 * ops.length + 1
  omega

/-- A thread locks the mutex of a receiver that is free. -/
theorem progress_calling {n : Nat} {id : Str} {w : VenueWatcher} {job : Job} {op : RegOp}
    {ops : List RegOp} (hpc : (s.updater n).pc = .calling id w job (op :: ops))
    (hfree : s.owner (.receiver op.receiver) = none) :
    ∃ a s', s.step a = some s' ∧ s'.workLeft n < s.workLeft n := by
  refine ⟨.updater n, _, by
    simp only [State.step, State.stepUpdater, hpc, State.lock, hfree, if_true]; rfl, ?_⟩
  apply workLeft_lt_of_call (s := s) rfl rfl
  rw [hpc]
  show 2 * ops.length + 1 < 2 * (ops.length + 1)
  omega

/-! ## Crossing threads can be run into a deadlock -/

/-- A thread that modifies a watcher is alone with the coordinator's mutex. -/
theorem updater_eq_of_coordinator (hs : OwnersOk s) {n k : Nat}
    (hn : Mutex.coordinator ∈ s.held (.updater n)) (hk : Mutex.coordinator ∈ s.held (.updater k)) :
    n = k :=
  Thread.updater.inj (hs.holder_unique hn hk)

/-- Who holds the mutex of a receiver while a thread is in front of it: the receiver itself. -/
theorem holder_of_receiver (hs : OwnersOk s) {n : Nat} {id : Str} {w : VenueWatcher} {job : Job}
    {ops : List RegOp} (hpc : (s.updater n).pc = .calling id w job ops) {x : MsgType} {t : Thread}
    (ht : Mutex.receiver x ∈ s.held t) : t = .receiver x := by
  cases t with
  | receiver y =>
      simp only [State.held] at ht
      cases hy : s.receiver y with
      | waiting => simp [hy, ReceiverPc.held] at ht
      | locking msg => simp [hy, ReceiverPc.held] at ht
      | posting msg targets =>
          simp only [hy, ReceiverPc.held, Set.mem_singleton_iff, Mutex.receiver.injEq] at ht
          rw [ht]
      | inPost msg v targets =>
          simp only [hy, ReceiverPc.held, Set.mem_insert_iff, Set.mem_singleton_iff, reduceCtorEq,
            false_or, Mutex.receiver.injEq] at ht
          rw [ht]
  | watcher p =>
      simp only [State.held] at ht
      cases hp : s.worker p <;> simp [hp, WatcherPc.held] at ht
  | updater k =>
      -- Such a thread would have the coordinator's mutex too.
      have hcoordinator : Mutex.coordinator ∈ s.held (.updater n) := by
        simp only [State.held, Updater.held, hpc]
        exact coordinator_mem_job_held w job
      simp only [State.held] at ht
      cases hk : (s.updater k).pc with
      | inCall id' w' job' op' ops' =>
          have hheld : Mutex.coordinator ∈ s.held (.updater k) := by
            simp only [State.held, Updater.held, hk]
            exact Set.mem_insert_of_mem _ (coordinator_mem_job_held w' job')
          obtain rfl := updater_eq_of_coordinator hs hcoordinator hheld
          rw [hpc] at hk
          cases hk
      | calling id' w' job' ops' => cases job' <;> simp [Updater.held, hk, Job.held] at ht
      | idle => simp [Updater.held, hk] at ht
      | reconcileLocking => simp [Updater.held, hk] at ht
      | locking id' job' => simp [Updater.held, hk] at ht
      | locked id' job' => simp [Updater.held, hk] at ht
      | lockingWatcher id' w' devices => simp [Updater.held, hk] at ht
      | joining id' w' => simp [Updater.held, hk] at ht
      | finishing => simp [Updater.held, hk] at ht

/-- Who holds the mutex of a watcher: a receiver in its `Post` function, its worker, or a thread
    in `UpdateBoard`. -/
theorem holder_of_watcher {p : WatcherPtr} {t : Thread} (ht : Mutex.watcher p ∈ s.held t) :
    (∃ z msg targets, s.receiver z = .inPost msg p targets) ∨
      (∃ msg, s.worker p = .looking msg) ∨
      ∃ k, t = .updater k ∧ Mutex.coordinator ∈ s.held (.updater k) := by
  -- Each place of a thread is asked for the mutexes it holds.
  cases t with
  | receiver z =>
      simp only [State.held] at ht
      cases hz : s.receiver z with
      | waiting => simp [hz, ReceiverPc.held] at ht
      | locking msg => simp [hz, ReceiverPc.held] at ht
      | posting msg targets => simp [hz, ReceiverPc.held] at ht
      | inPost msg v targets =>
          simp only [hz, ReceiverPc.held, Set.mem_insert_iff, Set.mem_singleton_iff, reduceCtorEq,
            or_false, Mutex.watcher.injEq] at ht
          subst ht
          exact .inl ⟨z, msg, targets, hz⟩
  | watcher q =>
      simp only [State.held] at ht
      cases hq : s.worker q with
      | looking msg =>
          simp only [hq, WatcherPc.held, Set.mem_singleton_iff, Mutex.watcher.injEq] at ht
          subst ht
          exact .inr (.inl ⟨msg, hq⟩)
      | waiting => simp [hq, WatcherPc.held] at ht
      | locking msg => simp [hq, WatcherPc.held] at ht
      | ended => simp [hq, WatcherPc.held] at ht
  | updater k =>
      refine .inr (.inr ⟨k, rfl, ?_⟩)
      simp only [State.held] at ht ⊢
      cases hk : (s.updater k).pc with
      | calling id w job ops =>
          simp only [Updater.held, hk]
          exact coordinator_mem_job_held w job
      | inCall id w job op ops =>
          simp only [Updater.held, hk]
          exact Set.mem_insert_of_mem _ (coordinator_mem_job_held w job)
      | idle => simp [Updater.held, hk] at ht
      | reconcileLocking => simp [Updater.held, hk] at ht
      | locking id job => simp [Updater.held, hk] at ht
      | locked id job => simp [Updater.held, hk] at ht
      | lockingWatcher id w devices => simp [Updater.held, hk] at ht
      | joining id w => simp [Updater.held, hk] at ht
      | finishing => simp [Updater.held, hk] at ht

/-- A receiver in front of a watcher and a thread in front of the receiver, each of which holds
    what the other one waits for. -/
theorem deadlocked_pair {x : MsgType} {msg : VenueMessage} {v : WatcherPtr}
    {targets : List WatcherPtr} (hx : s.receiver x = .posting msg (v :: targets)) {n : Nat}
    {id : Str} {w : VenueWatcher} {job : Job} {op : RegOp} {ops : List RegOp}
    (hn : (s.updater n).pc = .calling id w job (op :: ops)) (hop : op.receiver = x)
    (hreceiver : s.owner (.receiver x) = some (.receiver x))
    (hwatcher : s.owner (.watcher v) = some (.updater n)) :
    Deadlocked s.owner s.wants {.receiver x, .updater n} := by
  refine ⟨⟨_, Set.mem_insert _ _⟩, ?_⟩
  intro t ht
  rcases ht with rfl | rfl
  · refine ⟨.watcher v, .updater n, ?_, hwatcher, Set.mem_insert_of_mem _ rfl, by simp⟩
    simp only [State.wants, hx]
  · refine ⟨.receiver x, .receiver x, ?_, hreceiver, Set.mem_insert _ _, by simp⟩
    simp only [State.wants, hn, hop]

/-- Threads that cross are deadlocked, or some thread that holds a mutex can get on. -/
theorem deadlocked_or_progress (hs : OwnersOk s) {x : MsgType} {n : Nat} {p : WatcherPtr}
    (hcross : Crossing s x n p) :
    (∃ D, Deadlocked s.owner s.wants D) ∨
      ∃ a s', s.step a = some s' ∧ s'.workLeft n < s.workLeft n := by
  have hcall := hcross.call
  have hcoordinator := (watcher_mem_held hcall).2
  cases hpc : (s.updater n).pc with
  | inCall id w job op ops => exact .inr (progress_inCall hpc)
  | calling id w job ops =>
      cases ops with
      | nil => cases job <;> simp [hpc, UpdaterPc.calls] at hcall
      | cons op rest =>
          cases howner : s.owner (.receiver op.receiver) with
          | none => exact .inr (progress_calling hpc howner)
          | some t =>
              -- The mutex in front is the receiver's own, so it is at a post.
              have hheld := (hs _ _).mp howner
              obtain rfl := holder_of_receiver hs hpc hheld
              simp only [State.held] at hheld
              cases hy : s.receiver op.receiver with
              | waiting => simp [hy, ReceiverPc.held] at hheld
              | locking msg => simp [hy, ReceiverPc.held] at hheld
              | inPost msg v targets => exact .inr (progress_inPost n hy)
              | posting msg targets =>
                  cases targets with
                  | nil => exact .inr (progress_posted n hy)
                  | cons v targets =>
                      cases hv : s.owner (.watcher v) with
                      | none => exact .inr (progress_posting n hy hv)
                      | some t' =>
                          rcases holder_of_watcher ((hs _ _).mp hv) with
                            ⟨z, msg', ts, hz⟩ | ⟨msg', hworker⟩ | ⟨k, rfl, hk⟩
                          · exact .inr (progress_inPost n hz)
                          · exact .inr (progress_looking n hy hworker)
                          · -- The thread that modifies the watcher is the one in front.
                            obtain rfl := updater_eq_of_coordinator hs hcoordinator hk
                            exact .inl ⟨_, deadlocked_pair hy hpc rfl howner hv⟩
  | idle => simp [hpc, UpdaterPc.calls] at hcall
  | reconcileLocking => simp [hpc, UpdaterPc.calls] at hcall
  | locking id job => simp [hpc, UpdaterPc.calls] at hcall
  | locked id job => simp [hpc, UpdaterPc.calls] at hcall
  | lockingWatcher id w devices => simp [hpc, UpdaterPc.calls] at hcall
  | joining id w => simp [hpc, UpdaterPc.calls] at hcall
  | finishing => simp [hpc, UpdaterPc.calls] at hcall

/-- Threads that cross can be run on until they are deadlocked. -/
theorem canDeadlock_of_crossing (hs : OwnersOk s) {x : MsgType} {n : Nat} {p : WatcherPtr}
    (hcross : Crossing s x n p) : CanDeadlock s := by
  -- On the work that the threads with mutexes have left.
  induction hwork : s.workLeft n using Nat.strong_induction_on generalizing s with
  | _ work ih =>
      rcases deadlocked_or_progress hs hcross with ⟨D, hD⟩ | ⟨a, s', hstep, hless⟩
      · exact canReach_here ⟨D, hD⟩
      · rw [hwork] at hless
        exact canReach_step hstep
          (ih _ hless (State.consistent_step hs hstep) (crossing_step hs hstep hcross) rfl)

/-- A step that is not careful makes threads cross. -/
theorem crossing_of_not_careful {a : Label} (h : s.step a = some s') (hcareful : ¬ Careful s a) :
    ∃ x n p, Crossing s' x n p := by
  cases a with
  | receiver x =>
      simp only [Careful, not_forall, not_not] at hcareful
      obtain ⟨msg, hpc, p, hp, n, hcall⟩ := hcareful
      refine ⟨x, n, p, ?_, ?_⟩
      -- The step takes the receiver past its own mutex, and its list of watchers is made.
      · rcases State.pending_stepReceiver h with ⟨msg', hpc', hnew⟩ | ⟨w, -, hold⟩ | hsame
        · rw [hpc] at hpc'
          cases hpc'
          rwa [hnew]
        · rw [hpc] at hold
          cases hold
        · simp only [State.step, State.stepReceiver, hpc] at h
          obtain ⟨-, rfl⟩ := State.lock_bind h
          simpa [State.setReceiver, ReceiverPc.pending] using hp
      · rw [(State.frame_stepReceiver h).2]
        exact hcall
  | updater n =>
      simp only [Careful, not_forall, not_not] at hcareful
      obtain ⟨id, w, devices, hpc, op, hop, hpost⟩ := hcareful
      simp only [State.step, State.stepUpdater, hpc] at h
      obtain ⟨-, rfl⟩ := State.lock_bind h
      -- The step takes the mutex of the watcher, and the list of calls is made.
      refine ⟨op.receiver, n, w.this, hpost, ?_⟩
      simpa [State.setPc, State.setUpdater, UpdaterPc.calls] using ⟨op, hop, rfl⟩
  | receive msg => exact absurd trivial hcareful
  | watcher p => exact absurd trivial hcareful
  | reconcile n => exact absurd trivial hcareful
  | endReconcile n => exact absurd trivial hcareful
  | updateBoard n id devices => exact absurd trivial hcareful

/-- No set of threads is deadlocked in a state reached by careful steps, and the first step that
    is not careful leads to a state from which a deadlock is reached. -/
theorem deadlock_iff_not_careful (h : ReachableUnder system Careful s) :
    (∀ D, ¬ Deadlocked s.owner s.wants D) ∧
      ∀ a s', s.step a = some s' → ¬ Careful s a → CanDeadlock s' := by
  refine ⟨not_deadlocked_of_careful h, ?_⟩
  intro a s' hstep hcareful
  obtain ⟨x, n, p, hcross⟩ := crossing_of_not_careful hstep hcareful
  exact canDeadlock_of_crossing (State.consistent_step (ownersOk_of_reachable h) hstep) hcross

/-! ## A health message against a new device -/

/-- One board with the device `1`. -/
def oneBoard : List Action :=
  [.startBoard { info := { id := ['a'] }, venueList := [{ id := ['v'] }] }
    (fun _ _ => { success := true, devices := [1] }) 7]

/-- A health message of the device is being routed when the timer finds a second device. -/
def healthAgainstUpdate : List Label :=
  [.receive { serialNumber := 1, type := .health, payload := .null }, .receiver .health,
    .reconcile 0, .updater 0, .updateBoard 0 ['a'] (some [1, 2]), .updater 0, .updater 0,
    .updater 0, .updater 0, .updater 0]

/-- The health receiver waits for the watcher's mutex and the timer's thread for the receiver's,
    and each has what the other one waits for. -/
theorem deadlocked_healthAgainstUpdate :
    ∃ c s, run VenueCoordinator.step {} oneBoard = some c ∧
      run State.step (quiet c) healthAgainstUpdate = some s ∧ Reachable system s ∧
      Deadlocked s.owner s.wants {.receiver .health, .updater 0} := by
  have hrun : ((run VenueCoordinator.step {} oneBoard).bind fun c =>
      (run State.step (quiet c) healthAgainstUpdate).map fun s =>
        ([s.owner (.receiver .health), s.owner (.watcher 7)],
          [s.wants (.receiver .health), s.wants (.updater 0)]))
      = some ([some (.receiver .health), some (.updater 0)],
          [some (.watcher 7), some (.receiver .health)]) := by
    decide +kernel
  obtain ⟨c, hc, hvalues⟩ := Option.bind_eq_some_iff.mp hrun
  obtain ⟨s, hs, hvalues⟩ := Option.map_eq_some_iff.mp hvalues
  simp only [Prod.mk.injEq, List.cons.injEq, and_true] at hvalues
  -- each of the two waits for a mutex that the other owns
  obtain ⟨⟨hreceiver, hwatcher⟩, hwaits, hwaits'⟩ := hvalues
  have hreach : Reachable system (quiet c) := .init ⟨c, reachable_of_run_start hc, rfl⟩
  refine ⟨c, s, hc, hs, reachable_of_run (fun _ _ _ h => h) hreach hs, ⟨_, Set.mem_insert _ _⟩, ?_⟩
  intro t ht
  rcases ht with rfl | rfl
  · exact ⟨_, _, hwaits, hwatcher, Set.mem_insert_of_mem _ rfl, by simp⟩
  · exact ⟨_, _, hwaits', hreceiver, Set.mem_insert _ _, by simp⟩

/-- The same threads up to the place where the second of them takes the watcher's mutex. -/
def untilCrossing : List Label :=
  [.receive { serialNumber := 1, type := .health, payload := .null }, .receiver .health,
    .reconcile 0, .updater 0, .updateBoard 0 ['a'] (some [1, 2]), .updater 0, .updater 0]

theorem careful_receiver_of_idle {x : MsgType} (h : ∀ n, (s.updater n).pc = .idle) :
    Careful s (.receiver x) := by
  intro msg _ p _ n hcall
  rw [h n] at hcall
  exact List.not_mem_nil hcall

theorem careful_updater_of_ne {n : Nat}
    (h : ∀ id w devices, (s.updater n).pc ≠ .lockingWatcher id w devices) :
    Careful s (.updater n) :=
  fun id w devices hpc => absurd hpc (h id w devices)

theorem careful_untilCrossing (c : VenueCoordinator) :
    Along State.step Careful (quiet c) untilCrossing := by
  intro s₁ h₁
  obtain rfl := Option.some.inj h₁
  refine ⟨trivial, fun s₂ h₂ => ?_⟩
  obtain rfl := Option.some.inj h₂
  refine ⟨careful_receiver_of_idle fun n => rfl, fun s₃ h₃ => ?_⟩
  obtain rfl := Option.some.inj h₃
  refine ⟨trivial, fun s₄ h₄ => ?_⟩
  obtain rfl := Option.some.inj h₄
  refine ⟨careful_updater_of_ne (fun id w devices hpc => by cases hpc), fun s₅ h₅ => ?_⟩
  obtain rfl := Option.some.inj h₅
  refine ⟨trivial, fun s₆ h₆ => ?_⟩
  obtain rfl := Option.some.inj h₆
  refine ⟨careful_updater_of_ne (fun id w devices hpc => by cases hpc), fun s₇ h₇ => ?_⟩
  exact ⟨careful_updater_of_ne (fun id w devices hpc => by cases hpc), trivial⟩

/-- A state reached by careful steps in which the health receiver has its own mutex and a post to
    make, and the timer's thread, which has the coordinator's, is about to take the watcher's. -/
theorem deadlock_iff_not_careful_untilCrossing :
    ∃ c s, run VenueCoordinator.step {} oneBoard = some c ∧
      run State.step (quiet c) untilCrossing = some s ∧ ReachableUnder system Careful s ∧
      s.owner (.receiver .health) = some (.receiver .health) ∧
      s.owner .coordinator = some (.updater 0) ∧
      (∀ D, ¬ Deadlocked s.owner s.wants D) ∧
      ∃ s', s.step (.updater 0) = some s' ∧ ¬ Careful s (.updater 0) ∧ CanDeadlock s' := by
  have hvalues : (run VenueCoordinator.step {} oneBoard).map (fun c =>
      (c.existingBoards[(['a'] : Str)]?, c.watchers[(['a'] : Str)]?.map (·.this),
        c.shared.receivers.targets .health 1)) = some (some [1], some 7, [7]) := by
    decide +kernel
  obtain ⟨c, hc, hvalues⟩ := Option.map_eq_some_iff.mp hvalues
  simp only [Prod.mk.injEq] at hvalues
  obtain ⟨hboard, hwatcher, htargets⟩ := hvalues
  obtain ⟨w, hw, hthis⟩ := Option.map_eq_some_iff.mp hwatcher
  have hrun : ∃ s, run State.step (quiet c) untilCrossing = some s ∧
      s.owner = Function.update (Function.update (fun _ => none) (.receiver .health)
        (some (.receiver .health))) .coordinator (some (.updater 0)) ∧
      (s.updater 0).pc = .lockingWatcher ['a'] w [1, 2] ∧
      (s.receiver .health).pending = [7] := by
    have hsorted : sortUnique [1, 2] = [1, 2] := by decide +kernel
    have hlast : ∀ t : State, t.existingBoards = c.existingBoards → t.watchers = c.watchers →
        (t.updater 0).pc = .locked ['a'] (.modify (sortUnique [1, 2])) →
        t.step (.updater 0) = some (t.setPc 0 (.lockingWatcher ['a'] w [1, 2])) := by
      intro t hboards hwatchers hpc
      rw [hsorted] at hpc
      simp only [State.step, State.stepUpdater, hpc, hboards, hwatchers, hboard, hw]
      rfl
    -- The first six steps compute; the last one looks the board and its watcher up.
    obtain ⟨t, ht, hboards, hwatchers, hpc, howner, hpending⟩ : ∃ t,
        run State.step (quiet c) untilCrossing = run State.step t [.updater 0] ∧
          t.existingBoards = c.existingBoards ∧ t.watchers = c.watchers ∧
          (t.updater 0).pc = .locked ['a'] (.modify (sortUnique [1, 2])) ∧
          t.owner = Function.update (Function.update (fun _ => none) (.receiver .health)
            (some (.receiver .health))) .coordinator (some (.updater 0)) ∧
          (t.receiver .health).pending = c.shared.receivers.targets .health 1 :=
      ⟨_, rfl, rfl, rfl, rfl, rfl, rfl⟩
    refine ⟨_, ht.trans (run_cons (hlast t hboards hwatchers hpc) []), howner, ?_, ?_⟩
    · simp [State.setPc, State.setUpdater]
    · exact hpending.trans htargets
  obtain ⟨s, hs, howner, hpc, hpending⟩ := hrun
  have hreach : ReachableUnder system Careful s :=
    (careful_untilCrossing c).reachableUnder (fun _ _ _ h => h)
      (.init ⟨c, reachable_of_run_start hc, rfl⟩) hs
  have hfree : s.owner (.watcher w.this) = none := by rw [howner]; rfl
  -- `ModifySerialNumbers` is going to call the health receiver, which is to post to the watcher.
  have hcareful : ¬ Careful s (.updater 0) := by
    intro h
    refine h _ _ _ hpc (.healthRegister [1, 2]) (by simp [modifyOps]) ?_
    rw [hthis]
    exact hpending ▸ List.mem_singleton_self 7
  obtain ⟨hdead, hcan⟩ := deadlock_iff_not_careful hreach
  obtain ⟨s', hs'⟩ : ∃ s', s.step (.updater 0) = some s' := by
    simp only [State.step, State.stepUpdater, hpc, State.lock, hfree, if_true]
    exact ⟨_, rfl⟩
  exact ⟨c, s, hc, hs, hreach, by rw [howner]; rfl, by rw [howner]; rfl, hdead, s', hs', hcareful,
    hcan _ _ hs' hcareful⟩

end OwAnalytics.Venue.Locking
