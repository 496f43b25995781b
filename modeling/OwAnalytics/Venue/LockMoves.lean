/-
  OwAnalytics.Venue.LockMoves

  What a step of message delivery or of device reconciliation does to the mutexes,
  and to the work that a thread still has to do before it unlocks the one it holds:
  the posts of a receiver, the calls of `ModifySerialNumbers`.
-/

import OwAnalytics.Venue.Locking

namespace OwAnalytics.Venue.Locking

open Transitions Mutexes

/-! ## What the threads hold and wait for -/

/-- The mutexes a receiver holds. -/
def ReceiverPc.held (x : MsgType) : ReceiverPc → Set Mutex
  | .waiting | .locking _ => ∅
  | .posting _ _ => {.receiver x}
  | .inPost _ w _ => {.watcher w, .receiver x}

/-- The mutexes the thread of a watcher holds. -/
def WatcherPc.held (p : WatcherPtr) : WatcherPc → Set Mutex
  | .looking _ => {.watcher p}
  | .waiting | .locking _ | .ended => ∅

/-- The mutexes a job holds while it calls a receiver. -/
def Job.held (w : VenueWatcher) : Job → Set Mutex
  | .modify _ => {.watcher w.this, .coordinator}
  | .stop => {.coordinator}

/-- The mutexes a thread that changes boards holds. -/
def Updater.held (u : Updater) : Set Mutex :=
  match u.pc with
  | .reconcileLocking => ∅
  | .idle | .locking _ _ => if u.reconciling then {.coordinator} else ∅
  | .locked _ _ | .lockingWatcher _ _ _ | .joining _ _ | .finishing => {.coordinator}
  | .calling _ w job _ => job.held w
  | .inCall _ w job op _ => insert (.receiver op.receiver) (job.held w)

/-! ## Posts and calls still to come -/

/-- The watchers a receiver still has to post to before it unlocks its mutex. -/
def ReceiverPc.pending : ReceiverPc → List WatcherPtr
  | .posting _ targets | .inPost _ _ targets => targets
  | .waiting | .locking _ => []

/-- The receivers a thread still has to call before it unlocks the mutex of the watcher it
    modifies, each with the watcher. -/
def UpdaterPc.calls : UpdaterPc → List (WatcherPtr × MsgType)
  | .calling _ w (.modify _) ops | .inCall _ w (.modify _) _ ops =>
      ops.map fun op => (w.this, op.receiver)
  | _ => []

namespace State

variable {s s' : State}

/-- The mutexes a thread holds. -/
def held (s : State) : Thread → Set Mutex
  | .receiver x => (s.receiver x).held x
  | .watcher p => (s.worker p).held p
  | .updater n => (s.updater n).held

/-- The mutex a thread is about to lock. -/
def wants (s : State) : Thread → Option Mutex
  | .receiver x =>
      match s.receiver x with
      | .locking _ => some (.receiver x)
      | .posting _ (w :: _) => some (.watcher w)
      | _ => none
  | .watcher p =>
      match s.worker p with
      | .locking _ => some (.watcher p)
      | _ => none
  | .updater n =>
      match (s.updater n).pc with
      | .reconcileLocking => some .coordinator
      | .locking _ _ => if (s.updater n).reconciling then none else some .coordinator
      | .lockingWatcher _ w _ => some (.watcher w.this)
      | .calling _ _ _ (op :: _) => some (.receiver op.receiver)
      | _ => none

theorem held_setReceiver (s : State) (x : MsgType) (pc : ReceiverPc) :
    (s.setReceiver x pc).held = Function.update s.held (.receiver x) (pc.held x) := by
  funext t
  cases t with
  | receiver y =>
      by_cases hy : y = x
      · subst hy
        simp [held, setReceiver]
      · simp [held, setReceiver, hy]
  | watcher p => rfl
  | updater n => rfl

theorem held_setWorker (s : State) (p : WatcherPtr) (pc : WatcherPc) :
    (s.setWorker p pc).held = Function.update s.held (.watcher p) (pc.held p) := by
  funext t
  cases t with
  | watcher q =>
      by_cases hq : q = p
      · subst hq
        simp [held, setWorker]
      · simp [held, setWorker, hq]
  | receiver x => rfl
  | updater n => rfl

theorem held_setUpdater (s : State) (n : Nat) (u : Updater) :
    (s.setUpdater n u).held = Function.update s.held (.updater n) u.held := by
  funext t
  cases t with
  | updater k =>
      by_cases hk : k = n
      · subst hk
        simp [held, setUpdater]
      · simp [held, setUpdater, hk]
  | receiver x => rfl
  | watcher p => rfl

/-! ## What a step does to the mutexes -/

/-- A step of a thread keeps every mutex, locks a free one or unlocks one it holds. -/
inductive LockMove (s s' : State) (t : Thread) : Prop
  | keep (howner : s'.owner = s.owner) (hheld : s'.held = Function.update s.held t (s.held t))
  | lock (m : Mutex) (hfree : s.owner m = none)
      (howner : s'.owner = Function.update s.owner m (some t))
      (hheld : s'.held = Function.update s.held t (insert m (s.held t)))
  | unlock (m : Mutex) (hm : m ∈ s.held t) (howner : s'.owner = Function.update s.owner m none)
      (hheld : s'.held = Function.update s.held t (s.held t \ {m}))

theorem lock_bind {m : Mutex} {t : Thread} {f : State → State}
    (h : (s.lock m t).bind (fun s => some (f s)) = some s') :
    s.owner m = none ∧ s' = f { s with owner := Function.update s.owner m (some t) } := by
  unfold lock at h
  split at h
  · rename_i hfree
    exact ⟨hfree, (Option.some.inj h).symm⟩
  · cases h

theorem lockMove_stepReceiver {x : MsgType} (h : s.stepReceiver x = some s') :
    LockMove s s' (.receiver x) := by
  unfold stepReceiver at h
  cases hpc : s.receiver x with
  | waiting => simp only [hpc, reduceCtorEq] at h
  | locking msg =>
      simp only [hpc] at h
      obtain ⟨hfree, rfl⟩ := lock_bind h
      refine .lock _ hfree rfl ((held_setReceiver _ _ _).trans ?_)
      show Function.update s.held _ {Mutex.receiver x} = _
      simp [held, ReceiverPc.held, hpc]
  | posting msg targets =>
      cases targets with
      | nil =>
          simp only [hpc] at h
          obtain rfl := Option.some.inj h
          refine .unlock (.receiver x) ?_ rfl ((held_setReceiver _ _ _).trans ?_)
          · simp [held, ReceiverPc.held, hpc]
          · show Function.update s.held _ ∅ = _
            simp [held, ReceiverPc.held, hpc]
      | cons w rest =>
          simp only [hpc] at h
          obtain ⟨hfree, rfl⟩ := lock_bind h
          -- the receiver's own mutex is kept while that of the watcher is locked
          refine .lock _ hfree rfl ((held_setReceiver _ _ _).trans ?_)
          show Function.update s.held _ {Mutex.watcher w, Mutex.receiver x} = _
          simp [held, ReceiverPc.held, hpc]
  | inPost msg w targets =>
      simp only [hpc] at h
      obtain rfl := Option.some.inj h
      refine .unlock (.watcher w) ?_ rfl ((held_setReceiver _ _ _).trans ?_)
      · simp [held, ReceiverPc.held, hpc]
      · show Function.update s.held _ {Mutex.receiver x} = _
        simp [held, ReceiverPc.held, hpc]

theorem lockMove_stepWatcher {p : WatcherPtr} (h : s.stepWatcher p = some s') :
    LockMove s s' (.watcher p) := by
  unfold stepWatcher at h
  cases hpc : s.worker p with
  | waiting =>
      simp only [hpc] at h
      split at h
      · cases h
      · obtain rfl := Option.some.inj h
        refine .keep rfl ((held_setWorker _ _ _).trans ?_)
        show Function.update s.held _ ∅ = _
        simp [held, WatcherPc.held, hpc]
  | locking msg =>
      simp only [hpc] at h
      obtain ⟨hfree, rfl⟩ := lock_bind h
      refine .lock _ hfree rfl ((held_setWorker _ _ _).trans ?_)
      show Function.update s.held _ {Mutex.watcher p} = _
      simp [held, WatcherPc.held, hpc]
  | looking msg =>
      simp only [hpc] at h
      obtain rfl := Option.some.inj h
      refine .unlock (.watcher p) ?_ rfl ((held_setWorker _ _ _).trans ?_)
      · simp [held, WatcherPc.held, hpc]
      · show Function.update s.held _ ∅ = _
        simp [held, WatcherPc.held, hpc]
  | ended => simp only [hpc, reduceCtorEq] at h

theorem held_setPc (s : State) (n : Nat) (pc : UpdaterPc) :
    (s.setPc n pc).held
      = Function.update s.held (.updater n) (Updater.held { s.updater n with pc }) :=
  held_setUpdater _ _ _

theorem held_updater {n : Nat} {pc : UpdaterPc} (hpc : (s.updater n).pc = pc) :
    s.held (.updater n) = Updater.held { s.updater n with pc } := by
  rw [← hpc]
  rfl

/-- In its critical section a thread looks up the board and goes on, with no call to make yet. -/
theorem stepUpdater_locked {n : Nat} {id : Str} {job : Job}
    (hpc : (s.updater n).pc = .locked id job) (h : s.stepUpdater n = some s') :
    ∃ existing pc, s' = { s with existingBoards := existing }.setPc n pc ∧ pc.calls = [] ∧
      Updater.held { s.updater n with pc }
        = Updater.held { s.updater n with pc := .locked id job } := by
  unfold stepUpdater at h
  cases job with
  -- whichever way it goes, only the coordinator's mutex is held
  | modify devices =>
      simp only [hpc] at h
      split at h
      · exact ⟨_, _, (Option.some.inj h).symm, rfl, rfl⟩
      · split at h
        · split at h
          · exact ⟨_, _, (Option.some.inj h).symm, rfl, rfl⟩
          · exact ⟨_, _, (Option.some.inj h).symm, rfl, rfl⟩
        · exact ⟨_, _, (Option.some.inj h).symm, rfl, rfl⟩
  | stop =>
      simp only [hpc] at h
      split at h
      · exact ⟨_, _, (Option.some.inj h).symm, rfl, rfl⟩
      · exact ⟨_, _, (Option.some.inj h).symm, rfl, rfl⟩

/-- `Stop` returns when the worker, which holds no mutex then, has ended. -/
theorem stepUpdater_joining {n : Nat} {id : Str} {w : VenueWatcher}
    (hpc : (s.updater n).pc = .joining id w) (h : s.stepUpdater n = some s') :
    (s.worker w.this).held w.this = ∅ ∧
      s' = (s.setWorker w.this .ended).setPc n (.calling id w .stop (stopOps w)) := by
  simp only [stepUpdater, hpc] at h
  cases hworker : s.worker w.this with
  | waiting =>
      simp only [hworker] at h
      exact ⟨rfl, (Option.some.inj h).symm⟩
  | ended =>
      simp only [hworker] at h
      exact ⟨rfl, (Option.some.inj h).symm⟩
  | locking msg => simp only [hworker, reduceCtorEq] at h
  | looking msg => simp only [hworker, reduceCtorEq] at h

/-- A worker that holds nothing ends without a change to what the threads hold. -/
theorem held_endWorker {p : WatcherPtr} (h : (s.worker p).held p = ∅) :
    (s.setWorker p .ended).held = s.held := by
  have hsame : WatcherPc.held p .ended = s.held (.watcher p) := by
    show ∅ = (s.worker p).held p
    rw [h]
  rw [held_setWorker, hsame, Function.update_eq_self]

/-- A thread goes on in `UpdateBoard` without locking or unlocking. -/
theorem lockMove_keep {n : Nat} {pc pc' : UpdaterPc} (hpc : (s.updater n).pc = pc)
    (howner : s'.owner = s.owner)
    (hheld : s'.held =
      Function.update s.held (.updater n) (Updater.held { s.updater n with pc := pc' }))
    (hsame : Updater.held { s.updater n with pc := pc' } = Updater.held { s.updater n with pc }) :
    LockMove s s' (.updater n) := by
  refine .keep howner ?_
  rw [hheld, hsame, held_updater hpc]

theorem lockMove_stepUpdater {n : Nat} (h : s.stepUpdater n = some s') :
    LockMove s s' (.updater n) := by
  have hstep := h
  unfold stepUpdater at h
  cases hpc : (s.updater n).pc with
  | idle => simp only [hpc, reduceCtorEq] at h
  | reconcileLocking =>
      simp only [hpc] at h
      obtain ⟨hfree, rfl⟩ := lock_bind h
      refine .lock _ hfree rfl ((held_setUpdater _ _ _).trans ?_)
      show Function.update s.held _ _ = _
      simp [held, Updater.held, hpc]
  | locking id job =>
      simp only [hpc] at h
      split at h
      -- within a reconciliation the coordinator's mutex is held already
      · rename_i hreconciling
        obtain rfl := Option.some.inj h
        exact lockMove_keep hpc rfl (held_setPc _ _ _) (by simp [Updater.held, hreconciling])
      · rename_i hreconciling
        obtain ⟨hfree, rfl⟩ := lock_bind h
        refine .lock _ hfree rfl ((held_setPc _ _ _).trans ?_)
        show Function.update s.held _ {Mutex.coordinator} = _
        simp [held, Updater.held, hpc, hreconciling]
  | locked id job =>
      obtain ⟨existing, pc, rfl, -, hsame⟩ := stepUpdater_locked hpc hstep
      exact lockMove_keep hpc rfl (held_setPc _ _ _) hsame
  | lockingWatcher id w devices =>
      simp only [hpc] at h
      obtain ⟨hfree, rfl⟩ := lock_bind h
      refine .lock _ hfree rfl ((held_setPc _ _ _).trans ?_)
      show Function.update s.held _ {Mutex.watcher w.this, Mutex.coordinator} = _
      simp [held, Updater.held, hpc]
  | joining id w =>
      obtain ⟨hempty, rfl⟩ := stepUpdater_joining hpc hstep
      refine lockMove_keep hpc rfl ((held_setPc _ _ _).trans ?_) rfl
      rw [held_endWorker hempty]
      rfl
  | calling id w job ops =>
      cases ops with
      | cons op rest =>
          simp only [hpc] at h
          obtain ⟨hfree, rfl⟩ := lock_bind h
          refine .lock _ hfree rfl ((held_setPc _ _ _).trans ?_)
          rw [held_updater hpc]
          rfl
      | nil =>
          cases job with
          | modify devices =>
              simp only [hpc] at h
              obtain rfl := Option.some.inj h
              refine .unlock (.watcher w.this) ?_ rfl ((held_setPc _ _ _).trans ?_)
              · simp [held, Updater.held, Job.held, hpc]
              · show Function.update s.held _ {Mutex.coordinator} = _
                simp [held, Updater.held, Job.held, hpc]
          | stop =>
              simp only [hpc] at h
              obtain rfl := Option.some.inj h
              exact lockMove_keep hpc rfl (held_setPc _ _ _) rfl
  | inCall id w job op ops =>
      simp only [hpc] at h
      obtain rfl := Option.some.inj h
      refine .unlock (.receiver op.receiver) ?_ rfl ((held_setPc _ _ _).trans ?_)
      · simp [held, Updater.held, hpc]
      · show Function.update s.held _ (job.held w) = _
        cases job <;> simp [held, Updater.held, Job.held, hpc]
  | finishing =>
      simp only [hpc] at h
      split at h
      -- a reconciliation goes on with the next board, its mutex still held
      · rename_i hreconciling
        obtain rfl := Option.some.inj h
        exact lockMove_keep hpc rfl (held_setPc _ _ _) (by simp [Updater.held, hreconciling])
      · rename_i hreconciling
        obtain rfl := Option.some.inj h
        refine .unlock .coordinator ?_ rfl ((held_setPc _ _ _).trans ?_)
        · simp [held, Updater.held, hpc]
        · show Function.update s.held _ (Updater.held { s.updater n with pc := .idle }) = _
          simp [held, Updater.held, hpc, hreconciling]

theorem lockMove_step {a : Label} (h : s.step a = some s') : ∃ t, LockMove s s' t := by
  cases a with
  | receiver x => exact ⟨_, lockMove_stepReceiver h⟩
  | watcher p => exact ⟨_, lockMove_stepWatcher h⟩
  | updater n => exact ⟨_, lockMove_stepUpdater h⟩
  | receive msg =>
      simp only [step] at h
      split at h
      · rename_i hpc
        obtain rfl := Option.some.inj h
        refine ⟨.receiver msg.type, .keep rfl ((held_setReceiver _ _ _).trans ?_)⟩
        show Function.update s.held _ ∅ = _
        simp [held, ReceiverPc.held, hpc]
      · cases h
  | reconcile n =>
      simp only [step] at h
      split at h
      · rename_i hreconciling hpc
        obtain rfl := Option.some.inj h
        -- The thread goes in front of the coordinator's mutex and locks nothing yet.
        exact ⟨_, lockMove_keep hpc rfl (held_setPc _ _ _) (by simp [Updater.held, hreconciling])⟩
      · cases h
  | endReconcile n =>
      simp only [step] at h
      split at h
      · rename_i hreconciling hpc
        obtain rfl := Option.some.inj h
        refine ⟨.updater n, .unlock .coordinator ?_ rfl ((held_setUpdater _ _ _).trans ?_)⟩
        · simp [held, Updater.held, hpc, hreconciling]
        · show Function.update s.held _ _ = _
          simp [held, Updater.held, hpc, hreconciling]
      · cases h
  | updateBoard n id devices =>
      simp only [step] at h
      split at h
      · rename_i hpc
        obtain rfl := Option.some.inj h
        exact ⟨_, lockMove_keep hpc rfl (held_setPc _ _ _) rfl⟩
      · cases h

/-- The table of owners says what the threads hold. -/
theorem consistent_step {a : Label} (hs : Consistent s.owner s.held) (h : s.step a = some s') :
    Consistent s'.owner s'.held := by
  obtain ⟨t, hmove⟩ := lockMove_step h
  cases hmove with
  | keep howner hheld =>
      rw [howner, hheld, Function.update_eq_self]
      exact hs
  | lock m hfree howner hheld =>
      rw [howner, hheld]
      exact hs.lock hfree
  | unlock m hm howner hheld =>
      rw [howner, hheld]
      exact hs.unlock hm

end State

/-! ## What a step does to the posts and calls still to come -/

namespace State

variable {s s' : State}

/-- The posts still to come change when the receiver locks its mutex, and with each watcher it
    locks. -/
theorem pending_stepReceiver {x : MsgType} (h : s.stepReceiver x = some s') :
    (∃ msg, s.receiver x = .locking msg ∧
        (s'.receiver x).pending = s.receivers.targets x msg.serialNumber) ∨
      (∃ w, s.owner (.watcher w) = none ∧
        (s.receiver x).pending = w :: (s'.receiver x).pending) ∨
      (s'.receiver x).pending = (s.receiver x).pending := by
  unfold stepReceiver at h
  cases hpc : s.receiver x with
  | waiting => simp only [hpc, reduceCtorEq] at h
  | locking msg =>
      simp only [hpc] at h
      obtain ⟨-, rfl⟩ := lock_bind h
      exact .inl ⟨msg, rfl, by simp [setReceiver, ReceiverPc.pending]⟩
  | posting msg targets =>
      cases targets with
      | nil =>
          simp only [hpc] at h
          obtain rfl := Option.some.inj h
          exact .inr (.inr (by simp [setReceiver, ReceiverPc.pending]))
      | cons w rest =>
          simp only [hpc] at h
          obtain ⟨hfree, rfl⟩ := lock_bind h
          exact .inr (.inl ⟨w, hfree, by simp [setReceiver, ReceiverPc.pending]⟩)
  | inPost msg w targets =>
      simp only [hpc] at h
      obtain rfl := Option.some.inj h
      exact .inr (.inr (by simp [setReceiver, ReceiverPc.pending]))

/-- A receiver touches no other thread. -/
theorem frame_stepReceiver {x : MsgType} (h : s.stepReceiver x = some s') :
    (∀ y, y ≠ x → s'.receiver y = s.receiver y) ∧ s'.updater = s.updater := by
  unfold stepReceiver at h
  split at h
  · cases h
  · obtain ⟨-, rfl⟩ := lock_bind h
    exact ⟨fun y hy => by simp [setReceiver, hy], rfl⟩
  · obtain ⟨-, rfl⟩ := lock_bind h
    exact ⟨fun y hy => by simp [setReceiver, hy], rfl⟩
  · obtain rfl := Option.some.inj h
    exact ⟨fun y hy => by simp [setReceiver, unlock, hy], rfl⟩
  · obtain rfl := Option.some.inj h
    exact ⟨fun y hy => by simp [setReceiver, unlock, hy], rfl⟩

/-- A worker touches neither a receiver nor a thread in `UpdateBoard`. -/
theorem frame_stepWatcher {p : WatcherPtr} (h : s.stepWatcher p = some s') :
    s'.receiver = s.receiver ∧ s'.updater = s.updater := by
  unfold stepWatcher at h
  split at h
  · split at h
    · cases h
    · obtain rfl := Option.some.inj h
      exact ⟨rfl, rfl⟩
  · obtain ⟨-, rfl⟩ := lock_bind h
    exact ⟨rfl, rfl⟩
  · obtain rfl := Option.some.inj h
    exact ⟨rfl, rfl⟩
  · cases h

/-- The calls a thread in `UpdateBoard` still has to make change when it locks the watcher's
    mutex, and with each receiver it locks. -/
def CallsChange (s : State) (n : Nat) (pc : UpdaterPc) : Prop :=
  (∃ id w devices, (s.updater n).pc = .lockingWatcher id w devices ∧
      pc.calls = (modifyOps w devices).map fun op => (w.this, op.receiver)) ∨
    (∃ p x, s.owner (.receiver x) = none ∧ (s.updater n).pc.calls = (p, x) :: pc.calls) ∨
    pc.calls = (s.updater n).pc.calls

/-- A thread in `UpdateBoard` goes from one place to another and moves no receiver and no other
    such thread. -/
theorem calls_stepUpdater {n : Nat} (h : s.stepUpdater n = some s') :
    ∃ (t : State) (u : Updater), s' = t.setUpdater n u ∧ t.receiver = s.receiver ∧
      t.updater = s.updater ∧ CallsChange s n u.pc := by
  have hstep := h
  unfold stepUpdater at h
  cases hpc : (s.updater n).pc with
  | idle => simp only [hpc, reduceCtorEq] at h
  | reconcileLocking =>
      simp only [hpc] at h
      obtain ⟨-, rfl⟩ := lock_bind h
      exact ⟨_, _, rfl, rfl, rfl, .inr (.inr (by rw [hpc]; rfl))⟩
  | locking id job =>
      simp only [hpc] at h
      split at h
      · obtain rfl := Option.some.inj h
        exact ⟨_, _, rfl, rfl, rfl, .inr (.inr (by rw [hpc]; rfl))⟩
      · obtain ⟨-, rfl⟩ := lock_bind h
        exact ⟨_, _, rfl, rfl, rfl, .inr (.inr (by rw [hpc]; rfl))⟩
  | locked id job =>
      -- No branch of the critical section has calls to make yet, whatever it looks up.
      obtain ⟨existing, pc, rfl, hcalls, -⟩ := stepUpdater_locked hpc hstep
      exact ⟨_, _, rfl, rfl, rfl, .inr (.inr (by rw [hpc]; exact hcalls))⟩
  | lockingWatcher id w devices =>
      simp only [hpc] at h
      obtain ⟨-, rfl⟩ := lock_bind h
      -- `ModifyBoard` takes the mutex of the watcher and with it its list of calls.
      exact ⟨_, _, rfl, rfl, rfl, .inl ⟨id, w, devices, hpc, rfl⟩⟩
  | joining id w =>
      obtain ⟨-, rfl⟩ := stepUpdater_joining hpc hstep
      exact ⟨_, _, rfl, rfl, rfl, .inr (.inr (by rw [hpc]; rfl))⟩
  | calling id w job ops =>
      cases ops with
      | cons op rest =>
          simp only [hpc] at h
          obtain ⟨hfree, rfl⟩ := lock_bind h
          refine ⟨_, _, rfl, rfl, rfl, ?_⟩
          -- Only the calls of a modification are counted: those of a stop hold no watcher mutex.
          cases job with
          | modify devices =>
              exact .inr (.inl ⟨w.this, op.receiver, hfree, by rw [hpc]; rfl⟩)
          | stop => exact .inr (.inr (by rw [hpc]; rfl))
      | nil =>
          cases job with
          | modify devices =>
              simp only [hpc] at h
              obtain rfl := Option.some.inj h
              exact ⟨_, _, rfl, rfl, rfl, .inr (.inr (by rw [hpc]; rfl))⟩
          | stop =>
              simp only [hpc] at h
              obtain rfl := Option.some.inj h
              exact ⟨_, _, rfl, rfl, rfl, .inr (.inr (by rw [hpc]; rfl))⟩
  | inCall id w job op ops =>
      simp only [hpc] at h
      obtain rfl := Option.some.inj h
      refine ⟨_, _, rfl, rfl, rfl, .inr (.inr ?_)⟩
      rw [hpc]
      cases job <;> rfl
  | finishing =>
      simp only [hpc] at h
      split at h
      · obtain rfl := Option.some.inj h
        exact ⟨_, _, rfl, rfl, rfl, .inr (.inr (by rw [hpc]; rfl))⟩
      · obtain rfl := Option.some.inj h
        exact ⟨_, _, rfl, rfl, rfl, .inr (.inr (by rw [hpc]; rfl))⟩

/-- What a step does to the posts a receiver still has to make. -/
theorem pending_step {a : Label} (h : s.step a = some s') (x : MsgType) :
    (a = .receiver x ∧ ∃ msg, s.receiver x = .locking msg ∧
        (s'.receiver x).pending = s.receivers.targets x msg.serialNumber) ∨
      (∃ w, s.owner (.watcher w) = none ∧
        (s.receiver x).pending = w :: (s'.receiver x).pending) ∨
      (s'.receiver x).pending = (s.receiver x).pending := by
  cases a with
  | receiver y =>
      by_cases hxy : x = y
      · subst hxy
        rcases pending_stepReceiver h with hlock | hpost | hsame
        · exact .inl ⟨rfl, hlock⟩
        · exact .inr (.inl hpost)
        · exact .inr (.inr hsame)
      · exact .inr (.inr (by rw [(frame_stepReceiver h).1 x hxy]))
  | watcher p => exact .inr (.inr (by rw [(frame_stepWatcher h).1]))
  | updater n =>
      obtain ⟨t, u, rfl, hreceiver, -, -⟩ := calls_stepUpdater h
      exact .inr (.inr (by rw [← hreceiver]; rfl))
  | receive msg =>
      simp only [step] at h
      split at h
      · rename_i hpc
        obtain rfl := Option.some.inj h
        -- A receiver takes a message from its queue while it waits, with nothing left to post.
        refine .inr (.inr ?_)
        by_cases hx : x = msg.type
        · subst hx
          rw [hpc]
          simp [setReceiver, ReceiverPc.pending]
        · simp [setReceiver, hx]
      · cases h
  | reconcile n =>
      simp only [step] at h
      split at h
      · obtain rfl := Option.some.inj h
        exact .inr (.inr rfl)
      · cases h
  | endReconcile n =>
      simp only [step] at h
      split at h
      · obtain rfl := Option.some.inj h
        exact .inr (.inr rfl)
      · cases h
  | updateBoard n id devices =>
      simp only [step] at h
      split at h
      · obtain rfl := Option.some.inj h
        exact .inr (.inr rfl)
      · cases h

/-- What a step does to the calls a thread in `UpdateBoard` still has to make. -/
theorem calls_step {a : Label} (h : s.step a = some s') (n : Nat) :
    (a = .updater n ∧ ∃ id w devices, (s.updater n).pc = .lockingWatcher id w devices ∧
        (s'.updater n).pc.calls = (modifyOps w devices).map fun op => (w.this, op.receiver)) ∨
      (∃ p x, s.owner (.receiver x) = none ∧
        (s.updater n).pc.calls = (p, x) :: (s'.updater n).pc.calls) ∨
      (s'.updater n).pc.calls = (s.updater n).pc.calls := by
  -- A thread that goes from one place without calls to another.
  have hidle : ∀ (t : State) (k : Nat) (u : Updater), t.updater = s.updater →
      (s.updater k).pc.calls = [] → u.pc.calls = [] →
      ((t.setUpdater k u).updater n).pc.calls = (s.updater n).pc.calls := by
    intro t k u ht hk hu
    show (Function.update t.updater k u n).pc.calls = _
    by_cases hnk : n = k
    · subst hnk
      rw [Function.update_self, hu, hk]
    · rw [Function.update_of_ne hnk, ht]
  cases a with
  | receiver x => exact .inr (.inr (by rw [(frame_stepReceiver h).2]))
  | watcher p => exact .inr (.inr (by rw [(frame_stepWatcher h).2]))
  | updater k =>
      obtain ⟨t, u, rfl, -, hupdater, hchange⟩ := calls_stepUpdater h
      by_cases hnk : n = k
      · subst hnk
        have hself : ((t.setUpdater n u).updater n).pc = u.pc := by simp [setUpdater]
        rw [hself]
        rcases hchange with hlock | hcall | hsame
        · exact .inl ⟨rfl, hlock⟩
        · exact .inr (.inl hcall)
        · exact .inr (.inr hsame)
      · refine .inr (.inr ?_)
        show (Function.update t.updater k u n).pc.calls = _
        rw [Function.update_of_ne hnk, hupdater]
  | receive msg =>
      simp only [step] at h
      split at h
      · obtain rfl := Option.some.inj h
        exact .inr (.inr rfl)
      · cases h
  | reconcile k =>
      simp only [step] at h
      split at h
      · rename_i hpc
        obtain rfl := Option.some.inj h
        exact .inr (.inr (hidle s k _ rfl (by rw [hpc]; rfl) rfl))
      · cases h
  | endReconcile k =>
      simp only [step] at h
      split at h
      · rename_i hpc
        obtain rfl := Option.some.inj h
        exact .inr (.inr (hidle _ k _ rfl (by rw [hpc]; rfl) rfl))
      · cases h
  | updateBoard k id devices =>
      simp only [step] at h
      split at h
      · rename_i hpc
        obtain rfl := Option.some.inj h
        exact .inr (.inr (hidle s k _ rfl (by rw [hpc]; rfl) rfl))
      · cases h

end State

end OwAnalytics.Venue.Locking
