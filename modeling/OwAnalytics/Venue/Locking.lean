/-
  OwAnalytics.Venue.Locking

  The mutexes of message delivery and of device reconciliation, one acquisition or
  release at a time: the three receivers posting to the watchers, the workers of the
  watchers, and the threads in `VenueCoordinator::UpdateBoard` (the reconcile timer
  and the requests), which modify a watcher or stop it.

  The steps read and write the tables they do in the source, so that a receiver
  posts to the watchers registered when it takes its mutex.
-/

import OwAnalytics.Lib.Mutexes
import OwAnalytics.Venue.Routing

namespace OwAnalytics.Venue.Locking

open Transitions Mutexes

/-- The mutexes of the coordinator, the receivers and the watchers. -/
inductive Mutex
  | coordinator
  | receiver (x : MsgType)
  | watcher (p : WatcherPtr)
deriving DecidableEq

/-- The threads: a receiver each, a watcher each, and those that change boards. -/
inductive Thread
  | receiver (x : MsgType)
  | watcher (p : WatcherPtr)
  | updater (n : Nat)
deriving DecidableEq

/-! ## Calls into the receivers -/

/-- A call of a `Register` or a `DeRegister`, each of which runs under its receiver's mutex. -/
inductive RegOp
  | stateRegister (i : Serial)
  | stateDeRegister (i : Serial)
  | healthRegister (serialNumbers : List Serial)
  | healthDeRegister
  | deviceStatusRegister (serialNumbers : List Serial)
  | deviceStatusDeRegister

namespace RegOp

/-- The receiver an operation is about. -/
def receiver : RegOp → MsgType
  | stateRegister _ | stateDeRegister _ => .state
  | healthRegister _ | healthDeRegister => .health
  | deviceStatusRegister _ | deviceStatusDeRegister => .connection

/-- What the call does, `vw` being the watcher that makes it. -/
def apply (vw : WatcherPtr) (r : Receivers) : RegOp → Receivers
  | stateRegister i => { r with state := StateReceiver.register r.state i vw }
  | stateDeRegister i => { r with state := StateReceiver.deRegister r.state i vw }
  | healthRegister l => { r with health := HealthReceiver.register r.health l vw }
  | healthDeRegister => { r with health := HealthReceiver.deRegister r.health vw }
  | deviceStatusRegister l =>
      { r with deviceStatus := DeviceStatusReceiver.register r.deviceStatus l vw }
  | deviceStatusDeRegister =>
      { r with deviceStatus := DeviceStatusReceiver.deRegister r.deviceStatus vw }

end RegOp

/-- The calls of `ModifySerialNumbers`, in order. -/
def modifyOps (w : VenueWatcher) (serialNumbers : List Serial) : List RegOp :=
  (w.toRemove serialNumbers).map RegOp.stateDeRegister
    ++ (w.toAdd serialNumbers).map RegOp.stateRegister
    ++ [.healthRegister serialNumbers, .deviceStatusRegister serialNumbers]

/-- The calls of `Stop`, in order. -/
def stopOps (w : VenueWatcher) : List RegOp :=
  w.serialNumbers.map RegOp.stateDeRegister ++ [.deviceStatusDeRegister, .healthDeRegister]

theorem foldl_stateRegister (vw : WatcherPtr) (l : List Serial) (r : Receivers) :
    (l.map RegOp.stateRegister).foldl (RegOp.apply vw) r
      = { r with state := l.foldl (fun n i => StateReceiver.register n i vw) r.state } := by
  induction l generalizing r with
  | nil => rfl
  | cons i rest ih =>
      rw [List.map_cons, List.foldl_cons, ih]
      rfl

theorem foldl_stateDeRegister (vw : WatcherPtr) (l : List Serial) (r : Receivers) :
    (l.map RegOp.stateDeRegister).foldl (RegOp.apply vw) r
      = { r with state := l.foldl (fun n i => StateReceiver.deRegister n i vw) r.state } := by
  induction l generalizing r with
  | nil => rfl
  | cons i rest ih =>
      rw [List.map_cons, List.foldl_cons, ih]
      rfl

/-- The calls one by one are `ModifySerialNumbers` as one step. -/
theorem foldl_modifyOps (w : VenueWatcher) (serialNumbers : List Serial) (shared : Shared) :
    (modifyOps w serialNumbers).foldl (RegOp.apply w.this) shared.receivers
      = (w.modifySerialNumbers serialNumbers shared).2.receivers := by
  rw [modifyOps, List.foldl_append, List.foldl_append, foldl_stateDeRegister, foldl_stateRegister]
  rfl

/-- The calls one by one are `Stop` as one step. -/
theorem foldl_stopOps (w : VenueWatcher) (shared : Shared) :
    (stopOps w).foldl (RegOp.apply w.this) shared.receivers = (w.stop shared).receivers := by
  rw [stopOps, List.foldl_append, foldl_stateDeRegister]
  rfl

/-! ## Threads -/

/-- `run` of a receiver. -/
inductive ReceiverPc
  /-- It waits for a message. -/
  | waiting
  /-- It has a message and is about to lock its mutex. -/
  | locking (msg : VenueMessage)
  /-- It holds its mutex; the message still goes to these watchers. -/
  | posting (msg : VenueMessage) (targets : List WatcherPtr)
  /-- It is in the `Post` function of a watcher, whose mutex it also holds. -/
  | inPost (msg : VenueMessage) (w : WatcherPtr) (targets : List WatcherPtr)

/-- `run` of a watcher. -/
inductive WatcherPc
  | waiting
  | locking (msg : VenueMessage)
  /-- It looks the device up, under its mutex. -/
  | looking (msg : VenueMessage)
  | ended

/-- What `UpdateBoard` goes on to do once it knows the devices: `ModifySerialNumbers`, or
    `RetireBoard` for a venue that is gone. -/
inductive Job
  | modify (devices : List Serial)
  | stop

/-- A thread that calls `UpdateBoard`. -/
inductive UpdaterPc
  | idle
  /-- `onReconcileTimer` is about to lock the coordinator's mutex. -/
  | reconcileLocking
  /-- `UpdateBoard`, or the `StopBoard` it calls, is about to lock the coordinator's mutex. -/
  | locking (id : Str) (job : Job)
  | locked (id : Str) (job : Job)
  /-- `ModifySerialNumbers` is about to lock the watcher's mutex. -/
  | lockingWatcher (id : Str) (w : VenueWatcher) (devices : List Serial)
  /-- `Stop` waits for the worker to end. -/
  | joining (id : Str) (w : VenueWatcher)
  /-- These calls into the receivers are still to be made. -/
  | calling (id : Str) (w : VenueWatcher) (job : Job) (ops : List RegOp)
  /-- It is in the first of these calls and holds the mutex of its receiver. -/
  | inCall (id : Str) (w : VenueWatcher) (job : Job) (op : RegOp) (ops : List RegOp)
  /-- It is about to unlock the coordinator's mutex. -/
  | finishing

/-- With `reconciling`, the thread is the timer's, which holds the recursive mutex of the
    coordinator from one `UpdateBoard` to the next. -/
structure Updater where
  reconciling : Bool := false
  pc : UpdaterPc := .idle

/-- The tables, the queues, who owns which mutex, and where each thread is. -/
structure State where
  receivers : Receivers
  watchers : Std.ExtTreeMap Str VenueWatcher compare
  existingBoards : Std.ExtTreeMap Str (List Serial) compare
  queues : WatcherPtr → List VenueMessage := fun _ => []
  owner : Mutex → Option Thread := fun _ => none
  receiver : MsgType → ReceiverPc := fun _ => .waiting
  worker : WatcherPtr → WatcherPc := fun _ => .waiting
  updater : Nat → Updater := fun _ => {}

/-- Which thread goes on, or what sets one off. -/
inductive Label
  /-- The receiver of its topic dequeues a message. -/
  | receive (msg : VenueMessage)
  /-- A thread goes on. -/
  | receiver (x : MsgType)
  | watcher (p : WatcherPtr)
  | updater (n : Nat)
  /-- The timer starts `onReconcileTimer`, or is through with it. -/
  | reconcile (n : Nat)
  | endReconcile (n : Nat)
  /-- A thread calls `UpdateBoard` and the provisioning service has answered. -/
  | updateBoard (n : Nat) (id : Str) (devices : Option (List Serial))

namespace State

/-- A receiver gets on to another point. -/
def setReceiver (s : State) (x : MsgType) (pc : ReceiverPc) : State :=
  { s with receiver := Function.update s.receiver x pc }

/-- The thread of a watcher gets on to another point. -/
def setWorker (s : State) (p : WatcherPtr) (pc : WatcherPc) : State :=
  { s with worker := Function.update s.worker p pc }

/-- A thread that changes boards gets on. -/
def setUpdater (s : State) (n : Nat) (u : Updater) : State :=
  { s with updater := Function.update s.updater n u }

/-- A thread that changes boards gets on to another point of its job. -/
def setPc (s : State) (n : Nat) (pc : UpdaterPc) : State :=
  s.setUpdater n { s.updater n with pc }

/-- A mutex is locked, if it is free. -/
def lock (s : State) (m : Mutex) (t : Thread) : Option State :=
  if s.owner m = none then some { s with owner := Function.update s.owner m (some t) } else none

/-- A mutex is unlocked. -/
def unlock (s : State) (m : Mutex) : State :=
  { s with owner := Function.update s.owner m none }

/-! ## Steps -/

/-- The receiver's thread: its mutex, then each watcher it posts to. -/
def stepReceiver (s : State) (x : MsgType) : Option State :=
  match s.receiver x with
  | .waiting => none
  | .locking msg => do
      let s ← s.lock (.receiver x) (.receiver x)
      pure (s.setReceiver x (.posting msg (s.receivers.targets x msg.serialNumber)))
  | .posting msg (w :: targets) => do
      let s ← s.lock (.watcher w) (.receiver x)
      pure (s.setReceiver x (.inPost msg w targets))
  | .posting _ [] => some ((s.unlock (.receiver x)).setReceiver x .waiting)
  | .inPost msg w targets =>
      some (({ s with queues := Function.update s.queues w (s.queues w ++ [msg]) }.unlock
        (.watcher w)).setReceiver x (.posting msg targets))

/-- The thread of a watcher: it dequeues, locks its mutex and looks for the `AP`. -/
def stepWatcher (s : State) (p : WatcherPtr) : Option State :=
  match s.worker p with
  | .waiting =>
      match s.queues p with
      | [] => none
      | msg :: rest =>
          some ({ s with queues := Function.update s.queues p rest }.setWorker p (.locking msg))
  | .locking msg => do
      let s ← s.lock (.watcher p) (.watcher p)
      pure (s.setWorker p (.looking msg))
  | .looking _ => some ((s.unlock (.watcher p)).setWorker p .waiting)
  | .ended => none

/-- A thread that changes boards: the coordinator's mutex, then those of its job. -/
def stepUpdater (s : State) (n : Nat) : Option State :=
  match (s.updater n).pc with
  | .idle => none
  | .reconcileLocking => do
      let s ← s.lock .coordinator (.updater n)
      pure (s.setUpdater n { reconciling := true, pc := .idle })
  | .locking id job =>
      if (s.updater n).reconciling then some (s.setPc n (.locked id job))
      else do
        let s ← s.lock .coordinator (.updater n)
        pure (s.setPc n (.locked id job))
  | .locked id (.modify devices) =>
      match s.existingBoards[id]? with
      | none => some (s.setPc n .finishing)
      | some existing =>
          if existing ≠ devices then
            match s.watchers[id]? with
            | some w => some (s.setPc n (.lockingWatcher id w devices))
            | none =>
                some ({ s with existingBoards := s.existingBoards.insert id devices }.setPc n
                  .finishing)
          else some (s.setPc n .finishing)
  | .locked id .stop =>
      match s.watchers[id]? with
      | some w => some (s.setPc n (.joining id w))
      | none => some (s.setPc n .finishing)
  | .lockingWatcher id w devices => do
      let s ← s.lock (.watcher w.this) (.updater n)
      pure (s.setPc n (.calling id w (.modify devices) (modifyOps w devices)))
  | .joining id w =>
      -- The worker ends between two messages, so it holds no mutex.
      match s.worker w.this with
      | .waiting | .ended =>
          some ((s.setWorker w.this .ended).setPc n (.calling id w .stop (stopOps w)))
      | .locking _ | .looking _ => none
  | .calling id w job (op :: ops) => do
      let s ← s.lock (.receiver op.receiver) (.updater n)
      pure (s.setPc n (.inCall id w job op ops))
  | .inCall id w job op ops =>
      some (({ s with receivers := op.apply w.this s.receivers }.unlock
        (.receiver op.receiver)).setPc n (.calling id w job ops))
  | .calling id w (.modify devices) [] =>
      some (({ s with
          watchers := s.watchers.insert id { w with serialNumbers := devices }
          existingBoards := s.existingBoards.insert id devices }.unlock
        (.watcher w.this)).setPc n .finishing)
  | .calling id _ .stop [] =>
      some ({ s with watchers := s.watchers.erase id }.setPc n .finishing)
  | .finishing =>
      if (s.updater n).reconciling then some (s.setPc n .idle)
      else some ((s.unlock .coordinator).setPc n .idle)

/-- A step of a thread, if it is enabled. -/
def step (s : State) : Label → Option State
  | .receive msg =>
      match s.receiver msg.type with
      | .waiting => some (s.setReceiver msg.type (.locking msg))
      | _ => none
  | .receiver x => s.stepReceiver x
  | .watcher p => s.stepWatcher p
  | .updater n => s.stepUpdater n
  | .reconcile n =>
      match (s.updater n).reconciling, (s.updater n).pc with
      | false, .idle => some (s.setPc n .reconcileLocking)
      | _, _ => none
  | .endReconcile n =>
      match (s.updater n).reconciling, (s.updater n).pc with
      | true, .idle =>
          some ((s.unlock .coordinator).setUpdater n { reconciling := false, pc := .idle })
      | _, _ => none
  | .updateBoard n id devices =>
      match (s.updater n).pc with
      | .idle =>
          some (s.setPc n (.locking id
            (match devices with
              | some devices => .modify (sortUnique devices)
              | none => .stop)))
      | _ => none

end State

/-- Nobody is in any of the functions; the boards are those of a reachable coordinator. -/
def quiet (c : VenueCoordinator) : State where
  receivers := c.shared.receivers
  watchers := c.watchers
  existingBoards := c.existingBoards

/-- The threads, from any state the coordinator reaches with no thread under way. -/
def system : System State Label where
  init s := ∃ c, Reachable VenueCoordinator.system c ∧ s = quiet c
  step s a s' := s.step a = some s'

end OwAnalytics.Venue.Locking
