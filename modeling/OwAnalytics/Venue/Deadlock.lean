/-
  OwAnalytics.Venue.Deadlock

  When message delivery and device reconciliation deadlock.  A receiver holds its
  mutex until it has posted to every watcher of a message, and `ModifySerialNumbers`
  holds the watcher's mutex until it has called every receiver.  If one of the two
  starts while the other is under way, on the same watcher and the same receiver,
  neither ever ends; if that never happens, no set of threads is ever deadlocked.
-/

import OwAnalytics.Venue.LockMoves

namespace OwAnalytics.Venue.Locking

open Transitions Mutexes

/-! ## Crossing threads -/

/-- The receiver holds its mutex and still has to post to the watcher, which the thread in
    `UpdateBoard` modifies and for which it still has to call the receiver. -/
structure Crossing (s : State) (x : MsgType) (n : Nat) (p : WatcherPtr) : Prop where
  post : p ∈ (s.receiver x).pending
  call : (p, x) ∈ (s.updater n).pc.calls

/-- A receiver locks its mutex when no thread modifies one of the watchers it is going to post to
    and still has to call it, and a thread locks the mutex of a watcher to modify it when none of
    the receivers it is going to call is still to post to it. -/
def Careful (s : State) : Label → Prop
  | .receiver x => ∀ msg, s.receiver x = .locking msg →
      ∀ p ∈ s.receivers.targets x msg.serialNumber, ∀ n, (p, x) ∉ (s.updater n).pc.calls
  | .updater n => ∀ id w devices, (s.updater n).pc = .lockingWatcher id w devices →
      ∀ op ∈ modifyOps w devices, w.this ∉ (s.receiver op.receiver).pending
  | _ => True

variable {s s' : State} {a : Label}

/-- Only a step that is not careful makes threads cross. -/
theorem crossing_of_step (hcareful : Careful s a) (h : s.step a = some s') {x : MsgType} {n : Nat}
    {p : WatcherPtr} (hcross : Crossing s' x n p) : Crossing s x n p := by
  obtain ⟨hpost, hcall⟩ := hcross
  have hcall' : (a = .updater n ∧ ∃ id w devices, (s.updater n).pc = .lockingWatcher id w devices ∧
      ∃ op ∈ modifyOps w devices, w.this = p ∧ op.receiver = x) ∨
        (p, x) ∈ (s.updater n).pc.calls := by
    rcases State.calls_step h n with ⟨ha, id, w, devices, hpc, hnew⟩ | ⟨q, y, -, hold⟩ | hsame
    · rw [hnew, List.mem_map] at hcall
      obtain ⟨op, hop, heq⟩ := hcall
      obtain ⟨hthis, hreceiver⟩ := Prod.mk.inj heq
      exact .inl ⟨ha, id, w, devices, hpc, op, hop, hthis, hreceiver⟩
    · rw [hold]
      exact .inr (List.mem_cons_of_mem _ hcall)
    · rw [← hsame]
      exact .inr hcall
  rcases State.pending_step h x with ⟨ha, msg, hmsg, hnew⟩ | ⟨w, -, hold⟩ | hsame
  · -- The receiver takes up a message; the calls are those from before.
    subst ha
    rcases hcall' with ⟨ha, -⟩ | hcall
    · cases ha
    · rw [hnew] at hpost
      exact absurd hcall (hcareful msg hmsg p hpost n)
  · rcases hcall' with ⟨rfl, id, w', devices, hpc, op, hop, rfl, rfl⟩ | hcall
    · refine absurd ?_ (hcareful id w' devices hpc op hop)
      rw [hold]
      exact List.mem_cons_of_mem _ hpost
    · exact ⟨by rw [hold]; exact List.mem_cons_of_mem _ hpost, hcall⟩
  · rw [hsame] at hpost
    rcases hcall' with ⟨rfl, id, w', devices, hpc, op, hop, rfl, rfl⟩ | hcall
    · exact absurd hpost (hcareful id w' devices hpc op hop)
    · exact ⟨hpost, hcall⟩

/-- A receiver with posts to make holds its mutex. -/
theorem receiver_mem_held {x : MsgType} {p : WatcherPtr} (h : p ∈ (s.receiver x).pending) :
    Mutex.receiver x ∈ s.held (.receiver x) := by
  show _ ∈ (s.receiver x).held x
  cases hpc : s.receiver x with
  | waiting => simp [hpc, ReceiverPc.pending] at h
  | locking msg => simp [hpc, ReceiverPc.pending] at h
  | posting msg targets => simp [ReceiverPc.held]
  | inPost msg w targets => simp [ReceiverPc.held]

/-- A thread with calls to make holds the mutexes of the coordinator and of the watcher. -/
theorem watcher_mem_held {n : Nat} {p : WatcherPtr} {x : MsgType}
    (h : (p, x) ∈ (s.updater n).pc.calls) :
    Mutex.watcher p ∈ s.held (.updater n) ∧ Mutex.coordinator ∈ s.held (.updater n) := by
  show _ ∈ (s.updater n).held ∧ _ ∈ (s.updater n).held
  unfold UpdaterPc.calls at h
  split at h
  · rename_i hpc
    obtain ⟨op, -, heq⟩ := List.mem_map.mp h
    obtain ⟨rfl, -⟩ := Prod.mk.inj heq
    simp [Updater.held, hpc, Job.held]
  · rename_i hpc
    obtain ⟨op, -, heq⟩ := List.mem_map.mp h
    obtain ⟨rfl, -⟩ := Prod.mk.inj heq
    simp [Updater.held, hpc, Job.held]
  · cases h

/-- Threads that cross never come apart. -/
theorem crossing_step (hs : Consistent s.owner s.held) (h : s.step a = some s') {x : MsgType}
    {n : Nat} {p : WatcherPtr} (hcross : Crossing s x n p) : Crossing s' x n p := by
  have hreceiver := (hs _ _).mpr (receiver_mem_held hcross.post)
  have hwatcher := (hs _ _).mpr (watcher_mem_held hcross.call).1
  refine ⟨?_, ?_⟩
  · rcases State.pending_step h x with ⟨-, msg, hmsg, -⟩ | ⟨w, hfree, hold⟩ | hsame
    · have hpost := hcross.post
      rw [hmsg] at hpost
      cases hpost
    · have hpost := hcross.post
      rw [hold, List.mem_cons] at hpost
      rcases hpost with rfl | hpost
      · -- The watcher's mutex is not free.
        rw [hfree] at hwatcher
        cases hwatcher
      · exact hpost
    · rw [hsame]
      exact hcross.post
  · rcases State.calls_step h n with ⟨-, id, w, devices, hpc, -⟩ | ⟨q, y, hfree, hold⟩ | hsame
    · have hcall := hcross.call
      rw [hpc] at hcall
      cases hcall
    · have hcall := hcross.call
      rw [hold, List.mem_cons] at hcall
      rcases hcall with heq | hcall
      · -- The receiver's mutex is not free.
        obtain ⟨rfl, rfl⟩ := Prod.mk.inj heq
        rw [hfree] at hreceiver
        cases hreceiver
      · exact hcall
    · rw [hsame]
      exact hcross.call

/-! ## Deadlocked threads cross -/

/-- The threads that hold a mutex and wait for another one: a receiver in front of a watcher, and
    a thread in `UpdateBoard` in front of the watcher or in front of a receiver. -/
theorem cases_of_holding {t : Thread} {m m' : Mutex} (hm : m ∈ s.held t)
    (hwants : s.wants t = some m') :
    (∃ x msg w targets, t = .receiver x ∧ s.receiver x = .posting msg (w :: targets) ∧
        m = .receiver x ∧ m' = .watcher w) ∨
      (∃ n id w devices, t = .updater n ∧ (s.updater n).pc = .lockingWatcher id w devices ∧
        m = .coordinator ∧ m' = .watcher w.this) ∨
      ∃ n id w job op ops, t = .updater n ∧ (s.updater n).pc = .calling id w job (op :: ops) ∧
        m ∈ job.held w ∧ m' = .receiver op.receiver := by
  cases t with
  | receiver x =>
      simp only [State.wants] at hwants
      split at hwants
      · rename_i hpc
        -- In front of its own mutex a receiver holds nothing.
        simp [State.held, hpc, ReceiverPc.held] at hm
      · rename_i msg w targets hpc
        simp only [State.held, hpc, ReceiverPc.held] at hm
        exact .inl ⟨x, msg, w, targets, rfl, hpc, hm, (Option.some.inj hwants).symm⟩
      · cases hwants
  | watcher p =>
      simp only [State.wants] at hwants
      split at hwants
      · rename_i hpc
        -- A worker locks its own mutex only, and holds nothing before.
        simp [State.held, hpc, WatcherPc.held] at hm
      · cases hwants
  | updater n =>
      simp only [State.wants] at hwants
      split at hwants
      · rename_i hpc
        -- The coordinator's mutex is the first a thread in `UpdateBoard` locks.
        simp [State.held, hpc, Updater.held] at hm
      · rename_i hpc
        split at hwants
        · cases hwants
        · rename_i hreconciling
          simp [State.held, hpc, Updater.held, hreconciling] at hm
      · rename_i id w devices hpc
        simp only [State.held, hpc, Updater.held] at hm
        exact .inr (.inl ⟨n, id, w, devices, rfl, hpc, hm, (Option.some.inj hwants).symm⟩)
      · rename_i id w job op ops hpc
        simp only [State.held, hpc, Updater.held] at hm
        exact .inr (.inr ⟨n, id, w, job, op, ops, rfl, hpc, hm, (Option.some.inj hwants).symm⟩)
      · cases hwants

theorem coordinator_mem_job_held (w : VenueWatcher) (job : Job) :
    Mutex.coordinator ∈ job.held w := by
  cases job <;> simp [Job.held]

section Deadlocked

variable {D : Set Thread} (hs : Consistent s.owner s.held)
  (hD : Deadlocked s.owner s.wants D)

include hs hD

/-- In a deadlocked set, whoever waits for a watcher's mutex waits for a thread that modifies the
    watcher and is itself in front of a receiver. -/
theorem next_watcher {t : Thread} (ht : t ∈ D) {w : WatcherPtr}
    (hwants : s.wants t = some (.watcher w)) :
    ∃ n id w' devices op ops, .updater n ∈ D ∧
      (s.updater n).pc = .calling id w' (.modify devices) (op :: ops) ∧ w'.this = w := by
  obtain ⟨m, t', hm, hheld, ht'⟩ := hs.next_of_deadlocked hD ht
  obtain rfl := Option.some.inj (hwants.symm.trans hm)
  obtain ⟨m', _, hwants', -⟩ := hs.next_of_deadlocked hD ht'
  rcases cases_of_holding hheld hwants' with
    ⟨_, _, _, _, -, -, hm, -⟩ |
    ⟨_, _, _, _, -, -, hm, -⟩ |
    ⟨n, id, w', job, op, ops, rfl, hpc, hjob, -⟩
  · cases hm
  · cases hm
  · cases job with
    | modify devices =>
        have hthis : w = w'.this := by simpa [Job.held] using hjob
        exact ⟨n, id, w', devices, op, ops, ht', hpc, hthis.symm⟩
    | stop => simp [Job.held] at hjob

/-- In a deadlocked set, a thread in front of a receiver waits for it to post. -/
theorem next_receiver {n : Nat} (ht : .updater n ∈ D) {id : Str} {w : VenueWatcher} {job : Job}
    {op : RegOp} {ops : List RegOp} (hpc : (s.updater n).pc = .calling id w job (op :: ops)) :
    ∃ msg v targets, .receiver op.receiver ∈ D ∧
      s.receiver op.receiver = .posting msg (v :: targets) := by
  have hwants : s.wants (.updater n) = some (.receiver op.receiver) := by
    simp only [State.wants, hpc]
  obtain ⟨m, t', hm, hheld, ht'⟩ := hs.next_of_deadlocked hD ht
  obtain rfl := Option.some.inj (hwants.symm.trans hm)
  obtain ⟨m', _, hwants', -⟩ := hs.next_of_deadlocked hD ht'
  rcases cases_of_holding hheld hwants' with
    ⟨x, msg, v, targets, rfl, hx, hm, -⟩ |
    ⟨_, _, _, _, -, -, hm, -⟩ |
    ⟨_, _, _, job', _, _, -, -, hjob, -⟩
  · obtain rfl := Mutex.receiver.inj hm
    exact ⟨msg, v, targets, ht', hx⟩
  · cases hm
  · cases job' <;> simp [Job.held] at hjob

/-- One thread at most is in `UpdateBoard` with the coordinator's mutex, so the thread in front of
    a receiver is the one the receiver waits for. -/
theorem crossing_of_calling {n : Nat} (ht : .updater n ∈ D) {id : Str} {w : VenueWatcher}
    {job : Job} {op : RegOp} {ops : List RegOp}
    (hpc : (s.updater n).pc = .calling id w job (op :: ops)) :
    Crossing s op.receiver n w.this := by
  obtain ⟨msg, v, targets, hx, hposting⟩ := next_receiver hs hD ht hpc
  have hwants : s.wants (.receiver op.receiver) = some (.watcher v) := by
    simp only [State.wants, hposting]
  obtain ⟨k, id', w', devices, op', ops', -, hpc', hthis⟩ := next_watcher hs hD hx hwants
  -- Both threads hold the coordinator's mutex.
  have hsame : n = k := by
    have hheld : Mutex.coordinator ∈ s.held (.updater n) := by
      simp only [State.held, Updater.held, hpc]
      exact coordinator_mem_job_held w job
    have hheld' : Mutex.coordinator ∈ s.held (.updater k) := by
      simp only [State.held, Updater.held, hpc']
      exact coordinator_mem_job_held w' _
    exact Thread.updater.inj (hs.holder_unique hheld hheld')
  subst hsame
  rw [hpc] at hpc'
  cases hpc'
  refine ⟨?_, ?_⟩
  · rw [hposting, hthis]
    exact List.mem_cons_self
  · rw [hpc]
    exact List.mem_cons_self

/-- Two threads of a deadlocked set cross. -/
theorem crossing_of_deadlocked : ∃ x n p, Crossing s x n p := by
  obtain ⟨t₀, ht₀⟩ := hD.1
  obtain ⟨m, t, -, hheld, ht⟩ := hs.next_of_deadlocked hD ht₀
  obtain ⟨m', _, hwants, -⟩ := hs.next_of_deadlocked hD ht
  rcases cases_of_holding hheld hwants with
    ⟨_, _, w, _, rfl, -, -, rfl⟩ |
    ⟨n, _, w, _, rfl, hpc, -, rfl⟩ |
    ⟨n, id, w, job, op, ops, rfl, hpc, -, -⟩
  · obtain ⟨n, _, _, _, _, _, hn, hpc, -⟩ := next_watcher hs hD ht hwants
    exact ⟨_, _, _, crossing_of_calling hs hD hn hpc⟩
  · obtain ⟨n', _, _, _, _, _, hn, hpc, -⟩ := next_watcher hs hD ht hwants
    exact ⟨_, _, _, crossing_of_calling hs hD hn hpc⟩
  · exact ⟨_, _, _, crossing_of_calling hs hD ht hpc⟩

end Deadlocked

/-! ## Careful runs -/

theorem consistent_quiet (c : VenueCoordinator) : Consistent (quiet c).owner (quiet c).held := by
  intro m t
  have hempty : (quiet c).held t = ∅ := by cases t <;> rfl
  rw [hempty]
  simp [quiet]

/-- The table of owners says what the threads hold. -/
def OwnersOk (s : State) : Prop := Consistent s.owner s.held

theorem ownersOk_of_reachable {C : State → Label → Prop} (h : ReachableUnder system C s) :
    OwnersOk s := by
  refine h.invariant ?_ ?_
  · rintro _ ⟨c, -, rfl⟩
    exact consistent_quiet c
  · intro _ _ _ _ _ hs hstep
    exact State.consistent_step hs hstep

/-- No receiver and no thread that modifies a watcher cross. -/
def Uncrossed (s : State) : Prop := ∀ x n p, ¬ Crossing s x n p

/-- In a run whose steps are careful, no threads cross. -/
theorem uncrossed_of_careful (h : ReachableUnder system Careful s) : Uncrossed s := by
  refine h.invariant ?_ ?_
  · rintro _ ⟨c, -, rfl⟩ x n p hcross
    cases hcross.post
  · intro _ _ _ _ hcareful hnone hstep x n p hcross
    exact hnone x n p (crossing_of_step hcareful hstep hcross)

/-- In a run whose steps are careful, no set of threads is deadlocked. -/
theorem not_deadlocked_of_careful (h : ReachableUnder system Careful s) (D : Set Thread) :
    ¬ Deadlocked s.owner s.wants D := by
  intro hD
  obtain ⟨x, n, p, hcross⟩ := crossing_of_deadlocked (ownersOk_of_reachable h) hD
  exact uncrossed_of_careful h x n p hcross

end OwAnalytics.Venue.Locking
