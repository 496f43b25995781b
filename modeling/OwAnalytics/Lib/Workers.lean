/-
  OwAnalytics.Lib.Workers

  A worker thread behind a notification queue.  Anyone may enqueue messages, wake the
  worker up without one, or tell it to stop; the worker waits for a message, looks
  whether it is to go on, handles the message and waits again.  Whatever the threads
  do in between, what the worker has taken is the beginning of what was enqueued.
-/

import Mathlib

namespace Workers

variable {M : Type*}

/-- Where the worker stands. -/
inductive Pc (M : Type*)
  /-- It is about to wait for a message. -/
  | calling
  /-- It is blocked in the wait. -/
  | waiting
  /-- The wait has returned; the condition of the loop comes next. -/
  | returned (note : Option M)
  /-- It is in the body of the loop. -/
  | handling (m : M)
  /-- The loop is over; the message it was left with is dropped. -/
  | ended (note : Option M)

/-- The queue, the flag of the loop and the worker. -/
structure Worker (M : Type*) where
  running : Bool := false
  queue : List M := []
  pc : Pc M := .calling
  /-- All messages that were ever enqueued; no step reads it. -/
  enqueued : List M := []
  /-- The messages the worker has begun to handle; no step reads it. -/
  handled : List M := []

namespace Worker

/-! ## What the threads do -/

/-- A worker that waits gets the message at once. -/
def enqueue (w : Worker M) (m : M) : Worker M :=
  match w.pc with
  | .waiting => { w with pc := .returned (some m), enqueued := w.enqueued ++ [m] }
  | _ => { w with queue := w.queue ++ [m], enqueued := w.enqueued ++ [m] }

/-- A worker that waits gets nothing; nobody else takes notice. -/
def wakeUpAll (w : Worker M) : Worker M :=
  match w.pc with
  | .waiting => { w with pc := .returned none }
  | _ => w

/-- `Running_` is set. -/
def setRunning (w : Worker M) (running : Bool) : Worker M := { w with running }

/-- The wait, up to the point where it returns or blocks. -/
def wait (w : Worker M) : Worker M :=
  match w.queue with
  | m :: rest => { w with queue := rest, pc := .returned (some m) }
  | [] => { w with pc := .waiting }

/-- The condition of the loop, for what the wait has returned. -/
def check (w : Worker M) (note : Option M) : Worker M :=
  match note with
  | some m =>
    if w.running then { w with pc := .handling m, handled := w.handled ++ [m] }
    else { w with pc := .ended (some m) }
  | none => { w with pc := .ended none }

/-- The end of the body. -/
def finish (w : Worker M) : Worker M := { w with pc := .calling }

/-! ## What a worker has taken -/

/-- A message taken from the queue that is not handled, or not yet. -/
def inHand : Pc M → List M
  | .returned note => note.toList
  | .ended note => note.toList
  | _ => []

/-- Every message is handled, in hand or in the queue, in the order they were enqueued in, and a
    worker waits at an empty queue only. -/
structure Sound (w : Worker M) : Prop where
  accounted : w.handled ++ inHand w.pc ++ w.queue = w.enqueued
  waiting : w.pc = .waiting → w.queue = []

theorem sound_start : Sound ({} : Worker M) := ⟨rfl, fun _ => rfl⟩

section Steps

variable {w : Worker M} (h : w.Sound)
include h

theorem Sound.enqueue (m : M) : (w.enqueue m).Sound := by
  obtain ⟨haccounted, hwaiting⟩ := h
  unfold Worker.enqueue
  cases hpc : w.pc with
  | waiting =>
      -- the queue is empty, so the message in hand is the next one
      rw [hpc, hwaiting hpc] at haccounted
      refine ⟨?_, fun hw => by cases hw⟩
      simp only [inHand, List.append_nil] at haccounted
      simp only [inHand, Option.toList_some, hwaiting hpc, List.append_nil, haccounted]
  | calling | returned note | handling m' | ended note =>
      rw [hpc] at haccounted
      exact ⟨by simp only [← haccounted, List.append_assoc], fun hw => by cases hw⟩

theorem Sound.wakeUpAll : w.wakeUpAll.Sound := by
  unfold Worker.wakeUpAll
  cases hpc : w.pc with
  | waiting =>
      have haccounted := h.accounted
      rw [hpc] at haccounted
      exact ⟨haccounted, fun hw => by cases hw⟩
  | calling | returned note | handling m | ended note => exact h

theorem Sound.setRunning (running : Bool) : (w.setRunning running).Sound :=
  ⟨h.accounted, h.waiting⟩

theorem Sound.wait (hpc : w.pc = .calling) : w.wait.Sound := by
  have haccounted := h.accounted
  rw [hpc] at haccounted
  unfold Worker.wait
  split
  · rename_i m rest hqueue
    rw [hqueue] at haccounted
    refine ⟨?_, fun hw => by cases hw⟩
    simpa [inHand] using haccounted
  · rename_i hqueue
    exact ⟨haccounted, fun _ => hqueue⟩

theorem Sound.check {note : Option M} (hpc : w.pc = .returned note) : (w.check note).Sound := by
  have haccounted := h.accounted
  rw [hpc] at haccounted
  unfold Worker.check
  cases note with
  | none => exact ⟨haccounted, fun hw => by cases hw⟩
  | some m =>
      by_cases hrunning : w.running
      · simp only [hrunning, if_true]
        refine ⟨?_, fun hw => by cases hw⟩
        simpa [inHand] using haccounted
      · simp only [hrunning, if_false, Bool.false_eq_true]
        exact ⟨haccounted, fun hw => by cases hw⟩

theorem Sound.finish {m : M} (hpc : w.pc = .handling m) : w.finish.Sound := by
  have haccounted := h.accounted
  rw [hpc] at haccounted
  exact ⟨haccounted, fun hw => by cases hw⟩

/-- What was handled is the beginning of what was enqueued. -/
theorem Sound.handled_prefix_enqueued : w.handled <+: w.enqueued :=
  ⟨inHand w.pc ++ w.queue, by rw [← List.append_assoc, h.accounted]⟩

/-- A worker that waits has handled everything. -/
theorem Sound.handled_of_waiting (hpc : w.pc = .waiting) : w.handled = w.enqueued := by
  have haccounted := h.accounted
  rw [hpc, h.waiting hpc] at haccounted
  simpa only [inHand, List.append_nil] using haccounted

end Steps

/-! ## What a step leaves alone -/

@[simp] theorem handled_enqueue (w : Worker M) (m : M) : (w.enqueue m).handled = w.handled := by
  unfold enqueue
  split <;> rfl

@[simp] theorem enqueued_enqueue (w : Worker M) (m : M) :
    (w.enqueue m).enqueued = w.enqueued ++ [m] := by
  unfold enqueue
  split <;> rfl

@[simp] theorem running_enqueue (w : Worker M) (m : M) : (w.enqueue m).running = w.running := by
  unfold enqueue
  split <;> rfl

@[simp] theorem handled_wakeUpAll (w : Worker M) : w.wakeUpAll.handled = w.handled := by
  unfold wakeUpAll
  split <;> rfl

@[simp] theorem enqueued_wakeUpAll (w : Worker M) : w.wakeUpAll.enqueued = w.enqueued := by
  unfold wakeUpAll
  split <;> rfl

@[simp] theorem running_wakeUpAll (w : Worker M) : w.wakeUpAll.running = w.running := by
  unfold wakeUpAll
  split <;> rfl

@[simp] theorem handled_wait (w : Worker M) : w.wait.handled = w.handled := by
  unfold wait
  split <;> rfl

@[simp] theorem enqueued_wait (w : Worker M) : w.wait.enqueued = w.enqueued := by
  unfold wait
  split <;> rfl

@[simp] theorem running_wait (w : Worker M) : w.wait.running = w.running := by
  unfold wait
  split <;> rfl

@[simp] theorem enqueued_check (w : Worker M) (note : Option M) :
    (w.check note).enqueued = w.enqueued := by
  unfold check
  split
  · split <;> rfl
  · rfl

@[simp] theorem running_check (w : Worker M) (note : Option M) :
    (w.check note).running = w.running := by
  unfold check
  split
  · split <;> rfl
  · rfl

/-! ## What the other threads can do to a worker -/

/-- What a step of another thread leaves: a worker that waits may have been woken up, any other
    one is where it was, and nothing was taken out of the queue. -/
structure Others (w w' : Worker M) : Prop where
  sound : w.Sound → w'.Sound
  handled : w'.handled = w.handled
  pc : w'.pc = w.pc ∧ (w'.queue = [] → w.queue = []) ∨
    w.pc = .waiting ∧ ∃ note, w'.pc = .returned note

theorem others_refl (w : Worker M) : Others w w := ⟨id, rfl, .inl ⟨rfl, id⟩⟩

theorem others_enqueue (w : Worker M) (m : M) : Others w (w.enqueue m) := by
  refine ⟨fun h => h.enqueue m, handled_enqueue w m, ?_⟩
  unfold enqueue
  split
  · rename_i hpc
    exact .inr ⟨hpc, some m, rfl⟩
  · exact .inl ⟨rfl, fun hnil => by simp at hnil⟩

theorem others_wakeUpAll (w : Worker M) : Others w w.wakeUpAll := by
  refine ⟨fun h => h.wakeUpAll, handled_wakeUpAll w, ?_⟩
  unfold wakeUpAll
  split
  · rename_i hpc
    exact .inr ⟨hpc, none, rfl⟩
  · exact .inl ⟨rfl, id⟩

theorem others_setRunning (w : Worker M) (running : Bool) : Others w (w.setRunning running) :=
  ⟨fun h => h.setRunning running, rfl, .inl ⟨rfl, id⟩⟩

/-- No other thread gets a worker out of the body of its loop, or into it. -/
theorem Others.handling_iff {w w' : Worker M} (h : Others w w') (m : M) :
    w'.pc = .handling m ↔ w.pc = .handling m := by
  rcases h.pc with ⟨hpc, -⟩ | ⟨hwaiting, note, hpc⟩
  · rw [hpc]
  · simp [hwaiting, hpc]

theorem Others.calling_iff {w w' : Worker M} (h : Others w w') :
    w'.pc = .calling ↔ w.pc = .calling := by
  rcases h.pc with ⟨hpc, -⟩ | ⟨hwaiting, note, hpc⟩
  · rw [hpc]
  · simp [hwaiting, hpc]

/-- The message the body is about. -/
def inBody : Pc M → List M
  | .handling m => [m]
  | _ => []

theorem Others.inBody {w w' : Worker M} (h : Others w w') : inBody w'.pc = inBody w.pc := by
  rcases h.pc with ⟨hpc, -⟩ | ⟨hwaiting, note, hpc⟩
  · rw [hpc]
  · rw [hpc, hwaiting]
    rfl

theorem inBody_wait (w : Worker M) : inBody w.wait.pc = [] := by
  unfold wait
  split <;> rfl

/-- The condition of the loop begins with the message of the body, if there is one. -/
theorem handled_check (w : Worker M) (note : Option M) :
    (w.check note).handled = w.handled ++ inBody (w.check note).pc := by
  unfold check
  split
  · split
    · rfl
    · exact (List.append_nil _).symm
  · exact (List.append_nil _).symm

/-- The worker is about to wait at an empty queue, or waits there. -/
def Idle (w : Worker M) : Prop := w.pc = .calling ∧ w.queue = [] ∨ w.pc = .waiting

theorem Others.idle {w w' : Worker M} (h : Others w w') (hidle : w'.Idle) : w.Idle := by
  rcases h.pc with ⟨hpc, hqueue⟩ | ⟨hwaiting, -⟩
  · rcases hidle with ⟨hcalling, hnil⟩ | hw
    · exact .inl ⟨hpc.symm.trans hcalling, hqueue hnil⟩
    · exact .inr (hpc.symm.trans hw)
  · exact .inr hwaiting

theorem not_idle_handling {w : Worker M} {m : M} (h : w.pc = .handling m) : ¬ w.Idle := by
  simp [Idle, h]

/-- Of the worker's own steps only the wait at an empty queue leaves it idle. -/
theorem idle_of_wait {w : Worker M} (h : w.wait.Idle) : w.queue = [] := by
  unfold wait at h
  split at h
  · simp [Idle] at h
  · assumption

theorem not_idle_check (w : Worker M) (note : Option M) : ¬ (w.check note).Idle := by
  unfold check
  split
  · split <;> simp [Idle]
  · simp [Idle]

end Worker

end Workers
