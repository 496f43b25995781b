/-
  OwAnalytics.Bus.Producer

  `KafkaProducer` (`framework/KafkaManager.cpp`): `Produce`, `Start`, `run` and `Stop`,
  step by step.  `run` calls the client library: it hands one message after the other
  over, flushes after each message while few are queued, and flushes before it waits.
  What the library makes of its calls is left open, but for what a flush is relied on
  to do.
-/

import OwAnalytics.Lib.Transitions
import OwAnalytics.Lib.Workers
import OwAnalytics.Objects

namespace OwAnalytics.Bus

open Transitions Workers

/-- `KafkaMessage` of `KafkaManager.h`. -/
structure KafkaMessage where
  topic : Str
  key : Str
  payload : Str
deriving DecidableEq

/-- Where `run` stands, beside the loop around the queue. -/
inductive Stage
  /-- Before `Running_ = true`. -/
  | starting
  /-- In the loop; in its body, before `Producer.produce`. -/
  | looping
  /-- In the body, before `Queue_.size() < 100`. -/
  | produced
  /-- In the body, before `Queue_.size() == 0`. -/
  | tried
  /-- `run` is over, at its end or by an exception. -/
  | exited
deriving DecidableEq

/-- A call of the client library. -/
inductive ClientCall
  /-- `Producer.produce`, of the message that was built. -/
  | produce (msg : KafkaMessage)
  /-- `Producer.flush`. -/
  | flush
  /-- `Producer.poll`. -/
  | poll
deriving DecidableEq

/-- The calls of the client library, each with whether it has returned or thrown. -/
abbrev ClientCalls := List (ClientCall × Bool)

/-- `KafkaProducer`: its queue and thread, how far the loop is, and what it has called. -/
structure KafkaProducer where
  worker : Worker KafkaMessage := {}
  stage : Stage := .starting
  calls : ClientCalls := []

/-- What the callers of the producer do, and the steps of its thread. -/
inductive KafkaProducer.Label
  /-- Some thread calls `Produce`. -/
  | produce (msg : KafkaMessage)
  /-- `Running_ = false` of `Stop`. -/
  | stop
  /-- `Queue_.wakeUpAll()` of `Stop`. -/
  | wakeUpAll
  /-- A step of `run`, and whether a call of the client library in it throws. -/
  | run (throws : Bool)

namespace KafkaProducer

/-- The client library has been called. -/
def called (p : KafkaProducer) (call : ClientCall) (throws : Bool) : KafkaProducer :=
  { p with calls := p.calls ++ [(call, !throws)] }

/-- One step of `run`. -/
def stepRun (p : KafkaProducer) (throws : Bool) : Option KafkaProducer :=
  match p.stage with
  | .starting => some { p with worker := p.worker.setRunning true, stage := .looping }
  | .looping =>
    match p.worker.pc with
    | .calling => some { p with worker := p.worker.wait }
    | .waiting => none
    | .returned note => some { p with worker := p.worker.check note }
    | .handling msg =>
      -- An exception is caught, and the message is not sent.
      some { p.called (.produce msg) throws with stage := if throws then .tried else .produced }
    | .ended _ =>
      -- The last `Producer.flush()`.
      some { p.called .flush throws with stage := .exited }
  | .produced =>
    -- An exception of either call is caught.
    if p.worker.queue.length < 100 then some { p.called .flush throws with stage := .tried }
    else some { p.called .poll throws with stage := .tried }
  | .tried =>
    if p.worker.queue = [] then
      -- Nothing catches an exception here.
      if throws then some { p.called .flush true with stage := .exited }
      else some { p.called .flush false with worker := p.worker.finish, stage := .looping }
    else some { p with worker := p.worker.finish, stage := .looping }
  | .exited => none

/-- A step, if it is enabled. -/
def step (p : KafkaProducer) : Label → Option KafkaProducer
  | .produce msg => some { p with worker := p.worker.enqueue msg }
  | .stop => some { p with worker := p.worker.setRunning false }
  | .wakeUpAll => some { p with worker := p.worker.wakeUpAll }
  | .run throws => p.stepRun throws

/-- The producer after `Start`. -/
def started : KafkaProducer := { worker := Worker.setRunning {} true }

/-! ## The client library -/

/-- The messages that have been handed over, by calls that have returned. -/
def handedOver (calls : ClientCalls) : List KafkaMessage :=
  calls.filterMap fun
    | (.produce msg, true) => some msg
    | _ => none

/-- The client library and the broker behind it: the messages the broker has after these calls. -/
structure Client where
  delivered : ClientCalls → List KafkaMessage

/-- No delivery fails or is made twice: after a flush that has returned, the broker has the
    messages that were handed over, in some order. -/
structure Client.Delivers (client : Client) : Prop where
  start : client.delivered [] = []
  flush : ∀ calls, (client.delivered (calls ++ [(.flush, true)])).Perm (handedOver calls)

/-- Nothing was handed over since the last flush, which has returned. -/
def Flushed (calls : ClientCalls) : Prop :=
  calls = [] ∨ ∃ before, calls = before ++ [(.flush, true)]

theorem handedOver_append (calls : ClientCalls) (call : ClientCall) (returned : Bool) :
    handedOver (calls ++ [(call, returned)]) =
      handedOver calls ++ handedOver [(call, returned)] := List.filterMap_append

/-- Then the broker has everything. -/
theorem Client.Delivers.delivered_of_flushed {client : Client} (h : client.Delivers)
    {calls : ClientCalls} (hflushed : Flushed calls) :
    (client.delivered calls).Perm (handedOver calls) := by
  rcases hflushed with rfl | ⟨before, rfl⟩
  · exact List.Perm.of_eq h.start
  · rw [handedOver_append]
    exact (h.flush before).trans (List.Perm.of_eq (List.append_nil _).symm)

/-! ## Where the loop may wait -/

/-- What holds between the steps.  The loop comes to the wait with everything flushed if the queue
    is empty, and only messages that come in can change that. -/
structure Inv (p : KafkaProducer) : Prop where
  sound : p.worker.Sound
  body : p.stage = .produced ∨ p.stage = .tried → ∃ msg, p.worker.pc = .handling msg
  start : p.stage = .starting → p.worker.pc = .calling
  exit : p.stage = .exited → ¬ p.worker.Idle
  flushed : p.worker.Idle → Flushed p.calls

theorem inv_started : Inv started where
  sound := Worker.sound_start.setRunning true
  body h := by simp [started] at h
  start _ := rfl
  exit h := by simp [started] at h
  flushed _ := .inl rfl

section Steps

variable {p p' : KafkaProducer}

/-- A step of the other threads on the queue. -/
theorem inv_of_others (h : p.Inv) {w : Worker KafkaMessage} (hw : p.worker.Others w) :
    Inv { p with worker := w } where
  sound := hw.sound h.sound
  body hstage := by
    obtain ⟨msg, hmsg⟩ := h.body hstage
    exact ⟨msg, (hw.handling_iff msg).mpr hmsg⟩
  start hstage := hw.calling_iff.mpr (h.start hstage)
  exit hstage hidle := h.exit hstage (hw.idle hidle)
  flushed hidle := h.flushed (hw.idle hidle)

/-- A step inside of the body. -/
theorem inv_body (h : p.Inv) {msg : KafkaMessage} (hpc : p.worker.pc = .handling msg)
    (hworker : p'.worker = p.worker) (hstage : p'.stage ≠ .starting) : p'.Inv where
  sound := hworker ▸ h.sound
  body _ := ⟨msg, hworker ▸ hpc⟩
  start hstart := absurd hstart hstage
  exit _ := Worker.not_idle_handling (hworker ▸ hpc)
  flushed hidle := absurd hidle (Worker.not_idle_handling (hworker ▸ hpc))

/-- A step of the loop. -/
theorem inv_loop (hsound : p.worker.Sound) (hstage : p.stage = .looping)
    (hflushed : p.worker.Idle → Flushed p.calls) : p.Inv where
  sound := hsound
  body hbody := by simp [hstage] at hbody
  start hstart := by simp [hstage] at hstart
  exit hexit := by simp [hstage] at hexit
  flushed := hflushed

/-- The end of `run`. -/
theorem inv_exit (hsound : p.worker.Sound) (hstage : p.stage = .exited)
    (hidle : ¬ p.worker.Idle) : p.Inv where
  sound := hsound
  body hbody := by simp [hstage] at hbody
  start hstart := by simp [hstage] at hstart
  exit _ := hidle
  flushed h := absurd h hidle

theorem inv_stepRun (h : p.Inv) {throws : Bool} (hstep : p.stepRun throws = some p') : p'.Inv := by
  unfold stepRun at hstep
  cases hstage : p.stage with
  | starting =>
      simp only [hstage, Option.some.injEq] at hstep
      subst hstep
      exact inv_loop (h.sound.setRunning true) rfl h.flushed
  | looping =>
      simp only [hstage] at hstep
      cases hpc : p.worker.pc with
      | calling =>
          simp only [hpc, Option.some.injEq] at hstep
          subst hstep
          -- It waits only where the queue was empty, and then everything was flushed before.
          exact inv_loop (h.sound.wait hpc) rfl fun hidle =>
            h.flushed (.inl ⟨hpc, Worker.idle_of_wait hidle⟩)
      | waiting =>
          simp only [hpc] at hstep
          cases hstep
      | returned note =>
          simp only [hpc, Option.some.injEq] at hstep
          subst hstep
          exact inv_loop (h.sound.check hpc) rfl fun hidle =>
            absurd hidle (Worker.not_idle_check _ _)
      | handling msg =>
          simp only [hpc, Option.some.injEq] at hstep
          subst hstep
          refine inv_body h hpc rfl ?_
          dsimp only
          split <;> simp
      | ended note =>
          have hidle : ¬ p.worker.Idle := by simp [Worker.Idle, hpc]
          simp only [hpc, Option.some.injEq] at hstep
          subst hstep
          exact inv_exit h.sound rfl hidle
  | produced =>
      obtain ⟨msg, hpc⟩ := h.body (.inl hstage)
      simp only [hstage] at hstep
      split at hstep <;> obtain rfl := Option.some.inj hstep
      · exact inv_body h hpc rfl (by simp)
      · exact inv_body h hpc rfl (by simp)
  | tried =>
      obtain ⟨msg, hpc⟩ := h.body (.inr hstage)
      simp only [hstage] at hstep
      split at hstep
      · split at hstep <;> obtain rfl := Option.some.inj hstep
        · exact inv_exit h.sound rfl (Worker.not_idle_handling hpc)
        · exact inv_loop (h.sound.finish hpc) rfl fun _ => .inr ⟨p.calls, rfl⟩
      · -- The queue is not empty, so the loop will not wait.
        rename_i hqueue
        obtain rfl := Option.some.inj hstep
        refine inv_loop (h.sound.finish hpc) rfl fun hidle => ?_
        rcases hidle with ⟨-, hnil⟩ | hw
        · exact absurd hnil hqueue
        · cases hw
  | exited =>
      simp only [hstage] at hstep
      cases hstep

theorem inv_step (h : p.Inv) {a : Label} (hstep : p.step a = some p') : p'.Inv := by
  cases a with
  | produce msg =>
      obtain rfl := Option.some.inj hstep
      exact inv_of_others h (Worker.others_enqueue _ msg)
  | stop =>
      obtain rfl := Option.some.inj hstep
      exact inv_of_others h (Worker.others_setRunning _ false)
  | wakeUpAll =>
      obtain rfl := Option.some.inj hstep
      exact inv_of_others h (Worker.others_wakeUpAll _)
  | run throws => exact inv_stepRun h hstep

end Steps

/-! ## What becomes of the messages -/

/-- The messages the client library has been given. -/
def given (p : KafkaProducer) : List KafkaMessage := handedOver p.calls

/-- The message of the body that `Producer.produce` has not been called with. -/
def due (p : KafkaProducer) : List KafkaMessage :=
  match p.stage, p.worker.pc with
  | .looping, .handling msg => [msg]
  | _, _ => []

section Messages

variable {p p' : KafkaProducer}

@[simp] theorem given_called_flush (p : KafkaProducer) (throws : Bool) :
    (p.called .flush throws).given = p.given :=
  (handedOver_append _ _ _).trans (List.append_nil _)

@[simp] theorem given_called_poll (p : KafkaProducer) (throws : Bool) :
    (p.called .poll throws).given = p.given :=
  (handedOver_append _ _ _).trans (List.append_nil _)

@[simp] theorem given_called_produce (p : KafkaProducer) (msg : KafkaMessage) :
    (p.called (.produce msg) false).given = p.given ++ [msg] :=
  handedOver_append _ _ _

/-- A call that throws hands nothing over. -/
@[simp] theorem given_called_throws (p : KafkaProducer) (msg : KafkaMessage) :
    (p.called (.produce msg) true).given = p.given :=
  (handedOver_append _ _ _).trans (List.append_nil _)

/-- Outside of the body, no message is due. -/
theorem due_eq_nil (h : ∀ msg, p.worker.pc ≠ .handling msg) : p.due = [] := by
  unfold due
  split
  · rename_i msg _ hpc
    exact absurd hpc (h msg)
  · rfl

theorem due_of_stage (h : p.stage ≠ .looping) : p.due = [] := by
  unfold due
  split
  · rename_i hstage _
    exact absurd hstage h
  · rfl

/-- What a step does about the messages: nothing, or it takes one, or it loses the one that is due
    to an exception. -/
inductive Accounts (p p' : KafkaProducer) (a : Label) : Prop
  | same (hgiven : p'.given ++ p'.due = p.given ++ p.due)
      (hhandled : p'.worker.handled = p.worker.handled)
  | taken (msg : KafkaMessage) (hrunning : p.worker.running = true)
      (hgiven : p'.given ++ p'.due = p.given ++ p.due ++ [msg])
      (hhandled : p'.worker.handled = p.worker.handled ++ [msg])
  | lost (hthrows : a = .run true) (hgiven : p'.given ++ p'.due = p.given)
      (hhandled : p'.worker.handled = p.worker.handled)

/-- A step after which nothing is due, where nothing was. -/
theorem accounts_of_not_due {a : Label} (hdue : p.due = []) (hdue' : p'.due = [])
    (hgiven : p'.given = p.given) (hhandled : p'.worker.handled = p.worker.handled) :
    Accounts p p' a :=
  .same (by rw [hdue, hdue', hgiven]) hhandled

/-- A step of another thread moves no worker into the body or out of it. -/
theorem accounts_of_others {a : Label} {w : Worker KafkaMessage} (hw : p.worker.Others w) :
    Accounts p { p with worker := w } a := by
  refine .same ?_ hw.handled
  have hdue : due { p with worker := w } = p.due := by
    by_cases hbody : ∃ msg, p.worker.pc = .handling msg
    · obtain ⟨msg, hmsg⟩ := hbody
      simp only [due, hmsg, (hw.handling_iff msg).mpr hmsg]
    · rw [not_exists] at hbody
      rw [due_eq_nil hbody, due_eq_nil fun msg hmsg => hbody msg ((hw.handling_iff msg).mp hmsg)]
  rw [hdue]
  rfl

theorem accounts_check {a : Label} {note : Option KafkaMessage}
    (hstage : p.stage = .looping) (hpc : p.worker.pc = .returned note) :
    Accounts p { p with worker := p.worker.check note } a := by
  have hdue : p.due = [] := due_eq_nil fun msg hmsg => by rw [hpc] at hmsg; cases hmsg
  cases note with
  | none => exact accounts_of_not_due hdue (due_eq_nil fun msg hmsg => by cases hmsg) rfl rfl
  | some msg =>
      by_cases hrunning : p.worker.running = true
      · -- the body begins, with the message due
        refine .taken msg hrunning ?_ ?_
        · simp [KafkaProducer.given, due, Worker.check, hrunning, hstage, hpc]
        · simp [Worker.check, hrunning]
      · refine accounts_of_not_due hdue (due_eq_nil fun m hm => ?_) rfl ?_
        · simp [Worker.check, hrunning] at hm
        · simp [Worker.check, hrunning]

theorem accounts_stepRun (h : p.Inv) {throws : Bool} (hstep : p.stepRun throws = some p') :
    Accounts p p' (.run throws) := by
  unfold stepRun at hstep
  cases hstage : p.stage with
  | starting =>
      simp only [hstage, Option.some.injEq] at hstep
      subst hstep
      have hpc := h.start hstage
      refine accounts_of_not_due (due_of_stage (by simp [hstage])) (due_eq_nil fun msg hmsg => ?_)
        rfl rfl
      rw [show p.worker.pc = _ from hmsg] at hpc
      cases hpc
  | looping =>
      simp only [hstage] at hstep
      cases hpc : p.worker.pc with
      | calling =>
          simp only [hpc, Option.some.injEq] at hstep
          subst hstep
          refine accounts_of_not_due (due_eq_nil fun msg hmsg => ?_) (due_eq_nil fun msg hmsg => ?_)
            rfl (Worker.handled_wait _)
          · rw [hpc] at hmsg
            cases hmsg
          · simp only [Worker.wait] at hmsg
            split at hmsg <;> cases hmsg
      | waiting =>
          simp only [hpc] at hstep
          cases hstep
      | returned note =>
          simp only [hpc, Option.some.injEq] at hstep
          subst hstep
          simpa only [hstage] using accounts_check (a := .run throws) hstage hpc
      | handling msg =>
          have hdue : p.due = [msg] := by simp only [due, hstage, hpc]
          simp only [hpc, Option.some.injEq] at hstep
          subst hstep
          -- with an exception nobody has the message any more, without one the library has it
          cases throws with
          | true =>
              refine .lost rfl ?_ rfl
              rw [due_of_stage (by simp), List.append_nil]
              exact given_called_throws p msg
          | false =>
              refine .same ?_ rfl
              rw [hdue, due_of_stage (by simp), List.append_nil]
              exact given_called_produce p msg
      | ended note =>
          have hdue : p.due = [] := due_eq_nil fun msg hmsg => by rw [hpc] at hmsg; cases hmsg
          simp only [hpc, Option.some.injEq] at hstep
          subst hstep
          exact accounts_of_not_due hdue (due_of_stage (by simp)) (given_called_flush p _) rfl
  | produced =>
      have hdue : p.due = [] := due_of_stage (by simp [hstage])
      simp only [hstage] at hstep
      split at hstep <;> obtain rfl := Option.some.inj hstep
      · exact accounts_of_not_due hdue (due_of_stage (by simp)) (given_called_flush p _) rfl
      · exact accounts_of_not_due hdue (due_of_stage (by simp)) (given_called_poll p _) rfl
  | tried =>
      have hdue : p.due = [] := due_of_stage (by simp [hstage])
      have hfinish : ∀ q : KafkaProducer, q.worker = p.worker.finish → q.due = [] := by
        intro q hq
        refine due_eq_nil fun msg hmsg => ?_
        rw [hq] at hmsg
        cases hmsg
      simp only [hstage] at hstep
      split at hstep
      · split at hstep <;> obtain rfl := Option.some.inj hstep
        · exact accounts_of_not_due hdue (due_of_stage (by simp)) (given_called_flush p _) rfl
        · exact accounts_of_not_due hdue (hfinish _ rfl) (given_called_flush p _) rfl
      · obtain rfl := Option.some.inj hstep
        exact accounts_of_not_due hdue (hfinish _ rfl) rfl rfl
  | exited =>
      simp only [hstage] at hstep
      cases hstep

theorem accounts_step (h : p.Inv) {a : Label} (hstep : p.step a = some p') : Accounts p p' a := by
  cases a with
  | produce msg =>
      obtain rfl := Option.some.inj hstep
      exact accounts_of_others (Worker.others_enqueue _ msg)
  | stop =>
      obtain rfl := Option.some.inj hstep
      exact accounts_of_others (Worker.others_setRunning _ false)
  | wakeUpAll =>
      obtain rfl := Option.some.inj hstep
      exact accounts_of_others (Worker.others_wakeUpAll _)
  | run throws => exact accounts_stepRun h hstep

end Messages

/-! ## Runs -/

/-- The messages `Produce` is called with. -/
def produced (labels : List Label) : List KafkaMessage :=
  labels.filterMap fun
    | .produce msg => some msg
    | _ => none

/-- No call of the client library throws. -/
def NoThrow (labels : List Label) : Prop := .run true ∉ labels

variable {p p' : KafkaProducer}

theorem enqueued_stepRun {throws : Bool} (h : p.stepRun throws = some p') :
    p'.worker.enqueued = p.worker.enqueued := by
  unfold stepRun at h
  grind [Worker.setRunning, Worker.enqueued_wait, Worker.enqueued_check, Worker.finish, called]

theorem enqueued_step {a : Label} (h : p.step a = some p') :
    p'.worker.enqueued = p.worker.enqueued ++ produced [a] := by
  cases a with
  | produce msg =>
      obtain rfl := Option.some.inj h
      exact Worker.enqueued_enqueue _ _
  | stop =>
      obtain rfl := Option.some.inj h
      exact (List.append_nil _).symm
  | wakeUpAll =>
      obtain rfl := Option.some.inj h
      exact (Worker.enqueued_wakeUpAll _).trans (List.append_nil _).symm
  | run throws => exact (enqueued_stepRun h).trans (List.append_nil _).symm

/-- What was enqueued are the messages of the calls, in the order of the calls. -/
theorem enqueued_run {labels : List Label} (h : run step p labels = some p') :
    p'.worker.enqueued = p.worker.enqueued ++ produced labels := by
  induction labels generalizing p with
  | nil =>
      obtain rfl := Option.some.inj h
      exact (List.append_nil _).symm
  | cons a rest ih =>
      obtain ⟨q, hq, hrest⟩ := Option.bind_eq_some_iff.mp h
      rw [ih hrest, enqueued_step hq, List.append_assoc, ← List.singleton_append (l := rest)]
      simp only [produced, List.filterMap_append]

theorem inv_run {labels : List Label} (h : p.Inv) (hrun : run step p labels = some p') :
    p'.Inv := by
  induction labels generalizing p with
  | nil =>
      obtain rfl := Option.some.inj hrun
      exact h
  | cons a rest ih =>
      obtain ⟨q, hq, hrest⟩ := Option.bind_eq_some_iff.mp hrun
      exact ih (inv_step h hq) hrest

/-- Of the messages taken, some may be lost, but none comes twice and none overtakes another. -/
theorem given_run {labels : List Label} (h : p.Inv)
    (hgiven : (p.given ++ p.due).Sublist p.worker.handled)
    (hrun : run step p labels = some p') : (p'.given ++ p'.due).Sublist p'.worker.handled := by
  induction labels generalizing p with
  | nil =>
      obtain rfl := Option.some.inj hrun
      exact hgiven
  | cons a rest ih =>
      obtain ⟨q, hq, hrest⟩ := Option.bind_eq_some_iff.mp hrun
      refine ih (inv_step h hq) ?_ hrest
      cases accounts_step h hq with
      | same hsame hhandled => rwa [hsame, hhandled]
      | taken msg _ htaken hhandled =>
          rw [htaken, hhandled]
          exact hgiven.append (List.Sublist.refl _)
      | lost _ hlost hhandled =>
          rw [hlost, hhandled]
          exact (List.sublist_append_left _ _).trans hgiven

/-- Where `run` has come to its end, everything was flushed. -/
def Ended (p : KafkaProducer) : Prop := p.stage = .exited → Flushed p.calls

theorem ended_step (hended : p.Ended) {a : Label} (ha : .run true ≠ a)
    (hstep : p.step a = some p') : p'.Ended := by
  intro hstage
  cases a with
  | produce msg =>
      obtain rfl := Option.some.inj hstep
      exact hended hstage
  | stop =>
      obtain rfl := Option.some.inj hstep
      exact hended hstage
  | wakeUpAll =>
      obtain rfl := Option.some.inj hstep
      exact hended hstage
  | run throws =>
      have hthrows : throws = false := by
        cases throws with
        | false => rfl
        | true => exact absurd rfl ha
      subst hthrows
      -- the one step to the end is that of the last flush
      have hcalls : p'.calls = p.calls ++ [(.flush, true)] := by
        simp only [step, stepRun] at hstep
        grind [called]
      exact .inr ⟨p.calls, hcalls⟩

/-- Where no call throws, nothing is lost. -/
theorem exact_run {labels : List Label} (h : p.Inv) (hended : p.Ended) (hthrow : NoThrow labels)
    (hgiven : p.given ++ p.due = p.worker.handled) (hrun : run step p labels = some p') :
    p'.given ++ p'.due = p'.worker.handled ∧ p'.Ended := by
  induction labels generalizing p with
  | nil =>
      obtain rfl := Option.some.inj hrun
      exact ⟨hgiven, hended⟩
  | cons a rest ih =>
      obtain ⟨q, hq, hrest⟩ := Option.bind_eq_some_iff.mp hrun
      obtain ⟨ha, hthrow'⟩ := not_or.mp (mt List.mem_cons.mpr hthrow)
      refine ih (inv_step h hq) (ended_step hended ha hq) hthrow' ?_ hrest
      cases accounts_step h hq with
      | same hsame hhandled => rw [hsame, hhandled, hgiven]
      | taken msg _ htaken hhandled => rw [htaken, hhandled, hgiven]
      | lost hthrows _ _ => exact absurd hthrows.symm ha

/-- In every run the client library is given messages of the calls of `Produce` only, each at most
    once and in the order of the calls.  If no delivery fails, the broker has all of them whenever
    the loop waits.  Where no call throws, the library is given a beginning of what was produced:
    everything whenever the loop waits, and at the end all but what is in hand or in the queue. -/
theorem deliveries {client : Client} (hclient : client.Delivers) (labels : List Label)
    (p : KafkaProducer) (hrun : run step started labels = some p) :
    p.given.Sublist (produced labels) ∧
      (p.worker.pc = .waiting → Flushed p.calls ∧ (client.delivered p.calls).Perm p.given) ∧
      (NoThrow labels →
        p.given <+: produced labels ∧
        (p.worker.pc = .waiting → (client.delivered p.calls).Perm (produced labels)) ∧
        (p.stage = .exited → Flushed p.calls ∧ (client.delivered p.calls).Perm p.given ∧
          p.given ++ Worker.inHand p.worker.pc ++ p.worker.queue = produced labels)) := by
  have hinv := inv_run inv_started hrun
  have henqueued : p.worker.enqueued = produced labels :=
    (enqueued_run hrun).trans (List.nil_append _)
  have hwaiting : p.worker.pc = .waiting →
      Flushed p.calls ∧ (client.delivered p.calls).Perm p.given := fun hpc =>
    ⟨hinv.flushed (.inr hpc), hclient.delivered_of_flushed (hinv.flushed (.inr hpc))⟩
  refine ⟨?_, hwaiting, fun hthrow => ?_⟩
  · -- given, then taken, then enqueued
    have hhandled := given_run inv_started (List.Sublist.refl _) hrun
    rw [← henqueued]
    exact ((List.sublist_append_left _ _).trans hhandled).trans
      hinv.sound.handled_prefix_enqueued.sublist
  · have hended : started.Ended := fun hstage => by simp [started] at hstage
    obtain ⟨hgiven, hexit⟩ := exact_run inv_started hended hthrow rfl hrun
    refine ⟨?_, fun hpc => ?_, fun hstage =>
      ⟨hexit hstage, hclient.delivered_of_flushed (hexit hstage), ?_⟩⟩
    · rw [← henqueued]
      exact (hgiven ▸ List.prefix_append _ _).trans hinv.sound.handled_prefix_enqueued
    · have hdue : p.due = [] := due_eq_nil fun msg hmsg => by rw [hpc] at hmsg; cases hmsg
      rw [hdue, List.append_nil, hinv.sound.handled_of_waiting hpc] at hgiven
      exact (hwaiting hpc).2.trans (List.Perm.of_eq (hgiven.trans henqueued))
    · rw [due_of_stage (by simp [hstage]), List.append_nil] at hgiven
      rw [hgiven, hinv.sound.accounted, henqueued]

/-- A library that sends with each flush what it was given before. -/
def sendsOnFlush : Client where
  delivered calls := handedOver (calls.rdropWhile fun call => call.1 ≠ .flush)

/-- Two messages, the loop around both, and `Stop`. -/
def twoMessages : List Label :=
  [.produce ⟨['a'], ['1'], ['x']⟩, .run false, .run false, .run false, .run false,
    .produce ⟨['a'], ['2'], ['y']⟩, .run false, .run false, .run false, .run false,
    .run false, .run false, .run false, .run false, .stop, .wakeUpAll, .run false,
    .run false]

theorem delivers_sendsOnFlush : sendsOnFlush.Delivers where
  start := rfl
  flush calls := by
    show (handedOver ((calls ++ [(ClientCall.flush, true)]).rdropWhile _)).Perm _
    rw [List.rdropWhile_concat_neg _ _ _ (by simp), handedOver_append]
    exact List.Perm.of_eq (List.append_nil _)

theorem deliveries_of_twoMessages :
    ∃ p, run step started twoMessages = some p ∧ p.stage = .exited ∧
      Flushed p.calls ∧ (sendsOnFlush.delivered p.calls).Perm p.given ∧
      p.given ++ Worker.inHand p.worker.pc ++ p.worker.queue =
        [⟨['a'], ['1'], ['x']⟩, ⟨['a'], ['2'], ['y']⟩] :=
  ⟨_, rfl, rfl, ((deliveries delivers_sendsOnFlush twoMessages _ rfl).2.2
    (by simp [NoThrow, twoMessages])).2.2 rfl⟩

/-- After `Stop` has set the flag of a loop that has begun, nothing sets it again. -/
theorem stopped_step {a : Label} (hstage : p.stage ≠ .starting)
    (hrunning : p.worker.running = false) (hstep : p.step a = some p') :
    p'.stage ≠ .starting ∧ p'.worker.running = false := by
  cases a with
  | produce msg =>
      obtain rfl := Option.some.inj hstep
      exact ⟨hstage, (Worker.running_enqueue _ _).trans hrunning⟩
  | stop =>
      obtain rfl := Option.some.inj hstep
      exact ⟨hstage, rfl⟩
  | wakeUpAll =>
      obtain rfl := Option.some.inj hstep
      exact ⟨hstage, (Worker.running_wakeUpAll _).trans hrunning⟩
  | run throws =>
      simp only [step, stepRun] at hstep
      grind [Worker.running_wait, Worker.running_check, Worker.finish, called]

/-- The loop begins with no other message, and the library is given the one that is due or none. -/
theorem stopped_run {labels : List Label} (h : p.Inv) (hstage : p.stage ≠ .starting)
    (hrunning : p.worker.running = false) (hrun : run step p labels = some p') :
    p'.worker.handled = p.worker.handled ∧ p'.given ++ p'.due <+: p.given ++ p.due := by
  induction labels generalizing p with
  | nil =>
      obtain rfl := Option.some.inj hrun
      exact ⟨rfl, List.prefix_refl _⟩
  | cons a rest ih =>
      obtain ⟨q, hq, hrest⟩ := Option.bind_eq_some_iff.mp hrun
      obtain ⟨hstage', hrunning'⟩ := stopped_step hstage hrunning hq
      obtain ⟨hhandled', hgiven'⟩ := ih (inv_step h hq) hstage' hrunning' hrest
      -- nothing is taken once the flag is off, and what is lost was due before
      cases accounts_step h hq with
      | same hgiven hhandled => exact ⟨hhandled'.trans hhandled, hgiven ▸ hgiven'⟩
      | taken msg htaken _ _ =>
          rw [hrunning] at htaken
          cases htaken
      | lost _ hgiven hhandled =>
          refine ⟨hhandled'.trans hhandled, hgiven'.trans ?_⟩
          rw [hgiven]
          exact List.prefix_append _ _

/-- Once `Stop` has told a loop that has begun to end, the library is given nothing more but the
    message the loop is in the body with, if it has not been given that; and of all other messages
    one at most is taken out of the queue, which is dropped. -/
theorem nothing_given_after_stop (before after : List Label) (p q : KafkaProducer)
    (hbefore : run step started before = some p) (hstage : p.stage ≠ .starting)
    (hafter : run step p (.stop :: after) = some q) :
    q.worker.handled = p.worker.handled ∧ q.given <+: p.given ++ p.due ∧
      p.worker.handled ++ Worker.inHand q.worker.pc ++ q.worker.queue =
        produced before ++ produced after := by
  have hinv := inv_run inv_started hbefore
  obtain ⟨r, hr, hrest⟩ := Option.bind_eq_some_iff.mp hafter
  obtain rfl := Option.some.inj hr
  obtain ⟨hhandled, hgiven⟩ := stopped_run (inv_of_others hinv (Worker.others_setRunning _ false))
    hstage rfl hrest
  refine ⟨hhandled, (List.prefix_append _ _).trans hgiven, ?_⟩
  have hsound := (inv_run hinv hafter).sound
  have henqueued : q.worker.enqueued = produced before ++ produced after := by
    rw [enqueued_run hafter, enqueued_run hbefore]
    rfl
  rw [← henqueued, ← hsound.accounted, hhandled]
  rfl

/-- A message is in the body when `Stop` comes, and is handed over; a second one is taken out of
    the queue and dropped, and a third one stays there. -/
theorem nothing_given_after_stop_three :
    ∃ p, run step started
        [.run false, .produce ⟨['a'], ['1'], ['x']⟩, .run false, .run false] = some p ∧
      ∃ q, run step p [.stop, .produce ⟨['a'], ['2'], ['y']⟩, .produce ⟨['a'], ['3'], ['z']⟩,
          .run false, .run false, .run false, .run false, .run false, .run false] = some q ∧
        q.stage = .exited ∧ q.given = [⟨['a'], ['1'], ['x']⟩] ∧
        q.worker.handled = p.worker.handled ∧ q.given <+: p.given ++ p.due ∧
        p.worker.handled ++ Worker.inHand q.worker.pc ++ q.worker.queue =
          [⟨['a'], ['1'], ['x']⟩, ⟨['a'], ['2'], ['y']⟩, ⟨['a'], ['3'], ['z']⟩] := by
  refine ⟨_, rfl, _, rfl, rfl, rfl, ?_⟩
  exact nothing_given_after_stop
    [.run false, .produce ⟨['a'], ['1'], ['x']⟩, .run false, .run false]
    [.produce ⟨['a'], ['2'], ['y']⟩, .produce ⟨['a'], ['3'], ['z']⟩, .run false, .run false,
      .run false, .run false, .run false, .run false]
    _ _ rfl (by decide) rfl

end KafkaProducer

end OwAnalytics.Bus
