/-
  OwAnalytics.Bus.Ingestion

  From the bus to the watchers.  The thread of the Kafka consumer puts the messages of
  three topics into the queues of `StateReceiver`, `HealthReceiver` and
  `DeviceStatusReceiver`; the thread of each takes them out again and posts them to the
  watchers its table holds at that moment.  The tables change in between.
-/

import OwAnalytics.Bus.Consumer
import OwAnalytics.Venue.Routing

namespace OwAnalytics.Bus

open Throwing Transitions Workers
open Venue (MsgType Receivers VenueMessage WatcherPtr)

/-! ## The daemon -/

/-- The callbacks that are registered with the consumer. -/
inductive Watcher
  /-- `StateReceived`, `HealthReceived`, `DeviceStatusReceived`. -/
  | received (type : MsgType)
  /-- `MicroService::BusMessageReceived`. -/
  | busMessageReceived

/-- The topic a receiver registers for. -/
def topicOf : MsgType → Str
  | .state => "state".toList
  | .health => "healthcheck".toList
  | .connection => "connection".toList

/-- `KafkaTopics::SERVICE_EVENTS`. -/
def SERVICE_EVENTS : Str := "service_events".toList

theorem topicOf_injective {t t' : MsgType} (h : topicOf t = topicOf t') : t = t' := by
  cases t <;> cases t' <;> first | rfl | exact absurd h (by decide)

theorem topicOf_ne_SERVICE_EVENTS (t : MsgType) : topicOf t ≠ SERVICE_EVENTS := by
  cases t <;> decide

/-- What the callbacks work on: the queue and the thread of each receiver, and the calls of
    `BusMessageReceived`. -/
structure World where
  workers : MsgType → Worker (Str × Str) := fun _ => {}
  busMessages : List (Str × Str) := []

/-- A receiver's queue and thread change. -/
def World.update (w : World) (t : MsgType) (worker : Worker (Str × Str)) : World :=
  { w with workers := Function.update w.workers t worker }

/-- A callback: the message is queued for its receiver, or handed to `BusMessageReceived`. -/
def call : Watcher → Str → Str → Computation World Unit
  | .received t, key, payload =>
    Computation.modify fun w => w.update t ((w.workers t).enqueue (key, payload))
  | .busMessageReceived, key, payload =>
    Computation.modify fun w => { w with busMessages := w.busMessages ++ [(key, payload)] }

/-- The consumer, the receivers with their queues, and what they have posted. -/
structure Ingestion where
  bus : KafkaConsumer.State Watcher World
  tables : Receivers := {}
  /-- What each receiver has posted: every watcher with what was queued to it. -/
  posts : MsgType → List (WatcherPtr × VenueMessage) := fun _ => []

namespace Ingestion

/-- The queue and the thread of a receiver. -/
def worker (i : Ingestion) (t : MsgType) : Worker (Str × Str) := i.bus.world.workers t

/-- The threads of the receivers run. -/
def startedWorld : World := { workers := fun _ => Worker.setRunning {} true }

/-- `MicroService::StartEverything` registers for the service events, then the receivers start in
    the order of the daemon's subsystems, and the Kafka manager after them. -/
def startUp : List (KafkaConsumer.Label Watcher) :=
  [.register SERVICE_EVENTS .busMessageReceived,
    .register (topicOf .state) (.received .state),
    .register (topicOf .connection) (.received .connection),
    .register (topicOf .health) (.received .health),
    .start]

/-- The number each receiver was given. -/
def watcherId : MsgType → UInt64
  | .state => 2
  | .connection => 3
  | .health => 4

/-- The steps of the consumer, of the receivers, and of those that register watchers. -/
inductive Label
  /-- The thread of the consumer gets a message. -/
  | consume (msg : KafkaMessage) (commits : Bool)
  /-- Watchers are registered or go. -/
  | setTables (tables : Receivers)
  /-- A step of `run` of a receiver. -/
  | work (t : MsgType)
  /-- `Running_ = false` of `Stop` of a receiver. -/
  | setRunning (t : MsgType)
  /-- `UnregisterTopicWatcher` of `Stop`. -/
  | unregister (t : MsgType)
  /-- `Queue_.wakeUpAll()` of `Stop`. -/
  | wakeUpAll (t : MsgType)
  /-- `Stop` of the consumer. -/
  | stop

/-- The bus has taken a step. -/
def onBus (i : Ingestion) (a : KafkaConsumer.Label Watcher) : Option Ingestion :=
  (KafkaConsumer.step call i.bus a).map fun bus => { i with bus }

/-- The queue and the thread of a receiver have taken a step. -/
def setWorker (i : Ingestion) (t : MsgType) (worker : Worker (Str × Str)) : Ingestion :=
  { i with bus := { i.bus with world := i.bus.world.update t worker } }

/-- The message as its receiver reads it. -/
def message (parse : Str → Option Venue.Json) (t : MsgType) (m : Str × Str) :
    Venue.KafkaMessage where
  topic := t
  key := m.1
  document := parse m.2

/-- One step of `run` of a receiver. -/
def stepWork (parse : Str → Option Venue.Json) (i : Ingestion) (t : MsgType) : Option Ingestion :=
  match (i.worker t).pc with
  | .calling => some (i.setWorker t (i.worker t).wait)
  | .waiting => none
  | .returned note => some (i.setWorker t ((i.worker t).check note))
  | .handling m =>
    let posted := i.tables.post (message parse t m)
    some { i.setWorker t (i.worker t).finish with
      posts := Function.update i.posts t (i.posts t ++ posted) }
  | .ended _ => none

/-- A step, if it is enabled. -/
def step (parse : Str → Option Venue.Json) (i : Ingestion) : Label → Option Ingestion
  | .consume msg commits => i.onBus (.consume msg commits)
  | .setTables tables => some { i with tables }
  | .work t => i.stepWork parse t
  | .setRunning t => some (i.setWorker t ((i.worker t).setRunning false))
  | .unregister t => i.onBus (.unregister (topicOf t) (watcherId t))
  | .wakeUpAll t => some (i.setWorker t (i.worker t).wakeUpAll)
  | .stop => i.onBus .stop

/-! ## The watchers of the topics -/

/-- The entry of a receiver in the table of the consumer. -/
def entryOf (t : MsgType) : Watcher × UInt32 := (.received t, (watcherId t).toUInt32)

/-- The receiver is registered for its topic. -/
def Registered (c : KafkaConsumer Watcher) (t : MsgType) : Prop :=
  c.watchersOf (topicOf t) = [entryOf t]

/-- The consumer calls each receiver that has not unregistered for its own topic, and the service
    for the service events. -/
structure Wired (c : KafkaConsumer Watcher) : Prop where
  receivers : ∀ t, Registered c t ∨ c.watchersOf (topicOf t) = []
  service : c.watchersOf SERVICE_EVENTS = [(.busMessageReceived, 1)]
  others : ∀ topic, (∀ t, topicOf t ≠ topic) → SERVICE_EVENTS ≠ topic → c.watchersOf topic = []

theorem Wired.congr {c c' : KafkaConsumer Watcher} (h : Wired c)
    (hsame : ∀ topic, c'.watchersOf topic = c.watchersOf topic) : Wired c' where
  receivers t := by
    rw [Registered, hsame]
    exact h.receivers t
  service := by rw [hsame, h.service]
  others topic htopic hservice := by rw [hsame, h.others topic htopic hservice]

/-- A receiver that unregisters takes its own entry away and no other. -/
theorem watchersOf_unregister {c : KafkaConsumer Watcher} (h : Wired c) (t : MsgType)
    (topic : Str) :
    (c.unregisterTopicWatcher (topicOf t) (watcherId t)).watchersOf topic
      = if topicOf t = topic then [] else c.watchersOf topic := by
  rw [KafkaConsumer.watchersOf_unregister]
  split
  · rename_i htopic
    subst htopic
    rcases h.receivers t with ht | ht
    · rw [show c.watchersOf (topicOf t) = [entryOf t] from ht]
      simp [entryOf]
    · rw [ht]
      rfl
  · rfl

theorem Wired.unregister {c : KafkaConsumer Watcher} (h : Wired c) (t : MsgType) :
    Wired (c.unregisterTopicWatcher (topicOf t) (watcherId t)) where
  receivers t' := by
    rw [Registered, watchersOf_unregister h]
    split
    · exact .inr rfl
    · exact h.receivers t'
  service := by rw [watchersOf_unregister h, if_neg (topicOf_ne_SERVICE_EVENTS t), h.service]
  others topic htopic hservice := by
    rw [watchersOf_unregister h, if_neg (htopic t), h.others topic htopic hservice]

theorem registered_unregister {c : KafkaConsumer Watcher} (h : Wired c) (t t' : MsgType) :
    Registered (c.unregisterTopicWatcher (topicOf t) (watcherId t)) t'
      ↔ Registered c t' ∧ t ≠ t' := by
  rw [Registered, watchersOf_unregister h]
  by_cases ht : t = t'
  · subst ht
    simp
  · rw [if_neg fun htopic => ht (topicOf_injective htopic)]
    simp [Registered, ht]

/-! ## What a message does -/

/-- What a message puts into the queue of a receiver that is registered. -/
def arrives (t : MsgType) (msg : KafkaMessage) : List (Str × Str) :=
  if topicOf t = msg.topic then [(msg.key, msg.payload)] else []

/-- A message of a receiver's topic goes into its queue and into no other. -/
theorem dispatch_workers {c : KafkaConsumer Watcher} (h : Wired c) (msg : KafkaMessage)
    (w : World) (t : MsgType) :
    let worker' := ((c.dispatch call msg).attempt w).workers t
    (w.workers t).Others worker' ∧
      (Registered c t →
        worker'.enqueued = (w.workers t).enqueued ++ arrives t msg) ∧
      (¬ Registered c t → worker' = w.workers t) := by
  rw [KafkaConsumer.dispatch_attempt]
  by_cases htopic : topicOf t = msg.topic
  · rcases h.receivers t with ht | ht
    · -- the message is put into the queue
      have hwatchers : c.watchersOf msg.topic = [entryOf t] := htopic ▸ ht
      rw [hwatchers]
      have hworker : (World.update w t ((w.workers t).enqueue (msg.key, msg.payload))).workers t
          = (w.workers t).enqueue (msg.key, msg.payload) := Function.update_self _ _ _
      show (w.workers t).Others ((World.update w t _).workers t) ∧
        (_ → ((World.update w t _).workers t).enqueued = _) ∧
          (_ → (World.update w t _).workers t = _)
      rw [hworker]
      refine ⟨Worker.others_enqueue _ _, fun _ => ?_, fun hnot => absurd ht hnot⟩
      rw [Worker.enqueued_enqueue, arrives, if_pos htopic]
    · rw [← htopic, ht]
      refine ⟨Worker.others_refl _, fun hreg => ?_, fun _ => rfl⟩
      rw [Registered, ht] at hreg
      cases hreg
  · -- whoever is called leaves the receiver alone
    have hsame : ((c.watchersOf msg.topic).foldl
        (fun s entry => (call entry.1 msg.key msg.payload).attempt s) w).workers t
          = w.workers t := by
      by_cases hservice : SERVICE_EVENTS = msg.topic
      · rw [← hservice, h.service]
        rfl
      · by_cases hother : ∃ t', topicOf t' = msg.topic
        · obtain ⟨t', ht'⟩ := hother
          have hne : t ≠ t' := fun htt => htopic (htt ▸ ht')
          rw [← ht']
          rcases h.receivers t' with hreg | hnone
          · rw [show c.watchersOf (topicOf t') = [entryOf t'] from hreg]
            exact Function.update_of_ne hne _ _
          · rw [hnone]
            rfl
        · rw [h.others msg.topic (not_exists.mp hother) hservice]
          rfl
    show (w.workers t).Others (World.workers _ t) ∧ _
    rw [hsame]
    refine ⟨Worker.others_refl _, fun _ => ?_, fun _ => rfl⟩
    rw [arrives, if_neg htopic, List.append_nil]

/-! ## What a step does about one receiver -/

section Steps

variable {parse : Str → Option Venue.Json} {i i' : Ingestion} {t : MsgType}

/-- What a step puts into the queue of a receiver that is registered. -/
def arrival (t : MsgType) : Label → List (Str × Str)
  | .consume msg _ => arrives t msg
  | _ => []

/-- Another thread has worked on the queue of the receiver, or the receiver has taken a step. -/
inductive Effect (parse : Str → Option Venue.Json) (i : Ingestion) (a : Label) (i' : Ingestion)
    (t : MsgType) : Prop
  | others (hothers : (i.worker t).Others (i'.worker t)) (hposts : i'.posts t = i.posts t)
  | wait (hpc : (i.worker t).pc = .calling) (hworker : i'.worker t = (i.worker t).wait)
      (hposts : i'.posts t = i.posts t)
  | check (note : Option (Str × Str)) (hpc : (i.worker t).pc = .returned note)
      (hworker : i'.worker t = (i.worker t).check note) (hposts : i'.posts t = i.posts t)
  | post (ha : a = .work t) (m : Str × Str) (hpc : (i.worker t).pc = .handling m)
      (hworker : i'.worker t = (i.worker t).finish)
      (hposts : i'.posts t = i.posts t ++ i.tables.post (message parse t m))

@[simp] theorem worker_setWorker (i : Ingestion) (t t' : MsgType) (w : Worker (Str × Str)) :
    (i.setWorker t w).worker t' = if t' = t then w else i.worker t' :=
  Function.update_apply _ _ _ _

/-- A step on some queue that puts nothing in. -/
theorem enqueued_setWorker {t' : MsgType} {w : Worker (Str × Str)}
    (hw : w.enqueued = (i.worker t').enqueued) :
    ((i.setWorker t' w).worker t).enqueued = (i.worker t).enqueued := by
  rw [worker_setWorker]
  split
  · rename_i ht
    rw [ht, hw]
  · rfl

theorem effect_refl (i : Ingestion) (a : Label) (tables : Receivers) (t : MsgType) :
    Effect parse i a { i with tables } t :=
  .others (Worker.others_refl _) rfl

/-- A step on the queue of some receiver. -/
theorem effect_setWorker {a : Label} {t' : MsgType} {w : Worker (Str × Str)}
    (hw : (i.worker t').Others w) : Effect parse i a (i.setWorker t' w) t := by
  refine .others ?_ rfl
  rw [worker_setWorker]
  split
  · rename_i ht
    rw [ht]
    exact hw
  · exact Worker.others_refl _

theorem effect_stepWork {t' : MsgType} (hstep : i.stepWork parse t' = some i') :
    Effect parse i (.work t') i' t := by
  by_cases ht : t = t'
  · subst ht
    unfold stepWork at hstep
    cases hpc : (i.worker t).pc with
    | calling =>
        simp only [hpc] at hstep
        obtain rfl := Option.some.inj hstep
        exact .wait hpc ((worker_setWorker ..).trans (if_pos rfl)) rfl
    | waiting =>
        simp only [hpc] at hstep
        cases hstep
    | returned note =>
        simp only [hpc] at hstep
        obtain rfl := Option.some.inj hstep
        exact .check note hpc ((worker_setWorker ..).trans (if_pos rfl)) rfl
    | handling m =>
        simp only [hpc] at hstep
        obtain rfl := Option.some.inj hstep
        exact .post rfl m hpc ((worker_setWorker ..).trans (if_pos rfl))
          (Function.update_self _ _ _)
    | ended note =>
        simp only [hpc] at hstep
        cases hstep
  · -- the thread of another receiver
    have hworker : ∀ w, (i.setWorker t' w).worker t = i.worker t := fun w => by
      rw [worker_setWorker, if_neg ht]
    unfold stepWork at hstep
    split at hstep
    · obtain rfl := Option.some.inj hstep
      exact .others (by rw [hworker]; exact Worker.others_refl _) rfl
    · cases hstep
    · obtain rfl := Option.some.inj hstep
      exact .others (by rw [hworker]; exact Worker.others_refl _) rfl
    · obtain rfl := Option.some.inj hstep
      refine .others ?_ (Function.update_of_ne ht _ _)
      show (i.worker t).Others ((i.setWorker t' _).worker t)
      rw [hworker]
      exact Worker.others_refl _
    · cases hstep

theorem onBus_cases {a : KafkaConsumer.Label Watcher} (h : i.onBus a = some i') :
    ∃ bus, KafkaConsumer.step call i.bus a = some bus ∧ i' = { i with bus } := by
  obtain ⟨bus, hbus, rfl⟩ := Option.map_eq_some_iff.mp h
  exact ⟨bus, hbus, rfl⟩

/-- What the consumer's callback leaves of a consumed message. -/
theorem consume_cases {msg : KafkaMessage} {commits : Bool}
    (hstep : i.onBus (.consume msg commits) = some i') :
    i'.bus.world = (i.bus.consumer.dispatch call msg).attempt i.bus.world ∧
      (∀ topic, i'.bus.consumer.watchersOf topic = i.bus.consumer.watchersOf topic) ∧
      i'.tables = i.tables ∧ i'.posts = i.posts := by
  obtain ⟨bus, hbus, rfl⟩ := onBus_cases hstep
  simp only [KafkaConsumer.step] at hbus
  split at hbus
  · split at hbus
    · split at hbus
      · obtain rfl := Option.some.inj hbus
        exact ⟨rfl, fun _ => rfl, rfl, rfl⟩
      · obtain rfl := Option.some.inj hbus
        exact ⟨rfl, fun _ => rfl, rfl, rfl⟩
    · cases hbus
  · cases hbus

theorem effect_step (h : Wired i.bus.consumer) {a : Label} (hstep : i.step parse a = some i') :
    Effect parse i a i' t := by
  cases a with
  | consume msg commits =>
      obtain ⟨hworld, -, -, hposts⟩ := consume_cases hstep
      refine .others ?_ (by rw [hposts])
      rw [worker, worker, hworld]
      exact (dispatch_workers h msg i.bus.world t).1
  | setTables tables =>
      obtain rfl := Option.some.inj hstep
      exact effect_refl i _ tables t
  | work t' => exact effect_stepWork hstep
  | setRunning t' =>
      obtain rfl := Option.some.inj hstep
      exact effect_setWorker (Worker.others_setRunning _ false)
  | unregister t' =>
      obtain ⟨bus, hbus, rfl⟩ := onBus_cases hstep
      obtain rfl := Option.some.inj hbus
      exact .others (Worker.others_refl _) rfl
  | wakeUpAll t' =>
      obtain rfl := Option.some.inj hstep
      exact effect_setWorker (Worker.others_wakeUpAll _)
  | stop =>
      obtain ⟨bus, hbus, rfl⟩ := onBus_cases hstep
      obtain rfl := Option.some.inj hbus
      exact .others (Worker.others_refl _) rfl

theorem enqueued_stepWork {t' : MsgType} (hstep : i.stepWork parse t' = some i') :
    (i'.worker t).enqueued = (i.worker t).enqueued ∧ i'.bus.consumer = i.bus.consumer := by
  unfold stepWork at hstep
  split at hstep
  · obtain rfl := Option.some.inj hstep
    exact ⟨enqueued_setWorker (Worker.enqueued_wait _), rfl⟩
  · cases hstep
  · obtain rfl := Option.some.inj hstep
    exact ⟨enqueued_setWorker (Worker.enqueued_check _ _), rfl⟩
  · obtain rfl := Option.some.inj hstep
    have hfinish : ((i.setWorker t' (i.worker t').finish).worker t).enqueued
        = (i.worker t).enqueued := enqueued_setWorker rfl
    exact ⟨hfinish, rfl⟩
  · cases hstep

/-- What a step does to the registrations and to what was put into a queue. -/
theorem arrival_step (h : Wired i.bus.consumer) {a : Label} (hstep : i.step parse a = some i') :
    Wired i'.bus.consumer ∧
      (Registered i'.bus.consumer t ↔ Registered i.bus.consumer t ∧ a ≠ .unregister t) ∧
      (Registered i.bus.consumer t →
        (i'.worker t).enqueued = (i.worker t).enqueued ++ arrival t a) ∧
      (¬ Registered i.bus.consumer t → (i'.worker t).enqueued = (i.worker t).enqueued) := by
  -- the labels that leave the subscriptions and the queue as they are
  have hsame : ∀ j : Ingestion,
      (∀ topic, j.bus.consumer.watchersOf topic = i.bus.consumer.watchersOf topic) →
      (j.worker t).enqueued = (i.worker t).enqueued → arrival t a = [] → a ≠ .unregister t →
      Wired j.bus.consumer ∧
        (Registered j.bus.consumer t ↔ Registered i.bus.consumer t ∧ a ≠ .unregister t) ∧
        (Registered i.bus.consumer t →
          (j.worker t).enqueued = (i.worker t).enqueued ++ arrival t a) ∧
        (¬ Registered i.bus.consumer t → (j.worker t).enqueued = (i.worker t).enqueued) := by
    intro j hwatchers henqueued harrival ha
    rw [henqueued, harrival, List.append_nil, Registered, hwatchers]
    exact ⟨h.congr hwatchers, (and_iff_left ha).symm, fun _ => rfl, fun _ => rfl⟩
  cases a with
  | consume msg commits =>
      obtain ⟨hworld, hwatchers, -, -⟩ := consume_cases hstep
      obtain ⟨-, hreg, hnot⟩ := dispatch_workers h msg i.bus.world t
      refine ⟨h.congr hwatchers, ?_, fun hr => ?_, fun hr => ?_⟩
      · rw [Registered, hwatchers]
        exact (and_iff_left (by simp)).symm
      · rw [worker, hworld]
        exact hreg hr
      · rw [worker, hworld]
        exact congrArg Worker.enqueued (hnot hr)
  | setTables tables =>
      obtain rfl := Option.some.inj hstep
      exact hsame _ (fun _ => rfl) rfl rfl (by simp)
  | work t' =>
      obtain ⟨henqueued, hconsumer⟩ := enqueued_stepWork (t := t) hstep
      exact hsame _ (fun _ => by rw [hconsumer]) henqueued rfl (by simp)
  | setRunning t' =>
      obtain rfl := Option.some.inj hstep
      exact hsame _ (fun _ => rfl) (enqueued_setWorker rfl) rfl (by simp)
  | unregister t' =>
      obtain ⟨bus, hbus, rfl⟩ := onBus_cases hstep
      obtain rfl := Option.some.inj hbus
      refine ⟨h.unregister t', ?_, fun _ => (List.append_nil _).symm, fun _ => rfl⟩
      rw [registered_unregister h]
      simp
  | wakeUpAll t' =>
      obtain rfl := Option.some.inj hstep
      exact hsame _ (fun _ => rfl) (enqueued_setWorker (Worker.enqueued_wakeUpAll _)) rfl (by simp)
  | stop =>
      obtain ⟨bus, hbus, rfl⟩ := onBus_cases hstep
      obtain rfl := Option.some.inj hbus
      exact hsame _ (fun _ => rfl) rfl rfl (by simp)

/-- The tables after a step. -/
def tablesBy (tables : Receivers) : Label → Receivers
  | .setTables tables => tables
  | _ => tables

theorem tables_step {a : Label} (hstep : i.step parse a = some i') :
    i'.tables = tablesBy i.tables a := by
  cases a with
  | consume msg commits => exact (consume_cases hstep).2.2.1
  | setTables tables =>
      obtain rfl := Option.some.inj hstep
      rfl
  | work t' =>
      have hwork : i.stepWork parse t' = some i' := hstep
      unfold stepWork at hwork
      split at hwork
      · obtain rfl := Option.some.inj hwork
        rfl
      · cases hwork
      · obtain rfl := Option.some.inj hwork
        rfl
      · obtain rfl := Option.some.inj hwork
        rfl
      · cases hwork
  | setRunning t' =>
      obtain rfl := Option.some.inj hstep
      rfl
  | unregister t' =>
      obtain ⟨bus, -, rfl⟩ := onBus_cases hstep
      rfl
  | wakeUpAll t' =>
      obtain rfl := Option.some.inj hstep
      rfl
  | stop =>
      obtain ⟨bus, -, rfl⟩ := onBus_cases hstep
      rfl

/-! ## What a receiver has posted -/

/-- The tables that are held after these steps. -/
def tablesAfter (start : Receivers) (labels : List Label) : Receivers := labels.foldl tablesBy start

/-- A message that the receiver is through with, and the steps before the one that posted it. -/
structure Delivery where
  before : List Label
  message : Str × Str

/-- Along these steps the receiver has posted, in this step of its thread, the message it was in
    the body with. -/
structure Delivery.Made (d : Delivery) (parse : Str → Option Venue.Json) (start : Ingestion)
    (labels : List Label) (t : MsgType) : Prop where
  step : d.before ++ [.work t] <+: labels
  handling : ∃ i, run (Ingestion.step parse) start d.before = some i ∧
    (i.worker t).pc = .handling d.message

/-- The messages the receiver has handled but for the one it is in the body with were each posted
    in a step of their own, in their order, to the watchers of the tables that were held then; and
    that is all it has posted. -/
def Posted (parse : Str → Option Venue.Json) (start : Ingestion) (labels : List Label)
    (i : Ingestion) (t : MsgType) : Prop :=
  ∃ done : List Delivery, (∀ d ∈ done, d.Made parse start labels t) ∧
    done.Pairwise (fun d d' => d.before ++ [.work t] <+: d'.before) ∧
    done.map Delivery.message ++ Worker.inBody (i.worker t).pc = (i.worker t).handled ∧
    i.posts t = start.posts t ++ done.flatMap fun d =>
      (tablesAfter start.tables d.before).post (message parse t d.message)

theorem Effect.sound {a : Label} (h : Effect parse i a i' t) (hsound : (i.worker t).Sound) :
    (i'.worker t).Sound := by
  cases h with
  | others hothers hposts => exact hothers.sound hsound
  | wait hpc hworker hposts =>
      rw [hworker]
      exact hsound.wait hpc
  | check note hpc hworker hposts =>
      rw [hworker]
      exact hsound.check hpc
  | post ha m hpc hworker hposts =>
      rw [hworker]
      exact hsound.finish hpc

end Steps

/-! ## Runs -/

/-- The messages of its topic that are consumed until the receiver unregisters. -/
def received (t : MsgType) : List Label → List (Str × Str)
  | [] => []
  | .unregister t' :: rest => if t' = t then [] else received t rest
  | a :: rest => arrival t a ++ received t rest

theorem received_cons (t : MsgType) (a : Label) (rest : List Label) (h : a ≠ .unregister t) :
    received t (a :: rest) = arrival t a ++ received t rest := by
  cases a with
  | unregister t' =>
      rw [received, if_neg (fun ht => h (congrArg Label.unregister ht))]
      rfl
  | consume msg commits => rfl
  | setTables tables => rfl
  | work t' => rfl
  | setRunning t' => rfl
  | wakeUpAll t' => rfl
  | stop => rfl

section Runs

variable {parse : Str → Option Venue.Json} {i i' : Ingestion} {t : MsgType} {labels : List Label}

theorem sound_run (h : Wired i.bus.consumer) (hsound : (i.worker t).Sound)
    (hrun : run (step parse) i labels = some i') : (i'.worker t).Sound := by
  induction labels generalizing i with
  | nil =>
      obtain rfl := Option.some.inj hrun
      exact hsound
  | cons a rest ih =>
      obtain ⟨j, hj, hrest⟩ := Option.bind_eq_some_iff.mp hrun
      exact ih (arrival_step (t := t) h hj).1 ((effect_step h hj).sound hsound) hrest

theorem wired_run (h : Wired i.bus.consumer) (hrun : run (step parse) i labels = some i') :
    Wired i'.bus.consumer := by
  induction labels generalizing i with
  | nil =>
      obtain rfl := Option.some.inj hrun
      exact h
  | cons a rest ih =>
      obtain ⟨j, hj, hrest⟩ := Option.bind_eq_some_iff.mp hrun
      exact ih (arrival_step (t := .state) h hj).1 hrest

theorem tables_run (hrun : run (step parse) i labels = some i') :
    i'.tables = tablesAfter i.tables labels := by
  induction labels generalizing i with
  | nil =>
      obtain rfl := Option.some.inj hrun
      rfl
  | cons a rest ih =>
      obtain ⟨j, hj, hrest⟩ := Option.bind_eq_some_iff.mp hrun
      rw [ih hrest, tables_step hj]
      rfl

theorem Delivery.Made.mono {d : Delivery} (h : d.Made parse i labels t) (a : Label) :
    d.Made parse i (labels ++ [a]) t :=
  ⟨h.step.trans (List.prefix_append _ _), h.handling⟩

theorem posted_run (h : Wired i.bus.consumer) (hstart : (i.worker t).handled = [])
    (hbody : Worker.inBody (i.worker t).pc = []) (hrun : run (step parse) i labels = some i') :
    Posted parse i labels i' t := by
  -- On the last step, which posts the message in hand or nothing.
  induction labels using List.reverseRecOn generalizing i' with
  | nil =>
      obtain rfl := Option.some.inj hrun
      exact ⟨[], fun _ hd => absurd hd List.not_mem_nil, .nil, by rw [hbody, hstart]; rfl,
        (List.append_nil _).symm⟩
  | append_singleton labels a ih =>
      rw [run_concat] at hrun
      obtain ⟨j, hj, hstep⟩ := Option.bind_eq_some_iff.mp hrun
      obtain ⟨done, hdone, hordered, hhandled, hposts⟩ := ih hj
      have hmade : ∀ d ∈ done, d.Made parse i (labels ++ [a]) t := fun d hd => (hdone d hd).mono a
      cases effect_step (t := t) (wired_run h hj) hstep with
      | others hothers hsame =>
          refine ⟨done, hmade, hordered, ?_, hsame.trans hposts⟩
          rw [hothers.inBody, hothers.handled, hhandled]
      | wait hpc hworker hsame =>
          refine ⟨done, hmade, hordered, ?_, hsame.trans hposts⟩
          rw [hworker, Worker.inBody_wait, Worker.handled_wait, ← hhandled, hpc]
          rfl
      | check note hpc hworker hsame =>
          refine ⟨done, hmade, hordered, ?_, hsame.trans hposts⟩
          rw [hworker, Worker.handled_check, ← hhandled, hpc]
          simp [Worker.inBody]
      | post ha m hpc hworker hsame =>
          -- The message leaves the body, posted with the tables as they are.
          subst ha
          refine ⟨done ++ [⟨labels, m⟩], ?_, ?_, ?_, ?_⟩
          · intro d hd
            rcases List.mem_append.mp hd with hd | hd
            · exact hmade d hd
            · rw [List.mem_singleton.mp hd]
              exact ⟨List.prefix_refl _, j, hj, hpc⟩
          · rw [List.pairwise_append]
            refine ⟨hordered, List.pairwise_singleton _ _, fun d hd d' hd' => ?_⟩
            rw [List.mem_singleton.mp hd']
            exact (hdone d hd).step
          · rw [hpc] at hhandled
            rw [hworker, List.map_append, List.map_singleton]
            show done.map Delivery.message ++ [m] ++ [] = (j.worker t).handled
            rw [List.append_nil]
            exact hhandled
          · rw [hsame, hposts, List.flatMap_append, List.flatMap_singleton, tables_run hj,
              List.append_assoc]

theorem not_registered_run (h : Wired i.bus.consumer) (hreg : ¬ Registered i.bus.consumer t)
    (hrun : run (step parse) i labels = some i') :
    (i'.worker t).enqueued = (i.worker t).enqueued := by
  induction labels generalizing i with
  | nil =>
      obtain rfl := Option.some.inj hrun
      rfl
  | cons a rest ih =>
      obtain ⟨j, hj, hrest⟩ := Option.bind_eq_some_iff.mp hrun
      obtain ⟨hwired, hiff, -, hnot⟩ := arrival_step (t := t) h hj
      rw [ih hwired (fun hr => hreg (hiff.mp hr).1) hrest, hnot hreg]

/-- What is put into a queue are the messages the receiver is there for. -/
theorem enqueued_run (h : Wired i.bus.consumer) (hreg : Registered i.bus.consumer t)
    (hrun : run (step parse) i labels = some i') :
    (i'.worker t).enqueued = (i.worker t).enqueued ++ received t labels := by
  induction labels generalizing i with
  | nil =>
      obtain rfl := Option.some.inj hrun
      exact (List.append_nil _).symm
  | cons a rest ih =>
      obtain ⟨j, hj, hrest⟩ := Option.bind_eq_some_iff.mp hrun
      obtain ⟨hwired, hiff, henqueued, -⟩ := arrival_step (t := t) h hj
      by_cases ha : a = .unregister t
      · subst ha
        have hnot : ¬ Registered j.bus.consumer t := fun hr => (hiff.mp hr).2 rfl
        rw [not_registered_run hwired hnot hrest, henqueued hreg, received, if_pos rfl]
        rfl
      · rw [received_cons t a rest ha, ih hwired (hiff.mpr ⟨hreg, ha⟩) hrest, henqueued hreg,
          List.append_assoc]

end Runs

/-! ## From the start of the daemon -/

/-- The consumer after `startUp`. -/
def startedConsumer : KafkaConsumer Watcher :=
  let c : KafkaConsumer Watcher := {}
  let c := (c.registerTopicWatcher SERVICE_EVENTS .busMessageReceived).2
  let c := (c.registerTopicWatcher (topicOf .state) (.received .state)).2
  let c := (c.registerTopicWatcher (topicOf .connection) (.received .connection)).2
  let c := (c.registerTopicWatcher (topicOf .health) (.received .health)).2
  { c with polling := .on c.topics }

/-- The service after its start. -/
def started : Ingestion where
  bus := { consumer := startedConsumer, world := startedWorld }

/-- The subscriptions of the start-up, one after the other. -/
theorem run_startUp :
    run (KafkaConsumer.step call) { world := startedWorld } startUp = some started.bus := rfl

theorem wired_startedConsumer : Wired startedConsumer where
  receivers t := by
    cases t with
    | state => exact .inl rfl
    | connection => exact .inl rfl
    | health => exact .inl rfl
  service := rfl
  others topic htopic hservice := by
    show KafkaConsumer.watchersOf (KafkaConsumer.registerTopicWatcher _ _ _).2 topic = []
    rw [KafkaConsumer.watchersOf_register, if_neg (htopic .health),
      KafkaConsumer.watchersOf_register, if_neg (htopic .connection),
      KafkaConsumer.watchersOf_register, if_neg (htopic .state),
      KafkaConsumer.watchersOf_register, if_neg hservice]
    rfl

/-- However the threads of the bus, of the receivers and of the boards take turns: each receiver
    handles the messages of its topic in the order in which they were consumed, each once and
    none before its turn, until it unregisters; it has handled all of them when it waits; and each
    message it is through with was posted once, to the watchers that the tables had then, and
    nothing else was. -/
theorem ingestion (parse : Str → Option Venue.Json) (labels : List Label) (i : Ingestion)
    (t : MsgType) (hrun : run (step parse) started labels = some i) :
    (i.worker t).handled <+: received t labels ∧
      ((i.worker t).pc = .waiting → (i.worker t).handled = received t labels) ∧
      Posted parse started labels i t := by
  have hreg : Registered started.bus.consumer t :=
    (wired_startedConsumer.receivers t).resolve_right (by cases t <;> exact List.cons_ne_nil _ _)
  have henqueued : (i.worker t).enqueued = received t labels :=
    (enqueued_run wired_startedConsumer hreg hrun).trans (List.nil_append _)
  have hstart : (started.worker t).Sound := Worker.sound_start.setRunning true
  have hsound : (i.worker t).Sound := sound_run wired_startedConsumer hstart hrun
  exact ⟨henqueued ▸ hsound.handled_prefix_enqueued,
    fun hpc => (hsound.handled_of_waiting hpc).trans henqueued,
    posted_run wired_startedConsumer rfl rfl hrun⟩

/-- Two state messages of a device, whose watcher is another one when the second is posted. -/
def twoStates : List Label :=
  [.setTables { state := Venue.StateReceiver.register ∅ 1 7 },
    .consume ⟨"state".toList, ['k'], ['x']⟩ true, .consume ⟨"connection".toList, ['k'], ['y']⟩ true,
    .work .state, .work .state, .consume ⟨"state".toList, ['k'], ['z']⟩ true, .work .state,
    .setTables { state := Venue.StateReceiver.register ∅ 1 8 },
    .work .state, .work .state, .work .state, .work .state]

/-- A parser that finds the state of the device 1 in every text. -/
def parseState (_ : Str) : Option Venue.Json :=
  some (.obj [("payload".toList,
    .obj [("state".toList, .null), ("serial".toList, .str ['1'])])])

/-- Both are handled, and one is posted to each of the watchers. -/
theorem ingestion_twoStates :
    ∃ i, run (step parseState) started twoStates = some i ∧
      (i.worker .state).handled = [(['k'], ['x']), (['k'], ['z'])] ∧
      (i.posts .state).map Prod.fst = [7, 8] ∧ Posted parseState started twoStates i .state := by
  have hrun : ∃ i, run (step parseState) started twoStates = some i ∧
      (i.worker .state).pc = .waiting := ⟨_, rfl, rfl⟩
  obtain ⟨i, hi, hpc⟩ := hrun
  obtain ⟨-, hall, hposted⟩ := ingestion parseState twoStates i .state hi
  have hwatchers : (run (step parseState) started twoStates).map
      (fun i => (i.posts .state).map Prod.fst) = some [7, 8] := by
    decide +kernel
  rw [hi] at hwatchers
  exact ⟨i, hi, hall hpc, Option.some.inj hwatchers, hposted⟩

end Ingestion

end OwAnalytics.Bus
