/-
  OwAnalytics.Bus.Consumer

  `KafkaConsumer` (`framework/KafkaManager.cpp`): the watchers of the topics, and the
  loop that calls them.  The watchers of a topic are a list of callbacks with their
  numbers, which are counted in 64 bits and kept in an `int`.  As long as no number
  comes twice, the table is a publish/subscribe broker.
-/

import OwAnalytics.Bus.Producer
import OwAnalytics.Lib.PubSub
import OwAnalytics.Lib.Throwing

namespace OwAnalytics.Bus

open PubSub Throwing Transitions

variable {F σ : Type}

/-- `Types::NotifyTable`; the second of a pair is an `int`, by its bits. -/
abbrev NotifyTable (F : Type) := Std.ExtTreeMap Str (List (F × UInt32)) compare

/-- Where `run` stands. -/
inductive Polling
  | idle
  /-- The dispatcher runs, on the topics `Consumer.subscribe` was called with. -/
  | on (topics : Finset Str)
  /-- The dispatcher was stopped, or an exception has ended `run`. -/
  | off

/-- `KafkaConsumer`. -/
structure KafkaConsumer (F : Type) where
  notifiers : NotifyTable F := ∅
  functionId : UInt64 := 1
  topics : Finset Str := ∅
  polling : Polling := .idle

namespace KafkaConsumer

/-- `RegisterTopicWatcher`, with the number it returns. -/
def registerTopicWatcher (c : KafkaConsumer F) (topic : Str) (f : F) :
    UInt64 × KafkaConsumer F :=
  let l :=
    match c.notifiers[topic]? with
    | none => [(f, c.functionId.toUInt32)]
    | some l => l ++ [(f, c.functionId.toUInt32)]
  (c.functionId,
    { c with
      notifiers := c.notifiers.insert topic l
      topics := insert topic c.topics
      functionId := c.functionId + 1 })

/-- `UnregisterTopicWatcher`: the first entry with the number goes, the topic stays. -/
def unregisterTopicWatcher (c : KafkaConsumer F) (topic : Str) (id : UInt64) : KafkaConsumer F :=
  match c.notifiers[topic]? with
  | none => c
  | some l =>
    { c with notifiers := c.notifiers.insert topic (l.eraseP fun entry => entry.2 = id.toUInt32) }

/-- The callback of the dispatcher.  What a watcher throws is caught. -/
def dispatch (call : F → Str → Str → Computation σ Unit) (c : KafkaConsumer F)
    (msg : KafkaMessage) : Computation σ Unit :=
  match c.notifiers[msg.topic]? with
  | none => pure ()
  | some fl => Computation.forEach fl fun entry =>
      Computation.caught (call entry.1 msg.key msg.payload)

/-- The watchers of a topic. -/
def watchersOf (c : KafkaConsumer F) (topic : Str) : List (F × UInt32) :=
  c.notifiers[topic]?.getD []

/-! ## The steps -/

/-- What the callers of the consumer do, and the steps of its thread. -/
inductive Label (F : Type)
  | register (topic : Str) (f : F)
  | unregister (topic : Str) (id : UInt64)
  /-- The beginning of `run`, up to `Dispatcher_->run`. -/
  | start
  /-- A message is consumed; where `Consumer.commit` throws, `run` is over. -/
  | consume (msg : KafkaMessage) (commits : Bool)
  /-- `Dispatcher_->stop()`. -/
  | stop

/-- The consumer and what its callbacks work on. -/
structure State (F σ : Type) where
  consumer : KafkaConsumer F := {}
  world : σ
  /-- The messages `Consumer.commit` has gone through for. -/
  committed : List KafkaMessage := []

/-- A step, if it is enabled; `call` runs a callback. -/
def step (call : F → Str → Str → Computation σ Unit) (s : State F σ) :
    Label F → Option (State F σ)
  | .register topic f => some { s with consumer := (s.consumer.registerTopicWatcher topic f).2 }
  | .unregister topic id =>
    some { s with consumer := s.consumer.unregisterTopicWatcher topic id }
  | .start =>
    match s.consumer.polling with
    | .idle => some { s with consumer := { s.consumer with polling := .on s.consumer.topics } }
    | _ => none
  | .consume msg commits =>
    match s.consumer.polling with
    | .on topics =>
      if msg.topic ∈ topics then
        let world := (s.consumer.dispatch call msg).attempt s.world
        if commits then some { s with world, committed := s.committed ++ [msg] }
        else some { s with world, consumer := { s.consumer with polling := .off } }
      else none
    | _ => none
  | .stop => some { s with consumer := { s.consumer with polling := .off } }

/-! ## The table -/

theorem watchersOf_register (c : KafkaConsumer F) (topic topic' : Str) (f : F) :
    (c.registerTopicWatcher topic f).2.watchersOf topic'
      = if topic = topic' then c.watchersOf topic' ++ [(f, c.functionId.toUInt32)]
        else c.watchersOf topic' := by
  unfold watchersOf registerTopicWatcher
  by_cases htopic : topic = topic'
  · subst htopic
    cases h : c.notifiers[topic]? with
    | none => simp
    | some l => simp
  · cases h : c.notifiers[topic]? with
    | none => simp [Std.ExtTreeMap.getElem?_insert, htopic]
    | some l => simp [Std.ExtTreeMap.getElem?_insert, htopic]

theorem watchersOf_unregister (c : KafkaConsumer F) (topic topic' : Str) (id : UInt64) :
    (c.unregisterTopicWatcher topic id).watchersOf topic'
      = if topic = topic' then
          (c.watchersOf topic').eraseP fun entry => entry.2 = id.toUInt32
        else c.watchersOf topic' := by
  unfold watchersOf unregisterTopicWatcher
  by_cases htopic : topic = topic'
  · subst htopic
    cases h : c.notifiers[topic]? with
    | none => simp [h]
    | some l => simp
  · cases h : c.notifiers[topic]? with
    | none => simp [htopic]
    | some l => simp [Std.ExtTreeMap.getElem?_insert, htopic]

/-- Each watcher of the topic is called, whatever the others throw. -/
theorem dispatch_attempt (call : F → Str → Str → Computation σ Unit) (c : KafkaConsumer F)
    (msg : KafkaMessage) (s : σ) :
    (c.dispatch call msg).attempt s
      = (c.watchersOf msg.topic).foldl
          (fun s entry => (call entry.1 msg.key msg.payload).attempt s) s := by
  unfold dispatch watchersOf
  cases h : c.notifiers[msg.topic]? with
  | none => rfl
  | some fl =>
      show ((Computation.forEach fl fun entry =>
        Computation.caught (call entry.1 msg.key msg.payload)) s).2 = _
      rw [Computation.forEach_caught]
      rfl

/-! ## The broker -/

/-- An entry of the table for one of the broker. -/
def entryOf (e : F × Nat) : F × UInt32 := (e.1, UInt32.ofNat e.2)

/-- The table is the broker's, with numbers of fewer bits. -/
structure Refines (c : KafkaConsumer F) (b : Broker Str F) : Prop where
  numbered : b.Numbered
  functionId : c.functionId = UInt64.ofNat (b.made + 1)
  watchers : ∀ topic, c.watchersOf topic = (b.entries topic).map entryOf

theorem refines_empty : Refines ({} : KafkaConsumer F) {} :=
  ⟨Broker.numbered_empty, rfl, fun topic => by simp [watchersOf]⟩

theorem Refines.register {c : KafkaConsumer F} {b : Broker Str F} (h : Refines c b) (topic : Str)
    (f : F) : Refines (c.registerTopicWatcher topic f).2 (b.subscribe topic f) where
  numbered := h.numbered.subscribe topic f
  functionId := by
    show c.functionId + 1 = UInt64.ofNat (b.made + 1 + 1)
    rw [h.functionId, UInt64.ofNat_add (b.made + 1) 1]
    rfl
  watchers topic' := by
    rw [watchersOf_register, Broker.entries_subscribe, h.watchers topic', h.functionId]
    split
    · rw [List.map_append, List.map_singleton, entryOf, UInt64.toUInt32_ofNat']
    · rfl

/-- The first entry with the number is the one with the number, as long as there are fewer than
    2 ^ 32. -/
theorem Refines.unregister {c : KafkaConsumer F} {b : Broker Str F} (h : Refines c b)
    (hmade : b.made < 2 ^ 32) (topic : Str) {id : UInt64} (hid : id.toNat < 2 ^ 32) :
    Refines (c.unregisterTopicWatcher topic id) (b.unsubscribe topic id.toNat) where
  numbered := h.numbered.unsubscribe topic id.toNat
  functionId := by
    have hsame : (c.unregisterTopicWatcher topic id).functionId = c.functionId := by
      unfold unregisterTopicWatcher
      split <;> rfl
    rw [hsame, h.functionId]
    rfl
  watchers topic' := by
    rw [watchersOf_unregister, Broker.entries_unsubscribe, h.watchers topic']
    split
    · -- the numbers in the table differ where those of the broker do
      rw [List.eraseP_map]
      congr 1
      refine eraseP_eq_filter (Broker.nodup_entries h.numbered topic') fun e he => ?_
      have hle := Broker.le_made_of_mem_entries h.numbered he
      have hlt : e.2 < 2 ^ 32 := by omega
      rw [Function.comp_apply, decide_eq_true_eq, entryOf, ← UInt32.toNat_inj,
        UInt32.toNat_ofNat', UInt64.toNat_toUInt32, Nat.mod_eq_of_lt hlt, Nat.mod_eq_of_lt hid]
    · rfl

/-- A message reaches the subscribers of its topic, each once and in their order. -/
theorem Refines.dispatch {c : KafkaConsumer F} {b : Broker Str F} (h : Refines c b)
    (call : F → Str → Str → Computation σ Unit) (msg : KafkaMessage) (s : σ) :
    (c.dispatch call msg).attempt s
      = (b.subscribers msg.topic).foldl (fun s f => (call f msg.key msg.payload).attempt s) s := by
  rw [dispatch_attempt, h.watchers, Broker.subscribers, List.foldl_map, List.foldl_map]
  rfl

/-! ## Runs -/

/-- What a step means to the broker and to what its subscribers work on. -/
def act (call : F → Str → Str → Computation σ Unit) (s : Broker Str F × σ) :
    Label F → Broker Str F × σ
  | .register topic f => (s.1.subscribe topic f, s.2)
  | .unregister topic id => (s.1.unsubscribe topic id.toNat, s.2)
  | .consume msg _ =>
    (s.1, (s.1.subscribers msg.topic).foldl (fun w f => (call f msg.key msg.payload).attempt w) s.2)
  | .start | .stop => s

/-- The messages consumed, each with whether its commit goes through. -/
def consumed (labels : List (Label F)) : List (KafkaMessage × Bool) :=
  labels.filterMap fun
    | .consume msg commits => some (msg, commits)
    | _ => none

/-- The numbers handed in are numbers of few registrations. -/
def Numbers (labels : List (Label F)) : Prop :=
  labels.length < 2 ^ 32 ∧ ∀ topic id, .unregister topic id ∈ labels → id.toNat < 2 ^ 32

section Runs

variable {call : F → Str → Str → Computation σ Unit} {s s' : State F σ} {b : Broker Str F}

/-- The consumer without regard to where `run` stands. -/
theorem Refines.polling {c : KafkaConsumer F} (h : Refines c b) (polling : Polling) :
    Refines { c with polling } b :=
  ⟨h.numbered, h.functionId, h.watchers⟩

/-- One step of the consumer is one of the broker. -/
theorem refines_step {a : Label F} (h : Refines s.consumer b) (hmade : b.made < 2 ^ 32)
    (hid : ∀ topic id, a = .unregister topic id → id.toNat < 2 ^ 32)
    (hstep : step call s a = some s') :
    Refines s'.consumer (act call (b, s.world) a).1 ∧
      s'.world = (act call (b, s.world) a).2 := by
  cases a with
  | register topic f =>
      obtain rfl := Option.some.inj hstep
      exact ⟨h.register topic f, rfl⟩
  | unregister topic id =>
      obtain rfl := Option.some.inj hstep
      exact ⟨h.unregister hmade topic (hid topic id rfl), rfl⟩
  | start =>
      simp only [step] at hstep
      split at hstep
      · obtain rfl := Option.some.inj hstep
        exact ⟨h.polling _, rfl⟩
      · cases hstep
  | consume msg commits =>
      simp only [step] at hstep
      split at hstep
      · split at hstep
        · split at hstep
          · obtain rfl := Option.some.inj hstep
            exact ⟨h, h.dispatch call msg s.world⟩
          · obtain rfl := Option.some.inj hstep
            exact ⟨h.polling _, h.dispatch call msg s.world⟩
        · cases hstep
      · cases hstep
  | stop =>
      obtain rfl := Option.some.inj hstep
      exact ⟨h.polling _, rfl⟩

theorem made_act (a : Label F) (w : σ) : (act call (b, w) a).1.made ≤ b.made + 1 := by
  cases a with
  | register topic f => exact le_rfl
  | unregister topic id => exact Nat.le_succ _
  | start => exact Nat.le_succ _
  | consume msg commits => exact Nat.le_succ _
  | stop => exact Nat.le_succ _

theorem refines_run {labels : List (Label F)} (h : Refines s.consumer b)
    (hmade : b.made + labels.length < 2 ^ 32)
    (hid : ∀ topic id, .unregister topic id ∈ labels → id.toNat < 2 ^ 32)
    (hrun : run (step call) s labels = some s') :
    Refines s'.consumer (labels.foldl (act call) (b, s.world)).1 ∧
      s'.world = (labels.foldl (act call) (b, s.world)).2 := by
  induction labels generalizing s b with
  | nil =>
      obtain rfl := Option.some.inj hrun
      exact ⟨h, rfl⟩
  | cons a rest ih =>
      obtain ⟨t, ht, hrest⟩ := Option.bind_eq_some_iff.mp hrun
      rw [List.length_cons] at hmade
      obtain ⟨hrefines, hworld⟩ := refines_step h (by omega)
        (fun topic id ha => hid topic id (ha ▸ List.mem_cons_self)) ht
      -- a label makes one subscription at most, so the ids do not wrap within the run
      have hmade' : (act call (b, s.world) a).1.made ≤ b.made + 1 := made_act a s.world
      have hrec := ih hrefines (by omega)
        (fun topic id hmem => hid topic id (List.mem_cons_of_mem a hmem)) hrest
      rw [hworld] at hrec
      exact hrec

/-- A dispatcher that has ended stays ended, and consumes nothing. -/
theorem step_off {a : Label F} (h : s.consumer.polling = .off) (hstep : step call s a = some s') :
    s'.consumer.polling = .off ∧ s'.committed = s.committed ∧ consumed [a] = [] := by
  cases a with
  | register topic f =>
      obtain rfl := Option.some.inj hstep
      exact ⟨h, rfl, rfl⟩
  | unregister topic id =>
      obtain rfl := Option.some.inj hstep
      have hpolling : (s.consumer.unregisterTopicWatcher topic id).polling = .off := by
        unfold unregisterTopicWatcher
        split <;> exact h
      exact ⟨hpolling, rfl, rfl⟩
  | start =>
      simp only [step, h] at hstep
      cases hstep
  | consume msg commits =>
      simp only [step, h] at hstep
      cases hstep
  | stop =>
      obtain rfl := Option.some.inj hstep
      exact ⟨rfl, rfl, rfl⟩

theorem consumed_off {labels : List (Label F)} (h : s.consumer.polling = .off)
    (hrun : run (step call) s labels = some s') :
    consumed labels = [] ∧ s'.committed = s.committed := by
  induction labels generalizing s with
  | nil =>
      obtain rfl := Option.some.inj hrun
      exact ⟨rfl, rfl⟩
  | cons a rest ih =>
      obtain ⟨t, ht, hrest⟩ := Option.bind_eq_some_iff.mp hrun
      obtain ⟨hpolling, hcommitted, ha⟩ := step_off h ht
      obtain ⟨hconsumed, hcommitted'⟩ := ih hpolling hrest
      refine ⟨?_, hcommitted'.trans hcommitted⟩
      rw [← List.singleton_append, consumed, List.filterMap_append]
      exact List.append_eq_nil_iff.mpr ⟨ha, hconsumed⟩

/-- Every message consumed is committed, but for one that ends the loop. -/
theorem commits_run {labels : List (Label F)} (hrun : run (step call) s labels = some s') :
    ∃ msgs last : List KafkaMessage, s'.committed = s.committed ++ msgs ∧ last.length ≤ 1 ∧
      consumed labels = msgs.map (fun msg => (msg, true)) ++ last.map fun msg => (msg, false) := by
  induction labels generalizing s with
  | nil =>
      obtain rfl := Option.some.inj hrun
      exact ⟨[], [], (List.append_nil _).symm, Nat.zero_le _, rfl⟩
  | cons a rest ih =>
      obtain ⟨t, ht, hrest⟩ := Option.bind_eq_some_iff.mp hrun
      obtain ⟨msgs, last, hcommitted, hlast, hconsumed⟩ := ih hrest
      cases a with
      | register topic f =>
          obtain rfl := Option.some.inj ht
          exact ⟨msgs, last, hcommitted, hlast, hconsumed⟩
      | unregister topic id =>
          obtain rfl := Option.some.inj ht
          exact ⟨msgs, last, hcommitted, hlast, hconsumed⟩
      | start =>
          simp only [step] at ht
          split at ht
          · obtain rfl := Option.some.inj ht
            exact ⟨msgs, last, hcommitted, hlast, hconsumed⟩
          · cases ht
      | consume msg commits =>
          simp only [step] at ht
          split at ht
          · split at ht
            · cases commits with
              | true =>
                  obtain rfl := Option.some.inj ht
                  refine ⟨msg :: msgs, last, ?_, hlast, ?_⟩
                  · rw [hcommitted, List.append_assoc, List.singleton_append]
                  · rw [List.map_cons, List.cons_append, ← hconsumed]
                    rfl
              | false =>
                  -- nothing comes after it
                  obtain rfl := Option.some.inj ht
                  obtain ⟨hnone, hsame⟩ := consumed_off rfl hrest
                  refine ⟨[], [msg], ?_, le_rfl, ?_⟩
                  · rw [hsame, List.append_nil]
                  · rw [List.map_nil, List.nil_append, List.map_singleton, ← hnone]
                    rfl
            · cases ht
          · cases ht
      | stop =>
          obtain rfl := Option.some.inj ht
          exact ⟨msgs, last, hcommitted, hlast, hconsumed⟩

end Runs

/-- However registrations, messages and the end of the consumer follow each other, what the
    watchers do is what a publish/subscribe broker has its subscribers do: each message goes to
    those registered for its topic at that moment, once each and in the order of their
    registration, whatever they throw.  Each message is committed after that, but for one whose
    commit throws, and that one is the last. -/
theorem consumer_refines_broker (call : F → Str → Str → Computation σ Unit) (w : σ)
    (labels : List (Label F)) (s : State F σ) (hnumbers : Numbers labels)
    (hrun : run (step call) { world := w } labels = some s) :
    s.world = (labels.foldl (act call) ({}, w)).2 ∧
      ∃ last : List KafkaMessage, last.length ≤ 1 ∧
        consumed labels
          = s.committed.map (fun msg => (msg, true)) ++ last.map fun msg => (msg, false) := by
  refine ⟨?_, ?_⟩
  · have hlength : ({} : Broker Str F).made + labels.length < 2 ^ 32 := by
      rw [Nat.zero_add]
      exact hnumbers.1
    exact (refines_run refines_empty hlength hnumbers.2 hrun).2
  · obtain ⟨msgs, last, hcommitted, hlast, hconsumed⟩ := commits_run hrun
    obtain rfl : s.committed = msgs := hcommitted.trans (List.nil_append _)
    exact ⟨last, hlast, hconsumed⟩

/-- Two watchers of one topic, the first of which throws and then goes. -/
def twoWatchers : List (Label Nat) :=
  [.register ['t'] 7, .register ['t'] 8, .start, .consume ⟨['t'], ['k'], ['x']⟩ true,
    .unregister ['t'] 1, .consume ⟨['t'], ['l'], ['y']⟩ true]

/-- A watcher that notes its call and its key; the watcher 7 then throws. -/
def noting (f : Nat) (key _payload : Str) : Computation (List (Nat × Str)) Unit := do
  Computation.modify (· ++ [(f, key)])
  Computation.ofOption (if f = 7 then none else some ())

theorem consumer_refines_broker_two :
    ∃ s, run (step noting) { world := [] } twoWatchers = some s ∧
      s.world = [(7, ['k']), (8, ['k']), (8, ['l'])] :=
  ⟨_, rfl, (consumer_refines_broker noting [] twoWatchers _
    ⟨by decide, fun topic id h => by
      simp only [twoWatchers, List.mem_cons, Label.unregister.injEq, reduceCtorEq, false_or,
        List.not_mem_nil, or_false] at h
      rw [h.2]
      decide⟩ rfl).1⟩

end KafkaConsumer

end OwAnalytics.Bus
