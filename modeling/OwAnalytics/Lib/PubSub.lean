/-
  OwAnalytics.Lib.PubSub

  What a publish/subscribe broker is for: whoever has subscribed to a topic, and has
  not unsubscribed, is called once for each message of it, in the order of the
  subscriptions.  The subscriptions are numbered, so that each can be taken back.
-/

import Mathlib

namespace PubSub

variable {T F : Type*}

/-- A subscription that has been made. -/
structure Subscription (T F : Type*) where
  topic : T
  callback : F
  id : Nat

/-- The number of subscriptions made so far, and those not taken back, in the order they were
    made. -/
structure Broker (T F : Type*) where
  made : Nat := 0
  live : List (Subscription T F) := []

/-- The subscriptions can be told apart by their numbers. -/
structure Broker.Numbered (b : Broker T F) : Prop where
  le_made : ∀ s ∈ b.live, s.id ≤ b.made
  nodup : (b.live.map Subscription.id).Nodup

variable [DecidableEq T]

namespace Broker

/-- A new subscription, with the next id. -/
def subscribe (b : Broker T F) (topic : T) (callback : F) : Broker T F where
  made := b.made + 1
  live := b.live ++ [{ topic, callback, id := b.made + 1 }]

/-- The subscription of that topic and id ends. -/
def unsubscribe (b : Broker T F) (topic : T) (id : Nat) : Broker T F :=
  { b with live := b.live.filter fun s => ¬ (s.topic = topic ∧ s.id = id) }

/-- The subscriptions to a topic: each callback with its number. -/
def entries (b : Broker T F) (topic : T) : List (F × Nat) :=
  (b.live.filter fun s => s.topic = topic).map fun s => (s.callback, s.id)

/-- Who is called for a message of the topic. -/
def subscribers (b : Broker T F) (topic : T) : List F := (b.entries topic).map Prod.fst

/-! ## The numbers -/

omit [DecidableEq T] in
theorem numbered_empty : Numbered ({} : Broker T F) := ⟨by simp, by simp⟩

omit [DecidableEq T] in
theorem Numbered.subscribe {b : Broker T F} (h : b.Numbered) (topic : T) (callback : F) :
    (b.subscribe topic callback).Numbered where
  le_made s hs := by
    rcases List.mem_append.mp hs with hs | hs
    · exact (h.le_made s hs).trans (Nat.le_succ _)
    · rw [List.mem_singleton.mp hs]
      exact le_rfl
  nodup := by
    have hnew : b.made + 1 ∉ b.live.map Subscription.id := by
      intro hmem
      obtain ⟨s, hs, hid⟩ := List.mem_map.mp hmem
      have hle := h.le_made s hs
      omega
    simpa [Broker.subscribe, List.nodup_append, h.nodup] using hnew

theorem Numbered.unsubscribe {b : Broker T F} (h : b.Numbered) (topic : T) (id : Nat) :
    (b.unsubscribe topic id).Numbered where
  le_made s hs := h.le_made s (List.mem_filter.mp hs).1
  nodup := h.nodup.sublist (List.filter_sublist.map _)

/-! ## The entries of a topic -/

@[simp] theorem entries_empty (topic : T) : entries ({} : Broker T F) topic = [] := rfl

theorem entries_subscribe (b : Broker T F) (topic topic' : T) (callback : F) :
    (b.subscribe topic callback).entries topic'
      = if topic = topic' then b.entries topic' ++ [(callback, b.made + 1)]
        else b.entries topic' := by
  by_cases htopic : topic = topic'
  · simp [entries, subscribe, htopic]
  · simp [entries, subscribe, htopic]

theorem le_made_of_mem_entries {b : Broker T F} (h : b.Numbered) {topic : T} {e : F × Nat}
    (he : e ∈ b.entries topic) : e.2 ≤ b.made := by
  obtain ⟨s, hs, rfl⟩ := List.mem_map.mp he
  exact h.le_made s (List.mem_filter.mp hs).1

theorem nodup_entries {b : Broker T F} (h : b.Numbered) (topic : T) :
    ((b.entries topic).map Prod.snd).Nodup := by
  rw [entries, List.map_map]
  exact h.nodup.sublist (List.filter_sublist.map _)

/-- To take back a subscription is to drop its entry. -/
theorem entries_unsubscribe (b : Broker T F) (topic topic' : T) (id : Nat) :
    (b.unsubscribe topic id).entries topic'
      = if topic = topic' then (b.entries topic').filter fun e => e.2 ≠ id
        else b.entries topic' := by
  rw [entries, unsubscribe, List.filter_filter]
  by_cases htopic : topic = topic'
  · subst htopic
    rw [if_pos rfl, entries, List.filter_map, List.filter_filter]
    congr 1
    refine List.filter_congr fun s _ => ?_
    by_cases hs : s.topic = topic <;> simp [hs]
  · rw [if_neg htopic, entries]
    congr 1
    refine List.filter_congr fun s _ => ?_
    by_cases hs : s.topic = topic'
    · simp [hs, Ne.symm htopic]
    · simp [hs]

end Broker

/-! ## Lists that keep the numbers in another form -/

/-- Where the keys differ, to erase the first element of a key is to drop the element. -/
theorem eraseP_eq_filter {α β : Type*} [DecidableEq β] {p : α → Bool} {key : α → β} {k : β}
    {l : List α} (h : (l.map key).Nodup) (hp : ∀ a ∈ l, p a = true ↔ key a = k) :
    l.eraseP p = l.filter fun a => key a ≠ k := by
  induction l with
  | nil => rfl
  | cons a rest ih =>
      rw [List.map_cons, List.nodup_cons] at h
      have hrest : ∀ b ∈ rest, (p b = true ↔ key b = k) := fun b hb =>
        hp b (List.mem_cons_of_mem a hb)
      by_cases ha : key a = k
      · -- it is the only one
        have hothers : ∀ b ∈ rest, decide (key b ≠ k) = true := by
          intro b hb
          rw [decide_eq_true_eq]
          intro hkey
          exact h.1 (ha.trans hkey.symm ▸ List.mem_map_of_mem hb)
        rw [List.eraseP_cons_of_pos ((hp a List.mem_cons_self).mpr ha),
          List.filter_cons_of_neg (by simp [ha]), List.filter_eq_self.mpr hothers]
      · rw [List.eraseP_cons_of_neg (mt (hp a List.mem_cons_self).mp ha),
          List.filter_cons_of_pos (by simp [ha]), ih h.2 hrest]

end PubSub
