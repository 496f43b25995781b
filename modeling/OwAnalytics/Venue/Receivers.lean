/-
  OwAnalytics.Venue.Receivers

  The registration tables of the three Kafka receivers (`StateReceiver`,
  `HealthReceiver`, `DeviceStatusReceiver`) and the watchers a message is posted
  to.  The state receiver keeps a list of watchers for each serial number; the
  two others keep a set of serial numbers for each watcher.

  Above them, the registry says what the tables are for: which watcher is
  registered for which serial numbers.
-/

import OwAnalytics.Lib.SortedMerge

namespace OwAnalytics.Venue

open SortedMerge

/-! ## Serial numbers in order -/

scoped instance instLinearOrderUInt64 : LinearOrder UInt64 where
  le_refl := UInt64.le_refl
  le_trans _ _ _ := UInt64.le_trans
  le_antisymm _ _ := UInt64.le_antisymm
  le_total := UInt64.le_total
  lt_iff_le_not_ge a b := by
    rw [UInt64.not_le, iff_and_self]
    exact UInt64.le_of_lt
  toDecidableLE := inferInstance
  toDecidableEq := inferInstance
  toDecidableLT := inferInstance
  min_def _ _ := rfl
  max_def _ _ := rfl
  compare_eq_compareOfLessAndEq _ _ := rfl

/-- A device serial number as `SerialNumberToInt` reads it. -/
abbrev Serial := UInt64

/-- The address of a `VenueWatcher`. -/
abbrev WatcherPtr := Nat

/-! ## The tables -/

/-- `StateReceiver::Notifiers_`. -/
abbrev StateNotifiers := Std.ExtTreeMap Serial (List WatcherPtr) compare

/-- `Notifiers_` of the two receivers that keep a set for each watcher; the map is ordered by
    the addresses of the watchers. -/
abbrev SetNotifiers := Std.ExtTreeMap WatcherPtr (Finset Serial) compare

namespace StateReceiver

/-- `StateReceiver::Register`: the watcher is appended, be it there already or not. -/
def register (notifiers : StateNotifiers) (serialNumber : Serial) (vw : WatcherPtr) :
    StateNotifiers :=
  match notifiers[serialNumber]? with
  | none => notifiers.insert serialNumber [vw]
  | some l => notifiers.insert serialNumber (l ++ [vw])

/-- `StateReceiver::DeRegister`: the first entry of the watcher goes. -/
def deRegister (notifiers : StateNotifiers) (serialNumber : Serial) (vw : WatcherPtr) :
    StateNotifiers :=
  match notifiers[serialNumber]? with
  | none => notifiers
  | some l => notifiers.insert serialNumber (l.erase vw)

/-- The watchers under a serial number. -/
def watchersOf (notifiers : StateNotifiers) (serialNumber : Serial) : List WatcherPtr :=
  notifiers[serialNumber]?.getD []

theorem watchersOf_register (notifiers : StateNotifiers) (k k' : Serial) (vw : WatcherPtr) :
    watchersOf (register notifiers k vw) k'
      = if k = k' then watchersOf notifiers k ++ [vw] else watchersOf notifiers k' := by
  unfold watchersOf register
  cases hk : notifiers[k]? with
  | none =>
      by_cases h : k = k'
      · subst h
        simp
      · simp [Std.ExtTreeMap.getElem?_insert, h]
  | some l =>
      by_cases h : k = k'
      · subst h
        simp
      · simp [Std.ExtTreeMap.getElem?_insert, h]

theorem watchersOf_deRegister (notifiers : StateNotifiers) (k k' : Serial) (vw : WatcherPtr) :
    watchersOf (deRegister notifiers k vw) k'
      = if k = k' then (watchersOf notifiers k).erase vw else watchersOf notifiers k' := by
  unfold watchersOf deRegister
  cases hk : notifiers[k]? with
  | none =>
      by_cases h : k = k'
      · subst h
        simp [hk]
      · simp [h]
  | some l =>
      by_cases h : k = k'
      · subst h
        simp
      · simp [Std.ExtTreeMap.getElem?_insert, h]

/-- How often a watcher is registered under a serial number, after one more registration. -/
theorem count_register (notifiers : StateNotifiers) (k k' : Serial) (vw p : WatcherPtr) :
    (watchersOf (register notifiers k vw) k').count p
      = (watchersOf notifiers k').count p + if k = k' ∧ vw = p then 1 else 0 := by
  rw [watchersOf_register]
  by_cases hk : k = k'
  · subst hk
    rw [if_pos rfl, List.count_append, List.count_singleton]
    by_cases hp : vw = p <;> simp [hp]
  · rw [if_neg hk, if_neg (fun h => hk h.1), add_zero]

/-- How often a watcher is registered under a serial number, after one registration less. -/
theorem count_deRegister (notifiers : StateNotifiers) (k k' : Serial) (vw p : WatcherPtr) :
    (watchersOf (deRegister notifiers k vw) k').count p
      = (watchersOf notifiers k').count p - if k = k' ∧ vw = p then 1 else 0 := by
  rw [watchersOf_deRegister]
  by_cases hk : k = k'
  · subst hk
    rw [if_pos rfl, List.count_erase]
    by_cases hp : vw = p
    · subst hp
      simp
    · simp [hp]
  · rw [if_neg hk, if_neg (fun h => hk h.1), Nat.sub_zero]

/-- Registering a watcher under each of several serial numbers. -/
theorem count_foldl_register (l : List Serial) (hl : l.Nodup) (notifiers : StateNotifiers)
    (k : Serial) (vw p : WatcherPtr) :
    (watchersOf (l.foldl (fun n i => register n i vw) notifiers) k).count p
      = (watchersOf notifiers k).count p + if k ∈ l ∧ vw = p then 1 else 0 := by
  induction l generalizing notifiers with
  | nil => simp
  | cons i rest ih =>
      obtain ⟨hi, hrest⟩ := List.nodup_cons.mp hl
      rw [List.foldl_cons, ih hrest, count_register]
      by_cases hik : i = k
      · subst hik
        simp [hi]
      · have hki : ¬ k = i := fun h => hik h.symm
        simp [hik, hki]

/-- Removing a watcher from each of several serial numbers. -/
theorem count_foldl_deRegister (l : List Serial) (hl : l.Nodup) (notifiers : StateNotifiers)
    (k : Serial) (vw p : WatcherPtr) :
    (watchersOf (l.foldl (fun n i => deRegister n i vw) notifiers) k).count p
      = (watchersOf notifiers k).count p - if k ∈ l ∧ vw = p then 1 else 0 := by
  induction l generalizing notifiers with
  | nil => simp
  | cons i rest ih =>
      obtain ⟨hi, hrest⟩ := List.nodup_cons.mp hl
      rw [List.foldl_cons, ih hrest, count_deRegister]
      by_cases hik : i = k
      · subst hik
        simp [hi]
      · have hki : ¬ k = i := fun h => hik h.symm
        simp [hik, hki]

end StateReceiver

/-- `Register` of the receivers with a set for each watcher. -/
def registerSet (notifiers : SetNotifiers) (serialNumbers : List Serial) (vw : WatcherPtr) :
    SetNotifiers :=
  notifiers.insert vw serialNumbers.toFinset

/-- `DeRegister` of the receivers with a set for each watcher. -/
def deRegisterSet (notifiers : SetNotifiers) (vw : WatcherPtr) : SetNotifiers :=
  notifiers.erase vw

namespace HealthReceiver

/-- `HealthReceiver::Register`. -/
def register (notifiers : SetNotifiers) := registerSet notifiers

/-- `HealthReceiver::DeRegister`. -/
def deRegister (notifiers : SetNotifiers) := deRegisterSet notifiers

end HealthReceiver

namespace DeviceStatusReceiver

/-- `DeviceStatusReceiver::Register`. -/
def register (notifiers : SetNotifiers) := registerSet notifiers

/-- `DeviceStatusReceiver::DeRegister`. -/
def deRegister (notifiers : SetNotifiers) := deRegisterSet notifiers

end DeviceStatusReceiver

/-- The tables of the three receivers. -/
structure Receivers where
  state : StateNotifiers := ∅
  health : SetNotifiers := ∅
  deviceStatus : SetNotifiers := ∅

/-! ## The registry -/

/-- Which watchers are registered, each for which serial numbers. -/
abbrev Registry := WatcherPtr → Option (List Serial)

/-- The tables say what the registry says: the state receiver holds a registered watcher once
    under each of its serial numbers, the others hold its set, and no table holds any other
    watcher. -/
structure Receivers.Agree (r : Receivers) (reg : Registry) : Prop where
  state : ∀ k p, (StateReceiver.watchersOf r.state k).count p
    = if k ∈ (reg p).getD [] then 1 else 0
  health : ∀ p, r.health[p]? = (reg p).map List.toFinset
  deviceStatus : ∀ p, r.deviceStatus[p]? = (reg p).map List.toFinset

theorem agree_empty : Receivers.Agree {} fun _ => none where
  state k p := by simp [StateReceiver.watchersOf]
  health p := by simp
  deviceStatus p := by simp

theorem getElem?_registerSet (notifiers : SetNotifiers) (serials : List Serial)
    (vw p : WatcherPtr) :
    (registerSet notifiers serials vw)[p]?
      = if p = vw then some serials.toFinset else notifiers[p]? := by
  rw [registerSet, Std.ExtTreeMap.getElem?_insert]
  by_cases h : vw = p
  · subst h
    simp
  · simp [h, Ne.symm h]

theorem getElem?_deRegisterSet (notifiers : SetNotifiers) (vw p : WatcherPtr) :
    (deRegisterSet notifiers vw)[p]? = if p = vw then none else notifiers[p]? := by
  rw [deRegisterSet, Std.ExtTreeMap.getElem?_erase]
  by_cases h : vw = p
  · subst h
    simp
  · simp [h, Ne.symm h]

end OwAnalytics.Venue
