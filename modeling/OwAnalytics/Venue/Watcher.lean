/-
  OwAnalytics.Venue.Watcher

  The registrations of a `VenueWatcher` (`VenueWatcher.h`, `VenueWatcher.cpp`):
  its construction from a device list, `Start`, `Stop` and `ModifySerialNumbers`,
  with what each of them does to the tables of the receivers and to the AP
  objects the watcher owns.
-/

import OwAnalytics.Objects
import OwAnalytics.Venue.Receivers

namespace OwAnalytics.Venue

open SortedMerge

/-- The identity of an `AP` object. -/
abbrev APPtr := Nat

/-- `APs_`. -/
abbrev APMap := Std.ExtTreeMap Serial APPtr compare

/-- A watcher of a board's venue. -/
structure VenueWatcher where
  /-- The address of the object. -/
  this : WatcherPtr
  boardId : Str
  venueId : Str
  serialNumbers : List Serial
  aPs : APMap := ∅

/-- What the watchers share: the receivers, and the identity of the next `AP` made. -/
structure Shared where
  receivers : Receivers := {}
  nextAP : APPtr := 0

/-- Sorting, then dropping repetitions: `std::sort`, `std::unique` and `erase`. -/
def sortUnique (serials : List Serial) : List Serial :=
  (serials.insertionSort (· ≤ ·)).destutter (· ≠ ·)

namespace VenueWatcher

/-- The constructor. -/
def make (this : WatcherPtr) (boardId venueId : Str) (serialNumbers : List Serial) :
    VenueWatcher where
  this := this
  boardId := boardId
  venueId := venueId
  serialNumbers := sortUnique serialNumbers

/-- `APs_[mac] = std::make_shared<AP>(mac, ...)`. -/
def makeAP (s : APMap × APPtr) (mac : Serial) : APMap × APPtr := (s.1.insert mac s.2, s.2 + 1)

/-- `Start`: the `AP`s are made, and the devices registered. -/
def start (w : VenueWatcher) (shared : Shared) : VenueWatcher × Shared :=
  let (aPs, nextAP) := w.serialNumbers.foldl makeAP (w.aPs, shared.nextAP)
  let r := shared.receivers
  ({ w with aPs },
    { receivers :=
        { state := w.serialNumbers.foldl (fun n i => StateReceiver.register n i w.this) r.state
          deviceStatus := DeviceStatusReceiver.register r.deviceStatus w.serialNumbers w.this
          health := HealthReceiver.register r.health w.serialNumbers w.this }
      nextAP })

/-- `Stop`, once the worker has been joined. -/
def stop (w : VenueWatcher) (shared : Shared) : Shared :=
  let r := shared.receivers
  { shared with
    receivers :=
      { state := w.serialNumbers.foldl (fun n i => StateReceiver.deRegister n i w.this) r.state
        deviceStatus := DeviceStatusReceiver.deRegister r.deviceStatus w.this
        health := HealthReceiver.deRegister r.health w.this } }

/-- The serial numbers of one list only. -/
def diff (w : VenueWatcher) (serialNumbers : List Serial) : List Serial :=
  symmetricDifference w.serialNumbers serialNumbers

/-- The serial numbers that go. -/
def toRemove (w : VenueWatcher) (serialNumbers : List Serial) : List Serial :=
  intersection w.serialNumbers (w.diff serialNumbers)

/-- The serial numbers that come. -/
def toAdd (w : VenueWatcher) (serialNumbers : List Serial) : List Serial :=
  intersection serialNumbers (w.diff serialNumbers)

/-- `ModifySerialNumbers`. -/
def modifySerialNumbers (w : VenueWatcher) (serialNumbers : List Serial) (shared : Shared) :
    VenueWatcher × Shared :=
  let r := shared.receivers
  let removed := w.toRemove serialNumbers
  let added := w.toAdd serialNumbers
  let state := removed.foldl (fun n i => StateReceiver.deRegister n i w.this) r.state
  let aPs := removed.foldl (fun m i => m.erase i) w.aPs
  let state := added.foldl (fun n i => StateReceiver.register n i w.this) state
  let (aPs, nextAP) := added.foldl makeAP (aPs, shared.nextAP)
  ({ w with aPs, serialNumbers },
    { receivers :=
        { state
          health := HealthReceiver.register r.health serialNumbers w.this
          deviceStatus := DeviceStatusReceiver.register r.deviceStatus serialNumbers w.this }
      nextAP })

end VenueWatcher

/-! ## Device lists -/

theorem strictSorted_sortUnique (serials : List Serial) : StrictSorted (sortUnique serials) :=
  strictSorted_destutter (List.pairwise_insertionSort (· ≤ ·) serials)

theorem StrictSorted.nodup {l : List Serial} (h : StrictSorted l) : l.Nodup :=
  h.imp fun hlt => hlt.ne

/-- Sorting a strictly ascending list and dropping repetitions changes nothing. -/
theorem sortUnique_of_strictSorted {l : List Serial} (h : StrictSorted l) : sortUnique l = l := by
  have hle : l.Pairwise (· ≤ ·) := h.imp fun hlt => hlt.le
  have hsort : l.insertionSort (· ≤ ·) = l := hle.insertionSort_eq
  rw [sortUnique, hsort]
  exact List.destutter_of_isChain (· ≠ ·) l ((h.imp fun hlt => hlt.ne).isChain)

namespace VenueWatcher

variable {w : VenueWatcher} {serialNumbers : List Serial}

theorem strictSorted_diff (hold : StrictSorted w.serialNumbers)
    (hnew : StrictSorted serialNumbers) : StrictSorted (w.diff serialNumbers) :=
  strictSorted_symmetricDifference hold hnew

/-- The serial numbers that are dropped. -/
theorem mem_toRemove (hold : StrictSorted w.serialNumbers) (hnew : StrictSorted serialNumbers)
    (k : Serial) : k ∈ w.toRemove serialNumbers ↔ k ∈ w.serialNumbers ∧ k ∉ serialNumbers := by
  rw [toRemove, mem_intersection hold (strictSorted_diff hold hnew), diff,
    mem_symmetricDifference hold hnew]
  tauto

/-- The serial numbers that are new. -/
theorem mem_toAdd (hold : StrictSorted w.serialNumbers) (hnew : StrictSorted serialNumbers)
    (k : Serial) : k ∈ w.toAdd serialNumbers ↔ k ∈ serialNumbers ∧ k ∉ w.serialNumbers := by
  rw [toAdd, mem_intersection hnew (strictSorted_diff hold hnew), diff,
    mem_symmetricDifference hold hnew]
  tauto

theorem nodup_toRemove (hold : StrictSorted w.serialNumbers) :
    (w.toRemove serialNumbers).Nodup :=
  hold.nodup.sublist (intersection_sublist _ _)

theorem nodup_toAdd (hnew : StrictSorted serialNumbers) : (w.toAdd serialNumbers).Nodup :=
  hnew.nodup.sublist (intersection_sublist _ _)

/-! ## What the tables say afterwards -/

/-- A started watcher is registered for its serial numbers. -/
theorem agree_start {shared : Shared} {reg : Registry} (h : shared.receivers.Agree reg)
    (hfresh : reg w.this = none) (hsorted : StrictSorted w.serialNumbers) :
    (w.start shared).2.receivers.Agree (Function.update reg w.this (some w.serialNumbers)) where
  -- The state receiver keeps a list for each serial number, the other two a set for each watcher.
  state k p := by
    show (StateReceiver.watchersOf (w.serialNumbers.foldl _ shared.receivers.state) k).count p = _
    rw [StateReceiver.count_foldl_register _ hsorted.nodup, h.state]
    by_cases hp : p = w.this
    · subst hp
      simp [hfresh]
    · rw [Function.update_of_ne hp]
      simp [Ne.symm hp]
  health p := by
    show (registerSet shared.receivers.health w.serialNumbers w.this)[p]? = _
    rw [getElem?_registerSet, h.health]
    by_cases hp : p = w.this
    · subst hp
      simp
    · rw [if_neg hp, Function.update_of_ne hp]
  deviceStatus p := by
    show (registerSet shared.receivers.deviceStatus w.serialNumbers w.this)[p]? = _
    rw [getElem?_registerSet, h.deviceStatus]
    by_cases hp : p = w.this
    · subst hp
      simp
    · rw [if_neg hp, Function.update_of_ne hp]

/-- A stopped watcher is registered for nothing. -/
theorem agree_stop {shared : Shared} {reg : Registry} (h : shared.receivers.Agree reg)
    (hreg : reg w.this = some w.serialNumbers) (hsorted : StrictSorted w.serialNumbers) :
    (w.stop shared).receivers.Agree (Function.update reg w.this none) where
  state k p := by
    show (StateReceiver.watchersOf (w.serialNumbers.foldl _ shared.receivers.state) k).count p = _
    rw [StateReceiver.count_foldl_deRegister _ hsorted.nodup, h.state]
    -- the watcher's own entry goes, those of the others stay
    by_cases hp : p = w.this
    · subst hp
      simp [hreg]
    · rw [Function.update_of_ne hp]
      simp [Ne.symm hp]
  health p := by
    show (deRegisterSet shared.receivers.health w.this)[p]? = _
    rw [getElem?_deRegisterSet, h.health]
    by_cases hp : p = w.this
    · subst hp
      simp
    · rw [if_neg hp, Function.update_of_ne hp]
  deviceStatus p := by
    show (deRegisterSet shared.receivers.deviceStatus w.this)[p]? = _
    rw [getElem?_deRegisterSet, h.deviceStatus]
    by_cases hp : p = w.this
    · subst hp
      simp
    · rw [if_neg hp, Function.update_of_ne hp]

/-- A modified watcher is registered for the new serial numbers. -/
theorem agree_modify {shared : Shared} {reg : Registry} (h : shared.receivers.Agree reg)
    (hreg : reg w.this = some w.serialNumbers) (hold : StrictSorted w.serialNumbers)
    (hnew : StrictSorted serialNumbers) :
    (w.modifySerialNumbers serialNumbers shared).2.receivers.Agree
      (Function.update reg w.this (some serialNumbers)) where
  state k p := by
    show (StateReceiver.watchersOf ((w.toAdd serialNumbers).foldl _
      ((w.toRemove serialNumbers).foldl _ shared.receivers.state)) k).count p = _
    rw [StateReceiver.count_foldl_register _ (nodup_toAdd hnew),
      StateReceiver.count_foldl_deRegister _ (nodup_toRemove hold), h.state]
    simp only [mem_toAdd hold hnew, mem_toRemove hold hnew]
    by_cases hp : p = w.this
    · subst hp
      rw [hreg, Function.update_self]
      -- Added, removed, kept or in neither list.
      by_cases h1 : k ∈ w.serialNumbers <;> by_cases h2 : k ∈ serialNumbers <;> simp [h1, h2]
    · rw [Function.update_of_ne hp]
      simp [Ne.symm hp]
  health p := by
    show (registerSet shared.receivers.health serialNumbers w.this)[p]? = _
    rw [getElem?_registerSet, h.health]
    by_cases hp : p = w.this
    · subst hp
      simp
    · rw [if_neg hp, Function.update_of_ne hp]
  deviceStatus p := by
    show (registerSet shared.receivers.deviceStatus serialNumbers w.this)[p]? = _
    rw [getElem?_registerSet, h.deviceStatus]
    by_cases hp : p = w.this
    · subst hp
      simp
    · rw [if_neg hp, Function.update_of_ne hp]

/-! ## The AP objects -/

/-- The map holds an `AP` for exactly the serial numbers of the list. -/
def KeysAre (m : APMap) (l : List Serial) : Prop := ∀ k, (m[k]?).isSome ↔ k ∈ l

/-- Making an `AP` for each of a list leaves the others alone. -/
theorem getElem?_foldl_makeAP_of_notMem {l : List Serial} {k : Serial} (hk : k ∉ l)
    (m : APMap) (n : APPtr) : (l.foldl makeAP (m, n)).1[k]? = m[k]? := by
  induction l generalizing m n with
  | nil => rfl
  | cons i rest ih =>
      rw [List.mem_cons, not_or] at hk
      rw [List.foldl_cons, makeAP, ih hk.2, Std.ExtTreeMap.getElem?_insert]
      simp [Ne.symm hk.1]

theorem isSome_foldl_makeAP (l : List Serial) (m : APMap) (n : APPtr) (k : Serial) :
    ((l.foldl makeAP (m, n)).1[k]?).isSome ↔ k ∈ l ∨ (m[k]?).isSome := by
  induction l generalizing m n with
  | nil => simp
  | cons i rest ih =>
      rw [List.foldl_cons, makeAP, ih, Std.ExtTreeMap.getElem?_insert, List.mem_cons]
      by_cases hik : i = k
      · subst hik
        simp
      · simp [hik, Ne.symm hik]

theorem getElem?_foldl_erase (l : List Serial) (m : APMap) (k : Serial) :
    (l.foldl (fun m i => m.erase i) m)[k]? = if k ∈ l then none else m[k]? := by
  induction l generalizing m with
  | nil => simp
  | cons i rest ih =>
      rw [List.foldl_cons, ih, Std.ExtTreeMap.getElem?_erase]
      by_cases hik : i = k
      · subst hik
        simp
      · by_cases hk : k ∈ rest <;> simp [hik, hk, Ne.symm hik]

theorem keysAre_start (hempty : w.aPs = ∅) (shared : Shared) :
    KeysAre (w.start shared).1.aPs (w.start shared).1.serialNumbers := by
  intro k
  show ((w.serialNumbers.foldl makeAP (w.aPs, shared.nextAP)).1[k]?).isSome ↔ k ∈ w.serialNumbers
  rw [isSome_foldl_makeAP, hempty]
  simp

theorem keysAre_modify (hkeys : KeysAre w.aPs w.serialNumbers)
    (hold : StrictSorted w.serialNumbers) (hnew : StrictSorted serialNumbers) (shared : Shared) :
    KeysAre (w.modifySerialNumbers serialNumbers shared).1.aPs serialNumbers := by
  intro k
  show (((w.toAdd serialNumbers).foldl makeAP
    ((w.toRemove serialNumbers).foldl (fun m i => m.erase i) w.aPs,
      shared.nextAP)).1[k]?).isSome ↔ _
  rw [isSome_foldl_makeAP, getElem?_foldl_erase, mem_toAdd hold hnew]
  simp only [mem_toRemove hold hnew]
  have hk := hkeys k
  by_cases h1 : k ∈ w.serialNumbers <;> by_cases h2 : k ∈ serialNumbers <;> simp_all

/-- The `AP` of a serial number that stays is the same object. -/
theorem getElem?_modify_of_mem (hold : StrictSorted w.serialNumbers)
    (hnew : StrictSorted serialNumbers) (shared : Shared) {k : Serial}
    (h1 : k ∈ w.serialNumbers) (h2 : k ∈ serialNumbers) :
    (w.modifySerialNumbers serialNumbers shared).1.aPs[k]? = w.aPs[k]? := by
  have hadd : k ∉ w.toAdd serialNumbers := fun h => ((mem_toAdd hold hnew k).mp h).2 h1
  have hremove : k ∉ w.toRemove serialNumbers := fun h => ((mem_toRemove hold hnew k).mp h).2 h2
  show ((w.toAdd serialNumbers).foldl makeAP
    ((w.toRemove serialNumbers).foldl (fun m i => m.erase i) w.aPs, shared.nextAP)).1[k]? = _
  rw [getElem?_foldl_makeAP_of_notMem hadd, getElem?_foldl_erase, if_neg hremove]

end VenueWatcher

end OwAnalytics.Venue
