/-
  OwAnalytics.Venue.Coordinator

  The boards a `VenueCoordinator` watches (`VenueCoordinator.cpp`), step by step:
  `StartBoard` as `run` calls it, `UpdateBoard`, `StopBoard` and `RetireBoard`,
  each executed under the coordinator's mutex.  What the provisioning service and
  the board table answer is part of the label of a step.

  Every reachable state keeps the three receivers, the watchers, their device
  lists and their AP objects in agreement.
-/

import OwAnalytics.Lib.Transitions
import OwAnalytics.Venue.Watcher

namespace OwAnalytics.Venue

open SortedMerge Transitions AnalyticsObjects

/-- What `SDK::Prov::Venue::GetDevices` gives back, the serial numbers as integers. -/
structure VenueDevices where
  success : Bool
  devices : List Serial := []
  venueExists : Bool := true

/-- The provisioning service at the time of a step: its answer for a venue, with or without the
    venues below it. -/
abbrev Prov := Str → Bool → VenueDevices

/-- The coordinator's two maps, `Watchers_` and `ExistingBoards_`, with the receivers' tables. -/
structure VenueCoordinator where
  watchers : Std.ExtTreeMap Str VenueWatcher compare := ∅
  existingBoards : Std.ExtTreeMap Str (List Serial) compare := ∅
  shared : Shared := {}

/-- `venueList[0]`; the boards the service stores have exactly one venue. -/
def firstVenue (b : BoardInfo) : VenueInfo := b.venueList.headD {}

namespace VenueCoordinator

/-- `Watching`. -/
def watching (c : VenueCoordinator) (id : Str) : Bool := (c.existingBoards[id]?).isSome

/-- `StopBoard`. -/
def stopBoard (c : VenueCoordinator) (id : Str) : VenueCoordinator :=
  match c.watchers[id]? with
  | some w => { c with watchers := c.watchers.erase id, shared := w.stop c.shared }
  | none => c

/-- `RetireBoard`, as far as the coordinator itself is concerned. -/
def retireBoard (c : VenueCoordinator) (b : BoardInfo) : VenueCoordinator := c.stopBoard b.info.id

/-- `GetDevicesForBoard`: the devices, if there are any to work with, and `VenueExists`. -/
def getDevicesForBoard (c : VenueCoordinator) (b : BoardInfo) (prov : Prov) :
    Option (List Serial) × Bool × VenueCoordinator :=
  let answer := prov (firstVenue b).id (firstVenue b).monitorSubVenues
  if answer.success then (some (sortUnique answer.devices), answer.venueExists, c)
  else if !answer.venueExists then (none, answer.venueExists, c.retireBoard b)
  else (none, answer.venueExists, c)

/-- `StartBoard` under its lock, the devices being known. -/
def startWatcher (c : VenueCoordinator) (b : BoardInfo) (devices : List Serial)
    (this : WatcherPtr) : VenueCoordinator :=
  let (w, shared) :=
    (VenueWatcher.make this b.info.id (firstVenue b).id devices).start c.shared
  { existingBoards := c.existingBoards.insert b.info.id devices
    watchers := c.watchers.insert b.info.id w
    shared }

/-- `StartBoard`, with the address the new watcher gets. -/
def startBoard (c : VenueCoordinator) (b : BoardInfo) (prov : Prov) (this : WatcherPtr) :
    Bool × VenueCoordinator :=
  if b.venueList.isEmpty then (true, c)
  else
    match c.getDevicesForBoard b prov with
    | (some devices, _, c) => (true, c.startWatcher b devices this)
    | (none, venueExists, c) => (false, if !venueExists then c.retireBoard b else c)

/-- `UpdateBoard` under its lock, the devices being known. -/
def updateWatcher (c : VenueCoordinator) (id : Str) (devices : List Serial) : VenueCoordinator :=
  match c.existingBoards[id]? with
  | none => c
  | some existing =>
      if existing ≠ devices then
        let c :=
          match c.watchers[id]? with
          | some w =>
              let (w, shared) := w.modifySerialNumbers devices c.shared
              { c with watchers := c.watchers.insert id w, shared }
          | none => c
        { c with existingBoards := c.existingBoards.insert id devices }
      else c

/-- `UpdateBoard`, with the record the board table holds. -/
def updateBoard (c : VenueCoordinator) (id : Str) (record : Option BoardInfo) (prov : Prov) :
    VenueCoordinator :=
  match record with
  | none => c
  | some b =>
      match c.getDevicesForBoard b prov with
      | (some devices, _, c) => c.updateWatcher id devices
      | (none, venueExists, c) => if !venueExists then c.retireBoard b else c

/-- The address belongs to a watcher in use. -/
def inUse (c : VenueCoordinator) (this : WatcherPtr) : Bool :=
  c.watchers.toList.any fun entry => entry.2.this == this

end VenueCoordinator

/-! ## Steps -/

/-- The calls that change the coordinator. -/
inductive Action
  | startBoard (b : BoardInfo) (prov : Prov) (this : WatcherPtr)
  | updateBoard (id : Str) (record : Option BoardInfo) (prov : Prov)
  | stopBoard (id : Str)
  | retireBoard (b : BoardInfo)

namespace VenueCoordinator

/-- `run` starts the boards that are not watched, a new watcher has an address of its own, and
    the board table answers with the record asked for. -/
def step (c : VenueCoordinator) : Action → Option VenueCoordinator
  | .startBoard b prov this =>
      if c.watching b.info.id || c.inUse this then none else some (c.startBoard b prov this).2
  | .updateBoard id record prov =>
      if record.all fun b => b.info.id == id then some (c.updateBoard id record prov) else none
  | .stopBoard id => some (c.stopBoard id)
  | .retireBoard b => some (c.retireBoard b)

/-- The coordinator, from its construction on. -/
abbrev system : System VenueCoordinator Action := ofFun {} step

variable {c c' : VenueCoordinator}

/-! ## What a step can do -/

theorem getElem?_insert_eq {α : Type} (m : Std.ExtTreeMap Str α compare) (id k : Str) (v : α) :
    (m.insert id v)[k]? = if k = id then some v else m[k]? := by
  rw [Std.ExtTreeMap.getElem?_insert]
  by_cases hk : k = id
  · subst hk
    simp
  · simp [hk, Ne.symm hk]

theorem stopBoard_stopBoard (c : VenueCoordinator) (id : Str) :
    (c.stopBoard id).stopBoard id = c.stopBoard id := by
  cases hw : c.watchers[id]? with
  | none => simp [stopBoard, hw]
  | some w => simp [stopBoard, hw]

/-- The watcher that `Watchers_` holds for a board. -/
def Watches (c : VenueCoordinator) (id : Str) (w : VenueWatcher) : Prop := c.watchers[id]? = some w

theorem inUse_eq_false_iff (c : VenueCoordinator) (this : WatcherPtr) :
    c.inUse this = false ↔ ∀ id w, c.Watches id w → w.this ≠ this := by
  simp only [Watches, inUse, List.any_eq_false, beq_iff_eq, Prod.forall,
    Std.ExtTreeMap.mem_toList_iff_getElem?_eq_some]

/-- The devices of a board come sorted and leave the coordinator alone; without devices, the
    board may have been stopped. -/
theorem getDevicesForBoard_cases (c : VenueCoordinator) (b : BoardInfo) (prov : Prov) :
    (∃ devices venueExists, StrictSorted devices ∧
        c.getDevicesForBoard b prov = (some devices, venueExists, c)) ∨
      c.getDevicesForBoard b prov = (none, false, c.stopBoard b.info.id) ∨
      c.getDevicesForBoard b prov = (none, true, c) := by
  simp only [getDevicesForBoard, retireBoard]
  by_cases hs : (prov (firstVenue b).id (firstVenue b).monitorSubVenues).success
  · exact .inl ⟨_, _, strictSorted_sortUnique _, by rw [if_pos hs]⟩
  · cases he : (prov (firstVenue b).id (firstVenue b).monitorSubVenues).venueExists with
    | false => exact .inr (.inl (by simp [hs]))
    | true => exact .inr (.inr (by simp [hs]))

/-- Nothing, the end of one watcher, a new watcher for a board that has none, or new devices for
    a board. -/
theorem step_cases {a : Action} (h : c.step a = some c') :
    c' = c ∨ (∃ id, c' = c.stopBoard id) ∨
      (∃ b prov devices this, a = .startBoard b prov this ∧ c.existingBoards[b.info.id]? = none ∧
        (∀ id w, c.Watches id w → w.this ≠ this) ∧ StrictSorted devices ∧
        c' = c.startWatcher b devices this) ∨
      ∃ id devices, StrictSorted devices ∧ c' = c.updateWatcher id devices := by
  cases a with
  | startBoard b prov this =>
      simp only [step] at h
      split at h
      · cases h
      · rename_i hguard
        rw [Bool.or_eq_true, not_or, Bool.not_eq_true, Bool.not_eq_true] at hguard
        obtain ⟨hwatching, hfresh⟩ := hguard
        obtain rfl := Option.some.inj h
        by_cases hvenue : b.venueList.isEmpty
        · exact .inl (by simp [startBoard, hvenue])
        -- The device list: found, gone with its venue, or not to be had.
        · rcases getDevicesForBoard_cases c b prov with ⟨devices, _, hsorted, hget⟩ | hget | hget
          · refine .inr (.inr (.inl ⟨b, prov, devices, this, rfl, ?_,
              (inUse_eq_false_iff c this).mp hfresh, hsorted, by simp [startBoard, hvenue, hget]⟩))
            exact Option.not_isSome_iff_eq_none.mp (Bool.not_eq_true _ ▸ hwatching)
          · refine .inr (.inl ⟨b.info.id, ?_⟩)
            simp [startBoard, hvenue, hget, retireBoard, stopBoard_stopBoard]
          · exact .inl (by simp [startBoard, hvenue, hget])
  | updateBoard id record prov =>
      simp only [step] at h
      split at h
      · obtain rfl := Option.some.inj h
        cases record with
        | none => exact .inl rfl
        | some b =>
            -- As for a new board, but with the devices of the watcher exchanged.
            rcases getDevicesForBoard_cases c b prov with ⟨devices, _, hsorted, hget⟩ | hget | hget
            · exact .inr (.inr (.inr ⟨id, devices, hsorted, by simp [updateBoard, hget]⟩))
            · refine .inr (.inl ⟨b.info.id, ?_⟩)
              simp [updateBoard, hget, retireBoard, stopBoard_stopBoard]
            · exact .inl (by simp [updateBoard, hget])
      · cases h
  | stopBoard id => exact .inr (.inl ⟨id, (Option.some.inj h).symm⟩)
  | retireBoard b => exact .inr (.inl ⟨b.info.id, (Option.some.inj h).symm⟩)

/-! ## The invariant -/

/-- The registry behind the tables: the watchers in use, each with its serial numbers. -/
structure Owned (c : VenueCoordinator) (reg : Registry) : Prop where
  agree : c.shared.receivers.Agree reg
  boardId : ∀ id w, c.Watches id w → w.boardId = id
  existing : ∀ id w, c.Watches id w → c.existingBoards[id]? = some w.serialNumbers
  sorted : ∀ id w, c.Watches id w → StrictSorted w.serialNumbers
  keys : ∀ id w, c.Watches id w → VenueWatcher.KeysAre w.aPs w.serialNumbers
  registered : ∀ id w, c.Watches id w → reg w.this = some w.serialNumbers
  owner : ∀ p, (reg p).isSome → ∃ id w, c.Watches id w ∧ w.this = p
  distinct : ∀ id w id' w', c.Watches id w → c.Watches id' w' → w.this = w'.this → id = id'

/-- What every run of the coordinator keeps. -/
def Inv (c : VenueCoordinator) : Prop := ∃ reg, c.Owned reg

theorem inv_empty : Inv {} := by
  refine ⟨fun _ => none, agree_empty, ?_, ?_, ?_, ?_, ?_, ?_, ?_⟩ <;> simp [Watches]

/-- One board gets another watcher, or none, at an address no other board uses, and the registry
    changes at this address. -/
theorem Owned.change {reg : Registry} (h : c.Owned reg) (id : Str) (p : WatcherPtr)
    (new : Option VenueWatcher)
    (haddress : ∀ k w, c.Watches k w → (k = id ↔ w.this = p))
    (hnew : ∀ w, new = some w → w.this = p ∧ w.boardId = id ∧ StrictSorted w.serialNumbers ∧
      VenueWatcher.KeysAre w.aPs w.serialNumbers ∧ c'.existingBoards[id]? = some w.serialNumbers)
    (hwatchers : ∀ k, c'.watchers[k]? = if k = id then new else c.watchers[k]?)
    (hexisting : ∀ k, k ≠ id → c'.existingBoards[k]? = c.existingBoards[k]?)
    (hagree : c'.shared.receivers.Agree
      (Function.update reg p (new.map VenueWatcher.serialNumbers))) : c'.Inv := by
  -- A watcher after the change is the new one, or one of another board at another address.
  have hcases : ∀ k w, c'.Watches k w →
      (k = id ∧ new = some w) ∨ (k ≠ id ∧ c.Watches k w ∧ w.this ≠ p) := by
    intro k w hk
    rw [Watches, hwatchers] at hk
    by_cases hid : k = id
    · exact .inl ⟨hid, by rwa [if_pos hid] at hk⟩
    · rw [if_neg hid] at hk
      exact .inr ⟨hid, hk, fun hp => hid ((haddress k w hk).mpr hp)⟩
  refine ⟨_, hagree, ?_, ?_, ?_, ?_, ?_, ?_, ?_⟩
  · intro k w hk
    rcases hcases k w hk with ⟨rfl, hw⟩ | ⟨-, hw, -⟩
    · exact (hnew w hw).2.1
    · exact h.boardId k w hw
  · intro k w hk
    rcases hcases k w hk with ⟨rfl, hw⟩ | ⟨hid, hw, -⟩
    · exact (hnew w hw).2.2.2.2
    · rw [hexisting k hid]
      exact h.existing k w hw
  · intro k w hk
    rcases hcases k w hk with ⟨-, hw⟩ | ⟨-, hw, -⟩
    · exact (hnew w hw).2.2.1
    · exact h.sorted k w hw
  · intro k w hk
    rcases hcases k w hk with ⟨-, hw⟩ | ⟨-, hw, -⟩
    · exact (hnew w hw).2.2.2.1
    · exact h.keys k w hw
  · intro k w hk
    rcases hcases k w hk with ⟨-, hw⟩ | ⟨-, hw, hp⟩
    · rw [(hnew w hw).1, Function.update_self, hw, Option.map_some]
    · rw [Function.update_of_ne hp]
      exact h.registered k w hw
  · intro q hq
    by_cases hqp : q = p
    · subst hqp
      rw [Function.update_self, Option.isSome_map, Option.isSome_iff_exists] at hq
      obtain ⟨w, hw⟩ := hq
      exact ⟨id, w, by rw [Watches, hwatchers, if_pos rfl, hw], (hnew w hw).1⟩
    · rw [Function.update_of_ne hqp] at hq
      obtain ⟨k, w, hk, rfl⟩ := h.owner q hq
      have hid : k ≠ id := fun hid => hqp ((haddress k w hk).mp hid)
      exact ⟨k, w, by rw [Watches, hwatchers, if_neg hid]; exact hk, rfl⟩
  · intro k w k' w' hk hk' heq
    rcases hcases k w hk with ⟨hid, hw⟩ | ⟨-, hw, hp⟩ <;>
      rcases hcases k' w' hk' with ⟨hid', hw'⟩ | ⟨-, hw', hp'⟩
    · rw [hid, hid']
    · exact absurd (heq ▸ (hnew w hw).1) hp'
    · exact absurd (heq.trans (hnew w' hw').1) hp
    · exact h.distinct k w k' w' hw hw' heq

/-- The address of a board's watcher is that board's alone. -/
theorem Owned.address {reg : Registry} (h : c.Owned reg) {id : Str} {w : VenueWatcher}
    (hw : c.Watches id w) (k : Str) (w' : VenueWatcher) (hk : c.Watches k w') :
    k = id ↔ w'.this = w.this := by
  refine ⟨?_, h.distinct k w' id w hk hw⟩
  rintro rfl
  rw [Option.some.inj (hk.symm.trans hw)]

theorem inv_stopBoard (h : c.Inv) (id : Str) : (c.stopBoard id).Inv := by
  obtain ⟨reg, h⟩ := h
  cases hw : c.watchers[id]? with
  | none =>
      refine ⟨reg, ?_⟩
      simpa only [stopBoard, hw] using h
  | some w =>
      -- the watcher is no longer registered, and its entry goes
      apply h.change id w.this none (h.address hw)
      · intro _ hnone
        cases hnone
      · intro k
        simp only [stopBoard, hw]
        rw [Std.ExtTreeMap.getElem?_erase]
        by_cases hk : k = id
        · subst hk
          simp
        · simp [hk, Ne.symm hk]
      · intro k _
        simp only [stopBoard, hw]
      · simpa only [stopBoard, hw, Option.map_none] using
          VenueWatcher.agree_stop h.agree (h.registered id w hw) (h.sorted id w hw)

/-- Starting a board that has no watcher. -/
theorem inv_startWatcher (h : c.Inv) {b : BoardInfo} {devices : List Serial} {this : WatcherPtr}
    (hboard : c.existingBoards[b.info.id]? = none) (hfresh : ∀ id w, c.Watches id w → w.this ≠ this)
    (hdevices : StrictSorted devices) : (c.startWatcher b devices this).Inv := by
  obtain ⟨reg, h⟩ := h
  let w := VenueWatcher.make this b.info.id (firstVenue b).id devices
  have hserials : w.serialNumbers = devices := sortUnique_of_strictSorted hdevices
  -- The address is not in use, so the registry knows nothing of it.
  have hunused : reg w.this = none := by
    rw [← Option.not_isSome_iff_eq_none]
    intro hreg
    obtain ⟨id, w', hw', hthis⟩ := h.owner _ hreg
    exact hfresh id w' hw' hthis
  -- A board that has a watcher is among the existing ones.
  have hnone : ∀ w', ¬ c.Watches b.info.id w' := by
    intro w' hw'
    have hexisting := h.existing _ _ hw'
    rw [hboard] at hexisting
    cases hexisting
  apply h.change b.info.id this (some (w.start c.shared).1)
  · intro k w' hk
    refine ⟨?_, fun hthis => absurd hthis (hfresh k w' hk)⟩
    rintro rfl
    exact absurd hk (hnone w')
  · intro w' hw'
    obtain rfl := Option.some.inj hw'
    refine ⟨rfl, rfl, ?_, VenueWatcher.keysAre_start rfl c.shared, ?_⟩
    · show StrictSorted w.serialNumbers
      rwa [hserials]
    · show (c.existingBoards.insert b.info.id devices)[b.info.id]? = some w.serialNumbers
      rw [hserials, Std.ExtTreeMap.getElem?_insert_self]
  · intro k
    show (c.watchers.insert b.info.id (w.start c.shared).1)[k]? = _
    rw [getElem?_insert_eq]
  · intro k hk
    show (c.existingBoards.insert b.info.id devices)[k]? = _
    rw [getElem?_insert_eq, if_neg hk]
  · show (w.start c.shared).2.receivers.Agree (Function.update reg w.this (some w.serialNumbers))
    exact VenueWatcher.agree_start h.agree hunused (by rwa [hserials])

/-- New devices for a board, whether or not it has a watcher. -/
theorem inv_updateWatcher (h : c.Inv) (id : Str) {devices : List Serial}
    (hdevices : StrictSorted devices) : (c.updateWatcher id devices).Inv := by
  unfold updateWatcher
  split
  · exact h
  · split
    · obtain ⟨reg, h⟩ := h
      cases hw : c.watchers[id]? with
      | none =>
          -- Without a watcher only the list of devices changes, and no watcher answers for it.
          refine ⟨reg, h.agree, h.boardId, ?_, h.sorted, h.keys, h.registered, h.owner, h.distinct⟩
          intro k w hk
          have hid : k ≠ id := by
            rintro rfl
            exact absurd (hw.symm.trans hk) (by simp)
          show (c.existingBoards.insert id devices)[k]? = some w.serialNumbers
          rw [getElem?_insert_eq, if_neg hid]
          exact h.existing k w hk
      | some w =>
          have hsorted := h.sorted id w hw
          -- The receivers are told of the difference of the two lists.
          apply h.change id w.this (some (w.modifySerialNumbers devices c.shared).1) (h.address hw)
          · intro w' hw'
            obtain rfl := Option.some.inj hw'
            refine ⟨rfl, h.boardId id w hw, hdevices,
              VenueWatcher.keysAre_modify (h.keys id w hw) hsorted hdevices c.shared, ?_⟩
            exact Std.ExtTreeMap.getElem?_insert_self
          · intro k
            show (c.watchers.insert id (w.modifySerialNumbers devices c.shared).1)[k]? = _
            rw [getElem?_insert_eq]
          · intro k hk
            show (c.existingBoards.insert id devices)[k]? = _
            rw [getElem?_insert_eq, if_neg hk]
          · exact VenueWatcher.agree_modify h.agree (h.registered id w hw) hsorted hdevices
    · exact h

theorem inv_step {a : Action} (h : c.Inv) (hstep : c.step a = some c') : c'.Inv := by
  rcases step_cases hstep with
    rfl |
    ⟨id, rfl⟩ |
    ⟨b, _, devices, this, -, hboard, hfresh, hdevices, rfl⟩ |
    ⟨id, devices, hdevices, rfl⟩
  · exact h
  · exact inv_stopBoard h id
  · exact inv_startWatcher h hboard hfresh hdevices
  · exact inv_updateWatcher h id hdevices

theorem reachable_inv (h : Reachable system c) : c.Inv := by
  refine h.invariant ?_ ?_
  · rintro _ rfl
    exact inv_empty
  · intro _ _ _ _ _ hinv hstep
    exact inv_step hinv hstep

/-! ## Boards that have no watcher -/

/-- A board gets a watcher only from `StartBoard`. -/
theorem watchers_step_none {a : Action} (hstep : c.step a = some c') {k : Str}
    (hk : c.watchers[k]? = none)
    (hstart : ∀ b prov this, a = .startBoard b prov this → b.info.id ≠ k) :
    c'.watchers[k]? = none := by
  rcases step_cases hstep with
    rfl | ⟨id, rfl⟩ | ⟨b, prov, devices, this, ha, -, -, -, rfl⟩ | ⟨id, devices, -, rfl⟩
  · exact hk
  · unfold stopBoard
    split
    · rw [Std.ExtTreeMap.getElem?_erase, hk, ite_self]
    · exact hk
  · show (c.watchers.insert b.info.id _)[k]? = none
    rw [getElem?_insert_eq, if_neg (Ne.symm (hstart b prov this ha)), hk]
  · unfold updateWatcher
    split
    · exact hk
    · split
      · cases hw : c.watchers[id]? with
        | none => exact hk
        | some w =>
            show (c.watchers.insert id _)[k]? = none
            -- The board that is updated has a watcher, so it is another one.
            have hne : k ≠ id := by
              rintro rfl
              rw [hk] at hw
              cases hw
            rw [getElem?_insert_eq, if_neg hne, hk]
      · exact hk

/-- A board that was started once stays known. -/
theorem watching_step {a : Action} (hstep : c.step a = some c') {k : Str}
    (hk : c.watching k = true) : c'.watching k = true := by
  unfold watching at hk ⊢
  -- a board leaves `existingBoards` at no step
  rcases step_cases hstep with
    rfl | ⟨id, rfl⟩ | ⟨b, _, devices, this, -, -, -, -, rfl⟩ | ⟨id, devices, -, rfl⟩
  · exact hk
  · unfold stopBoard
    split
    · exact hk
    · exact hk
  · show ((c.existingBoards.insert b.info.id devices)[k]?).isSome = true
    rw [getElem?_insert_eq]
    split
    · rfl
    · exact hk
  · unfold updateWatcher
    split
    · exact hk
    · split
      · show (((_ : VenueCoordinator).existingBoards.insert id devices)[k]?).isSome = true
        rw [getElem?_insert_eq]
        split
        · rfl
        · split
          · exact hk
          · exact hk
      · exact hk

/-! ## What the invariant says about the tables -/

/-- The device lists, the AP objects and the tables of the receivers agree on a watcher. -/
structure Registered (c : VenueCoordinator) (id : Str) (w : VenueWatcher) : Prop where
  existing : c.existingBoards[id]? = some w.serialNumbers
  sorted : StrictSorted w.serialNumbers
  keys : VenueWatcher.KeysAre w.aPs w.serialNumbers
  health : c.shared.receivers.health[w.this]? = some w.serialNumbers.toFinset
  deviceStatus : c.shared.receivers.deviceStatus[w.this]? = some w.serialNumbers.toFinset
  state : ∀ k, (StateReceiver.watchersOf c.shared.receivers.state k).count w.this
    = if k ∈ w.serialNumbers then 1 else 0

/-- A table of a receiver holds the address. -/
def Receivers.Holds (r : Receivers) (p : WatcherPtr) : Prop :=
  (∃ k, p ∈ StateReceiver.watchersOf r.state k) ∨ p ∈ r.health ∨ p ∈ r.deviceStatus

/-- The registrations are those of the watchers in use. -/
structure RegistrationOk (c : VenueCoordinator) : Prop where
  registered : ∀ id w, c.Watches id w → c.Registered id w
  noDangling : ∀ p, Receivers.Holds c.shared.receivers p → ∃ id w, c.Watches id w ∧ w.this = p
  distinct : ∀ id w id' w', c.Watches id w → c.Watches id' w' → w.this = w'.this → id = id'

theorem Inv.registrationOk (h : c.Inv) : c.RegistrationOk := by
  obtain ⟨reg, h⟩ := h
  refine ⟨?_, ?_, h.distinct⟩
  · intro id w hw
    have hreg := h.registered id w hw
    refine ⟨h.existing id w hw, h.sorted id w hw, h.keys id w hw, ?_, ?_, ?_⟩
    · rw [h.agree.health, hreg, Option.map_some]
    · rw [h.agree.deviceStatus, hreg, Option.map_some]
    · intro k
      rw [h.agree.state, hreg, Option.getD_some]
  · intro p hp
    apply h.owner
    -- a watcher known to any of the three receivers is registered
    rcases hp with ⟨k, hk⟩ | hk | hk
    · have hcount := List.count_pos_iff.mpr hk
      rw [h.agree.state] at hcount
      cases hreg : reg p with
      | none => simp [hreg] at hcount
      | some l => rfl
    · rw [Std.ExtTreeMap.mem_iff_isSome_getElem?, h.agree.health, Option.isSome_map] at hk
      exact hk
    · rw [Std.ExtTreeMap.mem_iff_isSome_getElem?, h.agree.deviceStatus, Option.isSome_map] at hk
      exact hk

/-! ## What a step keeps of a watcher -/

/-- Two states of one watcher: the same object, with the same AP objects for the serial numbers
    of both. -/
structure Continues (w w' : VenueWatcher) : Prop where
  this : w'.this = w.this
  aPs : ∀ k, k ∈ w.serialNumbers → k ∈ w'.serialNumbers → w'.aPs[k]? = w.aPs[k]?

theorem continues_refl (w : VenueWatcher) : Continues w w := ⟨rfl, fun _ _ _ => rfl⟩

/-- A board watched before and after a step is watched by the same watcher. -/
theorem step_continues {a : Action} (h : c.Inv) (hstep : c.step a = some c') {id : Str}
    {w w' : VenueWatcher} (hw : c.Watches id w) (hw' : c'.Watches id w') : Continues w w' := by
  obtain ⟨reg, h⟩ := h
  rcases step_cases hstep with
    rfl |
    ⟨k, rfl⟩ |
    ⟨b, _, devices, this, -, hboard, hfresh, hdevices, rfl⟩ |
    ⟨k, devices, hdevices, rfl⟩
  · obtain rfl := Option.some.inj (hw.symm.trans hw')
    exact continues_refl w
  · unfold stopBoard Watches at hw'
    split at hw'
    · rw [Std.ExtTreeMap.getElem?_erase] at hw'
      split at hw'
      · cases hw'
      · obtain rfl := Option.some.inj (hw.symm.trans hw')
        exact continues_refl w
    · obtain rfl := Option.some.inj (hw.symm.trans hw')
      exact continues_refl w
  · -- The board that is started has no watcher, so this is another board.
    have hid : id ≠ b.info.id := by
      rintro rfl
      have hexisting := h.existing _ w hw
      rw [hboard] at hexisting
      cases hexisting
    have hlookup : (c.startWatcher b devices this).watchers[id]? = c.watchers[id]? := by
      show (c.watchers.insert b.info.id _)[id]? = _
      rw [getElem?_insert_eq, if_neg hid]
    obtain rfl := Option.some.inj (hw.symm.trans (hlookup.symm.trans hw'))
    exact continues_refl w
  · -- The watcher that is updated keeps its `AP`s for the devices it keeps; the others stay.
    have hexisting := h.existing id w hw
    have hsorted := h.sorted id w hw
    unfold updateWatcher Watches at hw'
    split at hw'
    · obtain rfl := Option.some.inj (hw.symm.trans hw')
      exact continues_refl w
    · split at hw'
      · cases hk : c.watchers[k]? with
        | none =>
            simp only [hk] at hw'
            obtain rfl := Option.some.inj (hw.symm.trans hw')
            exact continues_refl w
        | some v =>
            simp only [hk] at hw'
            rw [getElem?_insert_eq] at hw'
            split at hw'
            · subst id
              obtain rfl := Option.some.inj (hw.symm.trans hk)
              obtain rfl := Option.some.inj hw'
              exact ⟨rfl, fun s hold hnew =>
                VenueWatcher.getElem?_modify_of_mem hsorted hdevices c.shared hold hnew⟩
            · obtain rfl := Option.some.inj (hw.symm.trans hw')
              exact continues_refl w
      · obtain rfl := Option.some.inj (hw.symm.trans hw')
        exact continues_refl w

/-- In every reachable state the device lists, the AP objects and the tables of the receivers
    agree on every watcher in use and no table holds another; and no step puts another watcher in
    the place of one in use, or another AP object in the place of one that is kept. -/
theorem registration_invariant (h : Reachable system c) :
    c.RegistrationOk ∧
      ∀ a c', c.step a = some c' → ∀ id w w', c.Watches id w → c'.Watches id w' →
        Continues w w' :=
  ⟨(reachable_inv h).registrationOk, fun _ _ hstep _ _ _ hw hw' =>
    step_continues (reachable_inv h) hstep hw hw'⟩

/-- Two boards on overlapping venues, one of which loses a device, gains another and ends. -/
def overlapRun : List Action :=
  let board (id : Str) : BoardInfo := { info := { id }, venueList := [{ id := ['v'] }] }
  let answer (devices : List Serial) : Prov := fun _ _ => { success := true, devices }
  [.startBoard (board ['a']) (answer [3, 1, 2, 2]) 7,
    .startBoard (board ['b']) (answer [2, 5]) 4,
    .updateBoard ['a'] (some (board ['a'])) (answer [4, 3, 2]),
    .stopBoard ['b'],
    .updateBoard ['a'] (some (board ['a'])) fun _ _ => { success := false, devices := [] }]

theorem registration_invariant_overlapRun :
    ∃ c, run step {} overlapRun = some c ∧ c.watchers.keys = [['a']] ∧ c.RegistrationOk ∧
      ∀ a c', c.step a = some c' → ∀ id w w', c.Watches id w → c'.Watches id w' →
        Continues w w' := by
  have hrun : (run step {} overlapRun).map (fun c => c.watchers.keys) = some [['a']] := by
    decide +kernel
  obtain ⟨c, hc, hkeys⟩ := Option.map_eq_some_iff.mp hrun
  exact ⟨c, hc, hkeys, registration_invariant (reachable_of_run_start hc)⟩

end VenueCoordinator

end OwAnalytics.Venue
