/-
  OwAnalytics.Venue.Routing

  The delivery of Kafka messages to the watchers (`StateReceiver::run`,
  `DeviceStatusReceiver::run`, `HealthReceiver::run`).  The state receiver posts to
  every watcher registered for the device.  The two others stop at the first one in
  the order of the addresses, so that a device of two boards reports its
  connections and its health to one of them only, and the other stores nothing.
-/

import OwAnalytics.Venue.Coordinator
import OwAnalytics.Venue.Messages

namespace OwAnalytics.Venue

open Transitions AnalyticsObjects

/-! ## The receivers -/

/-- The first watcher, in the order of the map, whose set holds the serial number. -/
def firstWatcher (notifiers : SetNotifiers) (serialNumber : Serial) : Option WatcherPtr :=
  (notifiers.toList.find? fun entry => decide (serialNumber ∈ entry.2)).map Prod.fst

namespace StateReceiver

/-- The posts of one message: each watcher with what is queued to it. -/
def post (notifiers : StateNotifiers) (msg : VenueMessage) : List (WatcherPtr × VenueMessage) :=
  (watchersOf notifiers msg.serialNumber).map fun i => (i, msg)

end StateReceiver

/-- The posts of the receivers that `break` out of their loop at the first watcher. -/
def postFirst (notifiers : SetNotifiers) (msg : VenueMessage) : List (WatcherPtr × VenueMessage) :=
  (firstWatcher notifiers msg.serialNumber).toList.map fun venue => (venue, msg)

namespace HealthReceiver

/-- The posts of `HealthReceiver`. -/
def post (notifiers : SetNotifiers) := postFirst notifiers

end HealthReceiver

namespace DeviceStatusReceiver

/-- The posts of `DeviceStatusReceiver`. -/
def post (notifiers : SetNotifiers) := postFirst notifiers

end DeviceStatusReceiver

/-- What the receiver of its topic posts of a message. -/
def Receivers.post (r : Receivers) (m : KafkaMessage) : List (WatcherPtr × VenueMessage) :=
  match m.report with
  | none => []
  | some msg =>
      match m.topic with
      | .state => StateReceiver.post r.state msg
      | .connection => DeviceStatusReceiver.post r.deviceStatus msg
      | .health => HealthReceiver.post r.health msg

/-- What a message adds to the queue of one watcher. -/
def Receivers.queued (r : Receivers) (p : WatcherPtr) (m : KafkaMessage) : List VenueMessage :=
  ((r.post m).filter fun entry => entry.1 == p).map Prod.snd

/-- One message posted to a list of watchers reaches a watcher as often as the list holds it. -/
theorem filter_map_post (l : List WatcherPtr) (msg : VenueMessage) (p : WatcherPtr) :
    ((l.map fun i => (i, msg)).filter fun entry => entry.1 == p).map Prod.snd
      = List.replicate (l.count p) msg := by
  induction l with
  | nil => rfl
  | cons i rest ih =>
      rw [List.map_cons, List.filter_cons, List.count_cons]
      by_cases hip : i = p
      · subst hip
        simp [ih, List.replicate_succ]
      · simp [hip, ih]

/-- The watchers a message is posted to. -/
def Receivers.targets (r : Receivers) (type : MsgType) (serialNumber : Serial) : List WatcherPtr :=
  match type with
  | .state => StateReceiver.watchersOf r.state serialNumber
  | .connection => (firstWatcher r.deviceStatus serialNumber).toList
  | .health => (firstWatcher r.health serialNumber).toList

theorem Receivers.queued_eq {r : Receivers} {m : KafkaMessage} {msg : VenueMessage}
    (h : m.report = some msg) (p : WatcherPtr) :
    r.queued p m = List.replicate ((r.targets msg.type msg.serialNumber).count p) msg := by
  rw [KafkaMessage.report_type h, queued, post, h]
  cases m.topic with
  | state => exact filter_map_post _ _ _
  | connection => exact filter_map_post _ _ _
  | health => exact filter_map_post _ _ _

/-! ## The first watcher -/

/-- The first watcher is one whose set holds the serial number. -/
theorem firstWatcher_eq_some {notifiers : SetNotifiers} {k : Serial} {p : WatcherPtr}
    (h : firstWatcher notifiers k = some p) : ∃ l, notifiers[p]? = some l ∧ k ∈ l := by
  obtain ⟨entry, hfind, rfl⟩ := Option.map_eq_some_iff.mp h
  have hmem : (entry.1, entry.2) ∈ notifiers.toList := List.mem_of_find?_eq_some hfind
  have hk := List.find?_some hfind
  exact ⟨entry.2, Std.ExtTreeMap.mem_toList_iff_getElem?_eq_some.mp hmem, by simpa using hk⟩

/-- There is a first watcher if there is one at all. -/
theorem firstWatcher_isSome {notifiers : SetNotifiers} {k : Serial} {p : WatcherPtr}
    {l : Finset Serial} (hp : notifiers[p]? = some l) (hk : k ∈ l) :
    ∃ q, firstWatcher notifiers k = some q := by
  have hmem := Std.ExtTreeMap.mem_toList_iff_getElem?_eq_some.mpr hp
  have hfind : (notifiers.toList.find? fun entry => decide (k ∈ entry.2)).isSome := by
    rw [List.find?_isSome]
    exact ⟨(p, l), hmem, by simpa using hk⟩
  obtain ⟨entry, hentry⟩ := Option.isSome_iff_exists.mp hfind
  exact ⟨entry.1, by rw [firstWatcher, hentry, Option.map_some]⟩

/-! ## Routing against the registry -/

/-- The watcher is registered for the serial number. -/
def Registry.For (reg : Registry) (k : Serial) (p : WatcherPtr) : Prop := k ∈ (reg p).getD []

theorem Registry.for_iff {reg : Registry} {k : Serial} {p : WatcherPtr} :
    reg.For k p ↔ ∃ l, reg p = some l ∧ k ∈ l := by
  cases h : reg p with
  | none => simp [For, h]
  | some l => simp [For, h]

/-- Two watchers registered for the serial number are one. -/
def Registry.AtMostOne (reg : Registry) (k : Serial) : Prop :=
  ∀ p q, reg.For k p → reg.For k q → p = q

/-- A table of sets says what the registry says. -/
def SetAgrees (notifiers : SetNotifiers) (reg : Registry) : Prop :=
  ∀ p, notifiers[p]? = (reg p).map List.toFinset

theorem for_of_firstWatcher {notifiers : SetNotifiers} {reg : Registry}
    (h : SetAgrees notifiers reg) {k : Serial} {p : WatcherPtr}
    (hp : firstWatcher notifiers k = some p) : reg.For k p := by
  obtain ⟨l, hl, hk⟩ := firstWatcher_eq_some hp
  rw [h p, Option.map_eq_some_iff] at hl
  obtain ⟨serials, hreg, rfl⟩ := hl
  exact Registry.for_iff.mpr ⟨serials, hreg, List.mem_toFinset.mp hk⟩

theorem exists_firstWatcher {notifiers : SetNotifiers} {reg : Registry}
    (h : SetAgrees notifiers reg) {k : Serial} {p : WatcherPtr} (hp : reg.For k p) :
    ∃ q, firstWatcher notifiers k = some q := by
  obtain ⟨l, hl, hk⟩ := Registry.for_iff.mp hp
  have hentry : notifiers[p]? = some l.toFinset := by rw [h p, hl, Option.map_some]
  exact firstWatcher_isSome hentry (List.mem_toFinset.mpr hk)

/-- Every registered watcher is a target once and nobody else is one. -/
def Uniform (reg : Registry) (k : Serial) (targets : List WatcherPtr) : Prop :=
  ∀ p, (reg.For k p → targets.count p = 1) ∧ (¬ reg.For k p → targets.count p = 0)

/-- The state receiver's list is uniform. -/
theorem uniform_watchersOf {r : Receivers} {reg : Registry} (h : r.Agree reg) (k : Serial) :
    Uniform reg k (StateReceiver.watchersOf r.state k) := by
  intro p
  rw [h.state]
  exact ⟨fun hp => if_pos hp, fun hp => if_neg hp⟩

/-- The first watcher alone is uniform when there is no second one. -/
theorem uniform_firstWatcher_iff {notifiers : SetNotifiers} {reg : Registry}
    (h : SetAgrees notifiers reg) (k : Serial) :
    Uniform reg k (firstWatcher notifiers k).toList ↔ reg.AtMostOne k := by
  refine ⟨?_, ?_⟩
  -- Two watchers of a serial number would both be told, but there is one to tell.
  · intro hu p q hp hq
    obtain ⟨first, hfirst⟩ := exists_firstWatcher h hp
    have hcount := (hu p).1 hp
    have hcount' := (hu q).1 hq
    rw [hfirst, Option.toList_some, List.count_singleton] at hcount hcount'
    have hfp : first = p := by
      by_contra hne
      simp [hne] at hcount
    have hfq : first = q := by
      by_contra hne
      simp [hne] at hcount'
    rw [← hfp, hfq]
  · intro hone p
    cases hfirst : firstWatcher notifiers k with
    | none =>
        refine ⟨fun hp => ?_, fun _ => by simp⟩
        obtain ⟨q, hq⟩ := exists_firstWatcher h hp
        rw [hfirst] at hq
        cases hq
    | some first =>
        have hreg := for_of_firstWatcher h hfirst
        rw [Option.toList_some, List.count_singleton]
        refine ⟨fun hp => ?_, fun hp => ?_⟩
        · rw [hone first p hreg hp]
          simp
        · have hne : first ≠ p := by
            rintro rfl
            exact hp hreg
          simp [hne]

theorem uniform_targets_iff {r : Receivers} {reg : Registry} (h : r.Agree reg) (type : MsgType)
    (k : Serial) : Uniform reg k (r.targets type k) ↔ type = .state ∨ reg.AtMostOne k := by
  cases type with
  | state => simp [Receivers.targets, uniform_watchersOf h k]
  | connection =>
      show Uniform reg k (firstWatcher r.deviceStatus k).toList ↔ _
      rw [uniform_firstWatcher_iff h.deviceStatus]
      simp
  | health =>
      show Uniform reg k (firstWatcher r.health k).toList ↔ _
      rw [uniform_firstWatcher_iff h.health]
      simp

/-! ## The boards of a device -/

namespace VenueCoordinator

variable {c : VenueCoordinator}

/-- A watcher in use that has the device. -/
def RegisteredFor (c : VenueCoordinator) (k : Serial) (p : WatcherPtr) : Prop :=
  ∃ id w, c.Watches id w ∧ w.this = p ∧ k ∈ w.serialNumbers

/-- At most one watcher is registered for the device. -/
def AtMostOne (c : VenueCoordinator) (k : Serial) : Prop :=
  ∀ p q, c.RegisteredFor k p → c.RegisteredFor k q → p = q

/-- The message is queued once to every watcher registered for its device and to no other. -/
def Delivered (c : VenueCoordinator) (m : KafkaMessage) (msg : VenueMessage) : Prop :=
  ∀ p, (c.RegisteredFor msg.serialNumber p → c.shared.receivers.queued p m = [msg]) ∧
    (¬ c.RegisteredFor msg.serialNumber p → c.shared.receivers.queued p m = [])

/-- What a run of messages adds to the queue of a watcher while the registrations stay. -/
def stream (c : VenueCoordinator) (p : WatcherPtr) (ms : List KafkaMessage) : List VenueMessage :=
  ms.flatMap (c.shared.receivers.queued p)

/-- Every message is well formed and about the device. -/
def About (k : Serial) (ms : List KafkaMessage) : Prop :=
  ∀ m ∈ ms, ∃ msg, m.report = some msg ∧ msg.serialNumber = k

theorem Owned.for_iff {reg : Registry} (h : c.Owned reg) (k : Serial) (p : WatcherPtr) :
    reg.For k p ↔ c.RegisteredFor k p := by
  refine ⟨?_, ?_⟩
  · intro hp
    obtain ⟨l, hl, hk⟩ := Registry.for_iff.mp hp
    obtain ⟨id, w, hw, rfl⟩ := h.owner p (by rw [hl]; rfl)
    rw [h.registered id w hw] at hl
    exact ⟨id, w, hw, rfl, by rwa [Option.some.inj hl]⟩
  · rintro ⟨id, w, hw, rfl, hk⟩
    exact Registry.for_iff.mpr ⟨_, h.registered id w hw, hk⟩

theorem delivered_iff_uniform {reg : Registry} (h : c.Owned reg) {m : KafkaMessage}
    {msg : VenueMessage} (hm : m.report = some msg) :
    c.Delivered m msg ↔
      Uniform reg msg.serialNumber (c.shared.receivers.targets msg.type msg.serialNumber) := by
  have hone : ∀ n : Nat, List.replicate n msg = [msg] ↔ n = 1 := by
    intro n
    refine ⟨fun h => ?_, fun h => by rw [h]; rfl⟩
    simpa using congrArg List.length h
  simp only [Delivered, Uniform, Receivers.queued_eq hm, h.for_iff, hone,
    List.replicate_eq_nil_iff]

/-- Routing reaches all watchers of the device for state messages, and for the others when there
    is one at most. -/
theorem delivered_iff (h : c.Inv) {m : KafkaMessage} {msg : VenueMessage}
    (hm : m.report = some msg) :
    c.Delivered m msg ↔ msg.type = .state ∨ c.AtMostOne msg.serialNumber := by
  obtain ⟨reg, h⟩ := h
  rw [delivered_iff_uniform h hm, uniform_targets_iff h.agree]
  simp only [Registry.AtMostOne, AtMostOne, h.for_iff]

/-! ## What is stored -/

/-- The only watcher of a device is fed everything. -/
theorem stream_of_atMostOne (h : c.Inv) {k : Serial} (hone : c.AtMostOne k) {p : WatcherPtr}
    (hp : c.RegisteredFor k p) {ms : List KafkaMessage} (hms : About k ms) :
    c.stream p ms = ms.filterMap KafkaMessage.report := by
  induction ms with
  | nil => rfl
  | cons m rest ih =>
      obtain ⟨msg, hm, rfl⟩ := hms m List.mem_cons_self
      have hrest := ih fun m hm => hms m (List.mem_cons_of_mem _ hm)
      have hqueued := ((delivered_iff h hm).mpr (.inr hone) p).1 hp
      rw [List.filterMap_cons_some hm, ← hrest, stream, List.flatMap_cons, hqueued]
      rfl

/-- A watcher that is not the first one of a device never gets a health message of it. -/
theorem stream_not_health {k : Serial} {p : WatcherPtr}
    (hp : firstWatcher c.shared.receivers.health k ≠ some p) {ms : List KafkaMessage}
    (hms : About k ms) : ∀ msg ∈ c.stream p ms, msg.type ≠ .health := by
  intro msg hmsg htype
  obtain ⟨m, hm, hqueued⟩ := List.mem_flatMap.mp hmsg
  obtain ⟨msg', hreport, rfl⟩ := hms m hm
  rw [Receivers.queued_eq hreport] at hqueued
  obtain ⟨hcount, rfl⟩ := List.mem_replicate.mp hqueued
  rw [htype] at hcount
  apply hcount
  rw [List.count_eq_zero]
  intro hmem
  exact hp (Option.mem_toList.mp hmem)

/-- A device whose messages would make a time point gets one for every board that has it if and
    only if one board has it. -/
theorem persisted_iff (h : c.Inv) {k : Serial} {ms : List KafkaMessage} (hms : About k ms)
    (hdevice : 0 < AP.timePoints {} (ms.filterMap KafkaMessage.report)) :
    (∀ p, c.RegisteredFor k p → 0 < AP.timePoints {} (c.stream p ms)) ↔ c.AtMostOne k := by
  refine ⟨?_, ?_⟩
  · intro hall p q hp hq
    -- Each of the two is the first watcher, for it gets health messages.
    have hfirst : ∀ x, c.RegisteredFor k x →
        firstWatcher c.shared.receivers.health k = some x := by
      intro x hx
      by_contra hne
      have hpos := hall x hx
      rw [AP.timePoints_of_not_health _ (stream_not_health hne hms) {} rfl] at hpos
      omega
    exact Option.some.inj ((hfirst p hp).symm.trans (hfirst q hq))
  · intro hone p hp
    rwa [stream_of_atMostOne h hone hp hms]

/-- In every reachable state of the registrations, a well-formed message is queued once to every
    watcher registered for its device and to no other if and only if it is a state message or the
    device has at most one watcher; and a device whose messages make a time point gets one for
    every board that has it if and only if at most one board has it. -/
theorem uniform_routing_iff (h : Reachable system c) :
    (∀ m msg, m.report = some msg →
      (c.Delivered m msg ↔ msg.type = .state ∨ c.AtMostOne msg.serialNumber)) ∧
    ∀ k ms, About k ms → 0 < AP.timePoints {} (ms.filterMap KafkaMessage.report) →
      ((∀ p, c.RegisteredFor k p → 0 < AP.timePoints {} (c.stream p ms)) ↔ c.AtMostOne k) :=
  ⟨fun _ _ hm => delivered_iff (reachable_inv h) hm,
    fun _ _ hms hdevice => persisted_iff (reachable_inv h) hms hdevice⟩

/-! ## Two boards with a device in common -/

/-- Two boards that both have the device `2`; the watcher of the second has the lower address. -/
def twoBoards : List Action :=
  let board (id : Str) : BoardInfo :=
    { info := { id }, venueList := [{ id := ['v'], monitorSubVenues := true }] }
  let answer (devices : List Serial) : Prov := fun _ _ => { success := true, devices }
  [.startBoard (board ['a']) (answer [1, 2]) 7, .startBoard (board ['b']) (answer [2]) 4]

/-- The reports of the device: a state, a ping, a health message and another state. -/
def reports : List KafkaMessage :=
  let payload (fields : List (Str × Json)) : Option Json :=
    some (.obj [("payload".toList, .obj fields)])
  let state : KafkaMessage :=
    { topic := .state
      key := ['2']
      document := payload [("serial".toList, .str ['2']), ("state".toList, .obj [])] }
  [state,
    { topic := .connection, key := ['2'], document := payload [("ping".toList, .obj [])] },
    { topic := .health, key := ['2'], document := payload [("sanity".toList, .num)] },
    state]

theorem about_reports : About 2 reports := by
  intro m hm
  have hreport : ∀ m ∈ reports, (m.report.map VenueMessage.serialNumber) = some 2 := by
    decide +kernel
  exact Option.map_eq_some_iff.mp (hreport m hm)

/-- The ping of the shared device, the watchers its boards have, and what each of them stores. -/
theorem ping_not_delivered_to_second_board :
    ∃ c, run step {} twoBoards = some c ∧ c.RegisteredFor 2 4 ∧ c.RegisteredFor 2 7 ∧
      About 2 reports ∧
      (∃ m ∈ reports, ∃ msg, m.report = some msg ∧ c.shared.receivers.queued 7 m = []) ∧
      AP.timePoints {} (c.stream 4 reports) = 1 ∧ AP.timePoints {} (c.stream 7 reports) = 0 := by
  have hrun : (run step {} twoBoards).map (fun c =>
      ([['b'], ['a']].map fun id => (c.watchers[id]?).map fun w => (w.this, w.serialNumbers),
        reports.map fun m => (c.shared.receivers.queued 7 m).isEmpty,
        [4, 7].map fun p => AP.timePoints {} (c.stream p reports)))
      = some ([some (4, [2]), some (7, [1, 2])], [false, true, true, false], [1, 0]) := by
    decide +kernel
  obtain ⟨c, hc, hvalues⟩ := Option.map_eq_some_iff.mp hrun
  simp only [Prod.mk.injEq, List.map_cons, List.map_nil, List.cons.injEq, and_true,
    Option.map_eq_some_iff] at hvalues
  obtain ⟨⟨⟨w, hw, hthis, hserials⟩, w', hw', hthis', hserials'⟩, hqueued, hfirst, hsecond⟩ :=
    hvalues
  -- the second report is the one that only one of the boards is sent
  have hping : (reports[1]).report.isSome := by decide +kernel
  obtain ⟨msg, hmsg⟩ := Option.isSome_iff_exists.mp hping
  refine ⟨c, hc, ⟨_, w, hw, hthis, by rw [hserials]; decide⟩,
    ⟨_, w', hw', hthis', by rw [hserials']; decide⟩, about_reports,
    ⟨reports[1], by simp [reports], msg, hmsg, ?_⟩, hfirst, hsecond⟩
  exact List.isEmpty_iff.mp (Option.some.inj (congrArg (fun l => l[1]?) hqueued))

theorem uniform_routing_iff_twoBoards :
    ∃ c, run step {} twoBoards = some c ∧
      (∀ m msg, m.report = some msg →
        (c.Delivered m msg ↔ msg.type = .state ∨ c.AtMostOne msg.serialNumber)) ∧
      ∀ k ms, About k ms → 0 < AP.timePoints {} (ms.filterMap KafkaMessage.report) →
        ((∀ p, c.RegisteredFor k p → 0 < AP.timePoints {} (c.stream p ms)) ↔ c.AtMostOne k) := by
  obtain ⟨c, hc⟩ := Option.isSome_iff_exists.mp
    (by decide +kernel : (run step {} twoBoards).isSome = true)
  exact ⟨c, hc, uniform_routing_iff (reachable_of_run_start hc)⟩

end VenueCoordinator

end OwAnalytics.Venue
