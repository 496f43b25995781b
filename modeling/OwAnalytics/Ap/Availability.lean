/-
  OwAnalytics.Ap.Availability

  The availability events of the devices of a board.  An event is stored for a
  disconnection of a connected device, under a key made of the serial number and the
  source of the event; a source is counted once for a device however often and in
  whatever order its messages come.
-/

import OwAnalytics.Ap.FailedParse
import OwAnalytics.Storage.AvailabilityEvents

namespace OwAnalytics.Ap

open Throwing Document Storage

variable {F : Type}

/-! ## Idempotency keys -/

/-- What an event is known by besides the serial number: the `uuid` of the disconnection, or
    its time where there is none. -/
inductive Source
  | uuid (text : Str)
  | timestamp (eventTime : UInt64)
deriving DecidableEq

/-- The part of the idempotency key after the serial number. -/
def Source.text : Source → Str
  | .uuid text => ":offline:uuid:".toList ++ text
  | .timestamp eventTime => ":offline:timestamp:".toList ++ (toString eventTime.toNat).toList

/-- The source of an offline event: the uuid of the disconnection, or its time. -/
def source (disconnection : Document F) (eventTime : UInt64) : Source :=
  let text := getOptionalStringJSON "uuid" disconnection
  if text ≠ [] then .uuid text else .timestamp eventTime

/-- The key of a device and a source. -/
def availabilityKey (serialNumber : Str) (source : Source) : Str :=
  "availability:".toList ++ serialNumber ++ source.text

theorem buildAvailabilityIdempotencyKey_eq (serialNumber : Str) (disconnection : Document F)
    (eventTime : UInt64) :
    AP.buildAvailabilityIdempotencyKey serialNumber disconnection eventTime =
      availabilityKey serialNumber (source disconnection eventTime) := by
  unfold AP.buildAvailabilityIdempotencyKey availabilityKey source
  dsimp only
  by_cases htext : getOptionalStringJSON "uuid" disconnection ≠ []
  · rw [if_pos htext, if_pos htext]
    exact List.append_assoc _ _ _
  · rw [if_neg htext, if_neg htext]
    exact List.append_assoc _ _ _

/-! The kinds differ in the first letter of their names. -/

theorem Source.text_uuid (text : Str) :
    (uuid text).text = ":offline:".toList ++ 'u' :: ("uid:".toList ++ text) := by
  have hsplit : ":offline:uuid:".toList = ":offline:".toList ++ 'u' :: "uid:".toList := by rfl
  show ":offline:uuid:".toList ++ text = _
  rw [hsplit, List.append_assoc, List.cons_append]

theorem Source.text_timestamp (eventTime : UInt64) :
    (timestamp eventTime).text =
      ":offline:".toList ++ 't' :: ("imestamp:".toList ++ (Nat.repr eventTime.toNat).toList) := by
  have hsplit : ":offline:timestamp:".toList =
      ":offline:".toList ++ 't' :: "imestamp:".toList := by rfl
  show ":offline:timestamp:".toList ++ (Nat.repr eventTime.toNat).toList = _
  rw [hsplit, List.append_assoc, List.cons_append]

theorem Source.text_injective : Function.Injective Source.text := by
  intro a b h
  -- a letter says which kind of source it is, and the rest of the text is its own
  cases a with
  | uuid u =>
      cases b with
      | uuid v =>
          rw [text_uuid, text_uuid] at h
          obtain ⟨-, htext⟩ := List.cons_eq_cons.mp (List.append_cancel_left h)
          exact congrArg Source.uuid (List.append_cancel_left htext)
      | timestamp n =>
          rw [text_uuid, text_timestamp] at h
          obtain ⟨hkind, -⟩ := List.cons_eq_cons.mp (List.append_cancel_left h)
          exact absurd hkind (by decide)
  | timestamp m =>
      cases b with
      | uuid v =>
          rw [text_uuid, text_timestamp] at h
          obtain ⟨hkind, -⟩ := List.cons_eq_cons.mp (List.append_cancel_left h)
          exact absurd hkind (by decide)
      | timestamp n =>
          rw [text_timestamp, text_timestamp] at h
          obtain ⟨-, htext⟩ := List.cons_eq_cons.mp (List.append_cancel_left h)
          have hrepr : Nat.repr m.toNat = Nat.repr n.toNat :=
            String.toList_inj.mp (List.append_cancel_left htext)
          exact congrArg Source.timestamp (UInt64.toNat.inj (Nat.repr_injective hrepr))

/-- Serial numbers of one length have different keys for different devices or sources. -/
theorem availabilityKey_inj {s t : Str} {a b : Source} (hlength : s.length = t.length) :
    availabilityKey s a = availabilityKey t b ↔ s = t ∧ a = b := by
  refine ⟨?_, ?_⟩
  · intro h
    obtain ⟨hserial, htext⟩ := List.append_inj h (by simp [hlength])
    exact ⟨List.append_cancel_left hserial, Source.text_injective htext⟩
  · rintro ⟨rfl, rfl⟩
    rfl

variable [Double F]

/-! ## The event of a message -/

namespace AP

/-- The source of a disconnection that is handled while the device is connected and has a time
    stamp other than zero. -/
def offlineSource (ap : AP F) (message : Message F) : Option Source := do
  let disconnection ← message.disconnection?
  let eventTime ← getJSON getUInt64 "timestamp" disconnection 0
  if ap.info.connected ∧ eventTime ≠ 0 then some (source disconnection eventTime) else none

/-- An event of a device: for its board, of the device, under the key of the source. -/
structure IsOffline (ap : AP F) (source : Source) (event : DeviceAvailabilityEvent) : Prop where
  boardId : event.boardId = ap.boardId
  serialNumber : event.serialNumber = ap.info.serialNumber
  eventType : event.eventType = "offline".toList
  idempotencyKey : event.idempotencyKey = availabilityKey ap.info.serialNumber source

/-- A ping or capabilities message has no event. -/
theorem returns_ping (env : Env F) (d : Document F) :
    Computation.Returns (· = none) (ping env d) := by
  unfold ping
  iterate 8 refine Computation.returns_bind fun _ => ?_
  exact Computation.returns_pure rfl

theorem returns_capabilities (env : Env F) (d : Document F) :
    Computation.Returns (· = none) (capabilities env d) := by
  unfold capabilities
  iterate 6 refine Computation.returns_bind fun _ => ?_
  exact Computation.returns_pure rfl

theorem join_of_returns {x : Computation (AP F) (Option DeviceAvailabilityEvent)}
    (h : Computation.Returns (· = none) x) (ap : AP F) : (x ap).1.join = none := by
  cases hresult : (x ap).1 with
  | none => rfl
  | some event => exact h ap event hresult

/-- The event of a disconnection: none if its time stamp cannot be read, else what the transition
    gives with the new time of disconnection. -/
theorem disconnection_event (env : Env F) (ap : AP F) (dis : Document F) :
    (disconnection env dis ap).1.join =
      (getJSON getUInt64 "timestamp" dis 0).bind fun lastDisconnection =>
        (offlineTransition env ap.boardId { ap.info with lastDisconnection } dis).join := by
  unfold disconnection
  cases htime : getJSON getUInt64 "timestamp" dis 0 with
  | none =>
      -- a time that cannot be read throws before an event is made
      rw [Computation.bind_of_none (Computation.ofOption_apply _ _)]
      rfl
  | some lastDisconnection =>
      rw [Computation.bind_of_some (Computation.ofOption_apply _ _),
        Computation.bind_of_some (Computation.modify_apply _ _),
        Computation.bind_of_some (Computation.get_apply _)]
      cases htransition :
          offlineTransition env ap.boardId { ap.info with lastDisconnection } dis with
      | none =>
          rw [Computation.bind_of_none (Computation.ofOption_apply _ _)]
          simp [htransition]
      | some event =>
          rw [Computation.bind_of_some (Computation.ofOption_apply _ _)]
          simp only [Option.bind_some, htransition, Option.join_some]
          rfl

/-- A connected device and a time stamp other than zero make an event, and nothing else does. -/
theorem offlineTransition_cases (env : Env F) (boardId : Str) (device : DeviceInfo F)
    (dis : Document F) {eventTime : UInt64}
    (htime : getJSON getUInt64 "timestamp" dis 0 = some eventTime) :
    (¬ (device.connected ∧ eventTime ≠ 0) ∧ offlineTransition env boardId device dis = some none) ∨
      (device.connected ∧ eventTime ≠ 0) ∧
        ∃ event, offlineTransition env boardId device dis = some (some event) ∧
          event.boardId = boardId ∧ event.serialNumber = device.serialNumber ∧
          event.eventType = "offline".toList ∧
          event.idempotencyKey =
            availabilityKey device.serialNumber (source dis eventTime) ∧
          event.id = env.uuid ∧ event.eventTime = eventTime := by
  unfold offlineTransition
  rw [htime]
  -- no event for a device that is offline already, and none at the time 0
  cases hconnected : device.connected with
  | false => exact .inl ⟨fun h => absurd h.1 (by decide), rfl⟩
  | true =>
      by_cases hzero : eventTime = 0
      · exact .inl ⟨fun h => h.2 hzero, if_pos hzero⟩
      · refine .inr ⟨⟨rfl, hzero⟩, _, if_neg hzero, rfl, rfl, rfl, ?_, rfl, rfl⟩
        exact buildAvailabilityIdempotencyKey_eq _ _ _

omit [Double F] in
theorem disconnection?_eq_some {message : Message F} {dis : Document F}
    (h : message.disconnection? = some dis) :
    ∃ d, message = .connection d ∧ d.find? "ping" = none ∧ d.find? "disconnection" = some dis := by
  cases message with
  | state d => cases h
  | health d => cases h
  | connection d =>
      refine ⟨d, rfl, ?_⟩
      cases hping : d.find? "ping" with
      | some ping => simp [Message.disconnection?, contains, hping] at h
      | none => simpa [Message.disconnection?, contains, hping] using h

theorem event_of_disconnection (ap : AP F) {x : Delivery F} {dis : Document F}
    (h : x.message.disconnection? = some dis) :
    (ap.deliver x).2.event =
      (getJSON getUInt64 "timestamp" dis 0).bind fun lastDisconnection =>
        (offlineTransition x.env ap.boardId
          { ap.info with
            pings := ap.info.pings + 1
            lastContact := x.env.now
            lastDisconnection } dis).join := by
  obtain ⟨d, hmessage, hping, hdis⟩ := disconnection?_eq_some h
  simp only [deliver, hmessage, updateConnection, connection, hping, hdis]
  exact disconnection_event x.env _ dis

theorem event_of_not_disconnection (ap : AP F) {x : Delivery F}
    (h : x.message.disconnection? = none) : (ap.deliver x).2.event = none := by
  cases hmessage : x.message with
  | state d => simp [deliver, hmessage, updateStats]
  | health d => simp [deliver, hmessage]
  | connection d =>
      rw [hmessage] at h
      simp only [deliver, hmessage, updateConnection, connection]
      cases hping : d.find? "ping" with
      | some ping => exact join_of_returns (returns_ping x.env ping) _
      | none =>
          have hdis : d.find? "disconnection" = none := by
            simpa [Message.disconnection?, contains, hping] using h
          rw [hdis]
          cases d.find? "capabilities" with
          | some capabilities => exact join_of_returns (returns_capabilities x.env capabilities) _
          | none => rfl

/-- A message has an event iff it has a source, and it is the event of the source. -/
theorem deliver_event (ap : AP F) (x : Delivery F) :
    (ap.offlineSource x.message = none ∧ (ap.deliver x).2.event = none) ∨
      ∃ source event, ap.offlineSource x.message = some source ∧
        (ap.deliver x).2.event = some event ∧ ap.IsOffline source event := by
  unfold offlineSource
  cases hmessage : x.message.disconnection? with
  | none => exact .inl ⟨rfl, event_of_not_disconnection ap hmessage⟩
  | some dis =>
      rw [event_of_disconnection ap hmessage]
      cases htime : getJSON getUInt64 "timestamp" dis 0 with
      | none => exact .inl ⟨by simp [htime], rfl⟩
      | some eventTime =>
          simp only [Option.bind_eq_bind, Option.bind_some, htime]
          -- the transition sees the device info with the time of the disconnection in it
          rcases offlineTransition_cases x.env ap.boardId
              { ap.info with
                pings := ap.info.pings + 1
                lastContact := x.env.now
                lastDisconnection := eventTime } dis htime with
            ⟨hno, hevent⟩ | ⟨hyes, event, hevent, hboard, hserial, htype, hkey, -, -⟩
          · rw [hevent]
            exact .inl ⟨if_neg hno, rfl⟩
          · rw [hevent]
            exact .inr ⟨_, event, if_pos hyes, rfl, hboard, hserial, htype, hkey⟩

end AP

/-! ## The devices of a board -/

/-- What a message has the storage do with its event, if it has one. -/
def storeEvent (events : List DeviceAvailabilityEvent) :
    Option DeviceAvailabilityEvent → Bool × List DeviceAvailabilityEvent
  | none => (true, events)
  | some event => DeviceAvailabilityEventsDB.createEventIfAbsent events event

/-- The `AP`s of a board, by the numbers of their serial numbers, and the events table. -/
structure Fleet (F : Type) [Zero F] where
  aps : UInt64 → Option (AP F)
  events : List DeviceAvailabilityEvent

namespace Fleet

/-- The `AP`s before their first messages, and no event. -/
def start (macs : List UInt64) (venueId boardId : Str) : Fleet F where
  aps mac := if mac ∈ macs then some (AP.create mac venueId boardId) else none
  events := []

/-- A message to a device: whether its event, if it has one, is stored, and what it leaves. -/
def deliver (s : Fleet F) (mac : UInt64) (x : Delivery F) : Bool × Fleet F :=
  match s.aps mac with
  | none => (true, s)
  | some ap =>
      let (ap, stored) := ap.deliver x
      let (succeeds, events) := storeEvent s.events stored.event
      (succeeds, { aps := Function.update s.aps mac (some ap), events })

theorem deliver_of_none {s : Fleet F} {mac : UInt64} {x : Delivery F} (hap : s.aps mac = none) :
    s.deliver mac x = (true, s) := by
  rw [deliver, hap]

theorem deliver_of_some {s : Fleet F} {mac : UInt64} {x : Delivery F} {ap : AP F}
    (hap : s.aps mac = some ap) :
    s.deliver mac x =
      ((storeEvent s.events (ap.deliver x).2.event).1,
        { aps := Function.update s.aps mac (some (ap.deliver x).1)
          events := (storeEvent s.events (ap.deliver x).2.event).2 }) := by
  rw [deliver, hap]

/-- The fleet after deliveries to its access points. -/
def after (s : Fleet F) (xs : List (UInt64 × Delivery F)) : Fleet F :=
  xs.foldl (fun s m => (s.deliver m.1 m.2).2) s

/-- No call of the storage fails. -/
def StorageSucceeds (s : Fleet F) : List (UInt64 × Delivery F) → Prop
  | [] => True
  | (mac, x) :: rest =>
      (s.deliver mac x).1 = true ∧ StorageSucceeds (s.deliver mac x).2 rest

/-- The event a message has, and the source it comes from with the serial number. -/
def event? (s : Fleet F) (mac : UInt64) (x : Delivery F) : Option DeviceAvailabilityEvent :=
  (s.aps mac).bind fun ap => (ap.deliver x).2.event

/-- The serial number and the source of the offline event of a delivery, if it makes one. -/
def source? (s : Fleet F) (mac : UInt64) (x : Delivery F) : Option (Str × Source) :=
  (s.aps mac).bind fun ap =>
    (ap.offlineSource x.message).map fun source => (ap.info.serialNumber, source)

/-- The events of the deliveries, in their order. -/
def emitted (s : Fleet F) : List (UInt64 × Delivery F) → List DeviceAvailabilityEvent
  | [] => []
  | (mac, x) :: rest => (s.event? mac x).toList ++ emitted (s.deliver mac x).2 rest

/-- The sources of the disconnections that are handled while their device is connected and have a
    time stamp other than zero, in the order of the messages. -/
def offlineSources (s : Fleet F) : List (UInt64 × Delivery F) → List (Str × Source)
  | [] => []
  | (mac, x) :: rest => (s.source? mac x).toList ++ offlineSources (s.deliver mac x).2 rest

/-- Those of one serial number. -/
def sourcesOf (s : Fleet F) (serialNumber : Str) (xs : List (UInt64 × Delivery F)) :
    List Source :=
  ((s.offlineSources xs).filter fun p => p.1 = serialNumber).map Prod.snd

/-- The `AP`s are those the devices of the board were given. -/
def OfBoard (venueId boardId : Str) (s : Fleet F) : Prop :=
  ∀ mac ap, s.aps mac = some ap → AP.Identity mac venueId boardId ap

theorem ofBoard_start (macs : List UInt64) (venueId boardId : Str) :
    OfBoard (F := F) venueId boardId (start macs venueId boardId) := by
  intro mac ap hap
  unfold start at hap
  dsimp only at hap
  split at hap
  · obtain rfl := Option.some.inj hap
    exact ⟨rfl, rfl, rfl⟩
  · cases hap

theorem ofBoard_deliver {venueId boardId : Str} {s : Fleet F} (mac : UInt64) (x : Delivery F)
    (h : s.OfBoard venueId boardId) : (s.deliver mac x).2.OfBoard venueId boardId := by
  cases hap : s.aps mac with
  | none =>
      rw [deliver_of_none hap]
      exact h
  | some ap =>
      intro other ap' hap'
      rw [deliver_of_some hap] at hap'
      dsimp only at hap'
      by_cases hother : other = mac
      · subst hother
        rw [Function.update_self] at hap'
        obtain rfl := Option.some.inj hap'
        exact AP.identity_deliver x (h other ap hap)
      · rw [Function.update_of_ne hother] at hap'
        exact h other ap' hap'

/-! ## What a run stores -/

/-- A message that is stored leaves its event in the table, unless the key was there. -/
theorem events_deliver {s : Fleet F} {mac : UInt64} {x : Delivery F}
    (h : (s.deliver mac x).1 = true) :
    (s.deliver mac x).2.events =
      InsertIfAbsent.insertAll (·.idempotencyKey) s.events (s.event? mac x).toList := by
  cases hap : s.aps mac with
  | none =>
      rw [deliver_of_none hap, event?, hap]
      rfl
  | some ap =>
      rw [deliver_of_some hap] at h ⊢
      rw [event?, hap, Option.bind_some]
      dsimp only at h ⊢
      cases hevent : (ap.deliver x).2.event with
      | none => rfl
      | some event =>
          rw [hevent] at h
          exact DeviceAvailabilityEventsDB.createEventIfAbsent_of_true h

theorem events_after {s : Fleet F} {xs : List (UInt64 × Delivery F)}
    (h : s.StorageSucceeds xs) :
    (s.after xs).events =
      InsertIfAbsent.insertAll (·.idempotencyKey) s.events (s.emitted xs) := by
  induction xs generalizing s with
  | nil => rfl
  | cons m rest ih =>
      obtain ⟨hfirst, hrest⟩ := h
      calc (s.after (m :: rest)).events
          = ((s.deliver m.1 m.2).2.after rest).events := rfl
        _ = InsertIfAbsent.insertAll (·.idempotencyKey) (s.deliver m.1 m.2).2.events
              ((s.deliver m.1 m.2).2.emitted rest) := ih hrest
        _ = InsertIfAbsent.insertAll (·.idempotencyKey) s.events (s.emitted (m :: rest)) := by
              rw [events_deliver hfirst, emitted, InsertIfAbsent.insertAll_append]

theorem event?_cases (s : Fleet F) (mac : UInt64) (x : Delivery F) :
    (s.source? mac x = none ∧ s.event? mac x = none) ∨
      ∃ ap source event, s.aps mac = some ap ∧
        s.source? mac x = some (ap.info.serialNumber, source) ∧
        s.event? mac x = some event ∧ ap.IsOffline source event := by
  unfold source? event?
  cases hap : s.aps mac with
  | none => exact .inl ⟨rfl, rfl⟩
  | some ap =>
      simp only [Option.bind_some]
      rcases ap.deliver_event x with ⟨hsource, hevent⟩ | ⟨source, event, hsource, hevent, hoffline⟩
      · rw [hsource, hevent]
        exact .inl ⟨rfl, rfl⟩
      · rw [hsource, hevent]
        exact .inr ⟨ap, source, event, rfl, rfl, rfl, hoffline⟩

/-- The events of a run, in order, are those of its sources. -/
theorem map_emitted (s : Fleet F) (xs : List (UInt64 × Delivery F)) :
    (s.emitted xs).map (fun event => (event.serialNumber, event.idempotencyKey)) =
      (s.offlineSources xs).map fun p => (p.1, availabilityKey p.1 p.2) := by
  induction xs generalizing s with
  | nil => rfl
  | cons m rest ih =>
      rw [emitted, offlineSources, List.map_append, List.map_append, ih]
      congr 1
      rcases s.event?_cases m.1 m.2 with
        ⟨hsource, hevent⟩ | ⟨ap, source, event, -, hsource, hevent, hoffline⟩
      · rw [hsource, hevent]
        rfl
      · rw [hsource, hevent]
        simp [hoffline.serialNumber, hoffline.idempotencyKey]

/-- Serial numbers are made of twelve digits. -/
theorem length_of_mem_offlineSources {venueId boardId : Str} {s : Fleet F}
    (h : s.OfBoard venueId boardId) {xs : List (UInt64 × Delivery F)} {p : Str × Source}
    (hp : p ∈ s.offlineSources xs) : p.1.length = 12 := by
  induction xs generalizing s with
  | nil => cases hp
  | cons m rest ih =>
      rw [offlineSources, List.mem_append, Option.mem_toList] at hp
      rcases hp with hp | hp
      · rcases s.event?_cases m.1 m.2 with ⟨hsource, -⟩ | ⟨ap, source, event, hap, hsource, -, -⟩
        · rw [hsource] at hp
          cases hp
        · rw [hsource] at hp
          obtain rfl := Option.some.inj hp
          rw [(h m.1 ap hap).serialNumber, intToSerialNumber, length_serialDigits]
          rfl
      · exact ih (ofBoard_deliver m.1 m.2 h) hp

theorem ofBoard_of_mem_emitted {venueId boardId : Str} {s : Fleet F}
    (h : s.OfBoard venueId boardId) {xs : List (UInt64 × Delivery F)}
    {event : DeviceAvailabilityEvent} (hevent : event ∈ s.emitted xs) :
    event.boardId = boardId ∧ event.eventType = "offline".toList := by
  induction xs generalizing s with
  | nil => cases hevent
  | cons m rest ih =>
      rw [emitted, List.mem_append, Option.mem_toList] at hevent
      rcases hevent with hevent | hevent
      · rcases s.event?_cases m.1 m.2 with
          ⟨-, hnone⟩ | ⟨ap, source, event', hap, -, hsome, hoffline⟩
        · rw [hnone] at hevent
          cases hevent
        · rw [hsome] at hevent
          obtain rfl := Option.some.inj hevent
          exact ⟨hoffline.boardId.trans (h m.1 ap hap).boardId, hoffline.eventType⟩
      · exact ih (ofBoard_deliver m.1 m.2 h) hevent

/-- The keys of the events of a serial number are those of its sources. -/
theorem keys_emitted (s : Fleet F) (serialNumber : Str) (xs : List (UInt64 × Delivery F)) :
    ((s.emitted xs).filter fun event => event.serialNumber = serialNumber).map
        (·.idempotencyKey) =
      (s.sourcesOf serialNumber xs).map (availabilityKey serialNumber) := by
  calc ((s.emitted xs).filter fun event => event.serialNumber = serialNumber).map
        (·.idempotencyKey)
      = (((s.emitted xs).map fun event => (event.serialNumber, event.idempotencyKey)).filter
          fun p => p.1 = serialNumber).map Prod.snd := by
        rw [List.filter_map, List.map_map]
        rfl
    _ = (((s.offlineSources xs).map fun p => (p.1, availabilityKey p.1 p.2)).filter
          fun p => p.1 = serialNumber).map Prod.snd := by rw [map_emitted]
    _ = (s.sourcesOf serialNumber xs).map (availabilityKey serialNumber) := by
        rw [sourcesOf, List.filter_map, List.map_map, List.map_map]
        refine List.map_congr_left fun p hp => ?_
        simp only [Function.comp_apply, List.mem_filter, decide_eq_true_eq] at hp ⊢
        rw [hp.2]

/-- Of the events of a run, those with one key are of one device. -/
theorem serialNumber_of_key {venueId boardId : Str} {s : Fleet F}
    (h : s.OfBoard venueId boardId) {xs : List (UInt64 × Delivery F)}
    {a b : DeviceAvailabilityEvent} (ha : a ∈ s.emitted xs) (hb : b ∈ s.emitted xs)
    (hkey : a.idempotencyKey = b.idempotencyKey) : a.serialNumber = b.serialNumber := by
  have hsource : ∀ event ∈ s.emitted xs, ∃ p ∈ s.offlineSources xs,
      (p.1, availabilityKey p.1 p.2) = (event.serialNumber, event.idempotencyKey) := by
    intro event hevent
    have hmem : (event.serialNumber, event.idempotencyKey) ∈
        (s.offlineSources xs).map fun p => (p.1, availabilityKey p.1 p.2) := by
      rw [← map_emitted]
      exact List.mem_map_of_mem hevent
    exact List.mem_map.mp hmem
  obtain ⟨p, hp, hpa⟩ := hsource a ha
  obtain ⟨q, hq, hqb⟩ := hsource b hb
  obtain ⟨hpserial, hpkey⟩ := Prod.mk.inj hpa
  obtain ⟨hqserial, hqkey⟩ := Prod.mk.inj hqb
  -- serial numbers of one length, so that the keys tell them apart
  have hlength : p.1.length = q.1.length :=
    (length_of_mem_offlineSources h hp).trans (length_of_mem_offlineSources h hq).symm
  have hsame : availabilityKey p.1 p.2 = availabilityKey q.1 q.2 :=
    hpkey.trans (hkey.trans hqkey.symm)
  exact hpserial.symm.trans (((availabilityKey_inj hlength).mp hsame).1.trans hqserial)

/-- A device has as many rows as it has sources. -/
theorem length_rows {venueId boardId : Str} {s : Fleet F} (h : s.OfBoard venueId boardId)
    (hempty : s.events = []) {xs : List (UInt64 × Delivery F)} (hstore : s.StorageSucceeds xs)
    {serialNumber : Str} :
    ((s.after xs).events.filter fun event => event.serialNumber = serialNumber).length =
      (s.sourcesOf serialNumber xs).dedup.length := by
  have hinjective : Function.Injective (availabilityKey serialNumber) :=
    fun a b hab => ((availabilityKey_inj rfl).mp hab).2
  rw [events_after hstore, hempty, InsertIfAbsent.length_filter_insertAll ?decided, keys_emitted,
    List.dedup_map_of_injective hinjective, List.length_map]
  case decided =>
    -- a key that is there already was inserted for the same device
    intro a ha b hb hkey
    rw [serialNumber_of_key h ha hb hkey]

end Fleet

/-! ## Exact counts -/

open DeviceAvailabilityEventsDB in
/-- Where no storage call fails, every row is an event of the board, and a device has as many as
    there are sources among its disconnections that are handled while it is connected and have a
    time stamp other than zero; events of different devices or sources have different keys; and
    what is counted for adjacent intervals adds up. -/
theorem offline_counting (macs : List UInt64) (venueId boardId : Str)
    (xs : List (UInt64 × Delivery F))
    (hstore : (Fleet.start macs venueId boardId).StorageSucceeds xs) :
    (∀ event ∈ ((Fleet.start macs venueId boardId).after xs).events,
      event.boardId = boardId ∧ event.eventType = "offline".toList) ∧
    (∀ serialNumber,
      (((Fleet.start macs venueId boardId).after xs).events.filter
          fun event => event.serialNumber = serialNumber).length =
        ((Fleet.start macs venueId boardId).sourcesOf serialNumber xs).dedup.length) ∧
    (∀ (s t : Str) (d e : Document F) (m n : UInt64), s.length = 12 → t.length = 12 →
      AP.buildAvailabilityIdempotencyKey s d m = AP.buildAvailabilityIdempotencyKey t e n →
        s = t ∧ source d m = source e n) ∧
    ∀ serialNumber a b c, a ≤ b → b ≤ c →
      (countOfflineEventsByBoardAndSerial ((Fleet.start macs venueId boardId).after xs).events
          boardId serialNumber a b).offlineCount +
        (countOfflineEventsByBoardAndSerial ((Fleet.start macs venueId boardId).after xs).events
          boardId serialNumber b c).offlineCount =
        (countOfflineEventsByBoardAndSerial ((Fleet.start macs venueId boardId).after xs).events
          boardId serialNumber a c).offlineCount := by
  have hboard := Fleet.ofBoard_start (F := F) macs venueId boardId
  refine ⟨?rows, ?counts, ?keys, ?intervals⟩
  case rows =>
    intro event hevent
    rw [Fleet.events_after hstore] at hevent
    rcases InsertIfAbsent.mem_insertAll hevent with hnone | hevent
    · cases hnone
    · exact Fleet.ofBoard_of_mem_emitted hboard hevent
  case counts => exact fun serialNumber => Fleet.length_rows hboard rfl hstore
  case keys =>
    intro s t d e m n hs ht hkey
    rw [buildAvailabilityIdempotencyKey_eq, buildAvailabilityIdempotencyKey_eq] at hkey
    exact (availabilityKey_inj (hs.trans ht.symm)).mp hkey
  case intervals =>
    -- the counts are taken modulo `2 ^ 64`, as their sum is
    intro serialNumber a b c hab hbc
    rw [offlineCount_eq, offlineCount_eq, offlineCount_eq,
      ← length_offlineEvents_add _ boardId serialNumber hab hbc, UInt64.ofNat_add]

/-! ## A run with a repeated disconnection -/

/-- A message to the first device, with the id its event is given. -/
def toFirst (message : Message ℚ) (uuid : Str) : UInt64 × Delivery ℚ :=
  (0xa1, { plainDelivery message with env := { plainEnv with uuid } })

/-- A ping. -/
def pingMessage : Message ℚ := .connection (.obj [("ping".toList, .obj [])])

/-- A disconnection at a time, with a uuid. -/
def disconnectionMessage (timestamp : UInt64) (uuid : Str) : Message ℚ :=
  .connection (.obj [("disconnection".toList,
    .obj [("timestamp".toList, .unsigned timestamp), ("uuid".toList, .str uuid)])])

/-- The first disconnection comes again after the device is back, then one without a `uuid`. -/
def repeatedDisconnection : List (UInt64 × Delivery ℚ) :=
  [toFirst pingMessage ['1'], toFirst (disconnectionMessage 5 ['u']) ['2'],
    toFirst pingMessage ['3'], toFirst (disconnectionMessage 5 ['u']) ['4'],
    toFirst pingMessage ['5'], toFirst (disconnectionMessage 7 []) ['6']]

theorem offline_counting_repeated :
    (((Fleet.start [0xa1] ['v'] ['b']).after repeatedDisconnection).events.filter
      fun event => event.serialNumber = "0000000000a1".toList).length = 2 := by
  have hstore : (Fleet.start [0xa1] ['v'] ['b']).StorageSucceeds repeatedDisconnection :=
    ⟨by decide +kernel, by decide +kernel, by decide +kernel, by decide +kernel,
      by decide +kernel, by decide +kernel, trivial⟩
  exact ((offline_counting [0xa1] ['v'] ['b'] repeatedDisconnection hstore).2.1 _).trans
    (by decide +kernel)

end OwAnalytics.Ap
