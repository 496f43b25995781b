/-
  OwAnalytics.Ap.Redelivery

  A disconnection that comes a second time.  The storage rejects its event, but the
  `AP` handles the copy as a new disconnection: it is without effect only where
  nothing has contacted the `AP` since, and elsewhere the next disconnection is lost.
-/

import OwAnalytics.Ap.Availability

namespace OwAnalytics.Ap

open Throwing Document Storage

variable {F : Type} [Double F]

/-! ## Whether a device is connected -/

/-- Whether the device is connected after a message, if it was `before`. -/
def Message.connected (message : Message F) (before : Bool) : Bool :=
  match message with
  | .state _ => true
  | .health _ => before
  | .connection d =>
      match d.find? "ping", d.find? "disconnection", d.find? "capabilities" with
      | some _, _, _ => true
      | none, some dis, _ =>
          if (getJSON getUInt64 "timestamp" dis 0).isSome then false else before
      | none, none, some _ => true
      | none, none, none => before

namespace AP

theorem parsed_connected (env : Env F) (cache : WifiClientCache) (ap : AP F)
    (state : Document F) : (ap.parsed env cache state).2.info.connected = true := by
  let P : Work F → Prop := fun w => w.info.connected = true
  have hP : ClosedDevice P :=
    { info := fun _ _ _ hconnected hw => hconnected.trans hw
      point := fun _ _ _ hw => hw }
  have hparse : Computation.Keeps P (parse env ap.venueId state) :=
    Computation.keeps_bind
      (keeps_parseBody hP (fun _ _ hw => hw) (fun _ _ hw => hw) env ap.venueId state) fun _ =>
        Computation.keeps_modify fun _ hw => hw
  exact hparse (ap.begin cache) rfl

theorem updateHealth_connected (ap : AP F) (d : Document F) :
    (ap.updateHealth d).info.connected = ap.info.connected := by
  have hfree : DeviceFree fun ap' : AP F => ap'.info.connected = ap.info.connected :=
    fun _ _ _ hconnected h => hconnected.trans h
  exact keeps_health hfree (fun _ h => h) d ap rfl

theorem updateConnection_connected (env : Env F) (ap : AP F) (d : Document F) :
    (ap.updateConnection env d).1.info.connected =
      (Message.connection d).connected ap.info.connected := by
  let start : AP F :=
    { ap with info := { ap.info with pings := ap.info.pings + 1, lastContact := env.now } }
  have hfree : DeviceFree fun ap' : AP F => ap'.info.connected = true :=
    fun _ _ _ hconnected h => hconnected.trans h
  show (connection env d start).2.info.connected = _
  unfold connection Message.connected
  dsimp only
  cases d.find? "ping" with
  | some ping => exact keeps_ping hfree env ping rfl
  | none =>
      cases d.find? "disconnection" with
      | some dis =>
          show (disconnection env dis start).2.info.connected =
            if (getJSON getUInt64 "timestamp" dis 0).isSome then false else ap.info.connected
          -- A time stamp that cannot be read throws before anything is assigned.
          rcases disconnection_cases env start dis with ⟨hread, hreset⟩ | ⟨hread, hsame⟩
          · have hsome := Option.isSome_iff_exists.mpr ((readTimestamp_iff dis 0).mpr hread)
            rw [if_pos hsome]
            exact hreset.connected
          · have hnone : ¬ (getJSON getUInt64 "timestamp" dis 0).isSome = true := fun hsome =>
              hread ((readTimestamp_iff dis 0).mp (Option.isSome_iff_exists.mp hsome))
            rw [if_neg hnone, hsame]
      | none =>
          cases d.find? "capabilities" with
          | some capabilities => exact keeps_capabilities hfree env capabilities rfl
          | none => rfl

theorem deliver_connected (ap : AP F) (x : Delivery F) :
    (ap.deliver x).1.info.connected = x.message.connected ap.info.connected := by
  cases hmessage : x.message with
  | state d =>
      simp only [deliver, hmessage, updateStats]
      exact ap.parsed_connected x.env x.cache d
  | health d =>
      simp only [deliver, hmessage]
      exact ap.updateHealth_connected d
  | connection d =>
      simp only [deliver, hmessage]
      exact ap.updateConnection_connected x.env d

theorem deliver_serialNumber (ap : AP F) (x : Delivery F) :
    (ap.deliver x).1.info.serialNumber = ap.info.serialNumber := by
  have hfree : InfoFree fun ap' : AP F => ap'.info.serialNumber = ap.info.serialNumber :=
    fun _ _ hserial h => hserial.trans h
  cases hmessage : x.message with
  | state d =>
      simp only [deliver, hmessage, updateStats]
      exact (ap.parsed_serialNumber x.env x.cache d).1
  | health d =>
      simp only [deliver, hmessage]
      exact keeps_health hfree.deviceFree (fun _ h => h) d ap rfl
  | connection d =>
      simp only [deliver, hmessage, updateConnection]
      exact keeps_connection hfree (fun _ _ _ _ h => h) x.env d
        { ap with
          info := { ap.info with pings := ap.info.pings + 1, lastContact := x.env.now } } rfl

/-! ## What the events depend on -/

/-- The serial number of the device and whether it is connected. -/
def contact (ap : AP F) : Str × Bool := (ap.info.serialNumber, ap.info.connected)

theorem contact_deliver (ap : AP F) (x : Delivery F) :
    (ap.deliver x).1.contact = (ap.contact.1, x.message.connected ap.contact.2) := by
  rw [contact, deliver_serialNumber, deliver_connected]
  rfl

/-- Of the device, the transition looks at the serial number and at whether it is connected. -/
theorem offlineTransition_stamp (env : Env F) (boardId boardId' : Str)
    {device device' : DeviceInfo F}
    (hserial : device.serialNumber = device'.serialNumber)
    (hconnected : device.connected = device'.connected) (dis : Document F) {eventTime : UInt64}
    (htime : getJSON getUInt64 "timestamp" dis 0 = some eventTime) :
    (offlineTransition env boardId device dis).join.map DeviceAvailabilityEventsDB.stamp =
      (offlineTransition env boardId' device' dis).join.map DeviceAvailabilityEventsDB.stamp := by
  rcases offlineTransition_cases env boardId device dis htime with
    ⟨hno, hevent⟩ | ⟨hyes, event, hevent, -, -, -, hkey, hid, heventTime⟩
  · rcases offlineTransition_cases env boardId' device' dis htime with ⟨-, hevent'⟩ | ⟨hyes', -⟩
    · rw [hevent, hevent']
    · exact absurd ⟨hconnected.trans hyes'.1, hyes'.2⟩ hno
  · rcases offlineTransition_cases env boardId' device' dis htime with
      ⟨hno', -⟩ | ⟨-, event', hevent', -, -, -, hkey', hid', heventTime'⟩
    · exact absurd ⟨hconnected.symm.trans hyes.1, hyes.2⟩ hno'
    · rw [hevent, hevent']
      simp only [Option.join_some, Option.map_some, DeviceAvailabilityEventsDB.stamp, hkey, hkey',
        hid, hid', heventTime, heventTime', hserial]

/-- `AP`s with one contact have the same events, but for what the device reports. -/
theorem event_of_contact {a b : AP F} (h : a.contact = b.contact) (x : Delivery F) :
    (a.deliver x).2.event.map DeviceAvailabilityEventsDB.stamp =
      (b.deliver x).2.event.map DeviceAvailabilityEventsDB.stamp := by
  obtain ⟨hserial, hconnected⟩ := Prod.mk.inj h
  cases hmessage : x.message.disconnection? with
  | none => rw [event_of_not_disconnection a hmessage, event_of_not_disconnection b hmessage]
  | some dis =>
      rw [event_of_disconnection a hmessage, event_of_disconnection b hmessage]
      cases htime : getJSON getUInt64 "timestamp" dis 0 with
      | none => rfl
      | some eventTime =>
          exact offlineTransition_stamp x.env a.boardId b.boardId hserial hconnected dis htime

end AP

namespace Fleet

/-- Fleets whose devices have the same contact, and whose events are the same but for what the
    devices report. -/
structure Alike (s t : Fleet F) : Prop where
  contact : ∀ mac, (s.aps mac).map AP.contact = (t.aps mac).map AP.contact
  events : s.events.map DeviceAvailabilityEventsDB.stamp =
    t.events.map DeviceAvailabilityEventsDB.stamp

theorem storeEvent_stamp {events events' : List DeviceAvailabilityEvent}
    {event event' : Option DeviceAvailabilityEvent}
    (hevents : events.map DeviceAvailabilityEventsDB.stamp =
      events'.map DeviceAvailabilityEventsDB.stamp)
    (hevent : event.map DeviceAvailabilityEventsDB.stamp =
      event'.map DeviceAvailabilityEventsDB.stamp) :
    (storeEvent events event).2.map DeviceAvailabilityEventsDB.stamp =
      (storeEvent events' event').2.map DeviceAvailabilityEventsDB.stamp := by
  cases event with
  | none =>
      rw [Option.map_none, eq_comm, Option.map_eq_none_iff] at hevent
      rw [hevent]
      exact hevents
  | some event =>
      rw [Option.map_some, eq_comm, Option.map_eq_some_iff] at hevent
      obtain ⟨event', rfl, hstamp⟩ := hevent
      exact (DeviceAvailabilityEventsDB.createEventIfAbsent_stamp hevents hstamp.symm).2

theorem alike_deliver {s t : Fleet F} (h : Alike s t) (mac : UInt64) (x : Delivery F) :
    Alike (s.deliver mac x).2 (t.deliver mac x).2 := by
  have hmac := h.contact mac
  cases hs : s.aps mac with
  | none =>
      rw [hs, Option.map_none, eq_comm, Option.map_eq_none_iff] at hmac
      rw [deliver_of_none hs, deliver_of_none hmac]
      exact h
  | some ap =>
      rw [hs, Option.map_some, eq_comm, Option.map_eq_some_iff] at hmac
      obtain ⟨ap', hap', hcontact⟩ := hmac
      rw [deliver_of_some hs, deliver_of_some hap']
      -- one AP gets the message in both fleets, and its event is made of what they share
      refine ⟨?_, ?_⟩
      · intro other
        by_cases hother : other = mac
        · subst hother
          simp only [Function.update_self, Option.map_some, AP.contact_deliver, hcontact]
        · simp only [Function.update_of_ne hother]
          exact h.contact other
      · exact storeEvent_stamp h.events (AP.event_of_contact hcontact.symm x)

theorem alike_after {s t : Fleet F} (h : Alike s t) (xs : List (UInt64 × Delivery F)) :
    Alike (s.after xs) (t.after xs) := by
  induction xs generalizing s t with
  | nil => exact h
  | cons m rest ih => exact ih (alike_deliver h m.1 m.2)

theorem after_append (s : Fleet F) (xs ys : List (UInt64 × Delivery F)) :
    s.after (xs ++ ys) = (s.after xs).after ys :=
  List.foldl_append

end Fleet

/-! ## A copy of a disconnection -/

/-- Whether the device is connected, and the flags. -/
structure Status where
  connected : Bool
  gotBase : Bool
  gotHealth : Bool
  gotConnection : Bool
deriving DecidableEq

/-- What an access point is known as: connected, and its three flags. -/
def AP.status (ap : AP F) : Status :=
  ⟨ap.info.connected, ap.gotBase, ap.gotHealth, ap.gotConnection⟩

theorem AP.status_of_reset {ap : AP F} (h : Reset ap) :
    ap.status = ⟨false, false, false, false⟩ := by
  rw [status, h.connected, h.gotBase, h.gotHealth, h.gotConnection]

theorem AP.reset_of_status {ap : AP F} (h : ap.status = ⟨false, false, false, false⟩) :
    Reset ap := by
  obtain ⟨hconnected, hbase, hhealth, hconnection⟩ := Status.mk.injEq .. ▸ h
  exact ⟨hconnected, hbase, hhealth, hconnection⟩

/-- A disconnection resets, or its time stamp cannot be read and it touches no flag. -/
theorem AP.deliver_disconnection (ap : AP F) {x : Delivery F} {dis : Document F}
    (h : x.message.disconnection? = some dis) :
    (ReadableTimestamp dis ∧ Reset (ap.deliver x).1) ∨
      (¬ ReadableTimestamp dis ∧ (ap.deliver x).1.status = ap.status) := by
  obtain ⟨d, hmessage, hping, hdis⟩ := disconnection?_eq_some h
  simp only [deliver, hmessage, updateConnection, connection, hping, hdis]
  rcases disconnection_cases x.env
    { ap with
      info := { ap.info with pings := ap.info.pings + 1, lastContact := x.env.now } } dis with
    ⟨hread, hreset⟩ | ⟨hread, hsame⟩
  · exact .inl ⟨hread, hreset⟩
  · rw [hsame]
    exact .inr ⟨hread, rfl⟩

/-- It has no event where the device is not connected or its time stamp cannot be read. -/
theorem AP.event_eq_none (ap : AP F) {x : Delivery F} {dis : Document F}
    (h : x.message.disconnection? = some dis)
    (hnone : ¬ ReadableTimestamp dis ∨ ap.info.connected = false) :
    (ap.deliver x).2.event = none := by
  have hsource : ap.offlineSource x.message = none := by
    unfold offlineSource
    rw [h, Option.bind_eq_bind, Option.bind_some]
    cases htime : getJSON getUInt64 "timestamp" dis 0 with
    | none => rfl
    | some eventTime =>
        have hconnected : ap.info.connected = false :=
          hnone.resolve_left fun hread => hread ((readTimestamp_iff dis 0).mp ⟨eventTime, htime⟩)
        rw [Option.bind_eq_bind, Option.bind_some, if_neg]
        rw [hconnected]
        exact fun hcount => absurd hcount.1 Bool.false_ne_true
  rcases ap.deliver_event x with ⟨-, hevent⟩ | ⟨source, -, hsome, -⟩
  · exact hevent
  · rw [hsource] at hsome
    cases hsome

/-- The message is a disconnection that the device has got before. -/
def IsCopy (xs : List (UInt64 × Delivery F)) (mac : UInt64) (copy : Delivery F) : Prop :=
  copy.message.disconnection?.isSome ∧ ∃ y ∈ xs, y.1 = mac ∧ y.2.message = copy.message

namespace Fleet

/-- The status of the access point, if there is one. -/
def status (s : Fleet F) (mac : UInt64) : Option Status := (s.aps mac).map AP.status

/-- The keys and times of the rows. -/
def rows (s : Fleet F) : Finset (Str × UInt64) :=
  (s.events.map fun event => (event.idempotencyKey, event.eventTime)).toFinset

/-- A message between `xs` and `ys` leaves the flags as they are, and in the end the rows are as
    they would be without it. -/
def Transparent (s : Fleet F) (xs : List (UInt64 × Delivery F)) (mac : UInt64)
    (copy : Delivery F) (ys : List (UInt64 × Delivery F)) : Prop :=
  (s.after (xs ++ (mac, copy) :: ys)).rows = (s.after (xs ++ ys)).rows ∧
    (s.after (xs ++ [(mac, copy)])).status mac = (s.after xs).status mac

theorem rows_of_alike {s t : Fleet F} (h : Alike s t) : s.rows = t.rows := by
  have hmap : ∀ events : List DeviceAvailabilityEvent,
      events.map (fun event => (event.idempotencyKey, event.eventTime)) =
        (events.map DeviceAvailabilityEventsDB.stamp).map Prod.snd := by
    intro events
    rw [List.map_map]
    rfl
  rw [rows, rows, hmap, hmap, h.events]

/-- A disconnection of a device that is reset, or one that cannot be read, changes nothing that
    counts. -/
theorem deliver_of_reset {s : Fleet F} {mac : UInt64} {x : Delivery F} {dis : Document F}
    (hdis : x.message.disconnection? = some dis)
    (h : ∀ ap, s.aps mac = some ap → ¬ ReadableTimestamp dis ∨ Reset ap) :
    Alike (s.deliver mac x).2 s ∧ (s.deliver mac x).2.status mac = s.status mac := by
  cases hap : s.aps mac with
  | none =>
      rw [deliver_of_none hap]
      exact ⟨⟨fun _ => rfl, rfl⟩, rfl⟩
  | some ap =>
      -- a device that is reset is reset once more
      have hstatus : (ap.deliver x).1.status = ap.status := by
        rcases ap.deliver_disconnection hdis with ⟨hread, hreset⟩ | ⟨-, hsame⟩
        · have hbefore := (h ap hap).resolve_left (not_not_intro hread)
          rw [AP.status_of_reset hreset, AP.status_of_reset hbefore]
        · exact hsame
      have hcontact : (ap.deliver x).1.contact = ap.contact :=
        Prod.ext (ap.deliver_serialNumber x) (congrArg Status.connected hstatus)
      have hevent := ap.event_eq_none hdis ((h ap hap).imp_right Reset.connected)
      rw [deliver_of_some hap, hevent]
      refine ⟨⟨fun other => ?_, rfl⟩, ?_⟩
      · by_cases hother : other = mac
        · subst hother
          simp only [Function.update_self, hap, Option.map_some, hcontact]
        · simp only [Function.update_of_ne hother]
      · simp only [status, Function.update_self, hap, Option.map_some, hstatus]

/-- A copy of a disconnection is without effect iff its time stamp cannot be read or the device is
    reset: not connected, and no flag is set. -/
theorem transparent_iff (s : Fleet F) (xs : List (UInt64 × Delivery F)) (mac : UInt64)
    (copy : Delivery F) (ys : List (UInt64 × Delivery F)) {dis : Document F}
    (hdis : copy.message.disconnection? = some dis) :
    s.Transparent xs mac copy ys ↔
      ∀ ap, (s.after xs).aps mac = some ap → ¬ ReadableTimestamp dis ∨ Reset ap := by
  have hcopy : s.after (xs ++ [(mac, copy)]) = ((s.after xs).deliver mac copy).2 := by
    rw [after_append]
    rfl
  refine ⟨?_, ?_⟩
  · rintro ⟨-, hstatus⟩ ap hap
    by_contra hnot
    rw [not_or, not_not] at hnot
    rcases ap.deliver_disconnection hdis with ⟨-, hreset⟩ | ⟨hread, -⟩
    · -- the copy has cleared what the device had got
      have hsame : (ap.deliver copy).1.status = ap.status := by
        rw [hcopy] at hstatus
        simpa only [status, deliver, hap, Function.update_self, Option.map_some,
          Option.some.injEq] using hstatus
      exact hnot.2 (AP.reset_of_status (hsame ▸ AP.status_of_reset hreset))
    · exact hread hnot.1
  · intro h
    obtain ⟨halike, hstatus⟩ := deliver_of_reset hdis h
    refine ⟨rows_of_alike ?_, by rw [hcopy, hstatus]⟩
    rw [after_append, after_append]
    exact alike_after halike ys

end Fleet

/-! ## A stale copy -/

/-- A device that has been disconnected and is back. -/
def backOnline : List (UInt64 × Delivery ℚ) :=
  [toFirst pingMessage ['1'], toFirst (disconnectionMessage 5 ['u']) ['2'],
    toFirst pingMessage ['3']]

/-- The first disconnection comes again once the device is back, and the next one is lost. -/
theorem stale_copy_masks_next :
    ¬ ∀ (macs : List UInt64) (venueId boardId : Str) (xs : List (UInt64 × Delivery ℚ))
      (mac : UInt64) (copy : Delivery ℚ) (ys : List (UInt64 × Delivery ℚ)),
      IsCopy xs mac copy → (Fleet.start macs venueId boardId).Transparent xs mac copy ys := by
  intro h
  have hcopy : IsCopy backOnline 0xa1 (toFirst (disconnectionMessage 5 ['u']) ['4']).2 :=
    ⟨rfl, toFirst (disconnectionMessage 5 ['u']) ['2'], by simp [backOnline], rfl, rfl⟩
  obtain ⟨hrows, -⟩ := h [0xa1] ['v'] ['b'] backOnline 0xa1 _
    [toFirst (disconnectionMessage 9 ['w']) ['5']] hcopy
  revert hrows
  decide +kernel

theorem transparent_iff_at_once :
    (Fleet.start [0xa1] ['v'] ['b']).Transparent (backOnline.take 2) 0xa1
        (toFirst (disconnectionMessage 5 ['u']) ['4']).2
        [toFirst pingMessage ['5'], toFirst (disconnectionMessage 9 ['w']) ['6']] ↔
      ∀ ap, ((Fleet.start [0xa1] ['v'] ['b']).after (backOnline.take 2)).aps 0xa1 = some ap →
        ¬ ReadableTimestamp (.obj [("timestamp".toList, .unsigned 5), ("uuid".toList, .str ['u'])] :
          Document ℚ) ∨ Reset ap :=
  Fleet.transparent_iff _ _ _ _ _ rfl

end OwAnalytics.Ap
