/-
  OwAnalytics.Venue.Messages

  What a Kafka message of the three topics says: the document the receivers parse,
  the device it is about (`Utils::SerialNumberToInt`), and what an `AP` makes of it
  (`APStats.cpp`), as far as the decision to store a time point goes.
-/

import OwAnalytics.Venue.Receivers

namespace OwAnalytics.Venue

/-! ## Documents -/

/-- A parsed document.  Of a number only its being one matters here. -/
inductive Json
  | null
  | bool (b : Bool)
  | num
  | str (s : List Char)
  | arr (items : List Json)
  | obj (fields : List (List Char × Json))

namespace Json

/-- The member of an object. -/
def find? : Json → String → Option Json
  | obj fields, field => fields.lookup field.toList
  | _, _ => none

/-- `contains`. -/
def contains (j : Json) (field : String) : Bool := (j.find? field).isSome

/-- `get<std::string>()`; a document of another type throws. -/
def getString : Json → Option (List Char)
  | str s => some s
  | _ => none

/-- `GetJSON(field, doc, v, def)` for an unsigned number does not throw; `get<uint64_t>()` takes
    numbers only. -/
def readsUInt64 (j : Json) (field : String) : Bool :=
  match j.find? field with
  | none | some null | some num => true
  | _ => false

end Json

/-! ## Serial numbers -/

/-- The value of a hexadecimal digit. -/
def hexDigit? (c : Char) : Option Nat :=
  if '0' ≤ c ∧ c ≤ '9' then some (c.toNat - '0'.toNat)
  else if 'a' ≤ c ∧ c ≤ 'f' then some (c.toNat - 'a'.toNat + 10)
  else if 'A' ≤ c ∧ c ≤ 'F' then some (c.toNat - 'A'.toNat + 10)
  else none

/-- The longest prefix of hexadecimal digits, as their values. -/
def hexPrefix : List Char → List Nat
  | [] => []
  | c :: rest =>
      match hexDigit? c with
      | some d => d :: hexPrefix rest
      | none => []

/-- `std::stoull(s, nullptr, 16)`; an argument without digits or out of range throws. -/
def stoull16 (s : List Char) : Option Serial :=
  let s := s.dropWhile fun c => [' ', '\t', '\n', '\x0b', '\x0c', '\r'].contains c
  let (negative, s) :=
    match s with
    | '-' :: rest => (true, rest)
    | '+' :: rest => (false, rest)
    | rest => (false, rest)
  let s :=
    match s with
    | '0' :: x :: c :: rest =>
        if (x = 'x' ∨ x = 'X') ∧ (hexDigit? c).isSome then c :: rest else s
    | _ => s
  let digits := hexPrefix s
  let n := digits.foldl (fun n d => 16 * n + d) 0
  if digits.isEmpty ∨ 2 ^ 64 ≤ n then none
  else some (if negative then -UInt64.ofNat n else UInt64.ofNat n)

/-- `SerialNumberToInt`. -/
def serialNumberToInt (s : List Char) : Option Serial := stoull16 s

/-! ## Messages -/

/-- The types of a message. -/
inductive MsgType
  | connection
  | state
  | health
deriving DecidableEq

/-- A message of a receiver to a watcher. -/
structure VenueMessage where
  serialNumber : Serial
  type : MsgType
  payload : Json

/-- A message of a topic, with its key and the document its text parses to, if it does. -/
structure KafkaMessage where
  topic : MsgType
  key : List Char
  document : Option Json

/-- What a receiver reads off a message of its topic; `none` where it skips the message or an
    exception ends its handling.  A state message names its device in the payload, the others by
    the key. -/
def KafkaMessage.report (m : KafkaMessage) : Option VenueMessage := do
  let msg ← m.document
  let payload ← msg.find? "payload"
  match m.topic with
  | .state =>
      let state ← payload.find? "state"
      let serial ← payload.find? "serial"
      let serialNumber ← serialNumberToInt (← serial.getString)
      pure { serialNumber, type := .state, payload := state }
  | .connection =>
      pure { serialNumber := ← serialNumberToInt m.key, type := .connection, payload }
  | .health => pure { serialNumber := ← serialNumberToInt m.key, type := .health, payload }

/-- A message of a topic is reported as one of that type. -/
theorem KafkaMessage.report_type {m : KafkaMessage} {msg : VenueMessage}
    (h : m.report = some msg) : msg.type = m.topic := by
  simp only [report, Option.bind_eq_bind, Option.bind_eq_some_iff] at h
  obtain ⟨_, -, payload, -, h⟩ := h
  cases htopic : m.topic with
  | state =>
      simp only [htopic, Option.bind_eq_some_iff] at h
      obtain ⟨_, -, _, -, _, -, _, -, h⟩ := h
      rw [← Option.some.inj h]
  | connection =>
      simp only [htopic, Option.bind_eq_some_iff] at h
      obtain ⟨_, -, h⟩ := h
      rw [← Option.some.inj h]
  | health =>
      simp only [htopic, Option.bind_eq_some_iff] at h
      obtain ⟨_, -, h⟩ := h
      rw [← Option.some.inj h]

/-! ## The AP -/

/-- The flags of an `AP` that decide whether a time point is stored. -/
structure AP where
  gotHealth : Bool := false
  gotConnection : Bool := false
  gotBase : Bool := false

namespace AP

/-- `UpdateStats`, and whether it creates a time point.  A document it cannot read changes
    nothing about either. -/
def updateStats (ap : AP) (_state : Json) : AP × Bool :=
  if ap.gotBase then (ap, ap.gotConnection && ap.gotHealth)
  else ({ ap with gotBase := true }, false)

/-- `UpdateConnection`, for the state of the connection. -/
def updateConnection (ap : AP) (connection : Json) : AP :=
  if connection.contains "ping" then { ap with gotConnection := true }
  else
    match connection.find? "disconnection" with
    | some disconnection =>
        -- The time stamp is read before the flags are cleared.
        if disconnection.readsUInt64 "timestamp" then
          { gotBase := false, gotHealth := false, gotConnection := false }
        else ap
    | none =>
        if connection.contains "capabilities" then { ap with gotConnection := true } else ap

/-- `UpdateHealth` sets the flag before it reads the document. -/
def updateHealth (ap : AP) (_health : Json) : AP := { ap with gotHealth := true }

/-- One round of `VenueWatcher::run` for a device it has, and whether a time point is created. -/
def update (ap : AP) (msg : VenueMessage) : AP × Bool :=
  match msg.type with
  | .connection => (ap.updateConnection msg.payload, false)
  | .state => ap.updateStats msg.payload
  | .health => (ap.updateHealth msg.payload, false)

/-- The number of time points created for a queue of messages. -/
def timePoints : AP → List VenueMessage → Nat
  | _, [] => 0
  | ap, msg :: rest => (if (ap.update msg).2 then 1 else 0) + timePoints (ap.update msg).1 rest

/-- Without a health message, a round creates no time point and sets no health flag. -/
theorem update_of_not_health (ap : AP) {msg : VenueMessage} (htype : msg.type ≠ .health)
    (hap : ap.gotHealth = false) :
    (ap.update msg).2 = false ∧ (ap.update msg).1.gotHealth = false := by
  cases hmsg : msg.type with
  | health => exact absurd hmsg htype
  | state =>
      simp only [update, hmsg, updateStats]
      by_cases hbase : ap.gotBase <;> simp [hbase, hap]
  | connection =>
      simp only [update, hmsg, updateConnection, true_and]
      -- A connection message sets the connection flag, clears all three or does nothing.
      split
      · exact hap
      · split
        · split
          · rfl
          · exact hap
        · split
          · exact hap
          · exact hap

/-- A device whose health messages never arrive never gets a time point. -/
theorem timePoints_of_not_health (queue : List VenueMessage)
    (hqueue : ∀ msg ∈ queue, msg.type ≠ .health) (ap : AP) (hap : ap.gotHealth = false) :
    ap.timePoints queue = 0 := by
  induction queue generalizing ap with
  | nil => rfl
  | cons msg rest ih =>
      obtain ⟨hnone, hkeep⟩ := update_of_not_health ap (hqueue msg List.mem_cons_self) hap
      have hrest := ih fun msg hmsg => hqueue msg (List.mem_cons_of_mem _ hmsg)
      rw [timePoints, hnone, hrest _ hkeep]
      rfl

end AP

end OwAnalytics.Venue
