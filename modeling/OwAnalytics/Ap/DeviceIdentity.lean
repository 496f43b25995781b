/-
  OwAnalytics.Ap.DeviceIdentity

  The serial number of a device on its way into the tables, and in the queries of the
  endpoints.  The numbers of the venue are read as hexadecimal integers and written
  again for the rows (`SerialNumberToInt`, `IntToSerialNumber`), while a query takes
  the text it is given.
-/

import OwAnalytics.Ap.Redelivery
import OwAnalytics.Mcp.Request
import OwAnalytics.Venue.Messages

namespace OwAnalytics.Ap

open Venue (hexDigit? hexPrefix stoull16 serialNumberToInt)

/-! ## Lower-case hexadecimal digits -/

/-- The digit `IntToSerialNumber` writes for a number below 16. -/
def serialDigit (b : Nat) : Char :=
  if b < 10 then Char.ofNat (b + '0'.toNat) else Char.ofNat (b - 10 + 'a'.toNat)

/-- A character of a serial number as it is stored. -/
def IsSerialDigit (c : Char) : Prop := ('0' ≤ c ∧ c ≤ '9') ∨ ('a' ≤ c ∧ c ≤ 'f')

instance : DecidablePred IsSerialDigit := fun _ => inferInstanceAs (Decidable (_ ∨ _))

/-- What `IntToSerialNumber` writes: twelve digits. -/
def IsSerialText (r : Str) : Prop := r.length = 12 ∧ ∀ c ∈ r, IsSerialDigit c

instance : DecidablePred IsSerialText := fun _ => inferInstanceAs (Decidable (_ ∧ _))

theorem isSerialDigit_serialDigit {v : Nat} (h : v < 16) : IsSerialDigit (serialDigit v) := by
  interval_cases v <;> decide

theorem hexDigit?_serialDigit {v : Nat} (h : v < 16) : hexDigit? (serialDigit v) = some v := by
  interval_cases v <;> decide

theorem toNat_le_of_le {a b : Char} (h : a ≤ b) : a.toNat ≤ b.toNat := by
  rw [Char.le_def, UInt32.le_iff_toNat_le] at h
  exact h

theorem eq_serialDigit {c : Char} (h : IsSerialDigit c) : ∃ v < 16, c = serialDigit v := by
  rcases h with ⟨hlow, hhigh⟩ | ⟨hlow, hhigh⟩
  · have hlow := toNat_le_of_le hlow
    have hhigh := toNat_le_of_le hhigh
    have h0 : '0'.toNat = 48 := rfl
    have h9 : '9'.toNat = 57 := rfl
    refine ⟨c.toNat - '0'.toNat, by omega, ?_⟩
    rw [serialDigit, if_pos (by omega), Nat.sub_add_cancel hlow, Char.ofNat_toNat]
  · have hlow := toNat_le_of_le hlow
    have hhigh := toNat_le_of_le hhigh
    have ha : 'a'.toNat = 97 := rfl
    have hf : 'f'.toNat = 102 := rfl
    refine ⟨c.toNat - 'a'.toNat + 10, by omega, ?_⟩
    rw [serialDigit, if_neg (by omega), Nat.add_sub_cancel, Nat.sub_add_cancel hlow,
      Char.ofNat_toNat]

/-- A text of digits is written from their values. -/
theorem eq_map_serialDigit {r : Str} (h : ∀ c ∈ r, IsSerialDigit c) :
    ∃ vs : List Nat, (∀ v ∈ vs, v < 16) ∧ r = vs.map serialDigit := by
  induction r with
  | nil => exact ⟨[], by simp, rfl⟩
  | cons c r ih =>
      rw [List.forall_mem_cons] at h
      obtain ⟨v, hv, rfl⟩ := eq_serialDigit h.1
      obtain ⟨vs, hvs, rfl⟩ := ih h.2
      exact ⟨v :: vs, List.forall_mem_cons.mpr ⟨hv, hvs⟩, rfl⟩

/-! ## Reading the digits -/

/-- The number of a list of digits. -/
def hexValue (vs : List Nat) : Nat := vs.foldl (fun n d => 16 * n + d) 0

theorem hexValue_concat (vs : List Nat) (v : Nat) :
    hexValue (vs ++ [v]) = 16 * hexValue vs + v := by
  rw [hexValue, List.foldl_append]
  rfl

theorem hexValue_lt {vs : List Nat} (h : ∀ v ∈ vs, v < 16) : hexValue vs < 16 ^ vs.length := by
  induction vs using List.reverseRecOn with
  | nil => decide
  | append_singleton vs v ih =>
      rw [List.forall_mem_append, List.forall_mem_singleton] at h
      have hvs := ih h.1
      have hv := h.2
      rw [hexValue_concat, List.length_append, List.length_singleton, Nat.pow_succ]
      omega

/-- Twelve digits have a number of 64 bits. -/
theorem toNat_ofNat_hexValue {vs : List Nat} (h : ∀ v ∈ vs, v < 16) (hlength : vs.length = 12) :
    (UInt64.ofNat (hexValue vs)).toNat = hexValue vs := by
  have hlt := hexValue_lt h
  have hsize : UInt64.size = 2 ^ 64 := rfl
  rw [hlength] at hlt
  exact UInt64.toNat_ofNat_of_lt' (by omega)

theorem hexPrefix_serialDigits {vs : List Nat} (h : ∀ v ∈ vs, v < 16) :
    hexPrefix (vs.map serialDigit) = vs := by
  induction vs with
  | nil => rfl
  | cons v vs ih =>
      rw [List.forall_mem_cons] at h
      rw [List.map_cons, hexPrefix, hexDigit?_serialDigit h.1, ih h.2]

/-- Digits have no blank, sign or prefix before them. -/
theorem serialDigit_ne {v : Nat} (h : v < 16) :
    [' ', '\t', '\n', '\x0b', '\x0c', '\r'].contains (serialDigit v) = false ∧
      serialDigit v ≠ '-' ∧ serialDigit v ≠ '+' ∧ serialDigit v ≠ 'x' ∧ serialDigit v ≠ 'X' := by
  interval_cases v <;> decide

/-- A text with no blank, sign or prefix is read from its first character. -/
theorem stoull16_of_plain {s : Str}
    (hblank : ∀ c ∈ s, [' ', '\t', '\n', '\x0b', '\x0c', '\r'].contains c = false)
    (hsign : ∀ c ∈ s, c ≠ '-' ∧ c ≠ '+') (hbase : ∀ c ∈ s, c ≠ 'x' ∧ c ≠ 'X') :
    stoull16 s =
      if (hexPrefix s).isEmpty ∨ 2 ^ 64 ≤ hexValue (hexPrefix s) then none
      else some (UInt64.ofNat (hexValue (hexPrefix s))) := by
  have hdrop : s.dropWhile
      (fun c => [' ', '\t', '\n', '\x0b', '\x0c', '\r'].contains c) = s := by
    cases s with
    | nil => rfl
    | cons c s =>
        rw [List.dropWhile_cons_of_neg]
        rw [hblank c List.mem_cons_self]
        decide
  unfold stoull16
  rw [hdrop]
  match s, hsign, hbase with
  | [], _, _ => rfl
  | [c], hsign, _ =>
      have hc := hsign c (by simp)
      simp [hc.1, hc.2, hexValue]
  | [c, x], hsign, _ =>
      have hc := hsign c (by simp)
      simp [hc.1, hc.2, hexValue]
  | c :: x :: c' :: rest, hsign, hbase =>
      have hc := hsign c (by simp)
      have hx := hbase x (by simp)
      -- a zero may begin a prefix, but for the character after it
      by_cases hzero : c = '0'
      · subst hzero
        simp [hx.1, hx.2, hexValue]
      · simp [hc.1, hc.2, hzero, hexValue]

theorem serialNumberToInt_serialDigits {vs : List Nat} (h : ∀ v ∈ vs, v < 16) (hne : vs ≠ [])
    (hlength : vs.length ≤ 16) :
    serialNumberToInt (vs.map serialDigit) = some (UInt64.ofNat (hexValue vs)) := by
  have hfits : hexValue vs < 2 ^ 64 :=
    calc hexValue vs < 16 ^ vs.length := hexValue_lt h
      _ ≤ 16 ^ 16 := Nat.pow_le_pow_right (by decide) hlength
      _ = 2 ^ 64 := by decide
  have hchars : ∀ {P : Char → Prop}, (∀ v < 16, P (serialDigit v)) →
      ∀ c ∈ vs.map serialDigit, P c := by
    intro P hP c hc
    obtain ⟨v, hv, rfl⟩ := List.mem_map.mp hc
    exact hP v (h v hv)
  rw [serialNumberToInt, stoull16_of_plain (hchars fun v hv => (serialDigit_ne hv).1)
    (hchars fun v hv => ⟨(serialDigit_ne hv).2.1, (serialDigit_ne hv).2.2.1⟩)
    (hchars fun v hv => (serialDigit_ne hv).2.2.2), hexPrefix_serialDigits h, if_neg]
  rw [List.isEmpty_iff, not_or, Nat.not_le]
  exact ⟨hne, hfits⟩

/-! ## Writing the digits -/

theorem serialDigits_succ (i : Nat) (s : UInt64) (digits : Str) :
    serialDigits (i + 1) s digits =
      serialDigits i (s >>> 4) (serialDigit (s.toNat % 16) :: digits) := by
  have hlow : (s &&& 0x0f).toNat = s.toNat % 16 := by
    rw [UInt64.toNat_and, show (0x0f : UInt64).toNat = 2 ^ 4 - 1 from rfl,
      Nat.and_two_pow_sub_one_eq_mod]
  rw [serialDigits, hlow]
  rfl

theorem toNat_shiftRight_four (s : UInt64) : (s >>> 4).toNat = s.toNat / 16 := by
  rw [UInt64.toNat_shiftRight, show (4 : UInt64).toNat % 64 = 4 from rfl,
    Nat.shiftRight_eq_div_pow]

/-- The digits before those that are written do not matter. -/
theorem serialDigits_hexValue (us : List Nat) {vs : List Nat} (h : ∀ v ∈ vs, v < 16) {s : UInt64}
    (hs : s.toNat = hexValue (us ++ vs)) (digits : Str) :
    serialDigits vs.length s digits = vs.map serialDigit ++ digits := by
  -- the digits are written from the last one on
  induction vs using List.reverseRecOn generalizing s digits with
  | nil => rfl
  | append_singleton vs v ih =>
      rw [List.forall_mem_append, List.forall_mem_singleton] at h
      rw [← List.append_assoc, hexValue_concat] at hs
      have hv := h.2
      have hlast : s.toNat % 16 = v := by omega
      have hrest : (s >>> 4).toNat = hexValue (us ++ vs) := by
        rw [toNat_shiftRight_four]
        omega
      rw [List.length_append, List.length_singleton, serialDigits_succ, hlast, ih h.1 hrest,
        List.map_append, List.append_assoc]
      rfl

theorem isSerialDigit_serialDigits (i : Nat) (s : UInt64) {digits : Str}
    (h : ∀ c ∈ digits, IsSerialDigit c) : ∀ c ∈ serialDigits i s digits, IsSerialDigit c := by
  induction i generalizing s digits with
  | zero => exact h
  | succ i ih =>
      rw [serialDigits_succ]
      exact ih _ (List.forall_mem_cons.mpr
        ⟨isSerialDigit_serialDigit (Nat.mod_lt _ (by decide)), h⟩)

theorem isSerialText_intToSerialNumber (n : UInt64) : IsSerialText (intToSerialNumber n) :=
  ⟨length_serialDigits 12 n [], isSerialDigit_serialDigits 12 n (by simp)⟩

/-- The number of a text is written as the text iff that has twelve lower-case digits. -/
theorem map_intToSerialNumber_iff (r : Str) :
    (serialNumberToInt r).map intToSerialNumber = some r ↔ IsSerialText r := by
  refine ⟨?_, ?_⟩
  · -- whatever the number, twelve lower-case digits are written
    intro h
    obtain ⟨n, -, rfl⟩ := Option.map_eq_some_iff.mp h
    exact isSerialText_intToSerialNumber n
  · rintro ⟨hlength, hdigits⟩
    obtain ⟨vs, hvs, rfl⟩ := eq_map_serialDigit hdigits
    rw [List.length_map] at hlength
    have hvalue := toNat_ofNat_hexValue hvs hlength
    rw [serialNumberToInt_serialDigits hvs (by rintro rfl; cases hlength) (by omega),
      Option.map_some, intToSerialNumber, ← hlength,
      serialDigits_hexValue [] hvs (s := UInt64.ofNat (hexValue vs)) hvalue, List.append_nil]

/-! ## What is recorded for a device -/

open Mcp (validateRouterId)

variable {F : Type} [Double F]

namespace AP

/-- The data of a state message become a point iff the `AP` has all its flags. -/
theorem timePoint_state (ap : AP F) {x : Delivery F} {state : Document F}
    (hmessage : x.message = .state state) {p : DeviceTimePoint F}
    (h : (ap.deliver x).2.timePoint = some p) :
    (ap.gotBase ∧ ap.gotConnection ∧ ap.gotHealth) ∧
      p.serialNumber = (ap.data x state).deviceInfo.serialNumber := by
  simp only [deliver, hmessage, updateStats, toStore] at h
  split at h
  · rename_i hgot
    obtain rfl := Option.some.inj h
    exact ⟨hgot, rfl⟩
  · cases h

/-- Only a state message has a point. -/
theorem state_of_timePoint (ap : AP F) {x : Delivery F} {p : DeviceTimePoint F}
    (h : (ap.deliver x).2.timePoint = some p) : ∃ state, x.message = .state state := by
  cases hmessage : x.message with
  | state d => exact ⟨d, rfl⟩
  | connection d => simp [deliver, hmessage, updateConnection] at h
  | health d => simp [deliver, hmessage] at h

theorem exists_timePoint (ap : AP F) {x : Delivery F} {state : Document F}
    (hmessage : x.message = .state state)
    (hgot : ap.gotBase ∧ ap.gotConnection ∧ ap.gotHealth) :
    ∃ p, (ap.deliver x).2.timePoint = some p := by
  simp only [deliver, hmessage, updateStats, toStore]
  exact ⟨_, if_pos hgot⟩

theorem event_serialNumber (ap : AP F) {x : Delivery F} {event : DeviceAvailabilityEvent}
    (h : (ap.deliver x).2.event = some event) : event.serialNumber = ap.info.serialNumber := by
  rcases ap.deliver_event x with ⟨-, hnone⟩ | ⟨_, _, -, hsome, hoffline⟩
  · rw [hnone] at h
    cases h
  · rw [hsome] at h
    obtain rfl := Option.some.inj h
    exact hoffline.serialNumber

end AP

namespace Fleet

theorem ofBoard_after {venueId boardId : Str} {s : Fleet F} (h : s.OfBoard venueId boardId)
    (xs : List (UInt64 × Delivery F)) : (s.after xs).OfBoard venueId boardId := by
  induction xs generalizing s with
  | nil => exact h
  | cons m rest ih => exact ih (ofBoard_deliver m.1 m.2 h)

/-- In the run a row of the device is given to the storage under that serial number: a point or an
    availability event. -/
def Records (s : Fleet F) (xs : List (UInt64 × Delivery F)) (mac : UInt64) (serialNumber : Str) :
    Prop :=
  ∃ before x rest ap, xs = before ++ (mac, x) :: rest ∧ (s.after before).aps mac = some ap ∧
    ((∃ p, (ap.deliver x).2.timePoint = some p ∧ p.serialNumber = serialNumber) ∨
      ∃ event, (ap.deliver x).2.event = some event ∧ event.serialNumber = serialNumber)

/-- The state messages of a device whose data become points are read to their end. -/
def ReadsPoints (s : Fleet F) (xs : List (UInt64 × Delivery F)) (mac : UInt64) : Prop :=
  ∀ before x rest ap state, xs = before ++ (mac, x) :: rest → (s.after before).aps mac = some ap →
    x.message = .state state → ap.gotBase ∧ ap.gotConnection ∧ ap.gotHealth → ap.Parses x state

/-- The rows are recorded under the text of the number of the device iff the points are those of
    messages that are read to their end; the others have no serial number. -/
theorem records_iff_readsPoints (macs : List UInt64) (venueId boardId : Str)
    (xs : List (UInt64 × Delivery F)) (mac : UInt64) :
    (∀ text, (start macs venueId boardId).Records xs mac text → text = intToSerialNumber mac) ↔
      (start macs venueId boardId).ReadsPoints xs mac := by
  refine ⟨?_, ?_⟩
  · intro h before x rest ap state hsplit hap hmessage hgot
    obtain ⟨p, hp⟩ := ap.exists_timePoint hmessage hgot
    obtain ⟨-, hserial⟩ := ap.timePoint_state hmessage hp
    have hrecorded := h _ ⟨before, x, rest, ap, hsplit, hap, .inl ⟨p, hp, rfl⟩⟩
    -- the parse throws before the serial number is set
    by_contra hnot
    rw [hserial, AP.data_serialNumber_of_not hnot] at hrecorded
    exact intToSerialNumber_ne_nil mac hrecorded.symm
  · rintro h text ⟨before, x, rest, ap, hsplit, hap, hrow⟩
    have hidentity :=
      ofBoard_after (ofBoard_start (F := F) macs venueId boardId) before mac ap hap
    rcases hrow with ⟨p, hp, rfl⟩ | ⟨event, hevent, rfl⟩
    · obtain ⟨state, hmessage⟩ := ap.state_of_timePoint hp
      obtain ⟨hgot, hserial⟩ := ap.timePoint_state hmessage hp
      have hparses := h before x rest ap state hsplit hap hmessage hgot
      rw [hserial, AP.data_serialNumber hparses]
      exact hidentity.serialNumber
    · rw [ap.event_serialNumber hevent]
      exact hidentity.serialNumber

end Fleet

/-! ## The devices of a venue -/

/-- In a run of the devices of a venue a row of the device is recorded under that serial number. -/
def RecordedAs (devices : List Str) (venueId boardId : Str) (xs : List (UInt64 × Delivery F))
    (device serialNumber : Str) : Prop :=
  ∃ macs mac, devices.mapM serialNumberToInt = some macs ∧ serialNumberToInt device = some mac ∧
    (Fleet.start macs venueId boardId).Records xs mac serialNumber

/-- The devices with serial numbers that the endpoints accept are recorded under these, which are
    what the endpoints query with, and no row is recorded for two of them. -/
structure IdentitiesAgree (devices : List Str) (venueId boardId : Str)
    (xs : List (UInt64 × Delivery F)) : Prop where
  written : ∀ routerId ∈ devices, validateRouterId routerId = .ok () →
    (serialNumberToInt routerId).map intToSerialNumber = some routerId
  recorded : ∀ routerId ∈ devices, validateRouterId routerId = .ok () →
    ∀ text, RecordedAs devices venueId boardId xs routerId text → text = routerId
  apart : ∀ routerId ∈ devices, ∀ other ∈ devices, validateRouterId routerId = .ok () →
    validateRouterId other = .ok () → routerId ≠ other →
      serialNumberToInt routerId ≠ serialNumberToInt other ∧
        ∀ text, RecordedAs devices venueId boardId xs routerId text →
          ¬ RecordedAs devices venueId boardId xs other text

/-- The points recorded for the device are those of messages that are read to their end. -/
def PointsRead (devices : List Str) (venueId boardId : Str) (xs : List (UInt64 × Delivery F))
    (device : Str) : Prop :=
  ∀ macs mac, devices.mapM serialNumberToInt = some macs → serialNumberToInt device = some mac →
    (Fleet.start macs venueId boardId).ReadsPoints xs mac

theorem pointsRead_iff {devices : List Str} {venueId boardId : Str}
    {xs : List (UInt64 × Delivery F)} {device : Str} (hdevice : IsSerialText device) :
    PointsRead devices venueId boardId xs device ↔
      ∀ text, RecordedAs devices venueId boardId xs device text → text = device := by
  obtain ⟨n, hn, rfl⟩ := Option.map_eq_some_iff.mp ((map_intToSerialNumber_iff device).mpr hdevice)
  refine ⟨?_, ?_⟩
  · rintro h text ⟨macs, mac, hmacs, hmac, hrecords⟩
    obtain rfl := Option.some.inj (hn.symm.trans hmac)
    exact (Fleet.records_iff_readsPoints macs venueId boardId xs n).mpr (h macs n hmacs hmac) text
      hrecords
  · intro h macs mac hmacs hmac
    obtain rfl := Option.some.inj (hn.symm.trans hmac)
    exact (Fleet.records_iff_readsPoints macs venueId boardId xs n).mp fun text hrecords =>
      h text ⟨macs, n, hmacs, hmac, hrecords⟩

/-- The tables and the queries agree on the devices iff each accepted serial number has twelve
    lower-case digits and its points are those of messages that are read to their end. -/
theorem identitiesAgree_iff (devices : List Str) (venueId boardId : Str)
    (xs : List (UInt64 × Delivery F)) :
    IdentitiesAgree devices venueId boardId xs ↔
      ∀ routerId ∈ devices, validateRouterId routerId = .ok () →
        IsSerialText routerId ∧ PointsRead devices venueId boardId xs routerId := by
  refine ⟨?_, ?_⟩
  · intro h routerId hmem haccepted
    have hserial := (map_intToSerialNumber_iff routerId).mp (h.written routerId hmem haccepted)
    exact ⟨hserial, (pointsRead_iff hserial).mpr (h.recorded routerId hmem haccepted)⟩
  · intro h
    have hwritten : ∀ routerId ∈ devices, validateRouterId routerId = .ok () →
        (serialNumberToInt routerId).map intToSerialNumber = some routerId :=
      fun routerId hmem haccepted =>
        (map_intToSerialNumber_iff routerId).mpr (h routerId hmem haccepted).1
    have hrecorded : ∀ routerId ∈ devices, validateRouterId routerId = .ok () →
        ∀ text, RecordedAs devices venueId boardId xs routerId text → text = routerId :=
      fun routerId hmem haccepted =>
        (pointsRead_iff (h routerId hmem haccepted).1).mp (h routerId hmem haccepted).2
    refine ⟨hwritten, hrecorded, fun routerId hmem other hmem' haccepted haccepted' hne => ⟨?_, ?_⟩⟩
    · -- one number would be written as both texts
      intro hsame
      have hother := hwritten other hmem' haccepted'
      rw [← hsame, hwritten routerId hmem haccepted] at hother
      exact hne (Option.some.inj hother)
    · intro text htext htext'
      exact hne ((hrecorded routerId hmem haccepted text htext).symm.trans
        (hrecorded other hmem' haccepted' text htext'))

/-! ## An upper-case serial number -/

/-- A serial number in upper case. -/
def upperCase : List Str := ["AABBCCDDEEFF".toList]

/-- A device that connects and is disconnected. -/
def onceOffline : List (UInt64 × Delivery ℚ) :=
  [(0xaabbccddeeff, plainDelivery pingMessage),
    (0xaabbccddeeff, plainDelivery (disconnectionMessage 5 ['u']))]

/-- The endpoints accept the serial number and query with it, and the event is recorded under the
    one in lower case. -/
theorem upperCase_recorded_otherwise :
    ¬ ∀ (devices : List Str) (venueId boardId : Str) (xs : List (UInt64 × Delivery ℚ)),
      (∀ routerId ∈ devices, PointsRead devices venueId boardId xs routerId) →
        IdentitiesAgree devices venueId boardId xs := by
  intro h
  have hread : ∀ routerId ∈ upperCase, PointsRead upperCase ['v'] ['b'] onceOffline routerId := by
    intro routerId _ macs mac _ _ before x rest ap state hsplit _ hstate
    have hmem : (mac, x) ∈ onceOffline := by
      rw [hsplit]
      simp
    simp only [onceOffline, List.mem_cons, Prod.mk.injEq, List.not_mem_nil, or_false] at hmem
    rcases hmem with ⟨-, rfl⟩ | ⟨-, rfl⟩ <;> cases hstate
  have hagree := (h upperCase ['v'] ['b'] onceOffline hread).recorded _ (List.mem_singleton_self _)
    (by decide +kernel) "aabbccddeeff".toList
  have hrecorded : RecordedAs upperCase ['v'] ['b'] onceOffline "AABBCCDDEEFF".toList
      "aabbccddeeff".toList := by
    refine ⟨[0xaabbccddeeff], 0xaabbccddeeff, by decide +kernel, by decide +kernel,
      onceOffline.take 1, _, [], _, rfl, rfl, .inr ⟨_, rfl, by decide +kernel⟩⟩
  exact absurd (hagree hrecorded) (by decide +kernel)

end OwAnalytics.Ap
