/-
  OwAnalytics.Ap.FailedParse

  What a state message that cannot be read leaves behind.  The block that reads it sets
  `device_info` last, and what follows the block runs also after a throw: the half-read
  data becomes the base, and is stored without the serial number of the device.
-/

import OwAnalytics.Ap.Frame
import OwAnalytics.Ap.Gating

namespace OwAnalytics.Ap

open Throwing Document

variable {F : Type} [Double F]

/-! ## The serial number of the data -/

namespace AP

/-- The serial number of a device stays, and only a message that is read to its end puts it into
    the data. -/
theorem parsed_serialNumber (env : Env F) (cache : WifiClientCache) (ap : AP F)
    (state : Document F) :
    (ap.parsed env cache state).2.info.serialNumber = ap.info.serialNumber ∧
      (ap.parsed env cache state).2.point.deviceInfo.serialNumber =
        if (ap.parsed env cache state).1.isSome then ap.info.serialNumber else [] := by
  let P : Work F → Prop := fun w =>
    w.info.serialNumber = ap.info.serialNumber ∧ w.point.deviceInfo = {}
  have hP : Closed P :=
    { info := fun w i hi hw => ⟨hi.trans hw.1, hw.2⟩
      point := fun w p hp hw => ⟨hw.1, hp.trans hw.2⟩ }
  have hbody : P (parseBody env ap.venueId state (ap.begin cache)).2 :=
    keeps_parseBody hP.device (fun _ _ hw => hw) (fun _ _ hw => hw) env ap.venueId state _
      ⟨rfl, rfl⟩
  -- Only the statement after the body sets the device info of the data.
  unfold parsed parse
  rcases Computation.bind_cases
    (parseBody env ap.venueId state)
    (fun _ => .modify fun w => { w with point := { w.point with deviceInfo := w.info } })
    (ap.begin cache) with
    ⟨w, hthrow, hbind⟩ | ⟨_, w, hread, hbind⟩
  · rw [hthrow] at hbody
    rw [hbind]
    exact ⟨hbody.1, congrArg DeviceInfo.serialNumber hbody.2⟩
  · rw [hread] at hbody
    rw [hbind]
    exact ⟨hbody.1, hbody.1⟩

/-- The try block reads the state message to its end. -/
def Parses (ap : AP F) (x : Delivery F) (state : Document F) : Prop :=
  (ap.parsed x.env x.cache state).1.isSome = true

theorem data_serialNumber {ap : AP F} {x : Delivery F} {state : Document F}
    (h : ap.Parses x state) :
    (ap.data x state).deviceInfo.serialNumber = ap.info.serialNumber :=
  (ap.parsed_serialNumber x.env x.cache state).2.trans (if_pos h)

theorem data_serialNumber_of_not {ap : AP F} {x : Delivery F} {state : Document F}
    (h : ¬ ap.Parses x state) : (ap.data x state).deviceInfo.serialNumber = [] :=
  (ap.parsed_serialNumber x.env x.cache state).2.trans (if_neg h)

/-! ## The device of an `AP` -/

/-- The serial number, the venue and the board the `AP` was made with. -/
structure Identity (mac : UInt64) (venueId boardId : Str) (ap : AP F) : Prop where
  serialNumber : ap.info.serialNumber = intToSerialNumber mac
  venueId : ap.venueId = venueId
  boardId : ap.boardId = boardId

theorem identity_infoFree (mac : UInt64) (venueId boardId : Str) :
    InfoFree (Identity (F := F) mac venueId boardId) := fun _ _ hi h =>
  ⟨hi.trans h.serialNumber, h.venueId, h.boardId⟩

theorem identity_deliver {mac : UInt64} {venueId boardId : Str} {ap : AP F} (x : Delivery F)
    (h : Identity mac venueId boardId ap) : Identity mac venueId boardId (ap.deliver x).1 := by
  have hfree := identity_infoFree (F := F) mac venueId boardId
  cases hmessage : x.message with
  | state d =>
      simp only [deliver, hmessage, updateStats]
      exact ⟨(ap.parsed_serialNumber x.env x.cache d).1.trans h.serialNumber, h.venueId, h.boardId⟩
  | health d =>
      simp only [deliver, hmessage]
      exact keeps_health hfree.deviceFree
        (fun ap hap => ⟨hap.serialNumber, hap.venueId, hap.boardId⟩) d ap h
  | connection d =>
      simp only [deliver, hmessage, updateConnection]
      refine keeps_connection hfree (fun ap _ _ _ hap => ?_) x.env d _ ?_
      · exact ⟨hap.serialNumber, hap.venueId, hap.boardId⟩
      · exact hfree ap
          { ap.info with pings := ap.info.pings + 1, lastContact := x.env.now } rfl h

theorem identity_after (mac : UInt64) (venueId boardId : Str) (xs : List (Delivery F)) :
    Identity mac venueId boardId ((create mac venueId boardId).after xs) := by
  induction xs using List.reverseRecOn with
  | nil => exact ⟨rfl, rfl, rfl⟩
  | append_singleton xs x ih =>
      rw [after_concat]
      exact identity_deliver x ih

/-- A connection message leaves the base alone, and gets none where there is none. -/
theorem updateConnection_base (env : Env F) (ap : AP F) (d : Document F) :
    (ap.updateConnection env d).1.base = ap.base ∧
      ((ap.updateConnection env d).1.gotBase = true → ap.gotBase = true) := by
  refine ⟨?_, ?_⟩
  · exact keeps_connection (P := fun ap' => ap'.base = ap.base) (fun _ _ _ h => h)
      (fun _ _ _ _ h => h) env d
      { ap with info := { ap.info with pings := ap.info.pings + 1, lastContact := env.now } } rfl
  -- of the three branches only the disconnection writes `gotBase`, and it clears it
  · cases hdis : (Message.connection d).disconnection? with
    | none =>
        rw [(ap.updateConnection_cases env d hdis).1.2.1]
        exact id
    | some dis =>
        intro hgot
        cases hping : d.find? "ping" with
        | some ping => simp [Message.disconnection?, contains, hping] at hdis
        | none =>
            have hfind : d.find? "disconnection" = some dis := by
              simpa [Message.disconnection?, contains, hping] using hdis
            simp only [updateConnection, connection, hping, hfind] at hgot
            rcases disconnection_cases env
              { ap with
                info := { ap.info with pings := ap.info.pings + 1, lastContact := env.now } }
              dis with
              ⟨-, hreset⟩ | ⟨-, hsame⟩
            · exact absurd (hreset.gotBase ▸ hgot) (by decide)
            · rw [hsame] at hgot
              exact hgot

theorem deliver_of_not_state {ap : AP F} {x : Delivery F} (hx : ¬ x.message.IsState) :
    (ap.deliver x).1.base = ap.base ∧ ((ap.deliver x).1.gotBase = true → ap.gotBase = true) := by
  cases hmessage : x.message with
  | state d => exact absurd (by rw [hmessage]; trivial) hx
  | connection d =>
      simp only [deliver, hmessage]
      exact ap.updateConnection_base x.env d
  | health d =>
      simp only [deliver, hmessage]
      obtain ⟨-, hgotBase, hbase⟩ := ap.updateHealth_same d
      exact ⟨hbase, fun hgot => hgotBase ▸ hgot⟩

end AP

/-! ## Runs -/

/-- Every state message of the run is read to its end. -/
def AllParse (ap : AP F) (xs : List (Delivery F)) : Prop :=
  ∀ before x rest state, xs = before ++ x :: rest → x.message = .state state →
    (ap.after before).Parses x state

/-- The base is the data of a state message that was read to its end. -/
def FullyParsed (ap : AP F) (xs : List (Delivery F)) (base : DeviceTimePoint F) : Prop :=
  ∃ before x rest state, xs = before ++ x :: rest ∧ x.message = .state state ∧
    (ap.after before).Parses x state ∧ base = (ap.after before).data x state

/-- The state messages of the run that are not read to their end store no point and leave the
    base as it is; every point that is stored carries the serial number, the board and the
    venue of the `AP`, and what it is made of was read to its end. -/
structure LeavesNoTrace (mac : UInt64) (venueId boardId : Str) (xs : List (Delivery F)) :
    Prop where
  failed : ∀ before x rest state, xs = before ++ x :: rest → x.message = .state state →
    ¬ ((AP.create mac venueId boardId).after before).Parses x state →
      (((AP.create mac venueId boardId).after before).deliver x).2.timePoint = none ∧
      (((AP.create mac venueId boardId).after before).deliver x).1.base =
        ((AP.create mac venueId boardId).after before).base ∧
      (((AP.create mac venueId boardId).after before).deliver x).1.gotBase =
        ((AP.create mac venueId boardId).after before).gotBase
  stored : ∀ before x rest p, xs = before ++ x :: rest →
    (((AP.create mac venueId boardId).after before).deliver x).2.timePoint = some p →
      p.serialNumber = intToSerialNumber mac ∧ p.boardId = boardId ∧ p.venueId = venueId ∧
      ∃ base state, FullyParsed (AP.create mac venueId boardId) before base ∧
        x.message = .state state ∧
        ((AP.create mac venueId boardId).after before).Parses x state ∧
        RatesTo base (((AP.create mac venueId boardId).after before).data x state) p

theorem allParse_of_append {ap : AP F} {xs ys : List (Delivery F)} (h : AllParse ap (xs ++ ys)) :
    AllParse ap xs := by
  rintro before x rest state rfl hx
  exact h before x (rest ++ ys) state (by simp) hx

theorem allParse_concat {ap : AP F} {xs : List (Delivery F)} {x : Delivery F}
    (h : AllParse ap xs)
    (hx : ∀ state, x.message = .state state → (ap.after xs).Parses x state) :
    AllParse ap (xs ++ [x]) := by
  intro before y rest state hsplit hy
  rcases List.eq_nil_or_concat rest with rfl | ⟨rest, z, rfl⟩
  · obtain ⟨rfl, hlast⟩ := List.append_inj' hsplit rfl
    obtain rfl := List.singleton_inj.mp hlast
    exact hx state hy
  · rw [List.concat_eq_append, ← List.cons_append, ← List.append_assoc] at hsplit
    obtain ⟨rfl, -⟩ := List.append_inj' hsplit rfl
    exact h before y rest state rfl hy

theorem fullyParsed_append {ap : AP F} {xs ys : List (Delivery F)} {base : DeviceTimePoint F}
    (h : FullyParsed ap xs base) : FullyParsed ap (xs ++ ys) base := by
  obtain ⟨before, x, rest, state, rfl, hx⟩ := h
  exact ⟨before, x, rest ++ ys, state, by simp, hx⟩

/-- In a run whose state messages are read, a base is the data of one of them. -/
theorem base_fullyParsed {mac : UInt64} {venueId boardId : Str} {xs : List (Delivery F)}
    (h : AllParse (AP.create mac venueId boardId) xs)
    (hgot : ((AP.create mac venueId boardId).after xs).gotBase = true) :
    FullyParsed (AP.create mac venueId boardId) xs
      ((AP.create mac venueId boardId).after xs).base := by
  -- the last state message made the base; a message of another kind keeps it or clears its flag
  induction xs using List.reverseRecOn with
  | nil => cases hgot
  | append_singleton xs x ih =>
      rw [AP.after_concat] at hgot ⊢
      cases hmessage : x.message with
      | state d =>
          refine ⟨xs, x, [], d, rfl, hmessage, h xs x [] d rfl hmessage, ?_⟩
          rw [AP.deliver, hmessage]
          rfl
      | health d =>
          obtain ⟨hbase, hbefore⟩ := AP.deliver_of_not_state (by rw [hmessage]; exact id)
          rw [hbase]
          exact fullyParsed_append (ih (allParse_of_append h) (hbefore hgot))
      | connection d =>
          obtain ⟨hbase, hbefore⟩ := AP.deliver_of_not_state (by rw [hmessage]; exact id)
          rw [hbase]
          exact fullyParsed_append (ih (allParse_of_append h) (hbefore hgot))

/-- Data that was read to its end carries the serial number. -/
theorem fullyParsed_serialNumber {mac : UInt64} {venueId boardId : Str} {xs : List (Delivery F)}
    {base : DeviceTimePoint F} (h : FullyParsed (AP.create mac venueId boardId) xs base) :
    base.deviceInfo.serialNumber = intToSerialNumber mac := by
  obtain ⟨before, x, rest, state, -, -, hparses, rfl⟩ := h
  exact (AP.data_serialNumber hparses).trans
    (AP.identity_after mac venueId boardId before).serialNumber

/-- A run leaves no trace of its state messages that are not read iff all are read. -/
theorem leavesNoTrace_iff (mac : UInt64) (venueId boardId : Str) (xs : List (Delivery F)) :
    LeavesNoTrace mac venueId boardId xs ↔ AllParse (AP.create mac venueId boardId) xs := by
  refine ⟨?_, ?_⟩
  · intro h
    -- The first that is not read leaves its own data, which has no serial number, as the base.
    have hprefix : ∀ ys, (∃ rest, xs = ys ++ rest) →
        AllParse (AP.create mac venueId boardId) ys := by
      intro ys
      induction ys using List.reverseRecOn with
      | nil =>
          rintro - before x rest state hsplit
          exact absurd hsplit.symm (by simp)
      | append_singleton ys x ih =>
          rintro ⟨rest, rfl⟩
          have hys : AllParse (AP.create mac venueId boardId) ys := ih ⟨x :: rest, by simp⟩
          refine allParse_concat hys fun state hx => ?_
          by_contra hnot
          obtain ⟨-, hbase, hgotBase⟩ := h.failed ys x rest state (by simp) hx hnot
          rw [AP.deliver, hx] at hbase hgotBase
          have hserial := fullyParsed_serialNumber (base_fullyParsed hys hgotBase.symm)
          rw [← hbase] at hserial
          exact intToSerialNumber_ne_nil mac
            (hserial.symm.trans (AP.data_serialNumber_of_not hnot))
    exact hprefix xs ⟨[], by simp⟩
  · intro h
    refine ⟨?_, ?_⟩
    · exact fun before x rest state hsplit hx hnot => absurd (h before x rest state hsplit hx) hnot
    · intro before x rest p hsplit hp
      have hall : AllParse (AP.create mac venueId boardId) (before ++ x :: rest) := hsplit ▸ h
      have hbefore : AllParse (AP.create mac venueId boardId) before := allParse_of_append hall
      cases hmessage : x.message with
      | health d => simp [AP.deliver, hmessage] at hp
      | connection d => simp [AP.deliver, hmessage, AP.updateConnection] at hp
      | state d =>
          have hparses := h before x rest d hsplit hmessage
          have hidentity := AP.identity_after (F := F) mac venueId boardId before
          simp only [AP.deliver, hmessage, AP.updateStats, AP.toStore] at hp
          split at hp
          · rename_i hgot
            obtain rfl := Option.some.inj hp
            exact ⟨(AP.data_serialNumber hparses).trans hidentity.serialNumber, hidentity.boardId,
              hidentity.venueId, _, d, base_fullyParsed hbefore hgot.1, rfl, hparses, rfl, rfl,
              rfl⟩
          · cases hp

/-! ## A message that is read half -/

/-- A state message with an SSID whose `bssid` is a number. -/
def halfReadState : Delivery ℚ :=
  plainDelivery (.state (.obj
    [("interfaces".toList, .arr [.obj [("ssids".toList,
      .arr [.obj [("bssid".toList, .unsigned 5)]])]]),
    ("unit".toList, .obj [("localtime".toList, .unsigned 120)])]))

/-- Its point is stored, without a serial number. -/
theorem half_read_point_stored :
    (∃ p, (((AP.create 0xa1 ['v'] ['b']).after contactsAndState).deliver
        halfReadState).2.timePoint = some p ∧ p.serialNumber = []) ∧
      ¬ LeavesNoTrace 0xa1 ['v'] ['b'] (contactsAndState ++ [halfReadState]) := by
  have hstored : ((((AP.create 0xa1 ['v'] ['b']).after contactsAndState).deliver
      halfReadState).2.timePoint).map (fun p => p.serialNumber) = some [] := by
    decide +kernel
  obtain ⟨p, hp, hnil⟩ := Option.map_eq_some_iff.mp hstored
  refine ⟨⟨p, hp, hnil⟩, fun h => ?_⟩
  have hserial := (h.stored contactsAndState halfReadState [] p rfl hp).1
  exact intToSerialNumber_ne_nil 0xa1 (hserial.symm.trans hnil)

end OwAnalytics.Ap
