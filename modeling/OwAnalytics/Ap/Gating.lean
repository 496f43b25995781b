/-
  OwAnalytics.Ap.Gating

  When an `AP` stores a time point, over all sequences of messages: since the latest
  disconnection there have been a state message, a ping or capabilities message and a
  health message, and the point is computed against the data of the state message
  before.
-/

import OwAnalytics.Ap.Disconnection

namespace OwAnalytics.Ap

open Throwing Document

variable {F : Type} [Double F]

/-! ## Messages -/

omit [Double F] in
/-- A connection message with a `disconnection` and no `ping`. -/
def Message.disconnection? : Message F → Option (Document F)
  | .connection d => if d.contains "ping" then none else d.find? "disconnection"
  | _ => none

omit [Double F] in
/-- The message is a state message. -/
def Message.IsState : Message F → Prop
  | .state _ => True
  | _ => False

omit [Double F] in
/-- The message is a health message. -/
def Message.IsHealth : Message F → Prop
  | .health _ => True
  | _ => False

omit [Double F] in
/-- A connection message that is a ping or names capabilities. -/
def Message.IsContact : Message F → Prop
  | .connection d => d.contains "ping" = true ∨ d.contains "capabilities" = true
  | _ => False

omit [Double F] in
/-- If the message is a disconnection, its time stamp can be read. -/
def Message.Readable (m : Message F) : Prop :=
  ∀ dis, m.disconnection? = some dis → ReadableTimestamp dis

namespace AP

/-- The data an `AP` makes of a state message. -/
def data (ap : AP F) (x : Delivery F) (state : Document F) : DeviceTimePoint F :=
  (ap.parsed x.env x.cache state).2.point

/-! ## What one message does -/

/-- A connection message that is no disconnection leaves health and base alone, and sets the
    connection flag only if it is a ping or names capabilities. -/
theorem updateConnection_cases (env : Env F) (ap : AP F) (d : Document F)
    (h : (Message.connection d).disconnection? = none) :
    ((ap.updateConnection env d).1.gotHealth = ap.gotHealth ∧
        (ap.updateConnection env d).1.gotBase = ap.gotBase ∧
        (ap.updateConnection env d).1.base = ap.base) ∧
      ((Message.connection d).IsContact ∨
        (ap.updateConnection env d).1.gotConnection = ap.gotConnection) := by
  let start : AP F :=
    { ap with info := { ap.info with pings := ap.info.pings + 1, lastContact := env.now } }
  let Same : AP F → Prop := fun ap' =>
    ap'.gotHealth = ap.gotHealth ∧ ap'.gotBase = ap.gotBase ∧ ap'.base = ap.base
  have hinfo : InfoFree Same := fun _ _ _ h => h
  show Same (connection env d start).2 ∧
    (_ ∨ (connection env d start).2.gotConnection = ap.gotConnection)
  unfold connection
  cases hping : d.find? "ping" with
  | some ping =>
      refine ⟨keeps_ping hinfo.deviceFree env ping ⟨rfl, rfl, rfl⟩, .inl (.inl ?_)⟩
      simp [contains, hping]
  | none =>
      -- A message without a ping but with a disconnection is what `h` rules out.
      have hdis : d.find? "disconnection" = none := by
        simpa [Message.disconnection?, contains, hping] using h
      rw [hdis]
      cases hcapabilities : d.find? "capabilities" with
      | some capabilities =>
          refine ⟨keeps_capabilities hinfo.deviceFree env capabilities ⟨rfl, rfl, rfl⟩,
            .inl (.inr ?_)⟩
          simp [contains, hcapabilities]
      | none => exact ⟨⟨rfl, rfl, rfl⟩, .inr rfl⟩

/-- A disconnection with a readable time stamp. -/
theorem updateConnection_of_disconnection (env : Env F) (ap : AP F) {d dis : Document F}
    (h : (Message.connection d).disconnection? = some dis) (hread : ReadableTimestamp dis) :
    Reset (ap.updateConnection env d).1 := by
  cases hping : d.find? "ping" with
  | some ping => simp [Message.disconnection?, contains, hping] at h
  | none =>
      have hdis : d.find? "disconnection" = some dis := by
        simpa [Message.disconnection?, contains, hping] using h
      exact ((reset_iff env ap hping hdis).mpr (.inl hread)).1

/-- A health message sets its flag and touches neither the base nor the other flags. -/
theorem updateHealth_same (ap : AP F) (d : Document F) :
    (ap.updateHealth d).gotConnection = ap.gotConnection ∧
      (ap.updateHealth d).gotBase = ap.gotBase ∧ (ap.updateHealth d).base = ap.base := by
  let Same : AP F → Prop := fun ap' =>
    ap'.gotConnection = ap.gotConnection ∧ ap'.gotBase = ap.gotBase ∧ ap'.base = ap.base
  have hfree : DeviceFree Same := fun _ _ _ _ h => h
  exact keeps_health hfree (fun _ h => h) d ap ⟨rfl, rfl, rfl⟩

end AP

/-! ## The past of a run -/

/-- There has been such a message, and no disconnection from it on. -/
def Since (xs : List (Delivery F)) (P : Message F → Prop) : Prop :=
  ∃ before x rest, xs = before ++ x :: rest ∧ P x.message ∧
    ∀ y ∈ x :: rest, y.message.disconnection? = none

omit [Double F] in
theorem since_concat {xs : List (Delivery F)} {P : Message F → Prop} {y : Delivery F}
    (h : Since xs P) (hy : y.message.disconnection? = none) : Since (xs ++ [y]) P := by
  obtain ⟨before, x, rest, rfl, hx, hrest⟩ := h
  refine ⟨before, x, rest ++ [y], by simp, hx, fun z hz => ?_⟩
  rw [← List.cons_append, List.mem_append, List.mem_singleton] at hz
  rcases hz with hz | rfl
  · exact hrest z hz
  · exact hy

omit [Double F] in
theorem since_last (xs : List (Delivery F)) {P : Message F → Prop} {y : Delivery F}
    (hP : P y.message) (hy : y.message.disconnection? = none) : Since (xs ++ [y]) P :=
  ⟨xs, y, [], rfl, hP, fun _ hz => List.mem_singleton.mp hz ▸ hy⟩

/-- The base is the data of the latest state message, and there has been no disconnection
    from it on. -/
def BaseOfLatest (ap : AP F) (xs : List (Delivery F)) (base : DeviceTimePoint F) : Prop :=
  ∃ before x state rest, xs = before ++ x :: rest ∧ x.message = .state state ∧
    (∀ y ∈ rest, ¬ y.message.IsState ∧ y.message.disconnection? = none) ∧
    base = (ap.after before).data x state

theorem baseOfLatest_concat {ap : AP F} {xs : List (Delivery F)} {base : DeviceTimePoint F}
    {y : Delivery F} (h : BaseOfLatest ap xs base) (hstate : ¬ y.message.IsState)
    (hy : y.message.disconnection? = none) : BaseOfLatest ap (xs ++ [y]) base := by
  obtain ⟨before, x, state, rest, rfl, hx, hrest, hbase⟩ := h
  refine ⟨before, x, state, rest ++ [y], by simp, hx, fun z hz => ?_, hbase⟩
  rw [List.mem_append, List.mem_singleton] at hz
  rcases hz with hz | rfl
  · exact hrest z hz
  · exact ⟨hstate, hy⟩

/-- What the flags and the base say of the messages so far. -/
structure History (ap : AP F) (xs : List (Delivery F)) : Prop where
  health : (ap.after xs).gotHealth = true → Since xs Message.IsHealth
  connection : (ap.after xs).gotConnection = true → Since xs Message.IsContact
  base : (ap.after xs).gotBase = true → BaseOfLatest ap xs (ap.after xs).base

theorem history_state {ap : AP F} {xs : List (Delivery F)} {x : Delivery F} {d : Document F}
    (h : History ap xs) (hx : x.message = .state d) : History ap (xs ++ [x]) := by
  have hdis : x.message.disconnection? = none := by rw [hx]; rfl
  have hdeliver : (ap.after (xs ++ [x])) = ((ap.after xs).updateStats x.env x.cache d).1 := by
    rw [AP.after_concat, AP.deliver, hx]
  refine ⟨?_, ?_, ?_⟩
  · rw [hdeliver]
    exact fun hgot => since_concat (h.health hgot) hdis
  · rw [hdeliver]
    exact fun hgot => since_concat (h.connection hgot) hdis
  · rw [hdeliver]
    exact fun _ => ⟨xs, x, d, [], rfl, hx, nofun, rfl⟩

theorem history_health {ap : AP F} {xs : List (Delivery F)} {x : Delivery F} {d : Document F}
    (h : History ap xs) (hx : x.message = .health d) : History ap (xs ++ [x]) := by
  have hdis : x.message.disconnection? = none := by rw [hx]; rfl
  have hstate : ¬ x.message.IsState := by rw [hx]; exact id
  have hdeliver : (ap.after (xs ++ [x])) = (ap.after xs).updateHealth d := by
    rw [AP.after_concat, AP.deliver, hx]
  obtain ⟨hconnection, hgotBase, hbase⟩ := (ap.after xs).updateHealth_same d
  refine ⟨?_, ?_, ?_⟩
  · exact fun _ => since_last xs (by rw [hx]; trivial) hdis
  · rw [hdeliver, hconnection]
    exact fun hgot => since_concat (h.connection hgot) hdis
  · rw [hdeliver, hgotBase, hbase]
    exact fun hgot => baseOfLatest_concat (h.base hgot) hstate hdis

theorem history_connection {ap : AP F} {xs : List (Delivery F)} {x : Delivery F} {d : Document F}
    (h : History ap xs) (hx : x.message = .connection d) (hread : x.message.Readable) :
    History ap (xs ++ [x]) := by
  have hstate : ¬ x.message.IsState := by rw [hx]; exact id
  have hdeliver : (ap.after (xs ++ [x])) = ((ap.after xs).updateConnection x.env d).1 := by
    rw [AP.after_concat, AP.deliver, hx]
  cases hdis : x.message.disconnection? with
  | some dis =>
      -- All flags are cleared.
      have hreset : Reset (ap.after (xs ++ [x])) := by
        rw [hdeliver]
        rw [hx] at hdis
        exact AP.updateConnection_of_disconnection x.env _ hdis (hread dis (hx ▸ hdis))
      exact
        { health := fun hgot => absurd (hreset.gotHealth ▸ hgot) (by decide)
          connection := fun hgot => absurd (hreset.gotConnection ▸ hgot) (by decide)
          base := fun hgot => absurd (hreset.gotBase ▸ hgot) (by decide) }
  | none =>
      obtain ⟨⟨hhealth, hgotBase, hbase⟩, hconnection⟩ :=
        AP.updateConnection_cases x.env (ap.after xs) d (hx ▸ hdis)
      refine ⟨?_, ?_, ?_⟩
      · rw [hdeliver, hhealth]
        exact fun hgot => since_concat (h.health hgot) hdis
      · rcases hconnection with hcontact | hsame
        · exact fun _ => since_last xs (hx ▸ hcontact) hdis
        · rw [hdeliver, hsame]
          exact fun hgot => since_concat (h.connection hgot) hdis
      · rw [hdeliver, hgotBase, hbase]
        exact fun hgot => baseOfLatest_concat (h.base hgot) hstate hdis

/-- The flags and the base tell the past of every run from a new `AP`. -/
theorem history_of_run (mac : UInt64) (venueId boardId : Str) (xs : List (Delivery F))
    (hread : ∀ x ∈ xs, x.message.Readable) :
    History (AP.create mac venueId boardId) xs := by
  induction xs using List.reverseRecOn with
  | nil => exact { health := nofun, connection := nofun, base := nofun }
  | append_singleton xs x ih =>
      have h := ih fun y hy => hread y (List.mem_append_left _ hy)
      have hx : x.message.Readable :=
        hread x (List.mem_append_right _ (List.mem_singleton_self x))
      cases hmessage : x.message with
      | state d => exact history_state h hmessage
      | health d => exact history_health h hmessage
      | connection d => exact history_connection h hmessage hx

/-- The differences and rates of the point are those of the data to the base. -/
structure RatesTo (base dtp p : DeviceTimePoint F) : Prop where
  apData : p.apData = (newPoint base dtp).apData
  radioData : p.radioData = (newPoint base dtp).radioData
  ssidData : p.ssidData = (newPoint base dtp).ssidData

theorem since_state_of_baseOfLatest {ap : AP F} {xs : List (Delivery F)}
    {base : DeviceTimePoint F} (h : BaseOfLatest ap xs base) : Since xs Message.IsState := by
  obtain ⟨before, x, state, rest, hxs, hx, hrest, -⟩ := h
  refine ⟨before, x, rest, hxs, by rw [hx]; trivial, fun y hy => ?_⟩
  rcases List.mem_cons.mp hy with rfl | hy
  · rw [hx]
    rfl
  · exact (hrest y hy).2

/-- A point is stored for a state message only after a state message, a ping or capabilities
    message and a health message since the latest disconnection, and its differences and rates
    are those to the data of the state message before. -/
theorem stored_gated (mac : UInt64) (venueId boardId : Str) (xs : List (Delivery F))
    (x : Delivery F) (p : DeviceTimePoint F) (hread : ∀ y ∈ xs, y.message.Readable)
    (hp : (((AP.create mac venueId boardId).after xs).deliver x).2.timePoint = some p) :
    Since xs Message.IsState ∧ Since xs Message.IsContact ∧ Since xs Message.IsHealth ∧
      ∃ state, x.message = .state state ∧
        ∃ base, BaseOfLatest (AP.create mac venueId boardId) xs base ∧
          RatesTo base (((AP.create mac venueId boardId).after xs).data x state) p := by
  have h := history_of_run mac venueId boardId xs hread
  cases hmessage : x.message with
  | health d => simp [AP.deliver, hmessage] at hp
  | connection d => simp [AP.deliver, hmessage, AP.updateConnection] at hp
  | state d =>
      -- a state message stores its point behind the three flags only
      simp only [AP.deliver, hmessage, AP.updateStats, AP.toStore] at hp
      split at hp
      · rename_i hgot
        obtain rfl := Option.some.inj hp
        have hbase := h.base hgot.1
        exact ⟨since_state_of_baseOfLatest hbase, h.connection hgot.2.1, h.health hgot.2.2, d, rfl,
          _, hbase, rfl, rfl, rfl⟩
      · cases hp

/-! ## A run that stores a point -/

/-- The message is delivered in these surroundings, with nothing cached. -/
def plainDelivery (message : Message ℚ) : Delivery ℚ where
  message
  env := plainEnv
  cache := fun _ => none

/-- A state message at this time, with this many bytes sent. -/
def stateMessage (localtime txBytes : UInt64) : Delivery ℚ :=
  plainDelivery (.state (.obj
    [("interfaces".toList, .arr [.obj [("counters".toList,
      .obj [("tx_bytes".toList, .unsigned txBytes)])]]),
    ("unit".toList, .obj [("localtime".toList, .unsigned localtime)])]))

/-- A ping, a health message and a state message. -/
def contactsAndState : List (Delivery ℚ) :=
  [plainDelivery (.connection (.obj [("ping".toList, .obj [])])), plainDelivery (.health .null),
    stateMessage 60 100]

theorem stored_gated_second_state :
    ∃ p, p.apData.txBytesDelta = 50 ∧
      (((AP.create 0xa1 ['v'] ['b']).after contactsAndState).deliver
        (stateMessage 120 150)).2.timePoint = some p ∧
      Since contactsAndState Message.IsState ∧ Since contactsAndState Message.IsContact ∧
      Since contactsAndState Message.IsHealth ∧
      ∃ state, (stateMessage 120 150).message = .state state ∧
        ∃ base, BaseOfLatest (AP.create 0xa1 ['v'] ['b']) contactsAndState base ∧
          RatesTo base
            (((AP.create 0xa1 ['v'] ['b']).after contactsAndState).data (stateMessage 120 150)
              state) p := by
  have hstored : ((((AP.create 0xa1 ['v'] ['b']).after contactsAndState).deliver
      (stateMessage 120 150)).2.timePoint).map (fun p => p.apData.txBytesDelta) = some 50 := by
    decide +kernel
  obtain ⟨p, hp, hdelta⟩ := Option.map_eq_some_iff.mp hstored
  have hread : ∀ y ∈ contactsAndState, y.message.Readable := by
    intro y hy dis hdis
    simp only [contactsAndState, List.mem_cons, List.not_mem_nil, or_false] at hy
    rcases hy with rfl | rfl | rfl <;> cases hdis
  exact ⟨p, hdelta, hp, stored_gated _ _ _ _ _ p hread hp⟩

end OwAnalytics.Ap
