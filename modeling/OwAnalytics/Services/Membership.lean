/-
  OwAnalytics.Services.Membership

  The services that share a bus.  `EventBusManager::run` of each posts a join, a
  keep-alive every ten seconds, and a leave; one of them is the observer, whose
  `BusMessageReceived` keeps the registry and forgets after two minutes.  Under the
  texts and the table this is membership by heartbeats.
-/

import OwAnalytics.Lib.Heartbeat
import OwAnalytics.Services.Announcements

namespace OwAnalytics.Services

open Expiry Heartbeat Throwing Transitions

variable {F : Type} {S : Type} [DecidableEq S]

/-! ## The services and the bus -/

/-- `vDAEMON_BUS_TIMER`, in seconds. -/
def DAEMON_BUS_TIMER : ℕ := 10

/-- The services, the bus, and the registry of the observer. -/
structure Daemons (S : Type) where
  clock : ℕ := 0
  /-- `EventBusManager::run` of each service. -/
  threads : S → Status := fun _ => .away
  /-- The messages the observer has not received: when each was posted, and its text. -/
  bus : List (ℕ × Str) := []
  /-- The registry of the observer. -/
  registry : MicroService := {}

namespace Daemons

section Steps

variable (L : JsonLibrary F) (identity : S → Identity) (ID_ : UInt64)

/-- `KafkaManager::PostMessage`, not wrapped. -/
def post (c : Daemons S) (s : S) (type : Str) (status : Status) : Daemons S :=
  { c with
    threads := Function.update c.threads s status
    bus := c.bus ++ [(c.clock, (identity s).makeSystemEventMessage L type)] }

/-- `BusMessageReceived` of the observer. -/
def receiveText (c : Daemons S) (text : Str) : MicroService :=
  (receive L.toPoco ID_
    { payload := L.parse text
      received := UInt64.ofNat c.clock
      now := UInt64.ofNat c.clock }).attempt c.registry

/-- A step, if it is enabled. -/
def step (c : Daemons S) : Heartbeat.Label S → Option (Daemons S)
  | .tick => some { c with clock := c.clock + 1 }
  | .join s =>
    match c.threads s with
    | .here _ => none
    | _ => some (c.post L identity s EVENT_JOIN (.here c.clock))
  | .keepAlive s =>
    -- `trySleep` has slept to its end
    match c.threads s with
    | .here last =>
      if last + DAEMON_BUS_TIMER ≤ c.clock then
        some (c.post L identity s EVENT_KEEP_ALIVE (.here c.clock))
      else none
    | _ => none
  | .leave s =>
    match c.threads s with
    | .here _ => some (c.post L identity s EVENT_LEAVE .away)
    | _ => none
  | .crash s =>
    match c.threads s with
    | .here _ => some { c with threads := Function.update c.threads s .crashed }
    | _ => none
  | .deliver =>
    match c.bus with
    | [] => none
    | e :: rest => some { c with bus := rest, registry := c.receiveText L ID_ e.2 }

/-- Time goes on while no thread is late with its keep-alive and no message with its delivery. -/
def Punctual (period delay : ℕ) (c : Daemons S) : Heartbeat.Label S → Prop
  | .tick =>
    (∀ s last, c.threads s = .here last → c.clock + 1 ≤ last + period) ∧
      (∀ e ∈ c.bus, c.clock + 1 ≤ e.1 + delay) ∧ c.clock + 1 < 2 ^ 64
  | _ => True

/-- The states of the runs on time. -/
abbrev OnTime (period delay : ℕ) : Daemons S → Prop :=
  ReachableUnder (ofFun {} (step L identity ID_)) (Punctual period delay)

end Steps

/-! ## Membership by heartbeats -/

/-- The event of a message, by its kind. -/
def typeOf : Kind → Str
  | .join => EVENT_JOIN
  | .keepAlive => EVENT_KEEP_ALIVE
  | .leave => EVENT_LEAVE

theorem typeOf_mem (kind : Kind) :
    typeOf kind = EVENT_JOIN ∨ typeOf kind = EVENT_KEEP_ALIVE ∨ typeOf kind = EVENT_LEAVE := by
  cases kind with
  | join => exact .inl rfl
  | keepAlive => exact .inr (.inl rfl)
  | leave => exact .inr (.inr rfl)

theorem typeOf_eq_leave_iff (kind : Kind) : typeOf kind = EVENT_LEAVE ↔ kind = .leave := by
  cases kind <;> decide

/-- The time-outs of the bus thread and of the registry, in seconds. -/
def timing (period delay : ℕ) : Timing where
  timer := DAEMON_BUS_TIMER
  period := period
  delay := delay
  limit := 120

section Simulation

variable (L : JsonLibrary F) (identity : S → Identity) (ID_ : UInt64)

/-- The observer passes over its own messages. -/
abbrev IsOwn (s : S) : Prop := (identity s).id = ID_

/-- The table holds the services that were heard of, as they are, with the time. -/
structure Shows (c : Contents Str MicroServiceMeta) (heard : Contents S ℕ) : Prop where
  member : ∀ s, c (identity s).myPrivateEndPoint
    = (heard s).map fun r => (identity s).toMeta (UInt64.ofNat r)
  others : ∀ k, (∀ s, (identity s).myPrivateEndPoint ≠ k) → c k = none

/-- The text of a message. -/
def textOfMessage (m : Message S) : ℕ × Str :=
  (m.posted, (identity m.member).makeSystemEventMessage L (typeOf m.kind))

/-- The daemons in a state of the abstract protocol: one clock, one set of threads, the texts of the
    messages on the bus, and a table that shows who was heard of. -/
structure Simulates (c : Daemons S) (st : Heartbeat.State S) : Prop where
  clock : c.clock = st.clock
  threads : c.threads = st.status
  bus : c.bus = st.pending.map (textOfMessage L identity)
  registry : Shows identity (contents c.registry) st.heard
  clock_lt : c.clock < 2 ^ 64

variable {L identity ID_}

/-- A report about a member is one about its endpoint. -/
theorem Shows.put {c : Contents Str MicroServiceMeta} {heard : Contents S ℕ}
    (h : Shows identity c heard)
    (hinj : Function.Injective fun s => (identity s).myPrivateEndPoint) (clock : ℕ)
    (m : Message S) :
    Shows identity
      (put c ((identity m.member).reportOf ID_ (typeOf m.kind) (UInt64.ofNat clock)))
      (put heard (report (IsOwn identity ID_) clock m)) := by
  unfold Identity.reportOf report
  by_cases hown : (identity m.member).id = ID_
  · rw [if_pos hown, if_pos hown]
    exact h
  · rw [if_neg hown, if_neg hown]
    refine ⟨fun s => ?_, fun k hk => ?_⟩
    -- an end point belongs to one service only, so the other entries stay
    · by_cases hs : s = m.member
      · subst hs
        rw [put_some_self, put_some_self]
        simp only [typeOf_eq_leave_iff]
        split <;> rfl
      · rw [put_some_of_ne _ (fun hk => hs (hinj hk)), put_some_of_ne _ hs]
        exact h.member s
    · rw [put_some_of_ne _ (hk m.member).symm]
      exact h.others k hk

/-- The unsigned difference of two times is the time between them. -/
theorem sub_le_iff {clock r limit : ℕ} (hclock : clock < 2 ^ 64) (hr : r ≤ clock)
    (hlimit : limit < 2 ^ 64) :
    UInt64.ofNat clock - UInt64.ofNat r ≤ UInt64.ofNat limit ↔ clock ≤ r + limit := by
  have hr64 : r < 2 ^ 64 := by omega
  have hle : UInt64.ofNat r ≤ UInt64.ofNat clock := by
    rw [UInt64.le_iff_toNat_le, UInt64.toNat_ofNat_of_lt' hr64, UInt64.toNat_ofNat_of_lt' hclock]
    exact hr
  rw [UInt64.le_iff_toNat_le, UInt64.toNat_sub_of_le _ _ hle, UInt64.toNat_ofNat_of_lt' hr64,
    UInt64.toNat_ofNat_of_lt' hclock, UInt64.toNat_ofNat_of_lt' hlimit]
  omega

omit [DecidableEq S] in
theorem Shows.fresh {c : Contents Str MicroServiceMeta} {heard : Contents S ℕ}
    (h : Shows identity c heard) {clock : ℕ} (hclock : clock < 2 ^ 64)
    (hheard : ∀ s r, heard s = some r → r ≤ clock) :
    Shows identity (fresh (UInt64.ofNat clock) c) (sweep id 120 clock heard) := by
  refine ⟨fun s => ?_, fun k hk => ?_⟩
  · show (c (identity s).myPrivateEndPoint).filter _ = ((heard s).filter _).map _
    rw [h.member s]
    cases hs : heard s with
    | none => rfl
    | some r =>
        have hiff : UInt64.ofNat clock - ((identity s).toMeta (UInt64.ofNat r)).lastUpdate ≤ 120
            ↔ clock ≤ id r + 120 := sub_le_iff hclock (hheard s r hs) (by decide)
        rw [Option.map_some, Option.filter_some, Option.filter_some]
        simp only [hiff, decide_eq_true_eq]
        split <;> rfl
  · show (c k).filter _ = none
    rw [h.others k hk]
    rfl

/-! ## The simulation -/

omit [DecidableEq S] in
theorem simulates_start : Simulates L identity ({} : Daemons S) {} where
  clock := rfl
  threads := rfl
  bus := rfl
  registry := ⟨fun _ => Std.ExtTreeMap.getElem?_empty, fun _ _ => Std.ExtTreeMap.getElem?_empty⟩
  clock_lt := by
    show 0 < 2 ^ 64
    decide

theorem Simulates.post {c : Daemons S} {st : Heartbeat.State S} (h : Simulates L identity c st)
    (s : S) (kind : Kind) (status : Status) :
    Simulates L identity (c.post L identity s (typeOf kind) status) (st.post s kind status) where
  clock := h.clock
  threads := by
    show Function.update c.threads s status = _
    rw [h.threads]
    rfl
  bus := by
    show c.bus ++ _ = (st.pending ++ _).map _
    rw [List.map_append, ← h.bus, h.clock]
    rfl
  registry := h.registry
  clock_lt := h.clock_lt

theorem Simulates.received {c : Daemons S} {st : Heartbeat.State S} (hL : L.Inverts)
    (hinj : Function.Injective fun s => (identity s).myPrivateEndPoint) {period delay : ℕ}
    (h : Simulates L identity c st) (hheard : ∀ s r, st.heard s = some r → r ≤ st.clock)
    (m : Message S) (rest : List (Message S)) :
    Simulates L identity
      { c with
        bus := rest.map (textOfMessage L identity)
        registry := c.receiveText L ID_ (textOfMessage L identity m).2 }
      (st.received (timing period delay) (IsOwn identity ID_) m rest) where
  clock := h.clock
  threads := h.threads
  bus := rfl
  registry := by
    have hreceived := receive_announcement hL (identity m.member) ID_ (typeOf_mem m.kind)
      (UInt64.ofNat c.clock) (UInt64.ofNat c.clock) c.registry
    show Shows identity (contents (receiveText L ID_ c (textOfMessage L identity m).2)) _
    rw [receiveText, textOfMessage, hreceived, h.clock]
    refine (h.registry.put hinj st.clock m).fresh (h.clock ▸ h.clock_lt) fun s r hr => ?_
    -- what is put down is heard of now
    unfold report at hr
    split at hr
    · exact hheard s r hr
    · by_cases hs : s = m.member
      · subst hs
        rw [put_some_self] at hr
        split at hr
        · cases hr
        · obtain rfl := Option.some.inj hr
          exact le_rfl
      · rw [put_some_of_ne _ hs] at hr
        exact hheard s r hr
  clock_lt := h.clock_lt

/-- A step of the services is one of membership by heartbeats. -/
theorem Simulates.step {c c' : Daemons S} {st : Heartbeat.State S} (hL : L.Inverts)
    (hinj : Function.Injective fun s => (identity s).myPrivateEndPoint) {period delay : ℕ}
    (h : Simulates L identity c st) (hheard : ∀ s r, st.heard s = some r → r ≤ st.clock)
    {a : Heartbeat.Label S} (hpunctual : Punctual period delay c a)
    (hstep : c.step L identity ID_ a = some c') :
    ∃ st', Heartbeat.step (timing period delay) (IsOwn identity ID_) st a = some st' ∧
      Heartbeat.Punctual (timing period delay) st a ∧ Simulates L identity c' st' := by
  cases a with
  | tick =>
      obtain rfl := Option.some.inj hstep
      obtain ⟨hthreads, hbus, hlt⟩ := hpunctual
      refine ⟨_, rfl, ⟨?_, ?_⟩, ⟨congrArg (· + 1) h.clock, h.threads, h.bus, h.registry, hlt⟩⟩
      · intro s last hs
        rw [← h.clock]
        exact hthreads s last (h.threads ▸ hs)
      · intro m hm
        rw [← h.clock]
        refine hbus (textOfMessage L identity m) ?_
        rw [h.bus]
        exact List.mem_map_of_mem hm
  | join s =>
      simp only [Daemons.step] at hstep
      split at hstep
      · cases hstep
      · rename_i hthreads
        obtain rfl := Option.some.inj hstep
        rw [h.threads] at hthreads
        refine ⟨st.post s .join (.here st.clock), ?_, trivial, h.clock ▸ h.post s .join _⟩
        simp only [Heartbeat.step]
  | keepAlive s =>
      simp only [Daemons.step] at hstep
      split at hstep
      · rename_i last hthreads
        split at hstep
        · rename_i hslept
          obtain rfl := Option.some.inj hstep
          rw [h.threads] at hthreads
          rw [h.clock] at hslept
          refine ⟨st.post s .keepAlive (.here st.clock), ?_, trivial,
            h.clock ▸ h.post s .keepAlive _⟩
          simp only [Heartbeat.step, hthreads]
          exact if_pos hslept
        · cases hstep
      · cases hstep
  | leave s =>
      simp only [Daemons.step] at hstep
      split at hstep
      · rename_i last hthreads
        obtain rfl := Option.some.inj hstep
        rw [h.threads] at hthreads
        refine ⟨st.post s .leave .away, ?_, trivial, h.post s .leave .away⟩
        simp only [Heartbeat.step, hthreads]
      · cases hstep
  | crash s =>
      simp only [Daemons.step] at hstep
      split at hstep
      · rename_i last hthreads
        obtain rfl := Option.some.inj hstep
        rw [h.threads] at hthreads
        refine ⟨{ st with status := Function.update st.status s .crashed }, ?_, trivial,
          ⟨h.clock, ?_, h.bus, h.registry, h.clock_lt⟩⟩
        · simp only [Heartbeat.step, hthreads]
        · show Function.update c.threads s .crashed = Function.update st.status s .crashed
          rw [h.threads]
      · cases hstep
  | deliver =>
      simp only [Daemons.step] at hstep
      -- the message at the head of both buses is handled
      cases hpending : st.pending with
      | nil =>
          rw [h.bus, hpending] at hstep
          cases hstep
      | cons m rest =>
          rw [h.bus, hpending] at hstep
          obtain rfl := Option.some.inj hstep
          refine ⟨st.received (timing period delay) (IsOwn identity ID_) m rest, ?_, trivial,
            h.received hL hinj hheard m rest⟩
          simp only [Heartbeat.step, hpending]

/-- Every run of the services on time is one of membership by heartbeats. -/
theorem exists_simulates (hL : L.Inverts)
    (hinj : Function.Injective fun s => (identity s).myPrivateEndPoint) {period delay : ℕ}
    (hlimit : period + delay ≤ 120) {c : Daemons S}
    (h : OnTime L identity ID_ period delay c) :
    ∃ st, Heartbeat.OnTime (timing period delay) (IsOwn identity ID_) st ∧
      Simulates L identity c st := by
  induction h with
  | @init c hc =>
      obtain rfl : c = {} := hc
      exact ⟨{}, .init rfl, simulates_start⟩
  | step _ hpunctual hstep ih =>
    obtain ⟨st, hst, hsim⟩ := ih
    have hinv := inv_of_onTime (t := timing period delay) hlimit hst
    obtain ⟨st', hstep', hpunctual', hsim'⟩ := hsim.step hL hinj hinv.heard hpunctual hstep
    exact ⟨st', .step hst hpunctual' hstep', hsim'⟩

end Simulation

/-! ## What the registry holds -/

section Membership

variable {L : JsonLibrary F} {identity : S → Identity} {ID_ : UInt64}

section OnTime

variable (hL : L.Inverts) (hinj : Function.Injective fun s => (identity s).myPrivateEndPoint)
  {period delay : ℕ} (hlimit : period + delay ≤ 120) {c : Daemons S}
  (h : OnTime L identity ID_ period delay c)
include hL hinj hlimit h

/-- An entry is another service as it is. -/
theorem exists_member_of_entry {k : Str} {info : MicroServiceMeta}
    (hinfo : contents c.registry k = some info) :
    ∃ s r, ¬ IsOwn identity ID_ s ∧ k = (identity s).myPrivateEndPoint ∧
      info = (identity s).toMeta (UInt64.ofNat r) ∧ r ≤ c.clock := by
  obtain ⟨st, hst, hsim⟩ := exists_simulates hL hinj hlimit h
  have hinv := inv_of_onTime (t := timing period delay) hlimit hst
  -- an entry is under the endpoint of a service
  have hmember : ∃ s, (identity s).myPrivateEndPoint = k := by
    by_contra hno
    rw [not_exists] at hno
    rw [hsim.registry.others k hno] at hinfo
    cases hinfo
  obtain ⟨s, rfl⟩ := hmember
  rw [hsim.registry.member s] at hinfo
  obtain ⟨r, hr, rfl⟩ := Option.map_eq_some_iff.mp hinfo
  refine ⟨s, r, fun hown => ?_, rfl, rfl, hsim.clock ▸ hinv.heard s r hr⟩
  rw [hinv.own s hown] at hr
  cases hr

/-- A service that runs has its entry, once its join has come. -/
theorem entry_of_here {s : S} {last : ℕ} (hown : ¬ IsOwn identity ID_ s)
    (hs : c.threads s = .here last)
    (hjoin : ∀ e ∈ c.bus, e.2 ≠ (identity s).makeSystemEventMessage L EVENT_JOIN) :
    ∃ r, contents c.registry (identity s).myPrivateEndPoint
        = some ((identity s).toMeta (UInt64.ofNat r)) ∧
      r ≤ c.clock ∧ c.clock ≤ r + period + delay := by
  obtain ⟨st, hst, hsim⟩ := exists_simulates hL hinj hlimit h
  have hbus : ∀ m ∈ st.pending, textOfMessage L identity m ∈ c.bus := by
    intro m hm
    rw [hsim.bus]
    exact List.mem_map_of_mem hm
  rw [hsim.threads] at hs
  obtain ⟨r, hr, hle, hclock⟩ := known_of_here (t := timing period delay) hlimit hst hown hs
    fun m hm hmember hkind => hjoin _ (hbus m hm) (by rw [textOfMessage, hmember, hkind]; rfl)
  have hentry := hsim.registry.member s
  rw [hr, Option.map_some] at hentry
  exact ⟨r, hentry, hsim.clock ▸ hle, hsim.clock ▸ hclock⟩

/-- A service that has left has none, once its last message has come. -/
theorem no_entry_of_away {s : S} (hs : c.threads s = .away)
    (hnone : ∀ e ∈ c.bus, ∀ type, e.2 ≠ (identity s).makeSystemEventMessage L type) :
    contents c.registry (identity s).myPrivateEndPoint = none := by
  obtain ⟨st, hst, hsim⟩ := exists_simulates hL hinj hlimit h
  have hpending : ∀ m ∈ st.pending, m.member ≠ s := by
    intro m hm hmember
    have hbus : textOfMessage L identity m ∈ c.bus := by
      rw [hsim.bus]
      exact List.mem_map_of_mem hm
    exact hnone _ hbus (typeOf m.kind) (by rw [textOfMessage, hmember])
  rw [hsim.threads] at hs
  rw [hsim.registry.member s, not_known_of_away (t := timing period delay) hlimit hst hs hpending]
  rfl

end OnTime

/-- `GetServices` finds the entries of the type. -/
theorem mem_getServices_iff {m : MicroService} {type : Str} {info : MicroServiceMeta} :
    info ∈ getServices m type ↔
      info.type = toLower type ∧ ∃ k, contents m k = some info := by
  rw [getServices, List.mem_filter, List.mem_map, beq_iff_eq, and_comm]
  refine and_congr_right fun _ => ⟨?_, ?_⟩
  · rintro ⟨⟨k, info⟩, hmem, rfl⟩
    exact ⟨k, Std.ExtTreeMap.mem_toList_iff_getElem?_eq_some.mp hmem⟩
  · rintro ⟨k, hk⟩
    exact ⟨(k, info), Std.ExtTreeMap.mem_toList_iff_getElem?_eq_some.mpr hk, rfl⟩

/-- While the services keep their times, and the longest time between two messages of a service and
    the longest way of a message are together at most two minutes: the registry of the observer
    holds nothing but other services as they are; it holds each of them that runs, once its join
    has come, and `GetServices` finds it; and it holds none that has left, once its last message
    has come. -/
theorem membership (hL : L.Inverts)
    (hinj : Function.Injective fun s => (identity s).myPrivateEndPoint) {period delay : ℕ}
    (hlimit : period + delay ≤ 120) {c : Daemons S} (h : OnTime L identity ID_ period delay c) :
    (∀ k info, contents c.registry k = some info → ∃ s r, ¬ IsOwn identity ID_ s ∧
      k = (identity s).myPrivateEndPoint ∧ info = (identity s).toMeta (UInt64.ofNat r) ∧
        r ≤ c.clock) ∧
    (∀ s last, ¬ IsOwn identity ID_ s → c.threads s = .here last →
      (∀ e ∈ c.bus, e.2 ≠ (identity s).makeSystemEventMessage L EVENT_JOIN) →
      ∃ r, contents c.registry (identity s).myPrivateEndPoint
          = some ((identity s).toMeta (UInt64.ofNat r)) ∧
        r ≤ c.clock ∧ c.clock ≤ r + period + delay ∧
        (identity s).toMeta (UInt64.ofNat r)
          ∈ getServices c.registry (identity s).daemonAppName) ∧
    (∀ s, c.threads s = .away →
      (∀ e ∈ c.bus, ∀ type, e.2 ≠ (identity s).makeSystemEventMessage L type) →
      contents c.registry (identity s).myPrivateEndPoint = none) := by
  refine ⟨fun k info hinfo => ?_, fun s last hown hs hjoin => ?_, fun s hs hnone => ?_⟩
  · exact exists_member_of_entry hL hinj hlimit h hinfo
  · obtain ⟨r, hentry, hle, hclock⟩ := entry_of_here hL hinj hlimit h hown hs hjoin
    exact ⟨r, hentry, hle, hclock, mem_getServices_iff.mpr ⟨rfl, _, hentry⟩⟩
  · exact no_entry_of_away hL hinj hlimit h hs hnone

theorem OnTime.next {period delay : ℕ} {c c' : Daemons S}
    (h : OnTime L identity ID_ period delay c) {a : Heartbeat.Label S}
    (hpunctual : Punctual period delay c a) (hstep : c.step L identity ID_ a = some c') :
    OnTime L identity ID_ period delay c' :=
  .step h hpunctual hstep

/-- Time goes on by some seconds, if nothing is late at the end of them. -/
theorem OnTime.ticks {period delay : ℕ} {c : Daemons S}
    (h : OnTime L identity ID_ period delay c) {n : ℕ}
    (hthreads : ∀ s last, c.threads s = .here last → c.clock + n ≤ last + period)
    (hbus : ∀ e ∈ c.bus, c.clock + n ≤ e.1 + delay) (hlt : c.clock + n < 2 ^ 64) :
    OnTime L identity ID_ period delay { c with clock := c.clock + n } := by
  induction n with
  | zero => exact h
  | succ n ih =>
      have hn := ih (fun s last hs => (Nat.le_succ _).trans (hthreads s last hs))
        (fun e he => (Nat.le_succ _).trans (hbus e he)) ((Nat.lt_succ_self _).trans hlt)
      have hpunctual : Punctual period delay { c with clock := c.clock + n } .tick :=
        ⟨hthreads, hbus, hlt⟩
      exact hn.next hpunctual rfl

/-- The observer and one other service. -/
def twoServices (other : Bool) : Identity where
  id := if other then 2 else 1
  daemonAppName := if other then "OWPROV".toList else "owanalytics".toList
  myPublicEndPoint := []
  myPrivateEndPoint := if other then ['p'] else ['a']
  myHash := ['h']
  version := ['1']

theorem twoServices_injective : Function.Injective fun s => (twoServices s).myPrivateEndPoint := by
  decide

/-- The other service joins, and the message is delivered. -/
theorem onTime_join : ∃ c : Daemons Bool, OnTime JsonText.library twoServices 1 10 110 c ∧
    c.threads true = .here 0 ∧ c.bus = [] := by
  have hrun : run (step JsonText.library twoServices 1) {} [.join true, .deliver] = some _ := rfl
  have hpunctual : ∀ a ∈ [Heartbeat.Label.join true, .deliver], ∀ c, Punctual 10 110 c a := by
    simp [Punctual]
  exact ⟨_, reachableUnder_of_run (fun _ _ _ hnext => hnext) (.init rfl) hpunctual hrun, rfl, rfl⟩

/-- The registry holds the other service: last heard of at this time. -/
def HoldsOther (c : Daemons Bool) : Prop :=
  ∃ r, contents c.registry ['p'] = some ((twoServices true).toMeta (UInt64.ofNat r)) ∧
    r ≤ c.clock ∧ (twoServices true).toMeta (UInt64.ofNat r)
      ∈ getServices c.registry "OWPROV".toList

/-- The other service joins, posts its keep-alive after ten seconds and leaves after ten more, and
    each of its messages is under way for a second.  The observer knows it until then. -/
theorem membership_of_twentySeconds :
    ∃ c c' : Daemons Bool, OnTime JsonText.library twoServices 1 11 1 c ∧
      OnTime JsonText.library twoServices 1 11 1 c' ∧
      c.clock = 11 ∧ c.threads true = .here 10 ∧ HoldsOther c ∧
      c'.clock = 21 ∧ c'.threads true = .away ∧ contents c'.registry ['p'] = none := by
  have hlimit : 11 + 1 ≤ 120 := by decide
  -- The observer posts nothing, so that only the other service can be late.
  have hticks : ∀ {c : Daemons Bool} (n last : ℕ), OnTime JsonText.library twoServices 1 11 1 c →
      c.threads false = .away → (∀ l, c.threads true = .here l → l = last) →
      c.clock + n ≤ last + 11 → (∀ e ∈ c.bus, c.clock + n ≤ e.1 + 1) → last < 100 →
      OnTime JsonText.library twoServices 1 11 1 { c with clock := c.clock + n } := by
    intro c n last hc hobserver hother hlast hbus hlt
    refine hc.ticks (fun s l hs => ?_) hbus (by omega)
    cases s with
    | false =>
        rw [hobserver] at hs
        cases hs
    | true =>
        rw [hother l hs]
        exact hlast
  have hjoin := OnTime.next (a := .join true)
    (.init rfl : OnTime JsonText.library twoServices 1 11 1 {}) (by trivial) rfl
  have hjoined := (hticks 1 0 hjoin rfl (by simp [post]) (by decide) (by simp [post])
    (by decide)).next (a := .deliver) (by trivial) rfl
  have hkept := (hticks 9 0 hjoined rfl (by simp [post]) (by decide) (by simp)
    (by decide)).next (a := .keepAlive true) (by trivial) rfl
  have hknown := (hticks 1 10 hkept rfl (by simp [post]) (by decide) (by simp [post])
    (by decide)).next (a := .deliver) (by trivial) rfl
  have hleft := (hticks 9 10 hknown rfl (by simp [post]) (by decide) (by simp)
    (by decide)).next (a := .leave true) (by trivial) rfl
  have hgone := (hticks 1 20 hleft rfl (by simp [post]) (by decide) (by simp [post])
    (by decide)).next (a := .deliver) (by trivial) rfl
  obtain ⟨r, hr, hle, -, hget⟩ := (membership JsonText.inverts_library twoServices_injective
    hlimit hknown).2.1 true 10 (by decide) rfl (by simp)
  have hnone := (membership JsonText.inverts_library twoServices_injective hlimit hgone).2.2
    true rfl (by simp)
  exact ⟨_, _, hknown, hgone, rfl, rfl, ⟨r, hr, hle, hget⟩, rfl, rfl, hnone⟩

end Membership

end Daemons

end OwAnalytics.Services
