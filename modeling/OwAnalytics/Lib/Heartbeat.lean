/-
  OwAnalytics.Lib.Heartbeat

  Membership by heartbeats.  A member says on a bus that it joins, that it is still
  there, and that it leaves; an observer puts down when it last heard of each member, and
  with every message forgets those it has not heard of for too long.  If no two messages
  of a running member are further apart than a period, and no message is under way for
  longer than a delay, and both together are within the limit of the observer, then a
  member the observer has once heard of is never forgotten while it runs.
-/

import OwAnalytics.Lib.Expiry
import OwAnalytics.Lib.Transitions

namespace Heartbeat

open Expiry Transitions

variable {S : Type*} [DecidableEq S]

/-- What a member says on the bus. -/
inductive Kind
  | join
  | keepAlive
  | leave
deriving DecidableEq

/-- A message of the bus. -/
structure Message (S : Type*) where
  member : S
  kind : Kind
  posted : ℕ

/-- What a member does. -/
inductive Status
  /-- It has not joined, or has left. -/
  | away
  /-- It runs, and has posted its last message at this time. -/
  | here (last : ℕ)
  /-- It has ended without a word. -/
  | crashed

/-- The members, the bus, and what the observer knows. -/
structure State (S : Type*) where
  clock : ℕ := 0
  status : S → Status := fun _ => .away
  /-- The messages the observer has not received. -/
  pending : List (Message S) := []
  /-- When the observer has last heard of a member. -/
  heard : Contents S ℕ := fun _ => none

/-- What the members do, and the steps of time and of the bus. -/
inductive Label (S : Type*)
  | tick
  | join (s : S)
  | keepAlive (s : S)
  | leave (s : S)
  | crash (s : S)
  /-- The observer receives the next message. -/
  | deliver

/-- The time between two messages of a running member, at least and at most; the time a message is
    under way, at most; the time after which the observer forgets. -/
structure Timing where
  timer : ℕ
  period : ℕ
  delay : ℕ
  limit : ℕ

namespace State

/-- A member posts a message, and goes on in a new status. -/
def post (st : State S) (s : S) (kind : Kind) (status : Status) : State S :=
  { st with
    status := Function.update st.status s status
    pending := st.pending ++ [{ member := s, kind, posted := st.clock }] }

end State

variable (t : Timing) (own : S → Prop) [DecidablePred own]

/-- What the observer puts down of a message; of its own ones nothing. -/
def report (clock : ℕ) (m : Message S) : Option (Report S ℕ) :=
  if own m.member then none
  else some (m.member, if m.kind = .leave then none else some clock)

/-- The first message is received, and the others stay. -/
def State.received (st : State S) (m : Message S) (rest : List (Message S)) : State S :=
  { st with
    pending := rest
    heard := sweep id t.limit st.clock (put st.heard (report own st.clock m)) }

/-- A step, if it is enabled. -/
def step (st : State S) : Label S → Option (State S)
  | .tick => some { st with clock := st.clock + 1 }
  | .join s =>
    match st.status s with
    | .here _ => none
    | _ => some (st.post s .join (.here st.clock))
  | .keepAlive s =>
    match st.status s with
    | .here last =>
      if last + t.timer ≤ st.clock then some (st.post s .keepAlive (.here st.clock)) else none
    | _ => none
  | .leave s =>
    match st.status s with
    | .here _ => some (st.post s .leave .away)
    | _ => none
  | .crash s =>
    match st.status s with
    | .here _ => some { st with status := Function.update st.status s .crashed }
    | _ => none
  | .deliver =>
    match st.pending with
    | [] => none
    | m :: rest => some (st.received t own m rest)

/-- Time does not go on while a message is overdue: one that a running member has to post, or one
    that has to be delivered. -/
def Punctual (st : State S) : Label S → Prop
  | .tick =>
    (∀ s last, st.status s = .here last → st.clock + 1 ≤ last + t.period) ∧
      ∀ m ∈ st.pending, st.clock + 1 ≤ m.posted + t.delay
  | _ => True

/-- The states of the runs on time. -/
abbrev OnTime : State S → Prop :=
  ReachableUnder (ofFun {} (step t own)) (Punctual t)

/-! ## Messages in a row -/

/-- Keep-alives that follow a start within the period each, up to the last message posted. -/
structure Beats (period start : ℕ) (beats : List (Message S)) (last : ℕ) : Prop where
  kind : ∀ m ∈ beats, m.kind = .keepAlive
  chain : List.IsChain (fun a b => b ≤ a + period) (start :: beats.map Message.posted)
  last : last ≤ (start :: beats.map Message.posted).getLast (List.cons_ne_nil _ _)

section Beats

variable {period start last : ℕ} {beats : List (Message S)}

omit [DecidableEq S] in
theorem beats_nil (h : last ≤ start) : Beats period start ([] : List (Message S)) last :=
  ⟨fun _ hm => absurd hm List.not_mem_nil, List.isChain_singleton _, h⟩

omit [DecidableEq S] in
/-- A later start. -/
theorem Beats.mono {start' : ℕ} (h : Beats period start beats last) (hstart : start ≤ start') :
    Beats period start' beats last := by
  obtain ⟨hkind, hchain, hlast⟩ := h
  cases beats with
  | nil => exact beats_nil (hlast.trans hstart)
  | cons m rest =>
      refine ⟨hkind, ?_, ?_⟩
      · rw [List.map_cons, List.isChain_cons_cons] at hchain ⊢
        exact ⟨hchain.1.trans (Nat.add_le_add_right hstart period), hchain.2⟩
      · simpa only [List.map_cons, List.getLast_cons_cons] using hlast

omit [DecidableEq S] in
/-- The first keep-alive is the start of the others. -/
theorem Beats.tail {m : Message S} (h : Beats period start (m :: beats) last) :
    Beats period m.posted beats last where
  kind m' hm' := h.kind m' (List.mem_cons_of_mem m hm')
  chain := by
    have hchain := h.chain
    rw [List.map_cons, List.isChain_cons_cons] at hchain
    exact hchain.2
  last := by
    have hlast := h.last
    simpa only [List.map_cons, List.getLast_cons_cons] using hlast

omit [DecidableEq S] in
theorem Beats.head_le {m : Message S} (h : Beats period start (m :: beats) last) :
    m.posted ≤ start + period := by
  have hchain := h.chain
  rw [List.map_cons, List.isChain_cons_cons] at hchain
  exact hchain.1

omit [DecidableEq S] in
/-- One more keep-alive, within the period. -/
theorem Beats.snoc (h : Beats period start beats last) {m : Message S} (hkind : m.kind = .keepAlive)
    (hposted : m.posted ≤ last + period) : Beats period start (beats ++ [m]) m.posted := by
  refine ⟨fun m' hm' => ?_, ?_, ?_⟩
  · rcases List.mem_append.mp hm' with hm' | hm'
    · exact h.kind m' hm'
    · rw [List.mem_singleton.mp hm', hkind]
  · rw [List.map_append, List.map_singleton, ← List.cons_append]
    refine List.isChain_append.mpr ⟨h.chain, List.isChain_singleton _, fun x hx y hy => ?_⟩
    -- the new one follows the last one
    rw [List.getLast?_eq_getLast_of_ne_nil (List.cons_ne_nil _ _)] at hx
    obtain rfl := Option.some.inj hx
    obtain rfl := Option.some.inj hy
    exact hposted.trans (Nat.add_le_add_right h.last period)
  · simp

end Beats

/-! ## What the observer knows of a member -/

/-- The messages of a member that are under way. -/
def State.pendingOf (st : State S) (s : S) : List (Message S) :=
  st.pending.filter fun m => m.member = s

theorem pendingOf_post (st : State S) (s s' : S) (kind : Kind) (status : Status) :
    (st.post s kind status).pendingOf s'
      = if s' = s then st.pendingOf s' ++ [{ member := s, kind, posted := st.clock }]
        else st.pendingOf s' := by
  by_cases hs : s' = s
  · simp [State.pendingOf, State.post, hs]
  · simp [State.pendingOf, State.post, hs, Ne.symm hs]

theorem mem_pending_post (st : State S) {s : S} {kind : Kind} {status : Status}
    {m : Message S} (hm : m ∈ (st.post s kind status).pending) :
    m ∈ st.pending ∨ m.posted = st.clock := by
  rcases List.mem_append.mp hm with hm | hm
  · exact .inl hm
  · rw [List.mem_singleton.mp hm]
    exact .inr rfl

theorem status_post_self (st : State S) (s : S) (kind : Kind) (status : Status) :
    (st.post s kind status).status s = status := Function.update_self _ _ _

theorem status_post_of_ne (st : State S) {s s' : S} (h : s' ≠ s) (kind : Kind)
    (status : Status) : (st.post s kind status).status s' = st.status s' :=
  Function.update_of_ne h _ _

/-- Of a running member, that posted its last message at this time: its join is under way, and its
    keep-alives after it; or it was heard of, and its keep-alives are under way. -/
inductive Tracked (period : ℕ) (st : State S) (s : S) (last : ℕ) : Prop
  | joining (old : List (Message S)) (j : Message S) (beats : List (Message S))
      (hpending : st.pendingOf s = old ++ j :: beats) (hjoin : j.kind = .join)
      (hbeats : Beats period j.posted beats last)
  | known (r : ℕ) (hheard : st.heard s = some r)
      (hbeats : Beats period r (st.pendingOf s) last)

/-- Of a member that is away: its leave is under way, or nothing is and the observer does not know
    it. -/
def Gone (st : State S) (s : S) : Prop :=
  (∃ old m, st.pendingOf s = old ++ [m] ∧ m.kind = .leave) ∨
    st.pendingOf s = [] ∧ st.heard s = none

/-- What holds at every moment of the runs on time. -/
structure Inv (st : State S) : Prop where
  posted : ∀ m ∈ st.pending, m.posted ≤ st.clock ∧ st.clock ≤ m.posted + t.delay
  here : ∀ s last, st.status s = .here last → last ≤ st.clock ∧ st.clock ≤ last + t.period
  tracked : ∀ s last, ¬ own s → st.status s = .here last → Tracked t.period st s last
  away : ∀ s, st.status s = .away → Gone st s
  own : ∀ s, own s → st.heard s = none
  heard : ∀ s r, st.heard s = some r → r ≤ st.clock

omit [DecidablePred own] in
theorem inv_start : Inv t own ({} : State S) where
  posted m hm := absurd hm List.not_mem_nil
  here s last h := by cases h
  tracked s last _ h := by cases h
  away s _ := .inr ⟨rfl, rfl⟩
  own s _ := rfl
  heard s r h := by cases h

section Inv

variable {t own} {st : State S}

omit [DecidablePred own] in
/-- A member that was heard of was heard of within the period and the delay. -/
theorem Inv.clock_le (h : Inv t own st) {s : S} {last r : ℕ} (hstatus : st.status s = .here last)
    (hbeats : Beats t.period r (st.pendingOf s) last) : st.clock ≤ r + t.period + t.delay := by
  have hclock := (h.here s last hstatus).2
  cases hpending : st.pendingOf s with
  | nil =>
      -- it has posted nothing since
      rw [hpending] at hbeats
      have hlast : last ≤ r := hbeats.last
      omega
  | cons m rest =>
      -- the next message is under way
      rw [hpending] at hbeats
      have hm : m ∈ st.pending := by
        have hmem : m ∈ st.pendingOf s := hpending ▸ List.mem_cons_self
        exact (List.mem_filter.mp hmem).1
      have hnext := hbeats.head_le
      have hdelay := (h.posted m hm).2
      omega

/-- What is known of a member, where nothing about it has changed. -/
theorem Tracked.congr {st' : State S} {s : S} {last : ℕ} (h : Tracked t.period st s last)
    (hpending : st'.pendingOf s = st.pendingOf s) (hheard : st'.heard s = st.heard s) :
    Tracked t.period st' s last := by
  cases h with
  | joining old j beats hp hjoin hbeats =>
      exact .joining old j beats (hpending.trans hp) hjoin hbeats
  | known r hr hbeats => exact .known r (hheard.trans hr) (hpending.symm ▸ hbeats)

theorem Gone.congr {st' : State S} {s : S} (h : Gone st s)
    (hpending : st'.pendingOf s = st.pendingOf s) (hheard : st'.heard s = st.heard s) :
    Gone st' s := by
  rw [Gone, hpending, hheard]
  exact h

omit [DecidablePred own] in
/-- A step of one member, that posts what it posts now. -/
theorem Inv.of_member (h : Inv t own st) {st' : State S} (s : S) (hclock : st'.clock = st.clock)
    (hheard : st'.heard = st.heard) (hstatus : ∀ s', s' ≠ s → st'.status s' = st.status s')
    (hpending : ∀ s', s' ≠ s → st'.pendingOf s' = st.pendingOf s')
    (hposted : ∀ m ∈ st'.pending, m ∈ st.pending ∨ m.posted = st.clock)
    (hhere : ∀ last, st'.status s = .here last → last = st.clock ∧
      (¬ own s → Tracked t.period st' s last))
    (haway : st'.status s = .away → Gone st' s) : Inv t own st' where
  posted m hm := by
    rw [hclock]
    rcases hposted m hm with hm | hm
    · exact h.posted m hm
    · rw [hm]
      exact ⟨le_rfl, Nat.le_add_right _ _⟩
  here s' last hs' := by
    rw [hclock]
    -- the member acts now; for the others nothing has changed
    by_cases hs : s' = s
    · subst hs
      rw [(hhere last hs').1]
      exact ⟨le_rfl, Nat.le_add_right _ _⟩
    · rw [hstatus s' hs] at hs'
      exact h.here s' last hs'
  tracked s' last hown hs' := by
    by_cases hs : s' = s
    · subst hs
      exact (hhere last hs').2 hown
    · rw [hstatus s' hs] at hs'
      exact (h.tracked s' last hown hs').congr (hpending s' hs) (by rw [hheard])
  away s' hs' := by
    by_cases hs : s' = s
    · subst hs
      exact haway hs'
    · rw [hstatus s' hs] at hs'
      exact (h.away s' hs').congr (hpending s' hs) (by rw [hheard])
  own s' hs' := by rw [hheard, h.own s' hs']
  heard s' r hr := by
    rw [hheard] at hr
    rw [hclock]
    exact h.heard s' r hr

omit [DecidablePred own] in
theorem Inv.post (h : Inv t own st) {s : S} {kind : Kind} {status : Status}
    (hhere : ∀ last, status = .here last → last = st.clock ∧
      (¬ own s → Tracked t.period (st.post s kind status) s last))
    (haway : status = .away → Gone (st.post s kind status) s) :
    Inv t own (st.post s kind status) := by
  refine h.of_member s rfl rfl (fun s' hs => status_post_of_ne st hs kind status)
    (fun s' hs => ?_) (fun m hm => mem_pending_post st hm) ?_ ?_
  · rw [pendingOf_post, if_neg hs]
  · rw [status_post_self]
    exact hhere
  · rw [status_post_self]
    exact haway

omit [DecidablePred own] in
theorem Inv.join (h : Inv t own st) (s : S) : Inv t own (st.post s .join (.here st.clock)) := by
  refine h.post (fun last hlast => ?_) (fun haway => by cases haway)
  cases hlast
  have hpending := pendingOf_post st s s .join (.here st.clock)
  rw [if_pos rfl] at hpending
  exact ⟨rfl, fun _ => .joining (st.pendingOf s) _ [] hpending rfl (beats_nil le_rfl)⟩

omit [DecidablePred own] in
theorem Inv.keepAlive (h : Inv t own st) {s : S} {last : ℕ} (hstatus : st.status s = .here last) :
    Inv t own (st.post s .keepAlive (.here st.clock)) := by
  refine h.post (fun last' hlast' => ?_) (fun haway => by cases haway)
  cases hlast'
  refine ⟨rfl, fun hown => ?_⟩
  have hpending := pendingOf_post st s s .keepAlive (.here st.clock)
  rw [if_pos rfl] at hpending
  have hclock := (h.here s last hstatus).2
  cases h.tracked s last hown hstatus with
  | joining old j beats hp hjoin hbeats =>
      rw [hp, List.append_assoc, List.cons_append] at hpending
      exact .joining old j _ hpending hjoin (hbeats.snoc rfl hclock)
  | known r hr hbeats =>
      refine .known r hr ?_
      rw [hpending]
      exact hbeats.snoc rfl hclock

omit [DecidablePred own] in
theorem Inv.leave (h : Inv t own st) (s : S) : Inv t own (st.post s .leave .away) := by
  refine h.post (fun last hlast => by cases hlast) fun _ => ?_
  have hpending := pendingOf_post st s s .leave .away
  rw [if_pos rfl] at hpending
  exact .inl ⟨st.pendingOf s, _, hpending, rfl⟩

omit [DecidablePred own] in
theorem Inv.crash (h : Inv t own st) (s : S) :
    Inv t own { st with status := Function.update st.status s .crashed } := by
  have hself : Function.update st.status s .crashed s = .crashed := Function.update_self _ _ _
  refine h.of_member s rfl rfl (fun s' hs => Function.update_of_ne hs _ _) (fun _ _ => rfl)
    (fun m hm => .inl hm) (fun last hlast => ?_) (fun haway => ?_)
  · rw [show Function.update st.status s .crashed s = .here last from hlast] at hself
    cases hself
  · rw [show Function.update st.status s .crashed s = .away from haway] at hself
    cases hself

omit [DecidablePred own] in
theorem Inv.tick (h : Inv t own st) (hpunctual : Punctual t st .tick) :
    Inv t own { st with clock := st.clock + 1 } where
  posted m hm := ⟨(h.posted m hm).1.trans (Nat.le_succ _), hpunctual.2 m hm⟩
  here s last hstatus := ⟨(h.here s last hstatus).1.trans (Nat.le_succ _),
    hpunctual.1 s last hstatus⟩
  tracked s last hown hstatus := (h.tracked s last hown hstatus).congr rfl rfl
  away s hstatus := (h.away s hstatus).congr rfl rfl
  own := h.own
  heard s r hr := (h.heard s r hr).trans (Nat.le_succ _)

/-! ## A message is received -/

theorem heard_received_of_ne (st : State S) (rest : List (Message S)) {m : Message S} {s : S}
    (hs : s ≠ m.member) : (st.received t own m rest).heard s
      = (st.heard s).filter fun r => st.clock ≤ r + t.limit := by
  show (put st.heard (report own st.clock m) s).filter _ = _
  unfold report
  split
  · rfl
  · rw [put_some_of_ne _ hs]
    rfl

theorem heard_received_of_own (h : ∀ s, own s → st.heard s = none) (m : Message S)
    (rest : List (Message S)) {s : S} (hs : own s) :
    (st.received t own m rest).heard s = none := by
  show (put st.heard (report own st.clock m) s).filter _ = none
  unfold report
  split
  · rw [put_none, h s hs]
    rfl
  · rename_i hm
    have hne : s ≠ m.member := by
      rintro rfl
      exact hm hs
    rw [put_some_of_ne _ hne, h s hs]
    rfl

theorem heard_received_self (st : State S) (rest : List (Message S)) {m : Message S}
    (hm : ¬ own m.member) : (st.received t own m rest).heard m.member
      = if m.kind = .leave then none else some st.clock := by
  show (put st.heard (report own st.clock m) m.member).filter _ = _
  rw [report, if_neg hm, put_some_self]
  split
  · rfl
  · simp

variable (t own) in
theorem pendingOf_received_of_ne {m : Message S} {rest : List (Message S)}
    (hpending : st.pending = m :: rest) {s : S} (hs : s ≠ m.member) :
    (st.received t own m rest).pendingOf s = st.pendingOf s := by
  rw [State.pendingOf, State.pendingOf, hpending, List.filter_cons_of_neg (by simpa using hs.symm)]
  rfl

variable (t own) in
theorem pendingOf_received_self {m : Message S} {rest : List (Message S)}
    (hpending : st.pending = m :: rest) :
    st.pendingOf m.member = m :: (st.received t own m rest).pendingOf m.member := by
  rw [State.pendingOf, State.pendingOf, hpending, List.filter_cons_of_pos (by simp)]
  rfl

/-- A member that was heard of in time is not forgotten. -/
theorem Tracked.received_of_ne (h : Inv t own st) (hlimit : t.period + t.delay ≤ t.limit)
    {m : Message S} {rest : List (Message S)} (hpending : st.pending = m :: rest) {s : S}
    (hs : s ≠ m.member) {last : ℕ} (hstatus : st.status s = .here last)
    (htracked : Tracked t.period st s last) :
    Tracked t.period (st.received t own m rest) s last := by
  have hsame := pendingOf_received_of_ne t own hpending hs
  cases htracked with
  | joining old j beats hp hjoin hbeats => exact .joining old j beats (hsame.trans hp) hjoin hbeats
  | known r hr hbeats =>
      have hclock := h.clock_le hstatus hbeats
      refine .known r ?_ (hsame.symm ▸ hbeats)
      rw [heard_received_of_ne st rest hs, hr, Option.filter_some, if_pos]
      rw [decide_eq_true_eq]
      omega

/-- The first message of a running member is an old one, its join, or its next keep-alive. -/
theorem Tracked.received_self (h : Inv t own st) {m : Message S} {rest : List (Message S)}
    (hpending : st.pending = m :: rest) (hm : ¬ own m.member) {last : ℕ}
    (htracked : Tracked t.period st m.member last) :
    Tracked t.period (st.received t own m rest) m.member last := by
  have hself := pendingOf_received_self t own hpending
  have hheard := heard_received_self (t := t) st rest hm
  have hposted : m.posted ≤ st.clock := (h.posted m (hpending ▸ List.mem_cons_self)).1
  cases htracked with
  | joining old j beats hp hjoin hbeats =>
      -- the message is the join that is awaited, or one posted before it
      cases old with
      | nil =>
          obtain ⟨rfl, hrest⟩ := List.cons.inj (hself.symm.trans hp)
          refine .known st.clock ?_ (hrest.symm ▸ hbeats.mono hposted)
          rw [hheard, hjoin]
          rfl
      | cons o old =>
          exact .joining old j beats (List.cons.inj (hself.symm.trans hp)).2 hjoin hbeats
  | known r hr hbeats =>
      rw [hself] at hbeats
      have hkind : m.kind = .keepAlive := hbeats.kind m List.mem_cons_self
      refine .known st.clock ?_ (hbeats.tail.mono hposted)
      rw [hheard, hkind]
      rfl

theorem Gone.received (h : Inv t own st) {m : Message S} {rest : List (Message S)}
    (hpending : st.pending = m :: rest) {s : S} (hgone : Gone st s) :
    Gone (st.received t own m rest) s := by
  by_cases hs : s = m.member
  · subst hs
    have hself := pendingOf_received_self t own hpending
    rcases hgone with ⟨old, m', hp, hleave⟩ | ⟨hnone, -⟩
    · cases old with
      | nil =>
          -- its leave is received
          obtain ⟨rfl, hrest⟩ := List.cons.inj (hself.symm.trans hp)
          refine .inr ⟨hrest, ?_⟩
          by_cases hm : own m.member
          · exact heard_received_of_own h.own m rest hm
          · rw [heard_received_self st rest hm, if_pos hleave]
      | cons o old => exact .inl ⟨old, m', (List.cons.inj (hself.symm.trans hp)).2, hleave⟩
    · rw [hself] at hnone
      cases hnone
  · rw [Gone, pendingOf_received_of_ne t own hpending hs, heard_received_of_ne st rest hs]
    rcases hgone with hleave | ⟨hp, hnone⟩
    · exact .inl hleave
    · exact .inr ⟨hp, by rw [hnone]; rfl⟩

theorem Inv.received (h : Inv t own st) (hlimit : t.period + t.delay ≤ t.limit) {m : Message S}
    {rest : List (Message S)} (hpending : st.pending = m :: rest) :
    Inv t own (st.received t own m rest) where
  posted m' hm' := h.posted m' (hpending ▸ List.mem_cons_of_mem m hm')
  here := h.here
  tracked s last hown hstatus := by
    have htracked := h.tracked s last hown hstatus
    by_cases hs : s = m.member
    · subst hs
      exact htracked.received_self h hpending hown
    · exact htracked.received_of_ne h hlimit hpending hs hstatus
  away s hstatus := (h.away s hstatus).received h hpending
  own s hs := heard_received_of_own h.own m rest hs
  heard s r hr := by
    by_cases hs : s = m.member
    · subst hs
      by_cases hm : own m.member
      · rw [heard_received_of_own h.own m rest hm] at hr
        cases hr
      -- what is known of the member now dates from this moment
      · rw [heard_received_self st rest hm] at hr
        split at hr
        · cases hr
        · obtain rfl := Option.some.inj hr
          exact le_rfl
    · rw [heard_received_of_ne st rest hs] at hr
      exact h.heard s r (Option.filter_eq_some_iff.mp hr).1

/-! ## Runs on time -/

theorem inv_step (hlimit : t.period + t.delay ≤ t.limit) (h : Inv t own st) {a : Label S}
    {st' : State S} (hpunctual : Punctual t st a) (hstep : step t own st a = some st') :
    Inv t own st' := by
  cases a with
  | tick =>
      obtain rfl := Option.some.inj hstep
      exact h.tick hpunctual
  | join s =>
      simp only [step] at hstep
      split at hstep
      · cases hstep
      · obtain rfl := Option.some.inj hstep
        exact h.join s
  | keepAlive s =>
      simp only [step] at hstep
      split at hstep
      · rename_i hstatus
        split at hstep
        · obtain rfl := Option.some.inj hstep
          exact h.keepAlive hstatus
        · cases hstep
      · cases hstep
  | leave s =>
      simp only [step] at hstep
      split at hstep
      · obtain rfl := Option.some.inj hstep
        exact h.leave s
      · cases hstep
  | crash s =>
      simp only [step] at hstep
      split at hstep
      · obtain rfl := Option.some.inj hstep
        exact h.crash s
      · cases hstep
  | deliver =>
      simp only [step] at hstep
      split at hstep
      · cases hstep
      · rename_i hpending
        obtain rfl := Option.some.inj hstep
        exact h.received hlimit hpending

theorem inv_of_onTime (hlimit : t.period + t.delay ≤ t.limit) (h : OnTime t own st) :
    Inv t own st := by
  refine ReachableUnder.invariant (fun s hs => ?_) (fun s a s' _ hpunctual hinv hstep => ?_) h
  · rw [show s = {} from hs]
    exact inv_start t own
  · exact inv_step hlimit hinv hpunctual hstep

/-- A running member whose join was received is known, and was heard of within the period and the
    delay. -/
theorem known_of_here (hlimit : t.period + t.delay ≤ t.limit) (h : OnTime t own st) {s : S}
    {last : ℕ} (hown : ¬ own s) (hstatus : st.status s = .here last)
    (hjoin : ∀ m ∈ st.pending, m.member = s → m.kind ≠ .join) :
    ∃ r, st.heard s = some r ∧ r ≤ st.clock ∧ st.clock ≤ r + t.period + t.delay := by
  have hinv := inv_of_onTime hlimit h
  cases hinv.tracked s last hown hstatus with
  | joining old j beats hp hkind hbeats =>
      have hj : j ∈ st.pendingOf s := by
        rw [hp]
        exact List.mem_append_right _ List.mem_cons_self
      obtain ⟨hmem, hmember⟩ := List.mem_filter.mp hj
      exact absurd hkind (hjoin j hmem (of_decide_eq_true hmember))
  | known r hr hbeats => exact ⟨r, hr, hinv.heard s r hr, hinv.clock_le hstatus hbeats⟩

/-- A member that is away and of whom nothing is under way is not known. -/
theorem not_known_of_away (hlimit : t.period + t.delay ≤ t.limit) (h : OnTime t own st) {s : S}
    (hstatus : st.status s = .away) (hpending : ∀ m ∈ st.pending, m.member ≠ s) :
    st.heard s = none := by
  have hinv := inv_of_onTime hlimit h
  rcases hinv.away s hstatus with ⟨old, m, hp, -⟩ | ⟨-, hnone⟩
  · have hm : m ∈ st.pendingOf s := by
      rw [hp]
      exact List.mem_append_right _ List.mem_cons_self
    obtain ⟨hmem, hmember⟩ := List.mem_filter.mp hm
    exact absurd (of_decide_eq_true hmember) (hpending m hmem)
  · exact hnone

end Inv

end Heartbeat
