/-
  OwAnalytics.Storage.InsertRace

  Concurrent calls of `CreateEventIfAbsent`.  Each goes through its statements one at
  a time, and those of the others may come in between; an insertion that loses the
  race for a key fails on the unique index, and the second look finds the row of the
  one that won.
-/

import OwAnalytics.Lib.Transitions
import OwAnalytics.Storage.AvailabilityEvents

namespace OwAnalytics.Storage

open Ap DeviceAvailabilityEventsDB Transitions

namespace InsertRace

/-- The statement a call of `CreateEventIfAbsent` is about to run. -/
inductive Pc
  | «exists»
  | createRecord
  | existsAgain
  | returned (result : Bool)
deriving DecidableEq

/-- The table, and where each call is. -/
structure State (ι : Type) where
  rows : List DeviceAvailabilityEvent
  pc : ι → Pc

variable {ι : Type} [DecidableEq ι] (calls : ι → DeviceAvailabilityEvent)

/-- No row, and no call has begun. -/
def start : State ι where
  rows := []
  pc _ := .exists

/-- The next statement of a call. -/
def step (s : State ι) (c : ι) : Option (State ι) :=
  let event := calls c
  match s.pc c with
  | .exists =>
      if event.idempotencyKey.isEmpty then
        some { s with pc := Function.update s.pc c (.returned false) }
      else if DeviceAvailabilityEventsDB.exists s.rows event.idempotencyKey then
        some { s with pc := Function.update s.pc c (.returned true) }
      else some { s with pc := Function.update s.pc c .createRecord }
  | .createRecord =>
      -- the row of another call may be there by now
      match DeviceAvailabilityEventsDB.createRecord s.rows event with
      | some rows => some { rows, pc := Function.update s.pc c (.returned true) }
      | none => some { s with pc := Function.update s.pc c .existsAgain }
  | .existsAgain =>
      some { s with
        pc := Function.update s.pc c
          (.returned (DeviceAvailabilityEventsDB.exists s.rows event.idempotencyKey)) }
  | .returned _ => none

/-- Any number of calls, their statements in any order. -/
abbrev system : System (State ι) ι := ofFun start (step calls)

/-! ## A call alone -/

/-- A call that nothing comes in between does what `createEventIfAbsent` says. -/
theorem run_alone (s : State ι) (c : ι) (hpc : s.pc c = .exists) :
    ∃ n, run (step calls) s (List.replicate n c) =
      some
        { rows := (createEventIfAbsent s.rows (calls c)).2
          pc := Function.update s.pc c (.returned (createEventIfAbsent s.rows (calls c)).1) } := by
  unfold createEventIfAbsent
  by_cases hempty : (calls c).idempotencyKey.isEmpty = true
  · exact ⟨1, by simp [run, step, hpc, hempty]⟩
  by_cases hexists : DeviceAvailabilityEventsDB.exists s.rows (calls c).idempotencyKey = true
  · exact ⟨1, by simp [run, step, hpc, hempty, hexists]⟩
  · cases hcreate : DeviceAvailabilityEventsDB.createRecord s.rows (calls c) with
    | some rows => exact ⟨2, by simp [run, step, hpc, hempty, hexists, hcreate]⟩
    | none => exact ⟨3, by simp [run, step, hpc, hempty, hexists, hcreate]⟩

/-! ## What holds at every moment -/

/-- There is a row with the key of the call. -/
def Stored (s : State ι) (c : ι) : Prop :=
  (calls c).idempotencyKey ∈ s.rows.map (·.idempotencyKey)

/-- What the interleavings keep: the keys of the rows are unique, each row is one that a call
    inserts, and a call that lost its insertion or returns `true` has its row stored. -/
structure Inv (s : State ι) : Prop where
  unique : (s.rows.map (·.idempotencyKey)).Nodup
  ofCalls : ∀ row ∈ s.rows, ∃ c, calls c = row
  lost : ∀ c, s.pc c = .existsAgain → Stored calls s c
  returned : ∀ c result, s.pc c = .returned result → result = true ∧ Stored calls s c

variable {calls}

/-- What a statement of a call does: it inserts the row of a new key, or moves the call on, to its
    second look only after a conflict, and to its end only with a row that it has seen or that
    the second look decides on. -/
theorem step_cases {s s' : State ι} {c : ι} (hkey : (calls c).idempotencyKey ≠ [])
    (h : step calls s c = some s') :
    (¬ Stored calls s c ∧
      s' = { rows := s.rows ++ [calls c], pc := Function.update s.pc c (.returned true) }) ∨
    ∃ pc, s' = { s with pc := Function.update s.pc c pc } ∧
      (pc = .existsAgain → (calls c).id ∈ s.rows.map (·.id) ∨ Stored calls s c) ∧
      ∀ result, pc = .returned result →
        (result = true ∧ Stored calls s c) ∨
          (s.pc c = .existsAgain ∧ (Stored calls s c → result = true)) := by
  unfold step at h
  dsimp only at h
  cases hpc : s.pc c with
  | «exists» =>
      rw [hpc] at h
      dsimp only at h
      rw [if_neg (by simpa using hkey)] at h
      split at h
      · rename_i hexists
        obtain rfl := Option.some.inj h
        refine .inr ⟨_, rfl, nofun, fun result hresult => .inl ⟨?_, exists_iff.mp hexists⟩⟩
        exact (Pc.returned.inj hresult).symm
      · obtain rfl := Option.some.inj h
        exact .inr ⟨_, rfl, nofun, nofun⟩
  | createRecord =>
      rw [hpc] at h
      rcases createRecord_cases s.rows (calls c) with ⟨hnone, hconflict⟩ | ⟨hsome, habsent⟩
      · -- the unique index rejects the row, or the primary key does
        simp only [hnone] at h
        obtain rfl := Option.some.inj h
        exact .inr ⟨_, rfl, fun _ => hconflict, nofun⟩
      · simp only [hsome] at h
        obtain rfl := Option.some.inj h
        exact .inl ⟨habsent, rfl⟩
  | existsAgain =>
      rw [hpc] at h
      obtain rfl := Option.some.inj h
      refine .inr ⟨_, rfl, nofun, fun result hresult => .inr ⟨rfl, fun hstored => ?_⟩⟩
      obtain rfl := Pc.returned.inj hresult
      exact exists_iff.mpr hstored
  | returned result =>
      rw [hpc] at h
      cases h

omit [DecidableEq ι] in
theorem inv_start : Inv calls (start : State ι) where
  unique := List.nodup_nil
  ofCalls := nofun
  lost := nofun
  returned := nofun

omit [DecidableEq ι] in
/-- A row stays, so that a call that has seen it may go on. -/
theorem stored_insert {s : State ι} {c d : ι} {pc : ι → Pc} (h : Stored calls s d) :
    Stored calls { rows := s.rows ++ [calls c], pc } d := by
  unfold Stored
  rw [List.map_append]
  exact List.mem_append_left _ h

/-- A call inserts the row of a new key and returns. -/
theorem inv_insert {s : State ι} {c : ι} (hinv : Inv calls s) (habsent : ¬ Stored calls s c) :
    Inv calls { rows := s.rows ++ [calls c], pc := Function.update s.pc c (.returned true) } := by
  refine ⟨?_, ?_, ?_, ?_⟩
  · rw [List.map_append, List.map_singleton, List.nodup_append_comm, List.singleton_append,
      List.nodup_cons]
    exact ⟨habsent, hinv.unique⟩
  · intro row hrow
    rw [List.mem_append, List.mem_singleton] at hrow
    rcases hrow with hrow | rfl
    · exact hinv.ofCalls row hrow
    · exact ⟨c, rfl⟩
  · intro d hd
    by_cases hdc : d = c
    · subst hdc
      simp at hd
    · simp only [Function.update_of_ne hdc] at hd
      exact stored_insert (hinv.lost d hd)
  · intro d result hd
    by_cases hdc : d = c
    · subst hdc
      simp only [Function.update_self] at hd
      exact ⟨(Pc.returned.inj hd).symm, by simp [Stored]⟩
    · -- no row goes, so that what another call has returned stays true
      simp only [Function.update_of_ne hdc] at hd
      obtain ⟨htrue, hseen⟩ := hinv.returned d result hd
      exact ⟨htrue, stored_insert hseen⟩

/-- A call moves on and leaves the rows as they are. -/
theorem inv_move {s : State ι} {c : ι} {pc : Pc} (hinv : Inv calls s)
    (hlost : pc = .existsAgain → Stored calls s c)
    (hreturned : ∀ result, pc = .returned result → result = true ∧ Stored calls s c) :
    Inv calls { s with pc := Function.update s.pc c pc } := by
  refine ⟨hinv.unique, hinv.ofCalls, fun d hd => ?_, fun d result hd => ?_⟩
  · by_cases hdc : d = c
    · subst hdc
      simp only [Function.update_self] at hd
      exact hlost hd
    · simp only [Function.update_of_ne hdc] at hd
      exact hinv.lost d hd
  · by_cases hdc : d = c
    · subst hdc
      simp only [Function.update_self] at hd
      exact hreturned result hd
    · simp only [Function.update_of_ne hdc] at hd
      exact hinv.returned d result hd

theorem inv_step {s s' : State ι} {c : ι} (hkeys : ∀ c, (calls c).idempotencyKey ≠ [])
    (hids : ∀ c d, (calls c).id = (calls d).id →
      (calls c).idempotencyKey = (calls d).idempotencyKey)
    (hinv : Inv calls s) (h : step calls s c = some s') : Inv calls s' := by
  rcases step_cases (hkeys c) h with ⟨habsent, rfl⟩ | ⟨pc, rfl, hagain, hreturned⟩
  · exact inv_insert hinv habsent
  · refine inv_move hinv (fun hpc => ?_) fun result hresult => ?_
    · -- an id is in the table only with its key
      rcases hagain hpc with hid | hstored
      · obtain ⟨row, hrow, hsame⟩ := List.mem_map.mp hid
        obtain ⟨e, rfl⟩ := hinv.ofCalls row hrow
        exact List.mem_map.mpr ⟨calls e, hrow, hids e c hsame⟩
      · exact hstored
    · -- the second look comes after a conflict, and rows stay
      rcases hreturned result hresult with hseen | ⟨hpc, hdecided⟩
      · exact hseen
      · exact ⟨hdecided (hinv.lost c hpc), hinv.lost c hpc⟩

/-- Whatever the order of the statements of the calls, where the id of an event is no obstacle but
    with its key: a key has one row at most, every call returns true, and then the row of its key
    is there, as one of the calls for the key has given it. -/
theorem insert_race (calls : ι → DeviceAvailabilityEvent)
    (hkeys : ∀ c, (calls c).idempotencyKey ≠ [])
    (hids : ∀ c d, (calls c).id = (calls d).id →
      (calls c).idempotencyKey = (calls d).idempotencyKey) :
    ∀ s, Reachable (system calls) s →
      (s.rows.map (·.idempotencyKey)).Nodup ∧
      ∀ c result, s.pc c = .returned result →
        result = true ∧ ∃ d, (calls d).idempotencyKey = (calls c).idempotencyKey ∧
          calls d ∈ s.rows := by
  intro s hs
  have hinv : Inv calls s := by
    refine hs.invariant (fun t ht => ?init) fun t c t' _ _ ht hstep => ?step
    case init =>
      obtain rfl : t = start := ht
      exact inv_start
    case step =>
      have hnext : step calls t c = some t' := hstep
      exact inv_step hkeys hids ht hnext
  refine ⟨hinv.unique, fun c result hc => ?_⟩
  obtain ⟨htrue, hstored⟩ := hinv.returned c result hc
  obtain ⟨row, hrow, hkey⟩ := List.mem_map.mp hstored
  obtain ⟨d, rfl⟩ := hinv.ofCalls row hrow
  exact ⟨htrue, d, hkey, hrow⟩

/-! ## Two calls for one key -/

/-- Two messages of one disconnection. -/
def twoCalls (second : Bool) : DeviceAvailabilityEvent where
  id := if second then ['2'] else ['1']
  boardId := ['b']
  serialNumber := "0000000000a1".toList
  eventType := "offline".toList
  eventTime := 5
  reason := []
  connectionIp := []
  sessionId := []
  eventId := ['u']
  idempotencyKey := ['k']

/-- Both look before either inserts; the second insertion fails. -/
def lostRace : List Bool := [true, false, false, true, true]

theorem insert_race_lost :
    ∃ s, run (step twoCalls) start lostRace = some s ∧ s.rows = [twoCalls false] ∧
      s.pc true = .returned true ∧ (s.rows.map (·.idempotencyKey)).Nodup := by
  have hrun : ∃ s, run (step twoCalls) start lostRace = some s ∧ s.rows = [twoCalls false] ∧
      s.pc true = .returned true := ⟨_, rfl, by decide, by decide⟩
  obtain ⟨s, hs, hrows, hpc⟩ := hrun
  have hkeys : ∀ c, (twoCalls c).idempotencyKey ≠ [] := by decide
  have hids : ∀ c d, (twoCalls c).id = (twoCalls d).id →
      (twoCalls c).idempotencyKey = (twoCalls d).idempotencyKey := fun _ _ _ => rfl
  exact ⟨s, hs, hrows, hpc, (insert_race twoCalls hkeys hids s (reachable_of_run_start hs)).1⟩

end InsertRace

end OwAnalytics.Storage
