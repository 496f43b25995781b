/-
  OwAnalytics.Storage.AvailabilityEvents

  The table of the availability events (`storage_device_availability_events.cpp`):
  its statements, each of them atomic, and `CreateEventIfAbsent` where no other
  call comes in between.  `Upgrade` puts a unique index on the idempotency key.
-/

import OwAnalytics.Ap.Objects
import OwAnalytics.Lib.InsertIfAbsent

namespace OwAnalytics.Storage

open Ap

namespace DeviceAvailabilityEventsDB

/-- `Exists` on the idempotency key. -/
def «exists» (rows : List DeviceAvailabilityEvent) (idempotencyKey : Str) : Bool :=
  rows.any fun r => r.idempotencyKey == idempotencyKey

/-- `CreateRecord`; the id is the primary key, and there is a unique index on the idempotency
    key. -/
def createRecord (rows : List DeviceAvailabilityEvent) (event : DeviceAvailabilityEvent) :
    Option (List DeviceAvailabilityEvent) :=
  if rows.any fun r => r.id == event.id || r.idempotencyKey == event.idempotencyKey then none
  else some (rows ++ [event])

/-- `CreateEventIfAbsent`: its result and the rows it leaves. -/
def createEventIfAbsent (rows : List DeviceAvailabilityEvent) (event : DeviceAvailabilityEvent) :
    Bool × List DeviceAvailabilityEvent :=
  if event.idempotencyKey.isEmpty then (false, rows)
  else if «exists» rows event.idempotencyKey then (true, rows)
  else
    -- where the insertion fails, another call may have inserted the key
    match createRecord rows event with
    | some rows => (true, rows)
    | none => («exists» rows event.idempotencyKey, rows)

/-- What `CountOfflineEventsByBoardAndSerial` reports. -/
structure OfflineCount where
  offlineCount : UInt64 := 0
  observedStartTime : Option UInt64 := none
  observedEndTime : Option UInt64 := none
deriving DecidableEq

/-- The rows the where clause of the count selects. -/
def offlineEvents (rows : List DeviceAvailabilityEvent) (boardId serialNumber : Str)
    (startTime endTime : UInt64) : List DeviceAvailabilityEvent :=
  rows.filter fun r =>
    r.boardId = boardId ∧ r.serialNumber = serialNumber ∧ r.eventType = "offline".toList ∧
      startTime ≤ r.eventTime ∧ r.eventTime < endTime

/-- `CountOfflineEventsByBoardAndSerial`, where the statement succeeds. -/
def countOfflineEventsByBoardAndSerial (rows : List DeviceAvailabilityEvent)
    (boardId serialNumber : Str) (startTime endTime : UInt64) : OfflineCount :=
  if endTime ≤ startTime then {}
  else
    let counted := offlineEvents rows boardId serialNumber startTime endTime
    if UInt64.ofNat counted.length > 0 then
      { offlineCount := UInt64.ofNat counted.length
        observedStartTime := some ((counted.map (·.eventTime)).min?.getD 0)
        observedEndTime := some ((counted.map (·.eventTime)).max?.getD 0) }
    else {}

/-- `DeleteExpiredEventsForBoard`. -/
def deleteExpiredEventsForBoard (rows : List DeviceAvailabilityEvent) (boardId : Str)
    (cutoffTime : UInt64) : List DeviceAvailabilityEvent :=
  rows.filter fun r => ¬ (r.boardId = boardId ∧ r.eventTime < cutoffTime)

/-! ## What they do -/

theorem exists_iff {rows : List DeviceAvailabilityEvent} {idempotencyKey : Str} :
    «exists» rows idempotencyKey = true ↔ idempotencyKey ∈ rows.map (·.idempotencyKey) := by
  rw [«exists», List.any_eq_true, List.mem_map]
  simp only [beq_iff_eq]

theorem createRecord_cases (rows : List DeviceAvailabilityEvent)
    (event : DeviceAvailabilityEvent) :
    (createRecord rows event = none ∧
        (event.id ∈ rows.map (·.id) ∨ event.idempotencyKey ∈ rows.map (·.idempotencyKey))) ∨
      (createRecord rows event = some (rows ++ [event]) ∧
        event.idempotencyKey ∉ rows.map (·.idempotencyKey)) := by
  unfold createRecord
  split
  · rename_i hconflict
    obtain ⟨r, hr, hsame⟩ := List.any_eq_true.mp hconflict
    rw [Bool.or_eq_true, beq_iff_eq, beq_iff_eq] at hsame
    refine .inl ⟨rfl, hsame.imp (fun hid => ?_) fun hkey => ?_⟩
    · exact hid ▸ List.mem_map_of_mem hr
    · exact hkey ▸ List.mem_map_of_mem hr
  · rename_i hfresh
    refine .inr ⟨rfl, fun hmem => hfresh ?_⟩
    obtain ⟨r, hr, hkey⟩ := List.mem_map.mp hmem
    exact List.any_eq_true.mpr ⟨r, hr, by simp [hkey]⟩

/-- A call that reports success has inserted the event unless its key was there. -/
theorem createEventIfAbsent_of_true {rows : List DeviceAvailabilityEvent}
    {event : DeviceAvailabilityEvent} (h : (createEventIfAbsent rows event).1 = true) :
    (createEventIfAbsent rows event).2 =
      InsertIfAbsent.insert (·.idempotencyKey) rows event := by
  unfold createEventIfAbsent at h ⊢
  unfold InsertIfAbsent.insert
  by_cases hempty : event.idempotencyKey.isEmpty = true
  · simp [hempty] at h
  rw [if_neg hempty] at h ⊢
  by_cases hexists : «exists» rows event.idempotencyKey = true
  · rw [if_pos hexists, if_pos (exists_iff.mp hexists)]
  · rw [if_neg hexists] at h ⊢
    -- alone, a call that fails to insert finds no key when it looks again
    rcases createRecord_cases rows event with ⟨hnone, -⟩ | ⟨hsome, habsent⟩
    · rw [hnone] at h
      exact absurd h hexists
    · rw [hsome, if_neg habsent]

/-- What a table says of an event besides what the device reports with it. -/
def stamp (event : DeviceAvailabilityEvent) : Str × Str × UInt64 :=
  (event.id, event.idempotencyKey, event.eventTime)

/-- Of the tables and the event, a call looks at the ids and keys only. -/
theorem createEventIfAbsent_stamp {rows rows' : List DeviceAvailabilityEvent}
    {event event' : DeviceAvailabilityEvent} (hrows : rows.map stamp = rows'.map stamp)
    (hevent : stamp event = stamp event') :
    (createEventIfAbsent rows event).1 = (createEventIfAbsent rows' event').1 ∧
      (createEventIfAbsent rows event).2.map stamp =
        (createEventIfAbsent rows' event').2.map stamp := by
  obtain ⟨hid, hrest⟩ := Prod.mk.inj hevent
  obtain ⟨hkey, -⟩ := Prod.mk.inj hrest
  -- A scan of the table that reads the stamps only finds the same in both.
  have hany : ∀ p : Str × Str × UInt64 → Bool,
      rows.any (fun r => p (stamp r)) = rows'.any fun r => p (stamp r) := by
    intro p
    have hmap : (rows.map stamp).any p = (rows'.map stamp).any p := by rw [hrows]
    rwa [List.any_map, List.any_map] at hmap
  have hexists : «exists» rows event.idempotencyKey = «exists» rows' event'.idempotencyKey := by
    rw [hkey]
    exact hany fun s => s.2.1 == event'.idempotencyKey
  have hconflict : (rows.any fun r =>
        r.id == event.id || r.idempotencyKey == event.idempotencyKey) =
      rows'.any fun r => r.id == event'.id || r.idempotencyKey == event'.idempotencyKey := by
    rw [hid, hkey]
    exact hany fun s => s.1 == event'.id || s.2.1 == event'.idempotencyKey
  unfold createEventIfAbsent createRecord
  rw [hexists, hconflict, hkey]
  by_cases hempty : event'.idempotencyKey.isEmpty = true
  · rw [if_pos hempty, if_pos hempty]
    exact ⟨rfl, hrows⟩
  rw [if_neg hempty, if_neg hempty]
  by_cases hthere : «exists» rows' event'.idempotencyKey = true
  · rw [if_pos hthere, if_pos hthere]
    exact ⟨rfl, hrows⟩
  rw [if_neg hthere, if_neg hthere]
  split_ifs with h
  · exact ⟨rfl, hrows⟩
  · simp [hrows, hevent]

/-- The number of the events, which is what is counted also for an empty interval. -/
theorem offlineCount_eq (rows : List DeviceAvailabilityEvent) (boardId serialNumber : Str)
    (startTime endTime : UInt64) :
    (countOfflineEventsByBoardAndSerial rows boardId serialNumber startTime endTime).offlineCount =
      UInt64.ofNat (offlineEvents rows boardId serialNumber startTime endTime).length := by
  unfold countOfflineEventsByBoardAndSerial
  split
  · rename_i hempty
    have hnone : offlineEvents rows boardId serialNumber startTime endTime = [] := by
      rw [offlineEvents, List.filter_eq_nil_iff]
      rintro r - hr
      simp only [decide_eq_true_eq] at hr
      obtain ⟨-, -, -, hlo, hhi⟩ := hr
    -- no time is in an empty interval
      exact UInt64.lt_irrefl _ (UInt64.lt_of_lt_of_le (UInt64.lt_of_le_of_lt hlo hhi) hempty)
    rw [hnone]
    rfl
  · dsimp only
    split
    · rfl
    · rename_i hzero
      have hle : UInt64.ofNat
          (offlineEvents rows boardId serialNumber startTime endTime).length ≤ 0 := by
        simpa using hzero
      exact (UInt64.le_antisymm hle (UInt64.zero_le)).symm

/-- The events of adjacent intervals are those of the whole. -/
theorem length_offlineEvents_add (rows : List DeviceAvailabilityEvent)
    (boardId serialNumber : Str) {a b c : UInt64} (hab : a ≤ b) (hbc : b ≤ c) :
    (offlineEvents rows boardId serialNumber a b).length +
        (offlineEvents rows boardId serialNumber b c).length =
      (offlineEvents rows boardId serialNumber a c).length := by
  rw [UInt64.le_iff_toNat_le] at hab hbc
  induction rows with
  | nil => rfl
  | cons r rows ih =>
      simp only [offlineEvents, List.filter_cons, decide_eq_true_eq, apply_ite List.length,
        List.length_cons, UInt64.le_iff_toNat_le, UInt64.lt_iff_toNat_lt] at ih ⊢
      -- a row of the device is in one of the intervals, in the other or in none
      by_cases hmatch : r.boardId = boardId ∧ r.serialNumber = serialNumber ∧
          r.eventType = "offline".toList
      · obtain ⟨hboard, hserial, htype⟩ := hmatch
        simp only [hboard, hserial, htype, true_and]
        split_ifs <;> omega
      · have hout : ∀ P : Prop, ¬ (r.boardId = boardId ∧ r.serialNumber = serialNumber ∧
            r.eventType = "offline".toList ∧ P) := fun _ h => hmatch ⟨h.1, h.2.1, h.2.2.1⟩
        simp only [if_neg (hout _)]
        exact ih

end DeviceAvailabilityEventsDB

end OwAnalytics.Storage
