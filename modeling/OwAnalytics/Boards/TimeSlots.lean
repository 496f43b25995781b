/-
  OwAnalytics.Boards.TimeSlots

  `NewSort` (`RESTAPI_board_timepoint_handler.cpp`): the points of a board, split into
  slots of time.  One pass over the points, sorted by device and time, takes the
  interval, the first time of the first device and the last time of the last one; the
  slots go from the one to the other.
-/

import OwAnalytics.Ap.Json
import OwAnalytics.Ap.Objects
import OwAnalytics.Lib.Arrangement
import OwAnalytics.Lib.Distribution

namespace OwAnalytics.Boards

open Ap (DeviceTimePoint)

variable {F : Type} [Zero F]

/-- `sort_serial_ts`. -/
abbrev serialTsLe : DeviceTimePoint F → DeviceTimePoint F → Prop :=
  thenLe (keyLe fun p => p.deviceInfo.serialNumber) (keyLe DeviceTimePoint.timestamp)

/-- The variables of the first loop. -/
structure Pass where
  curSer : Str := []
  curInt : UInt64 := 0
  /-- It has no initial value in the source; the first point sets it. -/
  startVal : UInt64 := 0
  lastVal : UInt64 := 0
  firstVal : UInt64 := 0

namespace Pass

/-- The body of the loop of `NewSort` over the sorted points. -/
def step (s : Pass) (point : DeviceTimePoint F) : Pass :=
  if s.curSer.isEmpty then
    -- the first point, which `last_val` leaves out
    { s with
      startVal := point.timestamp, curSer := point.serialNumber, firstVal := point.timestamp }
  else if s.curSer = point.serialNumber then
    -- zero is no interval yet
    let thisInt := point.timestamp - s.startVal
    { s with
      curInt := if s.curInt ≠ 0 then if thisInt < s.curInt then thisInt else s.curInt else thisInt
      startVal := point.timestamp
      lastVal := point.timestamp }
  else
    { s with
      curSer := point.serialNumber, startVal := point.timestamp, lastVal := point.timestamp }

end Pass

/-- The loop that makes the slots, from the values of `cur_first` and `cur_end`; `none` if it is
    still running when the fuel is used up. -/
def timeSlots (curInt lastVal : UInt64) :
    ℕ → UInt64 → UInt64 → Option (List (UInt64 × UInt64))
  | fuel, curFirst, curEnd =>
      if curEnd < lastVal then
        match fuel with
        | 0 => none
        | fuel + 1 =>
            let e := (curFirst, curFirst + curInt - 1)
            (timeSlots curInt lastVal fuel (e.2 + 1) e.2).map (e :: ·)
      else some []

/-- The point is in the slot, both ends included. -/
def inSlot (slot : UInt64 × UInt64) (point : DeviceTimePoint F) : Bool :=
  point.timestamp ≥ slot.1 && point.timestamp ≤ slot.2

/-- `NewSort`, with the order the sort puts the points into. -/
def newSort (order : Arrangement (serialTsLe (F := F))) (fuel : ℕ) (l : List (DeviceTimePoint F)) :
    Option (List (List (DeviceTimePoint F))) :=
  let tmp := order.arrange l
  let pass := tmp.foldl Pass.step {}
  if pass.curInt = 0 then some [tmp]
  else
    (timeSlots pass.curInt pass.lastVal fuel pass.firstVal 0).map fun slots =>
      tmp.foldl (Distribution.place inSlot slots) (slots.map fun _ => [])

/-- The split is made, and each point is in it as often as it was. -/
def LosesNothing (order : Arrangement (serialTsLe (F := F))) (l : List (DeviceTimePoint F)) :
    Prop :=
  ∃ fuel sp, newSort order fuel l = some sp ∧ sp.flatten.Perm l

/-! ## The serial numbers and times in order -/

/-- What the points are sorted by. -/
def key (point : DeviceTimePoint F) : Str × UInt64 := (point.serialNumber, point.timestamp)

/-- The serial numbers and times of the points, sorted. -/
def keys (l : List (DeviceTimePoint F)) : List (Str × UInt64) :=
  (l.map key).insertionSort (thenLe (keyLe Prod.fst) (keyLe Prod.snd))

/-- The times between neighbours of one serial number. -/
def gaps : List (Str × UInt64) → List UInt64
  | a :: b :: rest => (if a.1 = b.1 then [b.2 - a.2] else []) ++ gaps (b :: rest)
  | _ => []

/-- The lesser of two intervals, where zero is none. -/
def lesser (c d : UInt64) : UInt64 := if c = 0 ∨ d < c then d else c

/-- The least distance between neighbours of one serial number, 0 without any. -/
def interval (l : List (DeviceTimePoint F)) : UInt64 := (gaps (keys l)).foldl lesser 0

/-- The first time of the first device. -/
def firstTime (l : List (DeviceTimePoint F)) : UInt64 := ((keys l).head?.map Prod.snd).getD 0

/-- The last time of the last device, if there are two points. -/
def lastTime (l : List (DeviceTimePoint F)) : UInt64 := ((keys l).tail.getLast?.map Prod.snd).getD 0

theorem lesser_eq (c d : UInt64) : (if c ≠ 0 then if d < c then d else c else d) = lesser c d := by
  unfold lesser
  by_cases hzero : c = 0 <;> simp [hzero]

/-- A point after the first one. -/
theorem Pass.step_eq {s : Pass} (hs : s.curSer ≠ []) (p : DeviceTimePoint F) :
    s.step p =
      { curSer := p.serialNumber
        curInt := if s.curSer = p.serialNumber then lesser s.curInt (p.timestamp - s.startVal)
          else s.curInt
        startVal := p.timestamp
        lastVal := p.timestamp
        firstVal := s.firstVal } := by
  unfold step
  rw [if_neg (by simpa using hs)]
  by_cases hsame : s.curSer = p.serialNumber
  · rw [if_pos hsame, if_pos hsame, ← lesser_eq, ← hsame]
  · rw [if_neg hsame, if_neg hsame]

/-- What the loop over the points finds after the first one, in terms of their keys. -/
theorem Pass.foldl_step {s : Pass} (hs : s.curSer ≠ []) {l : List (DeviceTimePoint F)}
    (hl : ∀ p ∈ l, p.serialNumber ≠ []) :
    (l.foldl step s).curInt =
        (gaps ((s.curSer, s.startVal) :: l.map key)).foldl lesser s.curInt ∧
      (l.foldl step s).lastVal = ((l.map key).getLast?.map Prod.snd).getD s.lastVal ∧
      (l.foldl step s).firstVal = s.firstVal := by
  induction l generalizing s with
  | nil => exact ⟨rfl, rfl, rfl⟩
  | cons p l ih =>
      rw [List.forall_mem_cons] at hl
      have hstep := step_eq hs p
      -- of the points before, the loop has kept the key of the last one
      obtain ⟨hint, hlast, hfirst⟩ := ih (s := s.step p) (by rw [hstep]; exact hl.1) hl.2
      rw [List.foldl_cons, hint, hlast, hfirst, hstep]
      refine ⟨?_, ?_, rfl⟩
      · rw [List.map_cons, gaps]
        by_cases hsame : s.curSer = p.serialNumber <;> simp [hsame, key]
      · rw [List.map_cons, List.getLast?_cons]
        cases (l.map key).getLast? <;> rfl

/-- What it finds in the points of a list, in terms of the keys in their order. -/
theorem Pass.foldl_step_init {l : List (DeviceTimePoint F)} (hl : ∀ p ∈ l, p.serialNumber ≠ []) :
    (l.foldl step {}).curInt = (gaps (l.map key)).foldl lesser 0 ∧
      (l.foldl step {}).lastVal = ((l.map key).tail.getLast?.map Prod.snd).getD 0 ∧
      (l.foldl step {}).firstVal = ((l.map key).head?.map Prod.snd).getD 0 := by
  cases l with
  | nil => exact ⟨rfl, rfl, rfl⟩
  | cons p l =>
      rw [List.forall_mem_cons] at hl
      exact foldl_step (s := Pass.step {} p) hl.1 hl.2

/-- The sort puts the keys into their order, whichever way it puts the points of one key. -/
theorem map_key_arrange (order : Arrangement (serialTsLe (F := F))) {l : List (DeviceTimePoint F)}
    (hl : ∀ p ∈ l, p.serialNumber = p.deviceInfo.serialNumber) :
    (order.arrange l).map key = keys l := by
  -- points of one key may come in any order, but their keys are the same
  have hanti : ∀ a b : Str × UInt64, thenLe (keyLe Prod.fst) (keyLe Prod.snd) a b →
      thenLe (keyLe Prod.fst) (keyLe Prod.snd) b a → a = b := fun a b hab hba =>
    Prod.ext (keyLe_antisymm hab.1 hba.1) (keyLe_antisymm (hab.2 hba.1) (hba.2 hab.1))
  have hsorted : ((order.arrange l).map key).Pairwise
      (thenLe (keyLe Prod.fst) (keyLe Prod.snd)) := by
    rw [List.pairwise_map]
    refine (order.sorted l).imp_of_mem fun {a b} ha hb hab => ?_
    have hserial := hl a (order.mem_arrange.mp ha)
    have hserial' := hl b (order.mem_arrange.mp hb)
    unfold thenLe keyLe key at *
    rw [hserial, hserial']
    exact hab
  exact List.Perm.eq_of_pairwise (fun a b _ _ => hanti a b) hsorted
    (List.pairwise_insertionSort _ _)
    (((order.perm l).map key).trans (List.perm_insertionSort _ _).symm)

/-! ## The slots -/

/-- The slot with that number, modulo `2 ^ 64`. -/
def slot (first interval : UInt64) (k : ℕ) : UInt64 × UInt64 :=
  (first + UInt64.ofNat k * interval, first + UInt64.ofNat (k + 1) * interval - 1)

/-- `cur_end` when that many slots are made. -/
def endAfter (first interval : UInt64) : ℕ → UInt64
  | 0 => 0
  | k + 1 => (slot first interval k).2

theorem slot_succ (first interval : UInt64) (k : ℕ) :
    (slot first interval k).1 + interval - 1 = (slot first interval k).2 ∧
      (slot first interval k).2 + 1 = (slot first interval (k + 1)).1 := by
  have hnext : UInt64.ofNat (k + 1) * interval = UInt64.ofNat k * interval + interval := by
    rw [UInt64.ofNat_add, UInt64.add_mul]
    exact congrArg _ (UInt64.one_mul interval)
  unfold slot
  dsimp only
  rw [hnext, UInt64.add_assoc, UInt64.sub_add_cancel]
  exact ⟨rfl, rfl⟩

/-- That many slots from the one with that number on are what the loop makes. -/
def StopsAfter (first interval last : UInt64) (k n : ℕ) : Prop :=
  (∀ j < n, endAfter first interval (k + j) < last) ∧ ¬ endAfter first interval (k + n) < last

theorem stopsAfter_of_end {first interval last : UInt64} {k : ℕ}
    (hend : ¬ endAfter first interval k < last) (n : ℕ) :
    StopsAfter first interval last k n ↔ n = 0 := by
  refine ⟨?_, ?_⟩
  · rintro ⟨hmore, -⟩
    by_contra hne
    exact hend (hmore 0 (Nat.pos_of_ne_zero hne))
  · rintro rfl
    exact ⟨fun j hj => absurd hj (Nat.not_lt_zero j), hend⟩

theorem stopsAfter_of_more {first interval last : UInt64} {k : ℕ}
    (hmore : endAfter first interval k < last) (n : ℕ) :
    StopsAfter first interval last k n ↔
      ∃ m, n = m + 1 ∧ StopsAfter first interval last (k + 1) m := by
  cases n with
  | zero =>
      refine iff_of_false (fun h => h.2 hmore) ?_
      rintro ⟨m, hm, -⟩
      cases hm
  | succ n =>
      have hshift : ∀ j, k + 1 + j = k + (j + 1) := fun j => by omega
      unfold StopsAfter
      simp only [Nat.succ.injEq, exists_eq_left', hshift]
      refine and_congr_left fun _ => ⟨fun h j hj => h (j + 1) (by omega), fun h j hj => ?_⟩
      cases j with
      | zero => exact hmore
      | succ j => exact h j (by omega)

/-- So many slots, from the one with that number on. -/
def slotsFrom (first interval : UInt64) (k n : ℕ) : List (UInt64 × UInt64) :=
  (List.range n).map fun j => slot first interval (k + j)

theorem slotsFrom_succ (first interval : UInt64) (k n : ℕ) :
    slotsFrom first interval k (n + 1) =
      slot first interval k :: slotsFrom first interval (k + 1) n := by
  unfold slotsFrom
  rw [List.range_succ_eq_map, List.map_cons, List.map_map, Nat.add_zero]
  refine congrArg _ (List.map_congr_left fun j _ => ?_)
  rw [Function.comp_apply, Nat.succ_eq_add_one, show k + (j + 1) = k + 1 + j by omega]

/-- A slot that ends at or after the last time is followed by none, whatever the fuel. -/
theorem timeSlots_of_end_iff {first interval last : UInt64} {k : ℕ}
    (hend : ¬ endAfter first interval k < last) (fuel : ℕ) (slots : List (UInt64 × UInt64)) :
    timeSlots interval last fuel (slot first interval k).1 (endAfter first interval k) =
        some slots ↔
      ∃ n ≤ fuel, StopsAfter first interval last k n ∧ slots = slotsFrom first interval k n := by
  unfold timeSlots
  rw [if_neg hend]
  simp only [stopsAfter_of_end hend]
  refine ⟨?_, ?_⟩
  · exact fun h => ⟨0, Nat.zero_le fuel, rfl, (Option.some.inj h).symm⟩
  · rintro ⟨n, -, rfl, rfl⟩
    rfl

/-- The loop makes slots up to the first that ends at or after the last time. -/
theorem timeSlots_eq_some_iff (first interval last : UInt64) (fuel k : ℕ)
    (slots : List (UInt64 × UInt64)) :
    timeSlots interval last fuel (slot first interval k).1 (endAfter first interval k) =
        some slots ↔
      ∃ n ≤ fuel, StopsAfter first interval last k n ∧ slots = slotsFrom first interval k n := by
  induction fuel generalizing k slots with
  | zero =>
      by_cases hmore : endAfter first interval k < last
      · unfold timeSlots
        rw [if_pos hmore]
        refine iff_of_false (fun h => by cases h) ?_
        rintro ⟨n, hn, hstops, -⟩
        obtain rfl := Nat.le_zero.mp hn
        exact hstops.2 hmore
      · exact timeSlots_of_end_iff hmore 0 slots
  | succ fuel ih =>
      by_cases hmore : endAfter first interval k < last
      · obtain ⟨hlast, hnext⟩ := slot_succ first interval k
        unfold timeSlots
        rw [if_pos hmore]
        dsimp only
        rw [hlast, hnext, Option.map_eq_some_iff]
        simp only [stopsAfter_of_more hmore]
        -- A slot is made and the loop goes on, so one less is made from the next slot on.
        refine ⟨?_, ?_⟩
        · rintro ⟨rest, hrest, rfl⟩
          obtain ⟨n, hn, hstops, rfl⟩ := (ih (k + 1) _).mp hrest
          exact ⟨n + 1, by omega, ⟨n, rfl, hstops⟩, (slotsFrom_succ first interval k n).symm⟩
        · rintro ⟨_, hn, ⟨n, rfl, hstops⟩, rfl⟩
          exact ⟨slotsFrom first interval (k + 1) n,
            (ih (k + 1) _).mpr ⟨n, by omega, hstops, rfl⟩, (slotsFrom_succ first interval k n).symm⟩
      · exact timeSlots_of_end_iff hmore (fuel + 1) slots

/-- The slots the loop makes, if it ends. -/
theorem exists_timeSlots_iff (first interval last : UInt64)
    (Q : List (UInt64 × UInt64) → Prop) :
    (∃ fuel slots, timeSlots interval last fuel first 0 = some slots ∧ Q slots) ↔
      ∃ n, StopsAfter first interval last 0 n ∧ Q (slotsFrom first interval 0 n) := by
  have hstart : (slot first interval 0).1 = first := by simp [slot]
  have hslots : ∀ fuel slots, timeSlots interval last fuel first 0 = some slots ↔
      ∃ n ≤ fuel, StopsAfter first interval last 0 n ∧ slots = slotsFrom first interval 0 n := by
    intro fuel slots
    have h := timeSlots_eq_some_iff first interval last fuel 0 slots
    rwa [hstart] at h
  refine ⟨?_, ?_⟩
  · rintro ⟨fuel, slots, h, hQ⟩
    obtain ⟨n, -, hstops, rfl⟩ := (hslots fuel slots).mp h
    exact ⟨n, hstops, hQ⟩
  · rintro ⟨n, hstops, hQ⟩
    exact ⟨n, _, (hslots n _).mpr ⟨n, Nat.le_refl n, hstops, rfl⟩, hQ⟩

/-- What the points of a list make of the slots loses nothing iff each time is in exactly one. -/
theorem flatten_place_perm_iff (order : Arrangement (serialTsLe (F := F)))
    (l : List (DeviceTimePoint F)) (slots : List (UInt64 × UInt64)) :
    ((order.arrange l).foldl (Distribution.place inSlot slots)
        (slots.map fun _ => [])).flatten.Perm l ↔
      ∀ p ∈ l, slots.countP (inSlot · p) = 1 := by
  have hperm := order.perm l
  rw [Distribution.foldl_place]
  simp only [List.nil_append]
  rw [← hperm.congr_right, Distribution.flatten_perm_iff]
  simp only [hperm.mem_iff]

/-- The first loop finds the interval, the last time and the first time. -/
theorem foldl_step_arrange (order : Arrangement (serialTsLe (F := F)))
    {l : List (DeviceTimePoint F)}
    (hl : ∀ p ∈ l, p.serialNumber ≠ [] ∧ p.serialNumber = p.deviceInfo.serialNumber) :
    ((order.arrange l).foldl Pass.step {}).curInt = interval l ∧
      ((order.arrange l).foldl Pass.step {}).lastVal = lastTime l ∧
      ((order.arrange l).foldl Pass.step {}).firstVal = firstTime l := by
  have hpass := Pass.foldl_step_init (l := order.arrange l) fun p hp =>
    (hl p (order.mem_arrange.mp hp)).1
  rwa [map_key_arrange order fun p hp => (hl p hp).2] at hpass

/-- `NewSort` in terms of the keys of the points. -/
theorem newSort_eq (order : Arrangement (serialTsLe (F := F))) {l : List (DeviceTimePoint F)}
    (hl : ∀ p ∈ l, p.serialNumber ≠ [] ∧ p.serialNumber = p.deviceInfo.serialNumber) (fuel : ℕ) :
    newSort order fuel l =
      if interval l = 0 then some [order.arrange l]
      else
        (timeSlots (interval l) (lastTime l) fuel (firstTime l) 0).map fun slots =>
          (order.arrange l).foldl (Distribution.place inSlot slots) (slots.map fun _ => []) := by
  obtain ⟨hint, hlast, hfirst⟩ := foldl_step_arrange order hl
  unfold newSort
  dsimp only
  rw [hint, hlast, hfirst]

/-- Without an interval there is one slot; else nothing is lost iff the loop ends and each time is
    in exactly one of the slots. -/
theorem losesNothing_iff_exists (order : Arrangement (serialTsLe (F := F)))
    {l : List (DeviceTimePoint F)}
    (hl : ∀ p ∈ l, p.serialNumber ≠ [] ∧ p.serialNumber = p.deviceInfo.serialNumber) :
    LosesNothing order l ↔
      interval l = 0 ∨
        ∃ n, StopsAfter (firstTime l) (interval l) (lastTime l) 0 n ∧
          ∀ p ∈ l, (slotsFrom (firstTime l) (interval l) 0 n).countP (inSlot · p) = 1 := by
  unfold LosesNothing
  simp only [newSort_eq order hl]
  by_cases hzero : interval l = 0
  · refine iff_of_true ⟨0, [order.arrange l], if_pos hzero, ?_⟩ (.inl hzero)
    simpa using order.perm l
  · simp only [if_neg hzero]
    rw [or_iff_right hzero, ← exists_timeSlots_iff (firstTime l) (interval l) (lastTime l)
      fun slots => ∀ p ∈ l, slots.countP (inSlot · p) = 1]
    -- a point is placed once for each slot it is in
    simp only [← flatten_place_perm_iff order l]
    refine ⟨?_, ?_⟩
    · rintro ⟨fuel, sp, hsp, hperm⟩
      obtain ⟨slots, h, rfl⟩ := Option.map_eq_some_iff.mp hsp
      exact ⟨fuel, slots, h, hperm⟩
    · rintro ⟨fuel, slots, h, hperm⟩
      exact ⟨fuel, _, Option.map_eq_some_iff.mpr ⟨slots, h, rfl⟩, hperm⟩

/-! ## The slots over the integers -/

/-- The first and the last second of a slot, modulo `2 ^ 64`. -/
def slotStart (first interval k : ℕ) : ℕ := (first + k * interval) % 2 ^ 64

/-- The end of a slot, as it is computed modulo `2 ^ 64`. -/
def slotEnd (first interval k : ℕ) : ℕ := (first + (k + 1) * interval - 1) % 2 ^ 64

theorem toNat_slot_fst (first interval : UInt64) (k : ℕ) :
    (slot first interval k).1.toNat = slotStart first.toNat interval.toNat k := by
  unfold slot slotStart
  rw [UInt64.toNat_add, UInt64.toNat_mul, UInt64.toNat_ofNat', Nat.mod_mul_mod, Nat.add_mod_mod]

theorem toNat_slot_snd (first : UInt64) {interval : UInt64} (hpos : interval ≠ 0) (k : ℕ) :
    (slot first interval k).2.toNat = slotEnd first.toNat interval.toNat k := by
  have hstart : (first + UInt64.ofNat (k + 1) * interval).toNat =
      (first.toNat + (k + 1) * interval.toNat) % 2 ^ 64 := toNat_slot_fst first interval (k + 1)
  have hne : interval.toNat ≠ 0 := fun h => hpos (UInt64.toNat.inj h)
  have hpositive : 0 < (k + 1) * interval.toNat := Nat.mul_pos (Nat.succ_pos k) (by omega)
  unfold slot slotEnd
  rw [UInt64.toNat_sub, hstart, show (1 : UInt64).toNat = 1 from rfl]
  omega

/-- The slot that the loop ends with: the first that ends at or after the last time. -/
def IsLastSlot (first interval last m : ℕ) : Prop :=
  last ≠ 0 ∧ (∀ k < m, slotEnd first interval k < last) ∧ last ≤ slotEnd first interval m

theorem stopsAfter_succ_iff (first last : UInt64) {interval : UInt64} (hpos : interval ≠ 0)
    (m : ℕ) :
    StopsAfter first interval last 0 (m + 1) ↔
      IsLastSlot first.toNat interval.toNat last.toNat m := by
  have hend : ∀ k, endAfter first interval (0 + (k + 1)) < last ↔
      slotEnd first.toNat interval.toNat k < last.toNat := fun k => by
    rw [Nat.zero_add, endAfter, UInt64.lt_iff_toNat_lt, toNat_slot_snd first hpos]
  have hstart : endAfter first interval (0 + 0) < last ↔ last.toNat ≠ 0 := by
    rw [Nat.zero_add, endAfter, UInt64.lt_iff_toNat_lt, UInt64.toNat_zero, Nat.pos_iff_ne_zero]
  unfold StopsAfter IsLastSlot
  rw [hend, Nat.not_lt]
  refine ⟨?_, ?_⟩
  · rintro ⟨hmore, hstop⟩
    exact ⟨hstart.mp (hmore 0 (Nat.succ_pos m)),
      fun k hk => (hend k).mp (hmore (k + 1) (Nat.succ_lt_succ hk)), hstop⟩
  · rintro ⟨hlast, hmore, hstop⟩
    refine ⟨fun j hj => ?_, hstop⟩
    -- the first turn compares 0 with the last time, a later one the end of the slot before
    cases j with
    | zero => exact hstart.mpr hlast
    | succ k => exact (hend k).mpr (hmore k (Nat.lt_of_succ_lt_succ hj))

theorem inSlot_slot_iff (first : UInt64) {interval : UInt64} (hpos : interval ≠ 0) (k : ℕ)
    (p : DeviceTimePoint F) :
    inSlot (slot first interval k) p = true ↔
      slotStart first.toNat interval.toNat k ≤ p.timestamp.toNat ∧
        p.timestamp.toNat ≤ slotEnd first.toNat interval.toNat k := by
  unfold inSlot
  rw [Bool.and_eq_true, decide_eq_true_iff, decide_eq_true_iff, ge_iff_le, UInt64.le_iff_toNat_le,
    UInt64.le_iff_toNat_le, toNat_slot_fst, toNat_slot_snd first hpos]

theorem countP_slotsFrom_iff (first : UInt64) {interval : UInt64} (hpos : interval ≠ 0) (n : ℕ)
    (p : DeviceTimePoint F) :
    (slotsFrom first interval 0 n).countP (inSlot · p) = 1 ↔
      ∃! k, k < n ∧ slotStart first.toNat interval.toNat k ≤ p.timestamp.toNat ∧
        p.timestamp.toNat ≤ slotEnd first.toNat interval.toNat k := by
  unfold slotsFrom
  rw [List.countP_map, Distribution.countP_range_eq_one_iff]
  simp only [Function.comp_apply, Nat.zero_add, inSlot_slot_iff first hpos]

/-- Each time is in exactly one of the slots up to the last. -/
def CoveredOnce (l : List (DeviceTimePoint F)) : Prop :=
  ∃ m, IsLastSlot (firstTime l).toNat (interval l).toNat (lastTime l).toNat m ∧
    ∀ p ∈ l, ∃! k, k < m + 1 ∧
      slotStart (firstTime l).toNat (interval l).toNat k ≤ p.timestamp.toNat ∧
      p.timestamp.toNat ≤ slotEnd (firstTime l).toNat (interval l).toNat k

theorem ne_nil_of_interval {l : List (DeviceTimePoint F)} (h : interval l ≠ 0) : l ≠ [] := by
  rintro rfl
  exact h rfl

theorem losesNothing_iff_coveredOnce (order : Arrangement (serialTsLe (F := F)))
    {l : List (DeviceTimePoint F)}
    (hl : ∀ p ∈ l, p.serialNumber ≠ [] ∧ p.serialNumber = p.deviceInfo.serialNumber) :
    LosesNothing order l ↔ interval l = 0 ∨ CoveredOnce l := by
  rw [losesNothing_iff_exists order hl]
  by_cases hzero : interval l = 0
  · exact iff_of_true (.inl hzero) (.inl hzero)
  · rw [or_iff_right hzero, or_iff_right hzero]
    unfold CoveredOnce
    simp only [countP_slotsFrom_iff _ hzero, ← stopsAfter_succ_iff _ _ hzero]
    refine ⟨?_, ?_⟩
    · rintro ⟨n, hstops, hcovered⟩
      obtain ⟨p, hp⟩ := List.exists_mem_of_ne_nil l (ne_nil_of_interval hzero)
      -- a point is in a slot, so that there is one
      obtain ⟨k, ⟨hk, -⟩, -⟩ := hcovered p hp
      obtain ⟨m, rfl⟩ := Nat.exists_eq_succ_of_ne_zero (Nat.ne_zero_of_lt hk)
      exact ⟨m, hstops, hcovered⟩
    · rintro ⟨m, hstops, hcovered⟩
      exact ⟨m + 1, hstops, hcovered⟩

/-! ## Slots that do not wrap around -/

/-- The number of the slots, as long as they do not wrap around. -/
def slotCount (first interval last : ℕ) : ℕ := max 1 ((last + 1 - first) ⌈/⌉ interval)

/-- The second after the slots. -/
def slotsEnd (first interval last : ℕ) : ℕ := first + slotCount first interval last * interval

section Fits

variable {first interval last : ℕ}

theorem lt_slotCount_iff (hpos : 0 < interval) {k : ℕ} (hk : 0 < k) :
    k < slotCount first interval last ↔ first + k * interval ≤ last := by
  unfold slotCount
  rw [lt_max_iff, or_iff_right (by omega), ← not_le, ceilDiv_le_iff_le_mul hpos, Nat.mul_comm]
  omega

theorem slotCount_pos (first interval last : ℕ) : 0 < slotCount first interval last :=
  Nat.le_max_left _ _

theorem add_mul_le_slotsEnd {k : ℕ} (hk : k < slotCount first interval last) :
    first + (k + 1) * interval ≤ slotsEnd first interval last :=
  Nat.add_le_add_left (Nat.mul_le_mul_right interval (Nat.succ_le_of_lt hk)) first

theorem slot_of_fits (hpos : 0 < interval) (hfits : slotsEnd first interval last ≤ 2 ^ 64) {k : ℕ}
    (hk : k < slotCount first interval last) :
    slotStart first interval k = first + k * interval ∧
      slotEnd first interval k = first + (k + 1) * interval - 1 := by
  have hle := add_mul_le_slotsEnd hk
  unfold slotStart slotEnd
  rw [Nat.add_mul, Nat.one_mul] at *
  exact ⟨Nat.mod_eq_of_lt (by omega), Nat.mod_eq_of_lt (by omega)⟩

/-- The last slot is the one with the last time, or the first one. -/
theorem isLastSlot_iff_of_fits (hpos : 0 < interval)
    (hfits : slotsEnd first interval last ≤ 2 ^ 64) (m : ℕ) :
    IsLastSlot first interval last m ↔ last ≠ 0 ∧ m + 1 = slotCount first interval last := by
  have hend : ∀ k < slotCount first interval last,
      slotEnd first interval k < last ↔ k + 1 < slotCount first interval last := by
    intro k hk
    have hmul : 0 < (k + 1) * interval := Nat.mul_pos (Nat.succ_pos k) hpos
    rw [(slot_of_fits hpos hfits hk).2, lt_slotCount_iff hpos (show 0 < k + 1 by omega)]
    omega
  have hcount := slotCount_pos first interval last
  refine ⟨?_, ?_⟩
  · rintro ⟨hlast, hmore, hstop⟩
    refine ⟨hlast, ?_⟩
    by_contra hne
    -- the loop neither ends before the last time nor goes on after it
    rcases Nat.lt_or_gt_of_ne hne with hlt | hgt
    · exact absurd ((hend m (by omega)).mpr hlt) (Nat.not_lt.mpr hstop)
    · have hbefore := hmore (slotCount first interval last - 1) (by omega)
      rw [hend _ (by omega)] at hbefore
      omega
  · rintro ⟨hlast, hm⟩
    refine ⟨hlast, fun k hk => (hend k (by omega)).mpr (by omega), ?_⟩
    rw [← Nat.not_lt, hend m (by omega)]
    omega

/-- The slots that do not wrap around lie side by side. -/
theorem existsUnique_slot_iff (hpos : 0 < interval)
    (hfits : slotsEnd first interval last ≤ 2 ^ 64) (t : ℕ) :
    (∃! k, k < slotCount first interval last ∧
        slotStart first interval k ≤ t ∧ t ≤ slotEnd first interval k) ↔
      first ≤ t ∧ t < slotsEnd first interval last := by
  -- a time is in the slot with the number of whole intervals before it
  have hin : ∀ k < slotCount first interval last,
      (slotStart first interval k ≤ t ∧ t ≤ slotEnd first interval k) ↔
        first ≤ t ∧ (t - first) / interval = k := by
    intro k hk
    obtain ⟨hstart, hend⟩ := slot_of_fits hpos hfits hk
    have hmul : 0 < (k + 1) * interval := Nat.mul_pos (Nat.succ_pos k) hpos
    rw [hstart, hend, Nat.div_eq_iff hpos]
    rw [Nat.add_mul, Nat.one_mul] at *
    omega
  refine ⟨?_, ?_⟩
  · rintro ⟨k, ⟨hk, hstart, hend⟩, -⟩
    have hle := add_mul_le_slotsEnd hk
    have hmul : 0 < (k + 1) * interval := Nat.mul_pos (Nat.succ_pos k) hpos
    rw [(slot_of_fits hpos hfits hk).2] at hend
    exact ⟨((hin k hk).mp ⟨hstart, by rw [(slot_of_fits hpos hfits hk).2]; exact hend⟩).1, by omega⟩
  · rintro ⟨hfirst, hlt⟩
    have hk : (t - first) / interval < slotCount first interval last := by
      rw [Nat.div_lt_iff_lt_mul hpos]
      unfold slotsEnd at hlt
      omega
    refine ⟨(t - first) / interval, ⟨hk, (hin _ hk).mpr ⟨hfirst, rfl⟩⟩, ?_⟩
    rintro k ⟨hk, hslot⟩
    exact ((hin k hk).mp hslot).2.symm

end Fits

/-! ## When nothing is lost -/

/-- The slots of the points end by `2 ^ 64`. -/
def Fits (l : List (DeviceTimePoint F)) : Prop :=
  slotsEnd (firstTime l).toNat (interval l).toNat (lastTime l).toNat ≤ 2 ^ 64

/-- Each time is from the first time on and before the end of the slot of the last time. -/
def InRange (l : List (DeviceTimePoint F)) : Prop :=
  lastTime l ≠ 0 ∧ ∀ p ∈ l, (firstTime l).toNat ≤ p.timestamp.toNat ∧
    p.timestamp.toNat < slotsEnd (firstTime l).toNat (interval l).toNat (lastTime l).toNat

theorem interval_toNat_pos {l : List (DeviceTimePoint F)} (h : interval l ≠ 0) :
    0 < (interval l).toNat :=
  Nat.pos_of_ne_zero fun hzero => h (UInt64.toNat.inj hzero)

theorem coveredOnce_iff_of_fits {l : List (DeviceTimePoint F)} (hpos : interval l ≠ 0)
    (hfits : Fits l) : CoveredOnce l ↔ InRange l := by
  have hinterval := interval_toNat_pos hpos
  have hlast : (lastTime l).toNat ≠ 0 ↔ lastTime l ≠ 0 :=
    not_congr (UInt64.toNat_inj (b := 0))
  unfold CoveredOnce InRange
  simp only [isLastSlot_iff_of_fits hinterval hfits, hlast]
  refine ⟨?_, ?_⟩
  · rintro ⟨m, ⟨hne, hm⟩, hcovered⟩
    refine ⟨hne, fun p hp => ?_⟩
    rw [← existsUnique_slot_iff hinterval hfits, ← hm]
    exact hcovered p hp
  · rintro ⟨hne, hrange⟩
    obtain ⟨m, hm⟩ := Nat.exists_eq_succ_of_ne_zero
      (Nat.ne_of_gt (slotCount_pos (firstTime l).toNat (interval l).toNat (lastTime l).toNat))
    refine ⟨m, ⟨hne, hm.symm⟩, fun p hp => ?_⟩
    have hslot := (existsUnique_slot_iff hinterval hfits p.timestamp.toNat).mpr (hrange p hp)
    rwa [hm] at hslot

/-! ## Times below `2 ^ 63` -/

theorem lesser_eq_or (c d : UInt64) : lesser c d = c ∨ lesser c d = d := by
  unfold lesser
  split
  · exact .inr rfl
  · exact .inl rfl

theorem foldl_lesser_mem (c : UInt64) (ds : List UInt64) :
    ds.foldl lesser c = c ∨ ds.foldl lesser c ∈ ds := by
  induction ds generalizing c with
  | nil => exact .inl rfl
  | cons d ds ih =>
      rw [List.foldl_cons]
      rcases ih (lesser c d) with h | h
      · rw [h]
        rcases lesser_eq_or c d with hc | hd
        · exact .inl hc
        · exact .inr (hd.symm ▸ List.mem_cons_self)
      · exact .inr (List.mem_cons_of_mem d h)

/-- Between sorted times no difference is more than a time. -/
theorem gap_lt {B : ℕ} {ks : List (Str × UInt64)}
    (hsorted : ks.Pairwise (thenLe (keyLe Prod.fst) (keyLe Prod.snd)))
    (hks : ∀ k ∈ ks, k.2.toNat < B) : ∀ d ∈ gaps ks, d.toNat < B := by
  induction ks with
  | nil => simp [gaps]
  | cons a ks ih =>
      cases ks with
      | nil => simp [gaps]
      | cons b rest =>
          intro d hd
          rw [gaps, List.mem_append] at hd
          rw [List.forall_mem_cons] at hks
          rcases hd with hd | hd
          · by_cases hsame : a.1 = b.1
            · rw [if_pos hsame, List.mem_singleton] at hd
              have hle := (List.pairwise_cons.mp hsorted).1 b List.mem_cons_self
              -- one device, so that the times are in order and the difference does not wrap
              have htime : keyLe Prod.snd a b := hle.2 (by unfold keyLe; rw [hsame]; simp)
              rw [hd, UInt64.toNat_sub_of_le _ _ (keyLe_iff.mp htime)]
              have hb := hks.2 b List.mem_cons_self
              omega
            · rw [if_neg hsame] at hd
              cases hd
          · exact ih (List.pairwise_cons.mp hsorted).2 hks.2 d hd

theorem slotsEnd_le {interval : ℕ} (hpos : 0 < interval) (first last : ℕ) :
    slotsEnd first interval last ≤ max first last + interval := by
  have hcount := slotCount_pos first interval last
  obtain ⟨m, hm⟩ := Nat.exists_eq_succ_of_ne_zero (Nat.ne_of_gt hcount)
  unfold slotsEnd
  rw [hm, Nat.succ_mul]
  cases m with
  | zero => omega
  | succ m =>
      -- the last slot begins at the last time or before
      have hle : first + (m + 1) * interval ≤ last := by
        rw [← lt_slotCount_iff hpos (Nat.succ_pos m), hm]
        exact Nat.lt_succ_self _
      omega

/-- A time of a list of keys is one of theirs, or there is none. -/
theorem toNat_getD_lt {B : ℕ} (hB : 0 < B) {k : Option (Str × UInt64)}
    (hk : ∀ a ∈ k, a.2.toNat < B) : ((k.map Prod.snd).getD 0).toNat < B := by
  cases k with
  | none => exact hB
  | some a => exact hk a rfl

/-- Slots of times below `2 ^ 63` end below `2 ^ 64`. -/
theorem slotsEnd_lt {l : List (DeviceTimePoint F)} (hpos : interval l ≠ 0)
    (hl : ∀ p ∈ l, p.timestamp.toNat < 2 ^ 63) :
    slotsEnd (firstTime l).toNat (interval l).toNat (lastTime l).toNat < 2 ^ 64 := by
  have hkeys : ∀ k ∈ keys l, k.2.toNat < 2 ^ 63 := by
    intro k hk
    obtain ⟨p, hp, rfl⟩ := List.mem_map.mp ((List.mem_insertionSort _).mp hk)
    exact hl p hp
  have hinterval : (interval l).toNat < 2 ^ 63 := by
    rcases foldl_lesser_mem 0 (gaps (keys l)) with hzero | hmem
    · exact absurd hzero hpos
    · exact gap_lt (List.pairwise_insertionSort _ _) hkeys _ hmem
  have hfirst : (firstTime l).toNat < 2 ^ 63 :=
    toNat_getD_lt (by decide) fun a ha => hkeys a (List.mem_of_mem_head? ha)
  have hlast : (lastTime l).toNat < 2 ^ 63 :=
    toNat_getD_lt (by decide) fun a ha =>
      hkeys a (List.mem_of_mem_tail (List.mem_of_mem_getLast? ha))
  have hle := slotsEnd_le (interval_toNat_pos hpos) (firstTime l).toNat (lastTime l).toNat
  omega

/-- Slots of times below `2 ^ 63` do not wrap around. -/
theorem fits_of_lt {l : List (DeviceTimePoint F)} (hpos : interval l ≠ 0)
    (hl : ∀ p ∈ l, p.timestamp.toNat < 2 ^ 63) : Fits l :=
  Nat.le_of_lt (slotsEnd_lt hpos hl)

/-- The split loses nothing iff there is no interval, or each time is between the first time of the
    first device and the end of the slot with the last time of the last one; where the slots go
    beyond `2 ^ 64` they begin again at zero, and each time has to be in just one of them.  Times
    below `2 ^ 63` have no such slots. -/
theorem losesNothing_iff (order : Arrangement (serialTsLe (F := F)))
    {l : List (DeviceTimePoint F)}
    (hl : ∀ p ∈ l, p.serialNumber ≠ [] ∧ p.serialNumber = p.deviceInfo.serialNumber) :
    (LosesNothing order l ↔
      interval l = 0 ∨ (Fits l ∧ InRange l) ∨ (¬ Fits l ∧ CoveredOnce l)) ∧
    ((∀ p ∈ l, p.timestamp.toNat < 2 ^ 63) →
      (LosesNothing order l ↔ interval l = 0 ∨ InRange l)) := by
  rw [losesNothing_iff_coveredOnce order hl]
  by_cases hzero : interval l = 0
  · exact ⟨iff_of_true (.inl hzero) (.inl hzero),
      fun _ => iff_of_true (.inl hzero) (.inl hzero)⟩
  · rw [or_iff_right hzero, or_iff_right hzero, or_iff_right hzero]
    refine ⟨?_, fun htimes => coveredOnce_iff_of_fits hzero (fits_of_lt hzero htimes)⟩
    -- where the slots fit the range says it all, elsewhere each slot has to be looked at
    by_cases hfits : Fits l
    · simp only [hfits, not_true_eq_false, true_and, false_and, or_false,
        coveredOnce_iff_of_fits hzero hfits]
    · simp only [hfits, not_false_eq_true, false_or, true_and, false_and]

/-! ## Two devices -/

/-- A point of a device. -/
def pointOf (serialNumber : Str) (timestamp : UInt64) : DeviceTimePoint ℚ :=
  { timestamp, serialNumber, deviceInfo := { serialNumber } }

/-- The first device has one point more than the last. -/
def twoDevices : List (DeviceTimePoint ℚ) :=
  [pointOf ['a'] 1000, pointOf ['b'] 1000, pointOf ['a'] 1060, pointOf ['b'] 1060,
    pointOf ['a'] 1120]

/-- The slots end with the one of the last time of the second device. -/
theorem newSort_loses_last_point :
    ¬ ∀ (order : Arrangement (serialTsLe (F := ℚ))) (l : List (DeviceTimePoint ℚ)),
      (∀ p ∈ l, p.serialNumber ≠ [] ∧ p.serialNumber = p.deviceInfo.serialNumber) →
        LosesNothing order l := by
  intro h
  have hinterval : interval twoDevices ≠ 0 := by decide +kernel
  have hfits : Fits twoDevices := by
    unfold Fits
    decide +kernel
  have hcovered := (losesNothing_iff_coveredOnce (.insertionSort serialTsLe) (by decide +kernel)).mp
    (h (.insertionSort serialTsLe) twoDevices (by decide +kernel))
  have hrange := (coveredOnce_iff_of_fits hinterval hfits).mp (hcovered.resolve_left hinterval)
  have hlost := (hrange.2 (pointOf ['a'] 1120) (by simp [twoDevices])).2
  exact absurd hlost (by decide +kernel)

theorem losesNothing_iff_without_last :
    LosesNothing (.insertionSort serialTsLe) (twoDevices.take 4) :=
  (losesNothing_iff (.insertionSort serialTsLe) (by decide +kernel)).1.mpr
    (.inr (.inl ⟨by unfold Fits; decide +kernel, by unfold InRange; decide +kernel⟩))

end OwAnalytics.Boards
