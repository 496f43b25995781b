/-
  OwAnalytics.Boards.SlotSeparation

  The interval of `NewSort` and its slots.  The interval is the smallest time between
  consecutive points of one device, so that a slot of that width never has two points
  of one device.
-/

import Mathlib.Order.Bounds.Basic
import OwAnalytics.Boards.TimeSlots

namespace OwAnalytics.Boards

open Ap (DeviceTimePoint)

variable {F : Type} [Zero F]

/-! ## Neighbours in the order of the keys -/

/-- The order of the serial numbers and times. -/
abbrev keyOrder : Str × UInt64 → Str × UInt64 → Prop :=
  thenLe (keyLe Prod.fst) (keyLe Prod.snd)

/-- Two times of one device with none of its times between them. -/
structure Neighbours (ks : List (Str × UInt64)) (a b : Str × UInt64) : Prop where
  left : a ∈ ks
  right : b ∈ ks
  serial : a.1 = b.1
  lt : a.2 < b.2
  between : ∀ c ∈ ks, c.1 = a.1 → ¬ (a.2 < c.2 ∧ c.2 < b.2)

section Keys

variable {x y a b : Str × UInt64} {ks rest : List (Str × UInt64)}

theorem keyOrder_of_same (h : keyOrder a b) (hsame : a.1 = b.1) : a.2 ≤ b.2 :=
  keyLe_iff.mp (h.2 (by unfold keyLe; rw [hsame]; simp))

theorem keyOrder_lt (h : keyOrder a b) (hsame : a.1 = b.1) (hne : a ≠ b) : a.2 < b.2 :=
  UInt64.lt_of_le_of_ne (keyOrder_of_same h hsame) fun htime => hne (Prod.ext hsame htime)

/-- What comes between two keys of one device is of that device. -/
theorem serial_of_between {c : Str × UInt64} (h : keyOrder a b) (h' : keyOrder b c)
    (hsame : a.1 = c.1) : a.1 = b.1 := by
  refine keyLe_antisymm h.1 ?_
  unfold keyLe
  rw [hsame]
  exact h'.1

/-- The first two of sorted keys are neighbours if they are of one device, and the other neighbours
    are those of the rest. -/
theorem neighbours_cons_iff (hsorted : (x :: y :: rest).Pairwise keyOrder)
    (hnodup : (x :: y :: rest).Nodup) :
    Neighbours (x :: y :: rest) a b ↔
      (a = x ∧ b = y ∧ x.1 = y.1) ∨ Neighbours (y :: rest) a b := by
  rw [List.pairwise_cons] at hsorted
  rw [List.nodup_cons] at hnodup
  have hfirst : ∀ c ∈ y :: rest, x.1 = c.1 → x.2 < c.2 := fun c hc hsame =>
    keyOrder_lt (hsorted.1 c hc) hsame (by rintro rfl; exact hnodup.1 hc)
  have hrest : ∀ c ∈ rest, keyOrder y c := (List.pairwise_cons.mp hsorted.2).1
  refine ⟨fun h => ?_, ?_⟩
  · rcases List.mem_cons.mp h.left with rfl | hleft
    · -- nothing of the device is between the first and its neighbour, so that this is the second
      left
      rcases List.mem_cons.mp h.right with rfl | hright
      · exact absurd h.lt (UInt64.lt_irrefl _)
      · rcases List.mem_cons.mp hright with rfl | hlater
        · exact ⟨rfl, rfl, h.serial⟩
        · have hsame := serial_of_between (hsorted.1 y List.mem_cons_self) (hrest b hlater) h.serial
          have hne : y ≠ b := by
            rintro rfl
            exact (List.nodup_cons.mp hnodup.2).1 hlater
          have hlt := keyOrder_lt (hrest b hlater) (hsame.symm.trans h.serial) hne
          exact absurd ⟨hfirst y List.mem_cons_self hsame, hlt⟩
            (h.between y (by simp) hsame.symm)
    · -- the first is before every other of its device
      right
      have hright : b ∈ y :: rest := by
        rcases List.mem_cons.mp h.right with rfl | hright
        · exact absurd h.lt (UInt64.not_lt.mpr (UInt64.le_of_lt (hfirst a hleft h.serial.symm)))
        · exact hright
      exact ⟨hleft, hright, h.serial, h.lt, fun c hc => h.between c (List.mem_cons_of_mem x hc)⟩
  · rintro (⟨rfl, rfl, hsame⟩ | h)
    · refine ⟨by simp, by simp, hsame, hfirst b List.mem_cons_self hsame, fun c hc hserial => ?_⟩
      rintro ⟨hlow, hhigh⟩
      rcases List.mem_cons.mp hc with rfl | hc
      · exact UInt64.lt_irrefl _ hlow
      · rcases List.mem_cons.mp hc with rfl | hc
        · exact UInt64.lt_irrefl _ hhigh
        · have hle := keyOrder_of_same (hrest c hc) (hsame.symm.trans hserial.symm)
          exact UInt64.not_lt.mpr hle hhigh
    · refine ⟨List.mem_cons_of_mem x h.left, List.mem_cons_of_mem x h.right, h.serial, h.lt,
        fun c hc hserial => ?_⟩
      rcases List.mem_cons.mp hc with rfl | hc
      · rintro ⟨hlow, -⟩
        exact UInt64.not_lt.mpr (UInt64.le_of_lt (hfirst a h.left hserial)) hlow
      · exact h.between c hc hserial

/-- The gaps of sorted keys are the times between neighbours. -/
theorem mem_gaps_iff (hsorted : ks.Pairwise keyOrder) (hnodup : ks.Nodup) {d : UInt64} :
    d ∈ gaps ks ↔ ∃ a b, Neighbours ks a b ∧ d = b.2 - a.2 := by
  induction ks with
  | nil =>
      refine iff_of_false (by simp [gaps]) ?_
      rintro ⟨a, b, h, -⟩
      cases h.left
  | cons x ks ih =>
      cases ks with
      | nil =>
          refine iff_of_false (by simp [gaps]) ?_
          rintro ⟨a, b, h, -⟩
          obtain rfl := List.mem_singleton.mp h.left
          obtain rfl := List.mem_singleton.mp h.right
          exact UInt64.lt_irrefl _ h.lt
      | cons y rest =>
          rw [gaps, List.mem_append, ih (List.pairwise_cons.mp hsorted).2
            (List.nodup_cons.mp hnodup).2]
          simp only [neighbours_cons_iff hsorted hnodup, or_and_right, exists_or]
          -- the first two points have a gap if they share the serial number, and are then
          -- neighbours
          refine or_congr_left ?_
          by_cases hsame : x.1 = y.1 <;> simp [hsame]

/-- Of two times of one device, some neighbours are no further apart. -/
theorem exists_gap_le (hsorted : ks.Pairwise keyOrder) (ha : a ∈ ks) (hb : b ∈ ks)
    (hsame : a.1 = b.1) (hlt : a.2 < b.2) : ∃ d ∈ gaps ks, d.toNat ≤ b.2.toNat - a.2.toNat := by
  induction ks with
  | nil => cases ha
  | cons x ks ih =>
      cases ks with
      | nil =>
          obtain rfl := List.mem_singleton.mp ha
          obtain rfl := List.mem_singleton.mp hb
          exact absurd hlt (UInt64.lt_irrefl _)
      | cons y rest =>
          rw [List.pairwise_cons] at hsorted
          rw [gaps]
          rcases List.mem_cons.mp ha with rfl | hleft
          · -- the second comes between the two
            have hright : b ∈ y :: rest := by
              rcases List.mem_cons.mp hb with rfl | hright
              · exact absurd hlt (UInt64.lt_irrefl _)
              · exact hright
            have hserial : a.1 = y.1 := by
              rcases List.mem_cons.mp hright with rfl | hlater
              · exact hsame
              · exact serial_of_between (hsorted.1 y List.mem_cons_self)
                  ((List.pairwise_cons.mp hsorted.2).1 b hlater) hsame
            have hle : a.2 ≤ y.2 := keyOrder_of_same (hsorted.1 y List.mem_cons_self) hserial
            have hle' : y.2 ≤ b.2 := by
              rcases List.mem_cons.mp hright with rfl | hlater
              · exact UInt64.le_refl _
              · exact keyOrder_of_same ((List.pairwise_cons.mp hsorted.2).1 b hlater)
                  (hserial.symm.trans hsame)
            refine ⟨y.2 - a.2, by simp [hserial], ?_⟩
            rw [UInt64.toNat_sub_of_le _ _ hle]
            rw [UInt64.le_iff_toNat_le] at hle'
            omega
          · have hright : b ∈ y :: rest := by
              rcases List.mem_cons.mp hb with rfl | hright
              · have hle := keyOrder_of_same (hsorted.1 a hleft) hsame.symm
                exact absurd hlt (UInt64.not_lt.mpr hle)
              · exact hright
            obtain ⟨d, hd, hle⟩ := ih hsorted.2 hleft hright
            exact ⟨d, List.mem_append_right _ hd, hle⟩

end Keys

/-! ## The smallest gap -/

theorem lesser_le {c d : UInt64} (hc : c ≠ 0) :
    (lesser c d).toNat ≤ c.toNat ∧ (lesser c d).toNat ≤ d.toNat := by
  unfold lesser
  by_cases hlt : d < c
  · rw [if_pos (.inr hlt)]
    rw [UInt64.lt_iff_toNat_lt] at hlt
    omega
  · rw [if_neg (not_or.mpr ⟨hc, hlt⟩)]
    rw [UInt64.not_lt, UInt64.le_iff_toNat_le] at hlt
    omega

theorem lesser_ne_zero {c d : UInt64} (hc : c ≠ 0) (hd : d ≠ 0) : lesser c d ≠ 0 := by
  rcases lesser_eq_or c d with h | h
  · rwa [h]
  · rwa [h]

theorem foldl_lesser_le {c : UInt64} (hc : c ≠ 0) {ds : List UInt64} (hds : ∀ d ∈ ds, d ≠ 0) :
    (ds.foldl lesser c).toNat ≤ c.toNat ∧ ∀ d ∈ ds, (ds.foldl lesser c).toNat ≤ d.toNat := by
  induction ds generalizing c with
  | nil => exact ⟨Nat.le_refl _, by simp⟩
  | cons d ds ih =>
      rw [List.forall_mem_cons] at hds
      obtain ⟨hstart, hrest⟩ := ih (lesser_ne_zero hc hds.1) hds.2
      obtain ⟨hle, hle'⟩ := lesser_le (d := d) hc
      rw [List.foldl_cons, List.forall_mem_cons]
      exact ⟨hstart.trans hle, hstart.trans hle', hrest⟩

/-- Zero is no gap, so that the loop finds the smallest of them, or none. -/
theorem foldl_lesser_isLeast {ds : List UInt64} (hds : ∀ d ∈ ds, d ≠ 0) (hne : ds ≠ []) :
    ds.foldl lesser 0 ≠ 0 ∧ IsLeast {n | ∃ d ∈ ds, n = d.toNat} (ds.foldl lesser 0).toNat := by
  cases ds with
  | nil => exact absurd rfl hne
  | cons d ds =>
      rw [List.forall_mem_cons] at hds
      -- the 0 it starts from stands for no distance yet
      have hfirst : lesser 0 d = d := if_pos (.inl rfl)
      have hmem : ds.foldl lesser d ∈ d :: ds :=
        List.mem_cons.mpr (foldl_lesser_mem d ds)
      obtain ⟨hle, hle'⟩ := foldl_lesser_le hds.1 hds.2
      rw [List.foldl_cons, hfirst]
      refine ⟨?_, ⟨_, hmem, rfl⟩, ?_⟩
      · rcases List.mem_cons.mp hmem with h | h
        · rw [h]
          exact hds.1
        · exact hds.2 _ h
      · rintro n ⟨e, he, rfl⟩
        rcases List.mem_cons.mp he with rfl | he
        · exact hle
        · exact hle' e he

/-! ## The interval -/

/-- Two points of one device with none of its points between them. -/
structure Consecutive (l : List (DeviceTimePoint F)) (a b : DeviceTimePoint F) : Prop where
  left : a ∈ l
  right : b ∈ l
  serial : a.serialNumber = b.serialNumber
  lt : a.timestamp < b.timestamp
  between : ∀ c ∈ l, c.serialNumber = a.serialNumber →
    ¬ (a.timestamp < c.timestamp ∧ c.timestamp < b.timestamp)

section Interval

variable {l : List (DeviceTimePoint F)}

theorem mem_keys {k : Str × UInt64} : k ∈ keys l ↔ ∃ p ∈ l, key p = k := by
  rw [keys, List.mem_insertionSort, List.mem_map]

theorem pairwise_keys (l : List (DeviceTimePoint F)) : (keys l).Pairwise keyOrder :=
  List.pairwise_insertionSort _ _

theorem nodup_keys (h : (l.map key).Nodup) : (keys l).Nodup :=
  (List.perm_insertionSort _ _).nodup_iff.mpr h

theorem exists_neighbours_iff {n : ℕ} :
    (∃ a b, Neighbours (keys l) a b ∧ n = b.2.toNat - a.2.toNat) ↔
      ∃ a b, Consecutive l a b ∧ n = b.timestamp.toNat - a.timestamp.toNat := by
  refine ⟨?_, ?_⟩
  · rintro ⟨_, _, ⟨hleft, hright, hserial, hlt, hbetween⟩, rfl⟩
    obtain ⟨a, ha, rfl⟩ := mem_keys.mp hleft
    obtain ⟨b, hb, rfl⟩ := mem_keys.mp hright
    exact ⟨a, b, ⟨ha, hb, hserial, hlt, fun c hc => hbetween (key c) (mem_keys.mpr ⟨c, hc, rfl⟩)⟩,
      rfl⟩
  · rintro ⟨a, b, ⟨hleft, hright, hserial, hlt, hbetween⟩, rfl⟩
    refine ⟨key a, key b, ⟨mem_keys.mpr ⟨a, hleft, rfl⟩, mem_keys.mpr ⟨b, hright, rfl⟩, hserial,
      hlt, fun k hk => ?_⟩, rfl⟩
    obtain ⟨c, hc, rfl⟩ := mem_keys.mp hk
    exact hbetween c hc

/-- Points of different keys are of different devices if no device has one before another. -/
theorem nodup_serialNumber {points : List (DeviceTimePoint F)} (hdistinct : (points.map key).Nodup)
    (h : ∀ a ∈ points, ∀ b ∈ points, a.serialNumber = b.serialNumber →
      ¬ a.timestamp < b.timestamp) :
    (points.map (·.serialNumber)).Nodup := by
  rw [List.Nodup, List.pairwise_map] at hdistinct ⊢
  refine hdistinct.imp_of_mem fun {a b} ha hb hne hserial => hne (Prod.ext hserial ?_)
  exact UInt64.le_antisymm (UInt64.not_lt.mp (h b hb a ha hserial.symm))
    (UInt64.not_lt.mp (h a ha b hb hserial))

theorem gaps_ne_zero (hdistinct : (l.map key).Nodup) : ∀ d ∈ gaps (keys l), d ≠ 0 := by
  intro d hd
  obtain ⟨a, b, hneighbours, rfl⟩ :=
    (mem_gaps_iff (pairwise_keys l) (nodup_keys hdistinct)).mp hd
  have hlt := hneighbours.lt
  intro hzero
  have hsub := UInt64.toNat_sub_of_le _ _ (UInt64.le_of_lt hlt)
  rw [hzero, UInt64.toNat_zero] at hsub
  rw [UInt64.lt_iff_toNat_lt] at hlt
  omega

theorem gaps_eq_nil_iff (hdistinct : (l.map key).Nodup) :
    gaps (keys l) = [] ↔ (l.map (·.serialNumber)).Nodup := by
  refine ⟨fun hnil => ?_, fun hnodup => ?_⟩
  · refine nodup_serialNumber hdistinct fun a ha b hb hserial hlt => ?_
    obtain ⟨d, hd, -⟩ := exists_gap_le (pairwise_keys l) (mem_keys.mpr ⟨a, ha, rfl⟩)
      (mem_keys.mpr ⟨b, hb, rfl⟩) hserial hlt
    rw [hnil] at hd
    cases hd
  · refine List.eq_nil_iff_forall_not_mem.mpr fun d hd => ?_
    obtain ⟨a, b, hneighbours, -⟩ :=
      (mem_gaps_iff (pairwise_keys l) (nodup_keys hdistinct)).mp hd
    obtain ⟨p, hp, rfl⟩ := mem_keys.mp hneighbours.left
    obtain ⟨q, hq, rfl⟩ := mem_keys.mp hneighbours.right
    have hsame : p = q := List.inj_on_of_nodup_map hnodup hp hq hneighbours.serial
    have hlt := hneighbours.lt
    rw [hsame] at hlt
    exact UInt64.lt_irrefl _ hlt

/-- The interval is the smallest time between consecutive points of a device, or zero where no
    device has two points. -/
theorem interval_spec (hdistinct : (l.map key).Nodup) :
    (interval l = 0 ↔ (l.map (·.serialNumber)).Nodup) ∧
      (interval l ≠ 0 →
        IsLeast {n | ∃ a b, Consecutive l a b ∧ n = b.timestamp.toNat - a.timestamp.toNat}
          (interval l).toNat) := by
  by_cases hnil : gaps (keys l) = []
  · have hzero : interval l = 0 := by rw [interval, hnil, List.foldl_nil]
    exact ⟨iff_of_true hzero ((gaps_eq_nil_iff hdistinct).mp hnil), fun h => absurd hzero h⟩
  · obtain ⟨hne, hleast⟩ := foldl_lesser_isLeast (gaps_ne_zero hdistinct) hnil
    refine ⟨iff_of_false hne fun hnodup => hnil ((gaps_eq_nil_iff hdistinct).mpr hnodup),
      fun _ => ?_⟩
    -- of two neighbours the second is later, so their distance does not wrap
    have hset : {n | ∃ d ∈ gaps (keys l), n = d.toNat} =
        {n | ∃ a b, Consecutive l a b ∧ n = b.timestamp.toNat - a.timestamp.toNat} := by
      ext n
      rw [Set.mem_ofPred_eq, Set.mem_ofPred_eq, ← exists_neighbours_iff]
      refine ⟨?_, ?_⟩
      · rintro ⟨d, hd, rfl⟩
        obtain ⟨a, b, hneighbours, rfl⟩ :=
          (mem_gaps_iff (pairwise_keys l) (nodup_keys hdistinct)).mp hd
        exact ⟨a, b, hneighbours, UInt64.toNat_sub_of_le _ _ (UInt64.le_of_lt hneighbours.lt)⟩
      · rintro ⟨a, b, hneighbours, rfl⟩
        refine ⟨b.2 - a.2, ?_, (UInt64.toNat_sub_of_le _ _ (UInt64.le_of_lt hneighbours.lt)).symm⟩
        exact (mem_gaps_iff (pairwise_keys l) (nodup_keys hdistinct)).mpr ⟨a, b, hneighbours, rfl⟩
    rw [← hset]
    exact hleast

/-- Points of one device are an interval or more apart. -/
theorem interval_le_of_lt (hdistinct : (l.map key).Nodup) {a b : DeviceTimePoint F} (ha : a ∈ l)
    (hb : b ∈ l) (hserial : a.serialNumber = b.serialNumber) (hlt : a.timestamp < b.timestamp) :
    (interval l).toNat ≤ b.timestamp.toNat - a.timestamp.toNat := by
  obtain ⟨d, hd, hle⟩ := exists_gap_le (pairwise_keys l) (mem_keys.mpr ⟨a, ha, rfl⟩)
    (mem_keys.mpr ⟨b, hb, rfl⟩) hserial hlt
  have hleast := (foldl_lesser_isLeast (gaps_ne_zero hdistinct) (List.ne_nil_of_mem hd)).2
  exact (hleast.2 ⟨d, hd, rfl⟩).trans hle

end Interval

/-! ## The slots -/

/-- Slots of that width, one after the other from that time on, all below `2 ^ 64`. -/
def SideBySide (first width : ℕ) (slots : List (UInt64 × UInt64)) : Prop :=
  ∀ k, (h : k < slots.length) →
    (slots.get ⟨k, h⟩).1.toNat = first + k * width ∧
      (slots.get ⟨k, h⟩).2.toNat + 1 = first + (k + 1) * width ∧ first + (k + 1) * width < 2 ^ 64

/-- The first point of the first device. -/
structure FirstOf (l : List (DeviceTimePoint F)) (p : DeviceTimePoint F) : Prop where
  mem : p ∈ l
  device : ∀ q ∈ l, keyLe (·.serialNumber) p q
  time : ∀ q ∈ l, q.serialNumber = p.serialNumber → p.timestamp ≤ q.timestamp

section Slots

variable {l : List (DeviceTimePoint F)}

theorem exists_firstOf (hne : l ≠ []) : ∃ p, FirstOf l p ∧ firstTime l = p.timestamp := by
  cases hkeys : keys l with
  | nil =>
      have hlength := (List.perm_insertionSort keyOrder (l.map key)).length_eq
      rw [← keys, hkeys, List.length_map, List.length_nil, eq_comm,
        List.length_eq_zero_iff] at hlength
      exact absurd hlength hne
  | cons k rest =>
      obtain ⟨p, hp, rfl⟩ := mem_keys.mp (hkeys ▸ List.mem_cons_self (a := k) (l := rest))
      have hsorted := pairwise_keys l
      rw [hkeys, List.pairwise_cons] at hsorted
      have hfirst : ∀ q ∈ l, keyOrder (key p) (key q) := by
        intro q hq
        have hmem : key q ∈ keys l := mem_keys.mpr ⟨q, hq, rfl⟩
        rw [hkeys, List.mem_cons] at hmem
        rcases hmem with h | h
        · rw [h]
          exact (total_of keyOrder (key p) (key p)).elim id id
        · exact hsorted.1 (key q) h
      refine ⟨p, ⟨hp, fun q hq => (hfirst q hq).1, fun q hq hsame => ?_⟩, ?_⟩
      · exact keyOrder_of_same (hfirst q hq) hsame.symm
      · rw [firstTime, hkeys]
        rfl

variable (hpos : interval l ≠ 0) (htimes : ∀ p ∈ l, p.timestamp.toNat < 2 ^ 63)

include hpos htimes

/-- The loop stops. -/
theorem exists_stopsAfter :
    ∃ n ≤ slotCount (firstTime l).toNat (interval l).toNat (lastTime l).toNat,
      StopsAfter (firstTime l) (interval l) (lastTime l) 0 n := by
  by_cases hlast : lastTime l = 0
  · refine ⟨0, Nat.zero_le _, (stopsAfter_of_end ?_ 0).mpr rfl⟩
    rw [hlast]
    exact UInt64.not_lt_zero
  · obtain ⟨m, hm⟩ := Nat.exists_eq_succ_of_ne_zero
      (Nat.ne_of_gt (slotCount_pos (firstTime l).toNat (interval l).toNat (lastTime l).toNat))
    refine ⟨m + 1, Nat.le_of_eq hm.symm, (stopsAfter_succ_iff _ _ hpos m).mpr ?_⟩
    refine (isLastSlot_iff_of_fits (interval_toNat_pos hpos) (fits_of_lt hpos htimes) m).mpr
      ⟨?_, hm.symm⟩
    exact fun hzero => hlast (UInt64.toNat.inj hzero)

theorem sideBySide_slotsFrom {n : ℕ}
    (hn : n ≤ slotCount (firstTime l).toNat (interval l).toNat (lastTime l).toNat) :
    SideBySide (firstTime l).toNat (interval l).toNat
      (slotsFrom (firstTime l) (interval l) 0 n) := by
  intro k hk
  have hlength : k < n := by simpa [slotsFrom] using hk
  have hslot : (slotsFrom (firstTime l) (interval l) 0 n).get ⟨k, hk⟩ =
      slot (firstTime l) (interval l) k := by
    simp [slotsFrom]
  have hpositive := interval_toNat_pos hpos
  obtain ⟨hstart, hend⟩ := slot_of_fits hpositive (fits_of_lt hpos htimes) (hlength.trans_le hn)
  have hbelow := (add_mul_le_slotsEnd (hlength.trans_le hn)).trans_lt (slotsEnd_lt hpos htimes)
  have hmul : 0 < (k + 1) * (interval l).toNat := Nat.mul_pos (Nat.succ_pos k) hpositive
  rw [hslot, toNat_slot_fst, toNat_slot_snd _ hpos, hstart, hend]
  exact ⟨rfl, by omega, hbelow⟩

end Slots

/-- Points of one device that are an interval apart or more are not in one slot. -/
theorem nodup_serialNumber_filter {l points : List (DeviceTimePoint F)}
    (hdistinct : (l.map key).Nodup) (hpoints : points.Perm l) {slot : UInt64 × UInt64} 
    (hwidth : slot.2.toNat < slot.1.toNat + (interval l).toNat) :
    ((points.filter (inSlot slot)).map (·.serialNumber)).Nodup := by
  have hkeys : ((points.filter (inSlot slot)).map key).Nodup :=
    ((hpoints.map key).nodup_iff.mpr hdistinct).sublist (List.filter_sublist.map key)
  refine nodup_serialNumber hkeys fun a ha b hb hserial hlt => ?_
  obtain ⟨ha, hslota⟩ := List.mem_filter.mp ha
  obtain ⟨hb, hslotb⟩ := List.mem_filter.mp hb
  have hle := interval_le_of_lt hdistinct (hpoints.mem_iff.mp ha) (hpoints.mem_iff.mp hb) hserial
    hlt
  unfold inSlot at hslota hslotb
  simp only [Bool.and_eq_true, decide_eq_true_eq, ge_iff_le,
    UInt64.le_iff_toNat_le] at hslota hslotb
  omega

/-- The variables of `NewSort` after its first loop. -/
def passOf (order : Arrangement (serialTsLe (F := F))) (l : List (DeviceTimePoint F)) : Pass :=
  (order.arrange l).foldl Pass.step {}

/-- The interval of the pass is the smallest time between consecutive points of a device, or zero
    where no device has two points; the loop over the slots ends, its slots of that width lie side
    by side from the first time of the first device on, and none of them is given two points of one
    device. -/
theorem newSort_separates (order : Arrangement (serialTsLe (F := F))) {l : List (DeviceTimePoint F)}
    (hl : ∀ p ∈ l, p.serialNumber ≠ [] ∧ p.serialNumber = p.deviceInfo.serialNumber)
    (htimes : ∀ p ∈ l, p.timestamp.toNat < 2 ^ 63) (hdistinct : (l.map key).Nodup) :
    ((passOf order l).curInt = 0 ↔ (l.map (·.serialNumber)).Nodup) ∧
    ((passOf order l).curInt ≠ 0 →
      IsLeast {n | ∃ a b, Consecutive l a b ∧ n = b.timestamp.toNat - a.timestamp.toNat}
        (passOf order l).curInt.toNat ∧
      (∃ p, FirstOf l p ∧ (passOf order l).firstVal = p.timestamp) ∧
      ∃ fuel slots, timeSlots (passOf order l).curInt (passOf order l).lastVal fuel
          (passOf order l).firstVal 0 = some slots ∧
        SideBySide (passOf order l).firstVal.toNat (passOf order l).curInt.toNat slots) ∧
    ∃ fuel sp, newSort order fuel l = some sp ∧
      ∀ points ∈ sp, (points.map (·.serialNumber)).Nodup := by
  obtain ⟨hint, hlast, hfirst⟩ := foldl_step_arrange order hl
  obtain ⟨hzero, hleast⟩ := interval_spec hdistinct
  rw [← passOf] at hint hlast hfirst
  rw [hint, hlast, hfirst]
  refine ⟨hzero, fun hpos => ⟨hleast hpos, exists_firstOf (ne_nil_of_interval hpos), ?slots⟩,
    ?split⟩
  case slots =>
    obtain ⟨n, hn, hstops⟩ := exists_stopsAfter hpos htimes
    exact (exists_timeSlots_iff _ _ _ _).mpr ⟨n, hstops, sideBySide_slotsFrom hpos htimes hn⟩
  case split =>
    by_cases hpos : interval l = 0
    · refine ⟨0, [order.arrange l], by rw [newSort_eq order hl, if_pos hpos], fun points hmem => ?_⟩
      obtain rfl := List.mem_singleton.mp hmem
      exact (((order.perm l).map _).nodup_iff).mpr (hzero.mp hpos)
    · obtain ⟨n, hn, hstops⟩ := exists_stopsAfter hpos htimes
      obtain ⟨fuel, slots, hslots, hside⟩ := (exists_timeSlots_iff _ _ _ _).mpr
        ⟨n, hstops, sideBySide_slotsFrom hpos htimes hn⟩
      refine ⟨fuel, _, by rw [newSort_eq order hl, if_neg hpos, hslots]; rfl, fun points hmem => ?_⟩
      dsimp only at hmem
      rw [Distribution.foldl_place, List.mem_map] at hmem
      obtain ⟨slot, hslot, rfl⟩ := hmem
      obtain ⟨k, hk, rfl⟩ := List.getElem_of_mem hslot
      obtain ⟨hstart, hend, -⟩ := hside k hk
      -- a slot is an interval long, so that two points of a device do not fit into it
      refine nodup_serialNumber_filter hdistinct (order.perm l) ?_
      rw [Nat.add_mul, Nat.one_mul] at hend
      simp only [List.get_eq_getElem] at hstart hend
      omega

theorem newSort_separates_twoDevices :
    IsLeast {n | ∃ a b, Consecutive twoDevices a b ∧ n = b.timestamp.toNat - a.timestamp.toNat}
        (passOf (.insertionSort serialTsLe) twoDevices).curInt.toNat ∧
      ∃ fuel sp, newSort (.insertionSort serialTsLe) fuel twoDevices = some sp ∧
        ∀ points ∈ sp, (points.map (·.serialNumber)).Nodup := by
  obtain ⟨-, hslots, hsplit⟩ := newSort_separates (.insertionSort serialTsLe) (l := twoDevices)
    (by decide +kernel) (by decide +kernel) (by decide +kernel)
  exact ⟨(hslots (by decide +kernel)).1, hsplit⟩

end OwAnalytics.Boards
