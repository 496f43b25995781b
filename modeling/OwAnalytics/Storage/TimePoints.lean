/-
  OwAnalytics.Storage.TimePoints

  The selections of `storage/storage_timepoints.cpp` that the usage endpoints
  make, over the table as a list of rows.  `order by` is a sort and `LIMIT` a
  prefix; a statement may fail, in which case the selection reports no result.
-/

import OwAnalytics.Lib.Arrangement
import OwAnalytics.Mcp.Request

namespace OwAnalytics.Storage

open AnalyticsObjects

/-- The statements a usage request sends to the time point table. -/
inductive Statement where
  | window
  | startBoundary
  | endBoundary
deriving DecidableEq

/-- The time point table, and which statements succeed on it. -/
structure TimePointDB where
  rows : List DeviceTimePoint
  joinSucceeds : Statement → Bool

/-- `order by timestamp, id ASC`. -/
def rowLe (a b : DeviceTimePoint) : Prop :=
  a.timestamp < b.timestamp ∨ (a.timestamp = b.timestamp ∧ (compare a.id b.id).isLE)

instance : DecidableRel rowLe := fun _ _ => inferInstanceAs (Decidable (_ ∨ _))

/-- `order by timestamp desc, id desc`. -/
def rowGe (a b : DeviceTimePoint) : Prop := rowLe b a

instance : DecidableRel rowGe := fun _ _ => inferInstanceAs (Decidable (rowLe _ _))

/-- The rows of one device on one board. -/
def TimePointDB.deviceRows (db : TimePointDB) (boardId serialNumber : Str) :
    List DeviceTimePoint :=
  db.rows.filter fun row => row.boardId = boardId ∧ row.serialNumber = serialNumber

/-- `LimitWithOverflowSentinel`: one row more than allowed shows that the limit is exceeded. -/
def limitWithOverflowSentinel (maxRecords : UInt64) : UInt64 :=
  if maxRecords = UInt64.ofNat (2 ^ 64 - 1) then maxRecords else maxRecords + 1

/-- `Join`: the result of the statement unless it fails. -/
def TimePointDB.join (db : TimePointDB) (statement : Statement)
    (result : List DeviceTimePoint) : Option (List DeviceTimePoint) :=
  if db.joinSucceeds statement then some result else none

/-- `SelectRecordsBySerial`: the records and whether the limit is exceeded. -/
def TimePointDB.selectRecordsBySerial (db : TimePointDB) (boardId serialNumber : Str)
    (startTime endTime maxRecords : UInt64) : Option (List DeviceTimePoint × Bool) :=
  if endTime ≤ startTime then some ([], false)
  else
    let matching := (db.deviceRows boardId serialNumber).filter fun row =>
      startTime ≤ row.timestamp ∧ row.timestamp < endTime
    let ordered := matching.insertionSort rowLe
    let limited :=
      if maxRecords > 0 then ordered.take (limitWithOverflowSentinel maxRecords).toNat else ordered
    (db.join .window limited).map fun rawRecords =>
      (rawRecords, decide (maxRecords > 0 ∧ rawRecords.length > maxRecords.toNat))

/-- `SelectLatestRecordAtOrBeforeBySerial`. -/
def TimePointDB.selectLatestRecordAtOrBeforeBySerial (db : TimePointDB)
    (boardId serialNumber : Str) (minimumTime boundaryTime : UInt64) :
    Option (Option DeviceTimePoint) :=
  if boundaryTime < minimumTime then some none
  else
    let matching := (db.deviceRows boardId serialNumber).filter fun row =>
      minimumTime ≤ row.timestamp ∧ row.timestamp ≤ boundaryTime
    (db.join .startBoundary ((matching.insertionSort rowGe).take 1)).map List.head?

/-- `SelectEarliestRecordAtOrAfterBySerial`. -/
def TimePointDB.selectEarliestRecordAtOrAfterBySerial (db : TimePointDB)
    (boardId serialNumber : Str) (boundaryTime : UInt64) : Option (Option DeviceTimePoint) :=
  let matching := (db.deviceRows boardId serialNumber).filter fun row =>
    boundaryTime ≤ row.timestamp
  (db.join .endBoundary ((matching.insertionSort rowLe).take 1)).map List.head?

/-! ## What the selections return -/

/-- It is the order by the time stamps and, where these tie, by the ids. -/
theorem rowLe_eq :
    rowLe = thenLe (keyLe DeviceTimePoint.timestamp) (keyLe DeviceTimePoint.id) := by
  funext a b
  refine propext ⟨?_, ?_⟩
  · rintro (hlt | ⟨heq, hid⟩)
    · exact ⟨keyLe_iff.mpr (UInt64.le_of_lt hlt),
        fun hge => absurd (keyLe_iff.mp hge) (UInt64.not_le.mpr hlt)⟩
    · exact ⟨keyLe_iff.mpr (heq ▸ UInt64.le_refl _), fun _ => hid⟩
  · rintro ⟨hle, hid⟩
    by_cases heq : a.timestamp = b.timestamp
    · exact .inr ⟨heq, hid (keyLe_iff.mpr (heq ▸ UInt64.le_refl _))⟩
    · exact .inl (UInt64.lt_of_le_of_ne (keyLe_iff.mp hle) heq)

instance : IsTrans DeviceTimePoint rowLe := by
  rw [rowLe_eq]
  infer_instance

instance : Std.Total rowLe := by
  rw [rowLe_eq]
  infer_instance

instance : IsTrans DeviceTimePoint rowGe := ⟨fun a b c hab hbc =>
  (inferInstance : IsTrans DeviceTimePoint rowLe).trans c b a hbc hab⟩

instance : Std.Total rowGe := ⟨fun a b => total_of rowLe b a⟩

theorem rowLe.timestamp_le {a b : DeviceTimePoint} (h : rowLe a b) :
    a.timestamp ≤ b.timestamp := by
  rw [rowLe_eq] at h
  exact keyLe_iff.mp h.1

/-- The first row in an order is a row no other one precedes. -/
theorem head?_insertionSort {r : DeviceTimePoint → DeviceTimePoint → Prop} [DecidableRel r]
    [IsTrans DeviceTimePoint r] [Std.Total r] {l : List DeviceTimePoint} {b : DeviceTimePoint}
    (h : (l.insertionSort r).head? = some b) : b ∈ l ∧ ∀ row ∈ l, r b row := by
  have hsorted := List.pairwise_insertionSort r l
  obtain ⟨rest, hcons⟩ := List.head?_eq_some_iff.mp h
  have hmem : ∀ row, row ∈ b :: rest ↔ row ∈ l := by
    intro row
    rw [← hcons, List.mem_insertionSort]
  rw [hcons] at hsorted
  refine ⟨(hmem b).mp List.mem_cons_self, fun row hrow => ?_⟩
  rcases List.mem_cons.mp ((hmem row).mpr hrow) with rfl | hin
  · exact (total_of r row row).elim id id
  · exact (List.pairwise_cons.mp hsorted).1 row hin

theorem join_eq_some {db : TimePointDB} {statement : Statement}
    {result l : List DeviceTimePoint} (h : db.join statement result = some l) : l = result := by
  unfold TimePointDB.join at h
  split_ifs at h
  exact (Option.some.inj h).symm

/-- A selection within its limit returns the rows of the device in the window. -/
theorem mem_selectRecordsBySerial {db : TimePointDB} {boardId serialNumber : Str}
    {startTime endTime maxRecords : UInt64} {records : List DeviceTimePoint}
    (hpos : 0 < maxRecords) (hmax : maxRecords.toNat < 2 ^ 64 - 1)
    (h : db.selectRecordsBySerial boardId serialNumber startTime endTime maxRecords
      = some (records, false)) (row : DeviceTimePoint) :
    row ∈ records ↔ row ∈ db.deviceRows boardId serialNumber ∧
      startTime ≤ row.timestamp ∧ row.timestamp < endTime := by
  unfold TimePointDB.selectRecordsBySerial at h
  by_cases hempty : endTime ≤ startTime
  · rw [if_pos hempty] at h
    obtain ⟨rfl, -⟩ := Prod.mk.inj (Option.some.inj h)
    simp only [List.not_mem_nil, false_iff]
    rintro ⟨-, hlo, hhi⟩
    exact UInt64.lt_irrefl _ (UInt64.lt_of_lt_of_le (UInt64.lt_of_le_of_lt hlo hhi) hempty)
  · rw [if_neg hempty] at h
    obtain ⟨raw, hjoin, hraw⟩ := Option.map_eq_some_iff.mp h
    obtain ⟨rfl, hlimit⟩ := Prod.mk.inj hraw
    have hraw := join_eq_some hjoin
    rw [if_pos hpos] at hraw
    have hlen : raw.length ≤ maxRecords.toNat := by
      simpa [hpos] using hlimit
    -- the sentinel row is missing, so nothing was cut off
    have hsentinel : (limitWithOverflowSentinel maxRecords).toNat = maxRecords.toNat + 1 := by
      have hne : maxRecords ≠ UInt64.ofNat (2 ^ 64 - 1) := by
        rintro rfl
        exact absurd hmax (by decide)
      rw [limitWithOverflowSentinel, if_neg hne, UInt64.toNat_add]
      show (maxRecords.toNat + 1) % 2 ^ 64 = maxRecords.toNat + 1
      omega
    rw [hsentinel] at hraw
    have hall : raw = ((db.deviceRows boardId serialNumber).filter fun row =>
        startTime ≤ row.timestamp ∧ row.timestamp < endTime).insertionSort rowLe := by
      rw [hraw] at hlen ⊢
      rw [List.length_take] at hlen
      exact List.take_of_length_le (by omega)
    rw [hall, List.mem_insertionSort, List.mem_filter]
    simp

/-- The start boundary is the latest row of the device in the interval, if there is one. -/
theorem selectLatest_spec {db : TimePointDB} {boardId serialNumber : Str}
    {minimumTime boundaryTime : UInt64} {found : Option DeviceTimePoint}
    (h : db.selectLatestRecordAtOrBeforeBySerial boardId serialNumber minimumTime boundaryTime
      = some found) :
    (∀ b ∈ found, b ∈ db.deviceRows boardId serialNumber ∧ minimumTime ≤ b.timestamp ∧
      b.timestamp ≤ boundaryTime ∧ ∀ row ∈ db.deviceRows boardId serialNumber,
        minimumTime ≤ row.timestamp → row.timestamp ≤ boundaryTime →
          row.timestamp ≤ b.timestamp) ∧
    (found = none → ∀ row ∈ db.deviceRows boardId serialNumber,
      minimumTime ≤ row.timestamp → ¬ row.timestamp ≤ boundaryTime) := by
  unfold TimePointDB.selectLatestRecordAtOrBeforeBySerial at h
  by_cases hempty : boundaryTime < minimumTime
  · rw [if_pos hempty] at h
    obtain rfl := Option.some.inj h
    refine ⟨fun b hb => absurd hb (by simp), fun _ row _ hlo hhi => ?_⟩
    -- The code answers without a query: the interval is empty.
    exact UInt64.lt_irrefl _ (UInt64.lt_of_le_of_lt (UInt64.le_trans hlo hhi) hempty)
  · rw [if_neg hempty] at h
    obtain ⟨raw, hjoin, rfl⟩ := Option.map_eq_some_iff.mp h
    rw [join_eq_some hjoin, List.head?_take, if_neg (by decide)]
    refine ⟨?_, ?_⟩
    · intro b hb
      -- Latest first, so the head of the sorted rows is the latest of them.
      obtain ⟨hmem, hfirst⟩ := head?_insertionSort hb
      simp only [List.mem_filter, decide_eq_true_eq] at hmem hfirst
      exact ⟨hmem.1, hmem.2.1, hmem.2.2,
        fun row hrow hlo hhi => (hfirst row ⟨hrow, hlo, hhi⟩).timestamp_le⟩
    · intro hnone row hrow hlo hhi
      rw [List.head?_eq_none_iff, List.eq_nil_iff_forall_not_mem] at hnone
      have hout := hnone row
      rw [List.mem_insertionSort, List.mem_filter] at hout
      exact hout ⟨hrow, decide_eq_true ⟨hlo, hhi⟩⟩

/-- The end boundary is the earliest row of the device at or after the time, if there is one. -/
theorem selectEarliest_spec {db : TimePointDB} {boardId serialNumber : Str}
    {boundaryTime : UInt64} {found : Option DeviceTimePoint}
    (h : db.selectEarliestRecordAtOrAfterBySerial boardId serialNumber boundaryTime
      = some found) :
    (∀ e ∈ found, e ∈ db.deviceRows boardId serialNumber ∧ boundaryTime ≤ e.timestamp ∧
      ∀ row ∈ db.deviceRows boardId serialNumber,
        boundaryTime ≤ row.timestamp → e.timestamp ≤ row.timestamp) ∧
    (found = none →
      ∀ row ∈ db.deviceRows boardId serialNumber, ¬ boundaryTime ≤ row.timestamp) := by
  unfold TimePointDB.selectEarliestRecordAtOrAfterBySerial at h
  obtain ⟨raw, hjoin, rfl⟩ := Option.map_eq_some_iff.mp h
  rw [join_eq_some hjoin, List.head?_take, if_neg (by decide)]
  refine ⟨?_, ?_⟩
  · intro e he
    -- the rows are in ascending order and the first of them is taken
    obtain ⟨hmem, hfirst⟩ := head?_insertionSort he
    simp only [List.mem_filter, decide_eq_true_eq] at hmem hfirst
    exact ⟨hmem.1, hmem.2, fun row hrow hlo => (hfirst row ⟨hrow, hlo⟩).timestamp_le⟩
  · intro hnone row hrow hlo
    rw [List.head?_eq_none_iff, List.eq_nil_iff_forall_not_mem] at hnone
    have hout := hnone row
    rw [List.mem_insertionSort, List.mem_filter] at hout
    exact hout ⟨hrow, decide_eq_true hlo⟩

end OwAnalytics.Storage
