/-
  OwAnalytics.Storage.CorruptRow

  The selections of `RecordsBySerial` over a table in which the text of one column of one
  row has been replaced.  The radios and the SSIDs are read by helpers that skip a row
  they cannot read; the other columns go through `to_object`, which lets the exception
  of a text that is no object out of the selection.
-/

import OwAnalytics.Storage.RecordsBySerial

namespace OwAnalytics.TimePointDB

open Ap
open Storage (limitWithOverflowSentinel)

/-! ## A replaced text -/

/-- The columns with a JSON text. -/
inductive Column
  | apData
  | ssidData
  | radioData
  | deviceInfo
  | resourceData
deriving DecidableEq

/-- The row with another text in the column. -/
def Column.set (c : Column) (text : Str) (row : Record) : Record :=
  match c with
  | .apData => { row with apData := text }
  | .ssidData => { row with ssidData := text }
  | .radioData => { row with radioData := text }
  | .deviceInfo => { row with deviceInfo := text }
  | .resourceData => { row with resourceData := text }

/-- The text of the column in the row with this id. -/
structure Replacement where
  id : Str
  column : Column
  text : Str

/-- What the replacement makes of a row: the column of its own row gets the text. -/
def Replacement.row (r : Replacement) (row : Record) : Record :=
  if row.id = r.id then r.column.set r.text row else row

namespace Replacement

variable (r : Replacement) (row : Record)

theorem row_of_ne {row : Record} (h : row.id ≠ r.id) : r.row row = row := if_neg h

/-- The other columns stay. -/
theorem row_keeps :
    (r.row row).id = row.id ∧ (r.row row).boardId = row.boardId ∧
      (r.row row).serialNumber = row.serialNumber ∧ (r.row row).timestamp = row.timestamp := by
  rw [Replacement.row]
  split_ifs
  · cases r.column <;> exact ⟨rfl, rfl, rfl, rfl⟩
  · exact ⟨rfl, rfl, rfl, rfl⟩

@[simp] theorem row_id : (r.row row).id = row.id := (r.row_keeps row).1

@[simp] theorem row_boardId : (r.row row).boardId = row.boardId := (r.row_keeps row).2.1

@[simp] theorem row_serialNumber : (r.row row).serialNumber = row.serialNumber :=
  (r.row_keeps row).2.2.1

@[simp] theorem row_timestamp : (r.row row).timestamp = row.timestamp := (r.row_keeps row).2.2.2

end Replacement

namespace RecordTable

/-- The table with the text replaced. -/
def replace (db : RecordTable) (r : Replacement) : RecordTable where
  rows := db.rows.map r.row
  nodup_id := by
    rw [List.map_map, show Record.id ∘ r.row = Record.id from funext r.row_id]
    exact db.nodup_id
  length_lt := by
    rw [List.length_map]
    exact db.length_lt
  succeeds := db.succeeds

variable (db : RecordTable) (q : Query) (r : Replacement)

theorem matching_replace : (db.replace r).matching q = (db.matching q).map r.row := by
  rw [matching, matching, replace, List.filter_map]
  refine congrArg (List.map r.row) (List.filter_congr fun row _ => ?_)
  simp

/-- The statement has the same rows in the same order. -/
theorem rawRecords_replace : (db.replace r).rawRecords q = (db.rawRecords q).map r.row := by
  have hsorted : ((db.replace r).matching q).insertionSort rowLe =
      ((db.matching q).insertionSort rowLe).map r.row := by
    rw [matching_replace]
    refine (List.map_insertionSort rowLe rowLe r.row _ fun a _ b _ => ?_).symm
    simp [thenLe, keyLe]
  rw [rawRecords, rawRecords, hsorted, apply_ite (List.map r.row), List.map_take]

theorem exceeds_replace : (db.replace r).Exceeds q ↔ db.Exceeds q := by
  rw [Exceeds, Exceeds, rawRecords_replace, List.length_map]

/-- The row matches, and fewer rows that match come before it than the statement asks for. -/
def Reached (db : RecordTable) (q : Query) (row : Record) : Prop :=
  row ∈ db.matching q ∧
    (q.maxRecords = 0 ∨
      (db.matching q).countP (fun other => ¬ rowLe row other) <
        (limitWithOverflowSentinel q.maxRecords).toNat)

/-- The statement has the rows that are reached. -/
theorem mem_rawRecords_iff {row : Record} : row ∈ db.rawRecords q ↔ db.Reached q row := by
  rw [rawRecords, Reached]
  by_cases hzero : q.maxRecords = 0
  · have hnot : ¬ q.maxRecords > 0 := by
      rw [hzero]
      decide
    rw [if_neg hnot, List.mem_insertionSort]
    exact (and_iff_left (.inl hzero)).symm
  · have hpos : q.maxRecords > 0 := UInt64.pos_iff_ne_zero.mpr hzero
    -- rows with different ids are told apart
    have hanti : ∀ a ∈ db.matching q, ∀ b ∈ db.matching q, rowLe a b → rowLe b a → a = b := by
      intro a ha b hb hab hba
      refine List.inj_on_of_nodup_map db.nodup_id (List.mem_of_mem_filter ha)
        (List.mem_of_mem_filter hb) ?_
      exact keyLe_antisymm (hab.2 hba.1) (hba.2 hab.1)
    have hnodup : (db.matching q).Nodup := db.nodup_id.of_map.filter _
    rw [if_pos hpos, or_iff_right hzero]
    exact (Arrangement.insertionSort rowLe).mem_take_iff hnodup hanti

end RecordTable

/-! ## The other rows -/

variable {F : Type} [Zero F] {L : JsonLibrary F}

/-- The selection still goes through and answers so, and the points of the other rows are those of
    before, in the same order. -/
def Isolated (L : JsonLibrary F) (s : Selection) (db : RecordTable) (q : Query) (r : Replacement) :
    Prop :=
  ∃ before after, s.run L db q = some before ∧ s.run L (db.replace r) q = some after ∧
    after.answer = true ∧
    (after.recs.filter fun p => p.id ≠ r.id) = before.recs.filter fun p => p.id ≠ r.id

/-- No row with this id is reached, or the column is one of those that are read by the helpers, or
    the text is one that `to_object` takes. -/
def Harmless (L : JsonLibrary F) (db : RecordTable) (q : Query) (r : Replacement) : Prop :=
  (∀ row, db.Reached q row → row.id ≠ r.id) ∨ r.column = .ssidData ∨ r.column = .radioData ∨
    IsObjectText L r.text

/-- The point of a row has its id. -/
theorem Selection.id_point {s : Selection} {row : Record} {p : DeviceTimePoint F}
    (h : s.point L row = some (some p)) : p.id = row.id := by
  cases s with
  | records =>
      rw [point, convertRecord] at h
      obtain ⟨p', hp', heq⟩ := Option.map_eq_some_iff.mp h
      obtain rfl := Option.some.inj heq
      simp only [fromRecord, Option.pure_def, Option.bind_eq_bind, Option.bind_eq_some_iff,
        Option.some.injEq] at hp'
      obtain ⟨apData, -, deviceInfo, -, resourceData, -, rfl⟩ := hp'
      rfl
  | resource =>
      rw [point, convertResource] at h
      obtain ⟨resourceData, -, heq⟩ := Option.map_eq_some_iff.mp h
      obtain rfl := Option.some.inj heq
      rfl
  | radio =>
      rw [point, convertRadio] at h
      split at h
      · obtain rfl := Option.some.inj (Option.some.inj h)
        rfl
      · cases Option.some.inj h
  | ssid =>
      rw [point, convertSsid] at h
      split at h
      · obtain rfl := Option.some.inj (Option.some.inj h)
        rfl
      · cases Option.some.inj h

omit [Zero F] in
/-- A row that is read as it is can be read with the text too iff the text is harmless; the
    selection of whole rows reads every column. -/
theorem reads_set_iff {row : Record} (h : Selection.records.Reads L row) (c : Column) (text : Str) :
    (∀ s : Selection, s.Reads L (c.set text row)) ↔
      c = .ssidData ∨ c = .radioData ∨ IsObjectText L text := by
  obtain ⟨hap, hinfo, hresource⟩ := h
  have hall : (∀ s : Selection, s.Reads L (c.set text row)) ↔
      Selection.records.Reads L (c.set text row) :=
    ⟨fun hall => hall .records, fun hrecords s => hrecords.of_records s⟩
  rw [hall]
  -- three of the columns are objects, and the other two may hold any text
  cases c with
  | apData =>
      have hset : Selection.records.Reads L (Column.apData.set text row) ↔ IsObjectText L text :=
        and_iff_left ⟨hinfo, hresource⟩
      simpa using hset
  | ssidData => exact iff_of_true ⟨hap, hinfo, hresource⟩ (.inl rfl)
  | radioData => exact iff_of_true ⟨hap, hinfo, hresource⟩ (.inr (.inl rfl))
  | deviceInfo =>
      have hset :
          Selection.records.Reads L (Column.deviceInfo.set text row) ↔ IsObjectText L text :=
        ⟨fun h => h.2.1, fun h => ⟨hap, h, hresource⟩⟩
      simpa using hset
  | resourceData =>
      have hset :
          Selection.records.Reads L (Column.resourceData.set text row) ↔ IsObjectText L text :=
        ⟨fun h => h.2.2, fun h => ⟨hap, hinfo, h⟩⟩
      simpa using hset

/-- The points of the other rows do not depend on the row with this id. -/
theorem filter_convertRows {s : Selection} {rows : List Record} {r : Replacement}
    {before after : List (DeviceTimePoint F)}
    (hbefore : convertRows (s.point L) rows = some before)
    (hafter : convertRows (s.point L) (rows.map r.row) = some after) :
    (after.filter fun p => p.id ≠ r.id) = before.filter fun p => p.id ≠ r.id := by
  induction rows generalizing before after with
  | nil =>
      rw [List.map_nil, hbefore] at hafter
      rw [Option.some.inj hafter]
  | cons row rest ih =>
      rw [convertRows_cons] at hbefore
      rw [List.map_cons, convertRows_cons] at hafter
      obtain ⟨p, hp, hrest⟩ := Option.bind_eq_some_iff.mp hbefore
      obtain ⟨ps, hps, rfl⟩ := Option.map_eq_some_iff.mp hrest
      obtain ⟨p', hp', hrest'⟩ := Option.bind_eq_some_iff.mp hafter
      obtain ⟨ps', hps', rfl⟩ := Option.map_eq_some_iff.mp hrest'
      rw [List.filter_append, List.filter_append, ih hps hps']
      congr 1
      by_cases hid : row.id = r.id
      · -- whatever it gives has the id of the row
        have hnone : ∀ {row' : Record} {p : Option (DeviceTimePoint F)}, row'.id = r.id →
            s.point L row' = some p → (p.toList.filter fun p => p.id ≠ r.id) = [] := by
          intro row' p hrow' hpoint
          cases p with
          | none => rfl
          | some p => simp [Selection.id_point hpoint, hrow']
        rw [hnone hid hp, hnone ((r.row_id row).trans hid) hp']
      · rw [r.row_of_ne hid, hp] at hp'
        rw [Option.some.inj hp']

/-- A selection isolates the row iff it can read the rows with the text as well. -/
theorem isolated_iff (s : Selection) (db : RecordTable) (q : Query) (r : Replacement)
    (hread : ∀ row ∈ db.rows, Selection.records.Reads L row) (hwindow : ¬ q.endTime ≤ q.startTime)
    (hsucceeds : db.succeeds (.bySerial q) = true) :
    Isolated L s db q r ↔
      (db.Exceeds q ∧ s = .ssid) ∨ ∀ row ∈ db.rawRecords q, s.Reads L (r.row row) := by
  obtain ⟨hpoints, hcleared⟩ := s.run_of_lt (L := L) db hwindow hsucceeds
  obtain ⟨hpoints', hcleared'⟩ := s.run_of_lt (L := L) (db.replace r) hwindow hsucceeds
  simp only [RecordTable.exceeds_replace] at hpoints' hcleared'
  -- a selection that is cleared has no row to lose
  by_cases hssid : db.Exceeds q ∧ s = .ssid
  · exact iff_of_true
      ⟨_, _, hcleared hssid.1 hssid.2, hcleared' hssid.1 hssid.2, rfl, rfl⟩ (.inl hssid)
  · have hnot : ¬ db.Exceeds q ∨ s ≠ .ssid := not_and_or.mp hssid
    have hbefore : (convertRows (s.point L) (db.rawRecords q)).isSome = true := by
      refine isSome_convertRows.mpr fun row hrow => Selection.isSome_point_iff.mpr ?_
      exact (hread row (RecordTable.mem_of_mem_rawRecords hrow)).of_records s
    obtain ⟨before, hbefore⟩ := Option.isSome_iff_exists.mp hbefore
    have hafter : (convertRows (s.point L) ((db.replace r).rawRecords q)).isSome = true ↔
        ∀ row ∈ db.rawRecords q, s.Reads L (r.row row) := by
      rw [RecordTable.rawRecords_replace, isSome_convertRows, List.forall_mem_map]
      exact forall₂_congr fun row _ => Selection.isSome_point_iff
    rw [or_iff_right hssid, ← hafter, Isolated, hpoints hnot, hpoints' hnot, hbefore]
    refine ⟨?_, fun hsome => ?_⟩
    · rintro ⟨-, result, -, hresult, -⟩
      obtain ⟨after, hafter, -⟩ := Option.map_eq_some_iff.mp hresult
      rw [hafter]
      rfl
    · obtain ⟨after, hafter⟩ := Option.isSome_iff_exists.mp hsome
      refine ⟨_, _, rfl, by rw [hafter]; rfl, rfl, ?_⟩
      rw [RecordTable.rawRecords_replace] at hafter
      exact filter_convertRows hbefore hafter

/-- All four selections isolate a row with a replaced text iff the replacement is harmless, where
    the columns that `to_object` reads hold objects and the statement succeeds. -/
theorem corrupt_row_isolated_iff (L : JsonLibrary F) (db : RecordTable) (q : Query)
    (r : Replacement) (hread : ∀ row ∈ db.rows, Selection.records.Reads L row)
    (hsucceeds : db.succeeds (.bySerial q) = true) :
    (∀ s, Isolated L s db q r) ↔ Harmless L db q r := by
  -- an empty window matches no row, not the replaced one either
  by_cases hwindow : q.endTime ≤ q.startTime
  · refine iff_of_true (fun s => ?_) (.inl ?_)
    · exact ⟨_, _, s.run_of_le hwindow, s.run_of_le hwindow, rfl, rfl⟩
    · rintro row ⟨hmatching, -⟩
      rw [RecordTable.matching_of_le db hwindow] at hmatching
      cases hmatching
  · have hset : ∀ row ∈ db.rawRecords q,
        ((∀ s : Selection, s.Reads L (r.row row)) ↔
          (row.id ≠ r.id ∨ r.column = .ssidData ∨ r.column = .radioData ∨
            IsObjectText L r.text)) := by
      intro row hrow
      have hrecords := hread row (RecordTable.mem_of_mem_rawRecords hrow)
      by_cases hid : row.id = r.id
      · rw [Replacement.row, if_pos hid, reads_set_iff hrecords, or_iff_right (not_not.mpr hid)]
      · rw [r.row_of_ne hid]
        exact iff_of_true hrecords.of_records (.inl hid)
    have hcond : Harmless L db q r ↔
        ∀ row ∈ db.rawRecords q, ∀ s : Selection, s.Reads L (r.row row) := by
      simp only [Harmless, ← RecordTable.mem_rawRecords_iff]
      rw [forall₂_congr hset]
      refine ⟨?_, fun h => ?_⟩
      · rintro (hne | hrest) row hrow
        · exact .inl (hne row hrow)
        · exact .inr hrest
      · by_cases hrest : r.column = .ssidData ∨ r.column = .radioData ∨ IsObjectText L r.text
        · exact .inr hrest
        · exact .inl fun row hrow => (h row hrow).resolve_right hrest
    rw [hcond]
    -- the selection of whole records reads all columns, so it decides for the others
    refine ⟨fun hall row hrow s => ?_, fun h s => ?_⟩
    · have hrecords := ((isolated_iff .records db q r hread hwindow hsucceeds).mp
        (hall .records)).resolve_left nofun row hrow
      exact hrecords.of_records s
    · exact (isolated_iff s db q r hread hwindow hsucceeds).mpr (.inr fun row hrow => h row hrow s)

/-! ## A text that is no object -/

/-- The resources of the first of two rows, with a text that is not JSON. -/
def badResource : Replacement where
  id := ['x']
  column := .resourceData
  text := "garbage".toList

omit [Zero F] in
theorem reads_twoRows (L : JsonLibrary F) :
    ∀ row ∈ twoRows.rows, Selection.records.Reads L row := by
  intro row hrow
  rcases List.mem_cons.mp hrow with rfl | hrow
  · exact ⟨.inl rfl, .inl rfl, .inl rfl⟩
  · rw [List.mem_singleton.mp hrow]
    exact ⟨.inl rfl, .inl rfl, .inl rfl⟩

/-- The exception ends the selection of the other row too. -/
theorem bad_resource_hides_rows :
    ¬ ∀ (db : RecordTable) (q : Query) (r : Replacement),
      (∀ row ∈ db.rows, Selection.records.Reads JsonText.library row) →
        db.succeeds (.bySerial q) = true → ∀ s, Isolated JsonText.library s db q r := by
  intro h
  obtain ⟨-, after, -, hafter, -⟩ :=
    h twoRows (allOf 0) badResource (reads_twoRows _) rfl .resource
  have hthrows : (Selection.resource.run JsonText.library (twoRows.replace badResource)
      (allOf 0)).isSome = false := by
    decide +kernel
  rw [hafter] at hthrows
  cases hthrows

/-- With a limit of one row both are read, the second to see that there are too many. -/
theorem corrupt_row_isolated_iff_twoRows :
    (∀ s, Isolated JsonText.library s twoRows (allOf 1) badResource) ↔
      Harmless JsonText.library twoRows (allOf 1) badResource :=
  corrupt_row_isolated_iff JsonText.library twoRows (allOf 1) badResource (reads_twoRows _) rfl

end OwAnalytics.TimePointDB
