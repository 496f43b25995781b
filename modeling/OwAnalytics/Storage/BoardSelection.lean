/-
  OwAnalytics.Storage.BoardSelection

  The selection of a board's time points (`SelectRecords` of
  `storage/storage_timepoints.cpp`), over the rows as they are stored and the clauses as
  the texts they are put together as.  The list of a board takes the board as it is, and
  has no clause without a bound; `GetRecords` keeps what it has converted when a row
  throws, and nobody looks at its answer.
-/

import OwAnalytics.Lib.Readers
import OwAnalytics.Storage.LatestPerDevice
import OwAnalytics.Storage.TimeLine
import OwAnalytics.Storage.WhereClauses

namespace OwAnalytics.TimePointDB

open Ap
open Clients (format number_decimal)
open Sql (Token lexFrom scan)
open WhereClauses (Selects lexFrom_escaped lexFrom_numeral selects_of_readTests)

variable {F : Type} [Zero F]

/-! ## The clauses -/

/-- The `WhereClause` of `SelectRecords`; there is no branch for a board alone. -/
def listClause (q : LatestQuery) : Option Str :=
  if q.fromDate ≠ 0 ∧ q.lastDate ≠ 0 then
    format " boardId='{}' and (timestamp >= {} ) and ( timestamp <= {} ) ".toList
      [q.boardId, Clients.decimal q.fromDate, Clients.decimal q.lastDate]
  else if q.fromDate ≠ 0 then
    format " boardId='{}' and (timestamp >= {}) ".toList [q.boardId, Clients.decimal q.fromDate]
  else if q.lastDate ≠ 0 then
    format " boardId='{}' and (timestamp <= {}) ".toList [q.boardId, Clients.decimal q.lastDate]
  else some []

/-- The text of the `whereClause` of `GetRecordsPerDevice`. -/
def latestClause (q : LatestQuery) : Option Str := do
  let whereClause ← format "boardId='{}'".toList [ORM.escape q.boardId]
  if q.fromDate ≠ 0 ∨ q.lastDate ≠ 0 then
    let bounds ←
      if q.fromDate ≠ 0 ∧ q.lastDate ≠ 0 then
        format "timestamp >= {} and timestamp <= {}".toList
          [Clients.decimal q.fromDate, Clients.decimal q.lastDate]
      else if q.fromDate ≠ 0 then format "timestamp >= {}".toList [Clients.decimal q.fromDate]
      else format "timestamp <= {}".toList [Clients.decimal q.lastDate]
    return whereClause ++ " and ".toList ++ bounds
  else return whereClause

/-- What the rows of a statement with this clause are tested for; a clause that is empty is left
    out. -/
def condition (clause : Str) : Option (Record → Bool) :=
  if clause.isEmpty then some fun _ => true else Sql.selected columns clause

/-! ## The functions -/

/-- `order by timestamp, serialNumber ASC`. -/
abbrev listLe : Record → Record → Prop :=
  thenLe (keyLe Record.timestamp) (keyLe Record.serialNumber)

/-- The comparison by `a.timestamp > b.timestamp`. -/
abbrev newestLe : DeviceTimePoint F → DeviceTimePoint F → Prop := keyGe DeviceTimePoint.timestamp

/-- What the database may answer to the statement with a clause: the first rows for which the
    clause holds, or none where the statement fails.  A clause that is no conjunction of tests may
    be an error, or get any rows. -/
def Answers (db : RecordTable) (q : LatestQuery) (clause : Str) : Option (List Record) → Prop
  | none => db.succeeds (.timeLine q) = false ∨ condition clause = none
  | some rows =>
    db.succeeds (.timeLine q) = true ∧
      ∀ p, condition clause = some p → IsFirst listLe q.maxRecords.toNat (db.rows.filter p) rows

/-- A database that answers so. -/
structure Database (db : RecordTable) (q : LatestQuery) where
  list : Str → Option (List Record)
  answers : ∀ clause, Answers db q clause (list clause)

/-- `GetRecords`, with the rows of its statement: its answer and `Records`.  The exception of a row
    is caught behind the loop, which has pushed the rows before it. -/
def getRecords (L : JsonLibrary F) : Option (List Record) → Bool × List (DeviceTimePoint F)
  | none => (false, [])
  | some rl =>
    if rl.isEmpty then (false, [])
    else ((rl.mapM (fromRecord L)).isSome, Readers.readUntil (fromRecord L) rl)

/-- `SelectRecords`: its answer and `Recs`; `none` for an exception. -/
def selectRecords (L : JsonLibrary F) (db : RecordTable) (devices : List (DeviceInfo F))
    (list : Str → Option (List Record)) (sorted : Arrangement (newestLe (F := F)))
    (q : LatestQuery) (latestPerDevice : Bool) : Option (Bool × List (DeviceTimePoint F)) :=
  if latestPerDevice then
    (db.getRecordsPerDevice L devices q).map fun tmp =>
      if tmp.1 then (true, sorted.arrange tmp.2) else (false, [])
  else (listClause q).map fun whereClause => (true, (getRecords L (list whereClause)).2)

/-! ## What the clauses say -/

/-- The clause of a list with a bound, around the board. -/
theorem exists_listClause {q : LatestQuery} (h : q.fromDate ≠ 0 ∨ q.lastDate ≠ 0) :
    ∃ tail, listClause q =
      some (" boardId='".toList ++ (q.boardId ++ ("' and (timestamp ".toList ++ tail))) := by
  unfold listClause
  by_cases hfrom : q.fromDate = 0
  · have hlast := h.resolve_left (not_not.mpr hfrom)
    exact ⟨"<= ".toList ++ (Clients.decimal q.lastDate ++ ") ".toList),
      by simp [hfrom, hlast, format]⟩
  · by_cases hlast : q.lastDate = 0
    · exact ⟨">= ".toList ++ (Clients.decimal q.fromDate ++ ") ".toList),
        by simp [hfrom, hlast, format]⟩
    · exact ⟨">= ".toList ++ (Clients.decimal q.fromDate ++ (" ) and ( timestamp <= ".toList ++
        (Clients.decimal q.lastDate ++ " ) ".toList))), by simp [hfrom, hlast, format]⟩

theorem listClause_of_unbounded {q : LatestQuery} (hfrom : q.fromDate = 0)
    (hlast : q.lastDate = 0) : listClause q = some [] := by
  simp [listClause, hfrom, hlast]

/-- The comparison with a board without a quote, up to the quote behind it. -/
theorem lexFrom_board {boardId : Str} (hquote : '\'' ∉ boardId) (rest : Str) :
    lexFrom .between (" boardId='".toList ++ (boardId ++ rest)) =
      (lexFrom (.literal boardId) rest).map ([.word "boardId".toList, .symbol '='] ++ ·) := by
  have hescape : ORM.escape boardId = boardId := by
    rw [ORM.escape_eq, Sql.escape_eq_self hquote]
  have hboard : scan .between " boardId='".toList =
      ([.word "boardId".toList, .symbol '='], .literal []) := rfl
  conv_lhs => rw [← hescape]
  exact lexFrom_escaped hboard boardId rest

section

variable {q : LatestQuery}

theorem readTests_fromDate (hquote : '\'' ∉ q.boardId) (hfrom : q.fromDate ≠ 0)
    (hlast : q.lastDate = 0) :
    (listClause q).bind Sql.readTests =
      some [.is "boardId".toList q.boardId, .atLeast "timestamp".toList q.fromDate.toNat] := by
  have htext : listClause q = some (" boardId='".toList ++ (q.boardId ++
      ("' and (timestamp >= ".toList ++ (Clients.decimal q.fromDate ++ ") ".toList)))) := by
    simp [listClause, hfrom, hlast, format]
  have hend : lexFrom (.digits (Clients.decimal q.fromDate)) ") ".toList =
      some [.digits (Clients.decimal q.fromDate), .symbol ')'] := rfl
  rw [htext, Option.bind_some, Sql.readTests, Sql.lex_eq_lexFrom, lexFrom_board hquote,
    WhereClauses.lexFrom_atLeast, hend, ← number_decimal q.fromDate]
  rfl

theorem readTests_lastDate (hquote : '\'' ∉ q.boardId) (hfrom : q.fromDate = 0)
    (hlast : q.lastDate ≠ 0) :
    (listClause q).bind Sql.readTests =
      some [.is "boardId".toList q.boardId, .atMost "timestamp".toList q.lastDate.toNat] := by
  have htext : listClause q = some (" boardId='".toList ++ (q.boardId ++
      ("' and (timestamp <= ".toList ++ (Clients.decimal q.lastDate ++ ") ".toList)))) := by
    simp [listClause, hfrom, hlast, format]
  have hbound : scan (.literal q.boardId) "' and (timestamp <= ".toList =
      ([.literal q.boardId, .word "and".toList, .symbol '(', .word "timestamp".toList,
        .symbol '<', .symbol '='], .between) := rfl
  have hend : lexFrom (.digits (Clients.decimal q.lastDate)) ") ".toList =
      some [.digits (Clients.decimal q.lastDate), .symbol ')'] := rfl
  rw [htext, Option.bind_some, Sql.readTests, Sql.lex_eq_lexFrom, lexFrom_board hquote,
    lexFrom_numeral hbound, hend, ← number_decimal q.lastDate]
  rfl

theorem readTests_bothDates (hquote : '\'' ∉ q.boardId) (hfrom : q.fromDate ≠ 0)
    (hlast : q.lastDate ≠ 0) :
    (listClause q).bind Sql.readTests =
      some [.is "boardId".toList q.boardId, .atLeast "timestamp".toList q.fromDate.toNat,
        .atMost "timestamp".toList q.lastDate.toNat] := by
  have htext : listClause q = some (" boardId='".toList ++ (q.boardId ++
      ("' and (timestamp >= ".toList ++ (Clients.decimal q.fromDate ++
        (" ) and ( timestamp <= ".toList ++ (Clients.decimal q.lastDate ++ " ) ".toList)))))) := by
    simp [listClause, hfrom, hlast, format]
  have hsecond : scan (.digits (Clients.decimal q.fromDate)) " ) and ( timestamp <= ".toList =
      ([.digits (Clients.decimal q.fromDate), .symbol ')', .word "and".toList, .symbol '(',
        .word "timestamp".toList, .symbol '<', .symbol '='], .between) := rfl
  have hend : lexFrom (.digits (Clients.decimal q.lastDate)) " ) ".toList =
      some [.digits (Clients.decimal q.lastDate), .symbol ')'] := rfl
  rw [htext, Option.bind_some, Sql.readTests, Sql.lex_eq_lexFrom, lexFrom_board hquote,
    WhereClauses.lexFrom_atLeast, lexFrom_numeral hsecond, hend, ← number_decimal q.fromDate,
    ← number_decimal q.lastDate]
  rfl

/-- With a bound, the clause of a list says that the row is the board's and within the bounds, if
    the board has no quote. -/
theorem selects_listClause (hbound : q.fromDate ≠ 0 ∨ q.lastDate ≠ 0) (hquote : '\'' ∉ q.boardId) :
    Selects columns (listClause q) (Within q) := by
  by_cases hfrom : q.fromDate = 0
  · have hlast := hbound.resolve_left (not_not.mpr hfrom)
    apply selects_of_readTests (readTests_lastDate hquote hfrom hlast) rfl
    intro row
    simp [Within, hfrom, hlast, UInt64.le_iff_toNat_le]
  · by_cases hlast : q.lastDate = 0
    · apply selects_of_readTests (readTests_fromDate hquote hfrom hlast) rfl
      intro row
      simp [Within, hfrom, hlast, UInt64.le_iff_toNat_le]
    · apply selects_of_readTests (readTests_bothDates hquote hfrom hlast) rfl
      intro row
      simp [Within, hfrom, hlast, UInt64.le_iff_toNat_le]

/-- The comparison with an escaped board, and what follows that is no quote. -/
theorem lexFrom_escapedBoard (boardId : Str) {rest : Str} (h : rest.head? ≠ some '\'') :
    lexFrom .between ("boardId='".toList ++ (ORM.escape boardId ++ '\'' :: rest)) =
      (lexFrom .between rest).map
        ([.word "boardId".toList, .symbol '=', .literal boardId] ++ ·) := by
  have hboard : scan .between "boardId='".toList =
      ([.word "boardId".toList, .symbol '='], .literal []) := rfl
  have hclose : lexFrom (.literal boardId) ('\'' :: rest) = lexFrom (.quote boardId) rest := by
    rw [Sql.lexFrom_cons]
    exact Option.map_id_fun' ▸ rfl
  rw [lexFrom_escaped hboard, hclose, Sql.lexFrom_quote h, Sql.lex_eq_lexFrom, Option.map_map]
  rfl

/-- The tests of the latest rows: that of the board, and those behind it. -/
theorem readTests_latest {tail : Str} {tokens : List Token}
    (hclause : latestClause q =
      some ("boardId='".toList ++ (ORM.escape q.boardId ++ '\'' :: tail)))
    (htail : tail.head? ≠ some '\'') (hlex : lexFrom .between tail = some tokens) :
    (latestClause q).bind Sql.readTests =
      Sql.tests (tokens.length + 3)
        (.word "boardId".toList :: .symbol '=' :: .literal q.boardId :: tokens) := by
  rw [hclause, Option.bind_some, Sql.readTests, Sql.lex_eq_lexFrom,
    lexFrom_escapedBoard q.boardId htail, hlex]
  rfl

/-- The clause of the latest rows says so whatever the board is, and also without a bound. -/
theorem selects_latestClause (q : LatestQuery) : Selects columns (latestClause q) (Within q) := by
  have hatLeast : scan .between " and timestamp >= ".toList =
      ([.word "and".toList, .word "timestamp".toList, .symbol '>', .symbol '='], .between) := rfl
  have hatMost : scan .between " and timestamp <= ".toList =
      ([.word "and".toList, .word "timestamp".toList, .symbol '<', .symbol '='], .between) := rfl
  by_cases hfrom : q.fromDate = 0
  · by_cases hlast : q.lastDate = 0
    · have hread : (latestClause q).bind Sql.readTests =
          some [.is "boardId".toList q.boardId] := by
        have htext : latestClause q =
            some ("boardId='".toList ++ (ORM.escape q.boardId ++ '\'' :: [])) := by
          simp [latestClause, hfrom, hlast, format]
        rw [readTests_latest htext (by simp) rfl]
        rfl
      apply selects_of_readTests hread rfl
      intro row
      simp [Within, hfrom, hlast]
    · have hread : (latestClause q).bind Sql.readTests =
          some [.is "boardId".toList q.boardId, .atMost "timestamp".toList q.lastDate.toNat] := by
        have htext : latestClause q = some ("boardId='".toList ++ (ORM.escape q.boardId ++
            '\'' :: (" and timestamp <= ".toList ++ (Clients.decimal q.lastDate ++ [])))) := by
          simp [latestClause, hfrom, hlast, format]
        rw [readTests_latest htext (by simp) (lexFrom_numeral hatMost q.lastDate []),
          ← number_decimal q.lastDate]
        rfl
      apply selects_of_readTests hread rfl
      intro row
      simp [Within, hfrom, hlast, UInt64.le_iff_toNat_le]
  · by_cases hlast : q.lastDate = 0
    · have hread : (latestClause q).bind Sql.readTests =
          some [.is "boardId".toList q.boardId, .atLeast "timestamp".toList q.fromDate.toNat] := by
        have htext : latestClause q = some ("boardId='".toList ++ (ORM.escape q.boardId ++
            '\'' :: (" and timestamp >= ".toList ++ (Clients.decimal q.fromDate ++ [])))) := by
          simp [latestClause, hfrom, hlast, format]
        rw [readTests_latest htext (by simp) (lexFrom_numeral hatLeast q.fromDate []),
          ← number_decimal q.fromDate]
        rfl
      apply selects_of_readTests hread rfl
      intro row
      simp [Within, hfrom, hlast, UInt64.le_iff_toNat_le]
    · have hread : (latestClause q).bind Sql.readTests =
          some [.is "boardId".toList q.boardId, .atLeast "timestamp".toList q.fromDate.toNat,
            .atMost "timestamp".toList q.lastDate.toNat] := by
        have htext : latestClause q = some ("boardId='".toList ++ (ORM.escape q.boardId ++
            '\'' :: (" and timestamp >= ".toList ++ (Clients.decimal q.fromDate ++
              (" and timestamp <= ".toList ++ (Clients.decimal q.lastDate ++ [])))))) := by
          simp [latestClause, hfrom, hlast, format]
        have hsecond : scan (.digits (Clients.decimal q.fromDate)) " and timestamp <= ".toList =
            ([.digits (Clients.decimal q.fromDate), .word "and".toList, .word "timestamp".toList,
              .symbol '<', .symbol '='], .between) := rfl
        have hlex := lexFrom_numeral hatLeast q.fromDate
          (" and timestamp <= ".toList ++ (Clients.decimal q.lastDate ++ []))
        rw [lexFrom_numeral hsecond q.lastDate []] at hlex
        rw [readTests_latest htext (by simp) hlex, ← number_decimal q.fromDate,
          ← number_decimal q.lastDate]
        rfl
      apply selects_of_readTests hread rfl
      intro row
      simp [Within, hfrom, hlast, UInt64.le_iff_toNat_le]

end

/-- So the rows that the latest ones are taken of are those of the clause. -/
theorem filter_perDeviceClause_eq_selected (q : LatestQuery) :
    ∃ text p, latestClause q = some text ∧ Sql.selected columns text = some p ∧
      ∀ rows : List Record, rows.filter p = rows.filter (perDeviceClause q) := by
  obtain ⟨text, p, htext, hselected, hp⟩ := selects_latestClause q
  refine ⟨text, p, htext, hselected, fun rows => List.filter_congr fun row _ => ?_⟩
  rw [Bool.eq_iff_iff, hp, perDeviceClause_iff]

/-- A board with a quote is another one in the clause, if that can be read at all. -/
theorem ne_boardId_of_quote {q : LatestQuery} (hbound : q.fromDate ≠ 0 ∨ q.lastDate ≠ 0)
    (hquote : '\'' ∈ q.boardId) {clause : Str} (hclause : listClause q = some clause)
    {p : Record → Bool} (hp : condition clause = some p) {row : Record} (hrow : p row = true) :
    row.boardId ≠ q.boardId := by
  obtain ⟨tail, htext⟩ := exists_listClause hbound
  obtain rfl := Option.some.inj (htext.symm.trans hclause)
  have hopen : scan .between " boardId='".toList =
      ([.word "boardId".toList, .symbol '='], .literal []) := rfl
  have hselected : (Sql.readTests (" boardId='".toList ++ (q.boardId ++
      ("' and (timestamp ".toList ++ tail)))).bind (Sql.passing columns) = some p := hp
  rw [Sql.readTests, Sql.lex_eq_lexFrom, Sql.lexFrom_append, hopen] at hselected
  obtain ⟨ts, hread, hpassing⟩ := Option.bind_eq_some_iff.mp hselected
  obtain ⟨tokens, hlex, htests⟩ := Option.bind_eq_some_iff.mp hread
  obtain ⟨after, hafter, rfl⟩ := Option.map_eq_some_iff.mp hlex
  -- The test that comes first is for the literal behind the quote.
  obtain ⟨v, rest, ts', rfl, rfl⟩ := Sql.exists_literal_of_tests htests
  obtain ⟨w, behind, hv, hbehind⟩ := Sql.eq_escape_of_lexFrom_literal _ _ _ _ hafter
  obtain rfl : v = w := hv
  have hrow' : row.boardId = v := by
    obtain ⟨f, hf, hmap⟩ := Option.bind_eq_some_iff.mp hpassing
    obtain ⟨g, -, rfl⟩ := Option.map_eq_some_iff.mp hmap
    obtain rfl := Option.some.inj hf
    simpa using (Bool.and_eq_true_iff.mp hrow).1
  rintro hsame
  rw [← hrow', hsame] at hbehind
  exact Sql.not_mem_of_append_eq_escape (d := ' ') (by decide) hbehind hquote

/-- The deletion of a time line puts the same clause together, and is modelled with what it says. -/
theorem whereClause_eq_selected {q : LatestQuery} (hquote : '\'' ∉ q.boardId)
    {holds : DeviceTimePoint F → Bool}
    (hholds : Storage.TimeLine.whereClause q.boardId q.fromDate q.lastDate = some holds) :
    ∃ text p, listClause q = some text ∧ Sql.selected columns text = some p ∧
      ∀ (row : Record) (point : DeviceTimePoint F), point.boardId = row.boardId →
        point.timestamp = row.timestamp → p row = holds point := by
  rcases Storage.TimeLine.bounded_or_unbounded q.fromDate q.lastDate with hbound | ⟨hfrom, hlast⟩
  · obtain ⟨text, p, htext, hselected, hp⟩ := selects_listClause hbound hquote
    rw [Storage.TimeLine.whereClause_of_bound hbound] at hholds
    obtain rfl := Option.some.inj hholds
    refine ⟨text, p, htext, hselected, fun row point hboard htime => ?_⟩
    rw [Bool.eq_iff_iff, hp, decide_eq_true_iff, Within, Storage.TimeLine.Within, hboard, htime]
  · rw [hfrom, hlast, Storage.TimeLine.whereClause_none] at hholds
    cases hholds

/-! ## Isolation of the boards -/

section

variable (L : JsonLibrary F) (db : RecordTable) (q : LatestQuery)

/-- The rows of the board within the bounds. -/
abbrev withinRows : List Record := db.rows.filter fun row => Within q row

/-- Records of the board within the bounds, and without `LatestPerDevice` those of the first rows
    of them all. -/
structure Isolates (latestPerDevice : Bool) (records : List (DeviceTimePoint F)) : Prop where
  within : ∀ p ∈ records, Storage.TimeLine.Within q.boardId q.fromDate q.lastDate p
  first : latestPerDevice = false → ∃ rows,
    IsFirst listLe q.maxRecords.toNat (withinRows db q) rows ∧
      List.Forall₂ (fun row p => fromRecord L row = some p) rows records

/-- `SelectRecords` returns such records only, whatever the database answers that it may answer and
    the sort puts first. -/
def SelectsBoard (devices : List (DeviceInfo F)) (latestPerDevice : Bool) : Prop :=
  ∀ (database : Database db q) (sorted : Arrangement (newestLe (F := F))) answer records,
    selectRecords L db devices database.list sorted q latestPerDevice = some (answer, records) →
      Isolates L db q latestPerDevice records

/-- The list of a board is what it should be.  Without a bound it is cut out of the rows of all
    boards.  With one, a board with a quote is another one, so that it has to have no row; and
    the rows of a board without a quote that do not convert come after those that are returned. -/
def ListsBoard : Prop :=
  if q.fromDate = 0 ∧ q.lastDate = 0 then
    CutsToFirst listLe (fun row => Within q row) (fun row => (fromRecord L row).isSome)
      q.maxRecords.toNat db.rows
  else if '\'' ∈ q.boardId then
    (∀ row ∈ db.rows, ¬ Within q row) ∧
      ∃ p, (listClause q).bind condition = some p ∧
        CutsToFirst listLe (fun row => Within q row) (fun row => (fromRecord L row).isSome)
          q.maxRecords.toNat (db.rows.filter p)
  else
    ∀ row ∈ withinRows db q, fromRecord L row = none →
      q.maxRecords.toNat ≤ (withinRows db q).countP fun other => ¬ listLe row other

end

variable {L : JsonLibrary F} {db : RecordTable} {q : LatestQuery}

/-- Points of rows of the board within the bounds are within them. -/
theorem within_of_forall₂ {rows : List Record} {records : List (DeviceTimePoint F)}
    (hrows : ∀ row ∈ rows, Within q row)
    (h : List.Forall₂ (fun row p => fromRecord L row = some p) rows records) :
    ∀ p ∈ records, Storage.TimeLine.Within q.boardId q.fromDate q.lastDate p := by
  intro p hp
  rw [Readers.eq_filterMap h] at hp
  obtain ⟨row, hrow, hpoint⟩ := List.mem_filterMap.mp hp
  obtain ⟨-, hboard, htime, -⟩ := fromRecord_columns hpoint
  rw [Storage.TimeLine.Within, hboard, htime]
  exact hrows row hrow

/-- A point has the id of its row, which no other row has. -/
theorem rows_eq_of_forall₂ {rows rows' : List Record} {records : List (DeviceTimePoint F)}
    (hrows : ∀ row ∈ rows, row ∈ db.rows) (hrows' : ∀ row ∈ rows', row ∈ db.rows)
    (h : List.Forall₂ (fun row p => fromRecord L row = some p) rows records)
    (h' : List.Forall₂ (fun row p => fromRecord L row = some p) rows' records) : rows = rows' := by
  induction h generalizing rows' with
  | nil =>
      cases h'
      rfl
  | cons hrow _ ih =>
      cases h' with
      | cons hrow' hrest' =>
          rw [List.forall_mem_cons] at hrows hrows'
          have hid := (fromRecord_columns hrow).1.symm.trans (fromRecord_columns hrow').1
          rw [List.inj_on_of_nodup_map db.nodup_id hrows.1 hrows'.1 hid,
            ih hrows.2 hrows'.2 hrest']

/-- Every row that is read is the latest one of a device of the board. -/
theorem within_of_perDevice {devices : List (DeviceInfo F)} {answered : Bool}
    {tmp : List (DeviceTimePoint F)}
    (h : db.getRecordsPerDevice L devices q = some (answered, tmp)) :
    ∀ p ∈ tmp, Storage.TimeLine.Within q.boardId q.fromDate q.lastDate p := by
  have hnil : ∀ {b : Bool}, some (b, []) = some (answered, tmp) →
      ∀ p ∈ tmp, Storage.TimeLine.Within q.boardId q.fromDate q.lastDate p := by
    intro b heq p hp
    obtain ⟨-, rfl⟩ := Prod.mk.inj (Option.some.inj heq)
    cases hp
  -- the three ways out without a row, and the one with the rows of the statement
  rw [RecordTable.getRecordsPerDevice] at h
  by_cases hmax : q.maxRecords = 0
  · rw [if_pos hmax] at h
    exact hnil h
  rw [if_neg hmax] at h
  by_cases hsucceeds : db.succeeds (.latestPerDevice q) = true
  · rw [if_pos hsucceeds] at h
    dsimp only at h
    by_cases hempty : (getCurrentDeviceFromBoard devices).isEmpty = true
    · rw [if_pos hempty] at h
      exact hnil h
    · rw [if_neg hempty] at h
      obtain ⟨recs, hrecs, hpair⟩ := Option.map_eq_some_iff.mp h
      obtain ⟨-, rfl⟩ := Prod.mk.inj hpair
      refine within_of_forall₂ (fun row hrow => ?_) ((convertRows_convertCurrent _ _).2 recs hrecs)
      exact (RecordTable.mem_latestRows.mp (List.mem_of_mem_filter hrow)).1.within
  · rw [if_neg hsucceeds] at h
    exact hnil h

/-- With `LatestPerDevice` no other board comes in, whatever the bounds. -/
theorem selectsBoard_latestPerDevice (devices : List (DeviceInfo F)) :
    SelectsBoard L db q devices true := by
  intro database sorted answer records hselect
  rw [selectRecords, if_pos rfl] at hselect
  obtain ⟨⟨answered, tmp⟩, htmp, heq⟩ := Option.map_eq_some_iff.mp hselect
  refine ⟨fun p hp => ?_, fun hfalse => by cases hfalse⟩
  cases answered with
  | false =>
      obtain ⟨-, rfl⟩ := Prod.mk.inj heq
      cases hp
  | true =>
      obtain ⟨-, rfl⟩ := Prod.mk.inj heq
      exact within_of_perDevice htmp p (sorted.mem_arrange.mp hp)

/-! ## The list of a board -/

/-- A database that sorts by insertion, and knows no other clauses. -/
def Database.ofTable (db : RecordTable) (q : LatestQuery) : Database db q where
  list clause :=
    if db.succeeds (.timeLine q) then
      (condition clause).map fun p =>
        ((db.rows.filter p).insertionSort listLe).take q.maxRecords.toNat
    else none
  answers clause := by
    by_cases hsucceeds : db.succeeds (.timeLine q) = true
    · rw [if_pos hsucceeds]
      cases hp : condition clause with
      | none => exact .inr hp
      | some p =>
          refine ⟨hsucceeds, fun p' hp' => ?_⟩
          obtain rfl := Option.some.inj (hp.symm.trans hp')
          exact (Arrangement.insertionSort listLe).isFirst_take _ _
    · rw [if_neg hsucceeds]
      exact .inl (by simpa using hsucceeds)

/-- One that has another answer to one clause. -/
def Database.answering (database : Database db q) (clause : Str) {answer : Option (List Record)}
    (h : Answers db q clause answer) : Database db q where
  list text := if text = clause then answer else database.list text
  answers text := by
    by_cases heq : text = clause
    · rw [if_pos heq, heq]
      exact h
    · rw [if_neg heq]
      exact database.answers text

theorem Database.answering_list (database : Database db q) (clause : Str)
    {answer : Option (List Record)} (h : Answers db q clause answer) :
    (database.answering clause h).list clause = answer := if_pos rfl

/-- The list depends on what the database answers to its clause only. -/
theorem selectsBoard_list_iff (devices : List (DeviceInfo F)) {clause : Str}
    (hclause : listClause q = some clause) :
    SelectsBoard L db q devices false ↔
      ∀ answer, Answers db q clause answer → Isolates L db q false (getRecords L answer).2 := by
  have hselect : ∀ (database : Database db q) sorted,
      selectRecords L db devices database.list sorted q false =
        some (true, (getRecords L (database.list clause)).2) := fun database sorted => by
    rw [selectRecords, if_neg Bool.false_ne_true, hclause]
    rfl
  constructor
  · intro h answer hanswer
    have hisolates := h ((Database.ofTable db q).answering clause hanswer)
      (.insertionSort newestLe) true _ (hselect _ _)
    rwa [Database.answering_list] at hisolates
  · intro h database sorted answer records hrecords
    rw [hselect] at hrecords
    obtain ⟨-, rfl⟩ := Prod.mk.inj (Option.some.inj hrecords)
    exact h _ (database.answers clause)

/-- No record is what should be listed iff there is nothing to be found. -/
theorem isolates_nil_iff (hmax : 0 < q.maxRecords) :
    Isolates L db q false [] ↔ ∀ row ∈ db.rows, ¬ Within q row := by
  rw [UInt64.lt_iff_toNat_lt, UInt64.toNat_zero] at hmax
  constructor
  · intro h row hrow hwithin
    obtain ⟨rows, hfirst, hrows⟩ := h.first rfl
    obtain rfl : rows = [] := by
      cases hrows
      rfl
    have hperm := hfirst.perm_of_length_lt hmax
    have hmem := hperm.mem_iff.mpr (List.mem_filter.mpr ⟨hrow, decide_eq_true hwithin⟩)
    cases hmem
  · intro h
    have hnone : withinRows db q = [] :=
      List.filter_eq_nil_iff.mpr fun row hrow => by simpa using h row hrow
    refine ⟨by simp, fun _ => ⟨[], ?_, .nil⟩⟩
    rw [hnone]
    exact ⟨[], .refl _, .nil, List.take_nil.symm⟩

/-- What is listed are the rows up to the first that throws. -/
theorem isolates_getRecords_iff {rl : List Record} (hrl : ∀ row ∈ rl, row ∈ db.rows) :
    Isolates L db q false (getRecords L (some rl)).2 ↔
      IsFirst listLe q.maxRecords.toNat (withinRows db q)
        (rl.takeWhile fun row => (fromRecord L row).isSome) := by
  have hrecords : (getRecords L (some rl)).2 = Readers.readUntil (fromRecord L) rl := by
    cases rl with
    | nil => rfl
    | cons row rest => rfl
  have hread := Readers.forall₂_readUntil (fromRecord L) rl
  rw [hrecords]
  constructor
  · intro h
    -- the rows that are answered are all read, so they are the ones read before the first that is
    -- not
    obtain ⟨rows, hfirst, hrows⟩ := h.first rfl
    have hin : ∀ row ∈ rows, row ∈ db.rows := fun row hrow =>
      List.mem_of_mem_filter (hfirst.mem hrow)
    rwa [← rows_eq_of_forall₂ hin
      (fun row hrow => hrl row ((List.takeWhile_prefix _).mem hrow)) hrows hread]
  · intro h
    refine ⟨within_of_forall₂ (fun row hrow => ?_) hread, fun _ => ⟨_, h, hread⟩⟩
    simpa using (List.mem_filter.mp (h.mem hrow)).2

/-- A row without a text, which converts. -/
theorem fromRecord_emptyRow (L : JsonLibrary F) (boardId : Str) :
    ∃ p, fromRecord L { emptyRow [] 0 with boardId := boardId } = some p ∧
      p.boardId = boardId := by
  have hsome : (fromRecord L { emptyRow [] 0 with boardId := boardId }).isSome = true :=
    isSome_fromRecord.mpr ⟨.inl rfl, .inl rfl, .inl rfl⟩
  obtain ⟨p, hp⟩ := Option.isSome_iff_exists.mp hsome
  exact ⟨p, hp, (fromRecord_columns hp).2.1⟩

/-- A clause that cannot be read may get the rows of any board. -/
theorem not_isolates_of_unreadable {clause : Str} (hsucceeds : db.succeeds (.timeLine q) = true)
    (hcondition : condition clause = none) :
    ∃ answer, Answers db q clause answer ∧ ¬ Isolates L db q false (getRecords L answer).2 := by
  obtain ⟨p, hp, hboard⟩ := fromRecord_emptyRow L ('x' :: q.boardId)
  refine ⟨some [{ emptyRow [] 0 with boardId := 'x' :: q.boardId }], ⟨hsucceeds, ?_⟩, fun h => ?_⟩
  · intro p hp
    rw [hcondition] at hp
    cases hp
  · have hrecords : (getRecords L (some [{ emptyRow [] 0 with boardId := 'x' :: q.boardId }])).2 =
        p :: Readers.readUntil (fromRecord L) [] := by
      rw [getRecords, if_neg (by simp), Readers.readUntil_cons_some hp]
    have hmem := hrecords ▸ List.mem_cons_self
    have hsame := (h.within p hmem).1
    rw [hboard] at hsame
    exact absurd hsame (List.cons_ne_self _ _)

/-- The rows for which a condition holds, cut at the first that throws, are the first of the board
    in any order of equal ones. -/
theorem forall_isolates_iff {clause : Str} {p : Record → Bool}
    (hsucceeds : db.succeeds (.timeLine q) = true) (hp : condition clause = some p) :
    (∀ answer, Answers db q clause answer → Isolates L db q false (getRecords L answer).2) ↔
      ∀ rl, IsFirst listLe q.maxRecords.toNat (db.rows.filter p) rl →
        IsFirst listLe q.maxRecords.toNat (withinRows db q)
          (rl.takeWhile fun row => (fromRecord L row).isSome) := by
  have hin : ∀ {rl}, IsFirst listLe q.maxRecords.toNat (db.rows.filter p) rl →
      ∀ row ∈ rl, row ∈ db.rows := fun hrl row hrow => List.mem_of_mem_filter (hrl.mem hrow)
  constructor
  · intro h rl hrl
    refine (isolates_getRecords_iff (hin hrl)).mp (h (some rl) ⟨hsucceeds, fun p' hp' => ?_⟩)
    obtain rfl := Option.some.inj (hp.symm.trans hp')
    exact hrl
  -- the statement has succeeded and its clause is read, so there is an answer
  · intro h answer hanswer
    cases answer with
    | none =>
        rcases hanswer with hfails | hnone
        · rw [hsucceeds] at hfails
          cases hfails
        · rw [hp] at hnone
          cases hnone
    | some rl =>
        have hrl := hanswer.2 p hp
        exact (isolates_getRecords_iff (hin hrl)).mpr (h rl hrl)

/-- Where the condition holds for the rows of the board, it is a matter of the cut. -/
theorem forall_isolates_iff_cuts {clause : Str} {p : Record → Bool}
    (hsucceeds : db.succeeds (.timeLine q) = true) (hp : condition clause = some p)
    (hwithin : (db.rows.filter p).filter (fun row => Within q row) = withinRows db q) :
    (∀ answer, Answers db q clause answer → Isolates L db q false (getRecords L answer).2) ↔
      CutsToFirst listLe (fun row => Within q row) (fun row => (fromRecord L row).isSome)
        q.maxRecords.toNat (db.rows.filter p) := by
  rw [forall_isolates_iff hsucceeds hp, ← hwithin]
  exact forall_takeWhile_iff

theorem exists_clause (q : LatestQuery) : ∃ clause, listClause q = some clause := by
  rcases Storage.TimeLine.bounded_or_unbounded q.fromDate q.lastDate with hbound | ⟨hfrom, hlast⟩
  · obtain ⟨tail, htext⟩ := exists_listClause hbound
    exact ⟨_, htext⟩
  · exact ⟨[], listClause_of_unbounded hfrom hlast⟩

/-- A statement that fails gets nothing. -/
theorem forall_isolates_iff_of_fails {clause : Str} (hmax : 0 < q.maxRecords)
    (hfails : db.succeeds (.timeLine q) = false) :
    (∀ answer, Answers db q clause answer → Isolates L db q false (getRecords L answer).2) ↔
      ∀ row ∈ db.rows, ¬ Within q row := by
  rw [← isolates_nil_iff (L := L) hmax]
  constructor
  · exact fun h => h none (.inl hfails)
  · intro h answer hanswer
    cases answer with
    | none => exact h
    | some rl =>
        have hsucceeds := hanswer.1
        rw [hfails] at hsucceeds
        cases hsucceeds

/-- A clause with a bound is not empty. -/
theorem condition_of_bound (hbound : q.fromDate ≠ 0 ∨ q.lastDate ≠ 0) {clause : Str}
    (hclause : listClause q = some clause) : condition clause = Sql.selected columns clause := by
  obtain ⟨tail, htext⟩ := exists_listClause hbound
  obtain rfl := Option.some.inj (htext.symm.trans hclause)
  rfl

/-- A board with a quote gets the rows of another one, so that it must not have any. -/
theorem forall_isolates_iff_of_quote {clause : Str} (hclause : listClause q = some clause)
    (hmax : 0 < q.maxRecords) (hsucceeds : db.succeeds (.timeLine q) = true)
    (hbound : q.fromDate ≠ 0 ∨ q.lastDate ≠ 0) (hquote : '\'' ∈ q.boardId) {p : Record → Bool}
    (hp : condition clause = some p) :
    (∀ answer, Answers db q clause answer → Isolates L db q false (getRecords L answer).2) ↔
      (∀ row ∈ db.rows, ¬ Within q row) ∧
        CutsToFirst listLe (fun row => Within q row) (fun row => (fromRecord L row).isSome)
          q.maxRecords.toNat (db.rows.filter p) := by
  have hother : ∀ row, p row = true → ¬ Within q row := fun row hrow hwithin =>
    ne_boardId_of_quote hbound hquote hclause hp hrow hwithin.1
  have hcuts : (∀ row ∈ db.rows, ¬ Within q row) →
      (db.rows.filter p).filter (fun row => Within q row) = withinRows db q := by
    intro hnone
    rw [List.filter_eq_nil_iff.mpr fun row hrow => by
        simpa using hother row (List.mem_filter.mp hrow).2,
      withinRows, List.filter_eq_nil_iff.mpr fun row hrow => by simpa using hnone row hrow]
  constructor
  · intro h
    have hnone : ∀ row ∈ db.rows, ¬ Within q row := by
      intro row hrow hwithin
      -- any answer leaves the row out, which should be listed, or one before it
      have hfirst := (forall_isolates_iff hsucceeds hp).mp h _
        ((Arrangement.insertionSort listLe).isFirst_take _ _)
      have hnil : (((Arrangement.insertionSort listLe).arrange (db.rows.filter p)).take
          q.maxRecords.toNat).takeWhile (fun row => (fromRecord L row).isSome) = [] := by
        refine List.eq_nil_iff_forall_not_mem.mpr fun x hx => ?_
        have hselected := (Arrangement.insertionSort listLe).mem_arrange.mp
          (List.mem_of_mem_take ((List.takeWhile_prefix _).mem hx))
        refine hother x (List.mem_filter.mp hselected).2 ?_
        simpa using (List.mem_filter.mp (hfirst.mem hx)).2
      rw [hnil] at hfirst
      rw [UInt64.lt_iff_toNat_lt, UInt64.toNat_zero] at hmax
      have hmem := (hfirst.perm_of_length_lt hmax).mem_iff.mpr
        (List.mem_filter.mpr ⟨hrow, decide_eq_true hwithin⟩)
      cases hmem
    exact ⟨hnone, (forall_isolates_iff_cuts hsucceeds hp (hcuts hnone)).mp h⟩
  · rintro ⟨hnone, h⟩
    exact (forall_isolates_iff_cuts hsucceeds hp (hcuts hnone)).mpr h

/-- One that succeeds lists the board iff its clause and its cut do. -/
theorem forall_isolates_iff_listsBoard {clause : Str} (hclause : listClause q = some clause)
    (hmax : 0 < q.maxRecords) (hsucceeds : db.succeeds (.timeLine q) = true) :
    (∀ answer, Answers db q clause answer → Isolates L db q false (getRecords L answer).2) ↔
      ListsBoard L db q := by
  unfold ListsBoard
  split_ifs with hunbounded hquote
  · -- Without a bound the clause is left out.
    rw [listClause_of_unbounded hunbounded.1 hunbounded.2] at hclause
    obtain rfl := Option.some.inj hclause
    have hcondition : condition [] = some fun _ => true := rfl
    have hall : db.rows.filter (fun _ => true) = db.rows := List.filter_eq_self.mpr fun _ _ => rfl
    rw [forall_isolates_iff_cuts hsucceeds hcondition (by rw [hall]), hall]
  · -- A board with a quote ends its literal, or is another text.
    have hbound := not_and_or.mp hunbounded
    rw [hclause, Option.bind_some]
    cases hp : condition clause with
    | none =>
        refine iff_of_false (fun h => ?_) (by rintro ⟨-, p, hnone, -⟩; cases hnone)
        obtain ⟨answer, hanswer, hnot⟩ := not_isolates_of_unreadable (L := L) hsucceeds hp
        exact hnot (h answer hanswer)
    | some p =>
        rw [forall_isolates_iff_of_quote hclause hmax hsucceeds hbound hquote hp]
        simp
  · -- Otherwise the clause says what it should.
    have hbound := not_and_or.mp hunbounded
    obtain ⟨text, p, htext, hselected, hp⟩ := selects_listClause hbound hquote
    obtain rfl := Option.some.inj (htext.symm.trans hclause)
    rw [← condition_of_bound hbound hclause] at hselected
    have hrows : db.rows.filter p = withinRows db q := List.filter_congr fun row _ => by
      rw [Bool.eq_iff_iff, hp, decide_eq_true_iff]
    rw [forall_isolates_iff_cuts hsucceeds hselected (by rw [hrows, List.filter_filter]; simp),
      hrows, cutsToFirst_iff_of_wanted fun row hrow => (List.mem_filter.mp hrow).2]
    simp only [Bool.not_eq_true, Option.isSome_eq_false_iff, Option.isNone_iff_eq_none]

/-- `SelectRecords` keeps to the board and its bounds, whatever the database answers that it may
    and however equal rows are ordered, iff the devices are selected one by one; or the statement
    fails and there is nothing to be found; or it succeeds, and its clause and the cut at a row
    that does not convert leave the first rows of the board. -/
theorem select_records_isolate_iff (L : JsonLibrary F) (db : RecordTable)
    (devices : List (DeviceInfo F)) (q : LatestQuery) (hmax : 0 < q.maxRecords)
    (latestPerDevice : Bool) :
    SelectsBoard L db q devices latestPerDevice ↔
      latestPerDevice = true ∨
        (db.succeeds (.timeLine q) = false ∧ ∀ row ∈ db.rows, ¬ Within q row) ∨
        (db.succeeds (.timeLine q) = true ∧ ListsBoard L db q) := by
  cases latestPerDevice with
  | true => exact iff_of_true (selectsBoard_latestPerDevice devices) (.inl rfl)
  | false =>
      obtain ⟨clause, hclause⟩ := exists_clause q
      rw [selectsBoard_list_iff devices hclause]
      cases hsucceeds : db.succeeds (.timeLine q) with
      | false =>
          rw [forall_isolates_iff_of_fails hmax hsucceeds]
          simp
      | true =>
          rw [forall_isolates_iff_listsBoard hclause hmax hsucceeds]
          simp

/-! ## A selection without bounds -/

/-- A row of each of two boards, and one of the second that cannot be read. -/
def twoBoards : RecordTable where
  rows := [{ emptyRow ['x'] 5 with boardId := ['a'] }, emptyRow ['y'] 3,
    { emptyRow ['z'] 9 with apData := ['!'] }]
  nodup_id := by decide
  length_lt := by decide
  succeeds _ := true

/-- The default request of the endpoint. -/
def noBounds (boardId : Str) : LatestQuery where
  boardId := boardId
  fromDate := 0
  lastDate := 0
  maxRecords := 1000

/-- It gets the points of the other board too. -/
theorem unbounded_selects_other_boards :
    ¬ ∀ (db : RecordTable) (devices : List (DeviceInfo Int64)) (q : LatestQuery)
      (latestPerDevice : Bool), 0 < q.maxRecords → (∀ statement, db.succeeds statement = true) →
        SelectsBoard JsonText.library db q devices latestPerDevice := by
  intro h
  have hselects := h twoBoards [] (noBounds ['a']) false (by decide) fun _ => rfl
  rw [selectsBoard_list_iff [] rfl] at hselects
  have hlists := (forall_isolates_iff_listsBoard rfl (by decide) rfl).mp hselects
  rw [ListsBoard, if_pos ⟨rfl, rfl⟩] at hlists
  exact absurd hlists (by decide +kernel)

/-- The first row from a date on. -/
def oneFrom (boardId : Str) (fromDate : UInt64) : LatestQuery where
  boardId := boardId
  fromDate := fromDate
  lastDate := 0
  maxRecords := 1

/-- With a bound the row of the other board does not come in, and the one that cannot be read is
    not asked for. -/
theorem select_records_isolate_iff_twoBoards :
    SelectsBoard JsonText.library twoBoards (oneFrom ['b'] 2) [] false := by
  refine (select_records_isolate_iff JsonText.library twoBoards [] (oneFrom ['b'] 2) (by decide)
    false).mpr (.inr (.inr ⟨rfl, ?_⟩))
  rw [ListsBoard, if_neg (by decide), if_neg (by decide)]
  decide +kernel

end OwAnalytics.TimePointDB
