/-
  OwAnalytics.Storage.TimeLine

  The deletion of a board's time points (`DeleteTimeLine` of
  `storage/storage_timepoints.cpp`).  A bound of zero is no bound.  The clause is the
  condition that its text states; a board has a UUID for its id, which ends no quoted
  literal.
-/

import OwAnalytics.Ap.Objects

namespace OwAnalytics.Storage

open Ap (DeviceTimePoint)

variable {F : Type} [Zero F]

namespace TimeLine

/-- The statement of `DeleteTimeLine`, which may fail. -/
inductive Statement
  | delete
deriving DecidableEq

/-- The rows of a board with a time stamp within the bounds that are given. -/
def Within (boardId : Str) (fromDate lastDate : UInt64) (row : DeviceTimePoint F) : Prop :=
  row.boardId = boardId ∧ (fromDate ≠ 0 → fromDate ≤ row.timestamp) ∧
    (lastDate ≠ 0 → row.timestamp ≤ lastDate)

instance (boardId : Str) (fromDate lastDate : UInt64) :
    DecidablePred (Within (F := F) boardId fromDate lastDate) :=
  fun _ => inferInstanceAs (Decidable (_ ∧ _))

/-- The `WhereClause` of `DeleteTimeLine`, the same as in `SelectRecords`; `none` for the empty
    text. -/
def whereClause (boardId : Str) (fromDate lastDate : UInt64) :
    Option (DeviceTimePoint F → Bool) :=
  if fromDate ≠ 0 ∧ lastDate ≠ 0 then
    some fun row => row.boardId = boardId ∧ row.timestamp ≥ fromDate ∧ row.timestamp ≤ lastDate
  else if fromDate ≠ 0 then some fun row => row.boardId = boardId ∧ row.timestamp ≥ fromDate
  else if lastDate ≠ 0 then some fun row => row.boardId = boardId ∧ row.timestamp ≤ lastDate
  -- there is no branch for a board alone
  else none

end TimeLine

open TimeLine

/-- The table `timepoints`, and which statements succeed on it. -/
structure TimeLine (F : Type) [Zero F] where
  rows : List (DeviceTimePoint F)
  succeeds : Statement → Bool

namespace TimeLine

/-- `DeleteRecords`: its result and the rows it leaves; `none` for the assertion that the clause
    is not empty, where assertions are compiled in.  Without a condition the statement is no SQL. -/
def deleteRecords (db : TimeLine F) (assertions : Bool)
    (clause : Option (DeviceTimePoint F → Bool)) : Option (Bool × List (DeviceTimePoint F)) :=
  match clause with
  | none => if assertions then none else some (false, db.rows)
  | some holds =>
      if db.succeeds .delete then some (true, db.rows.filter fun row => !holds row)
      else some (false, db.rows)

/-- `DeleteTimeLine`, which does not look at the result. -/
def deleteTimeLine (db : TimeLine F) (assertions : Bool) (boardId : Str)
    (fromDate lastDate : UInt64) : Option (Bool × List (DeviceTimePoint F)) :=
  (db.deleteRecords assertions (whereClause boardId fromDate lastDate)).map fun deleted =>
    (true, deleted.2)

/-! ## What the clauses say -/

/-- A bound is given, or both are zero. -/
theorem bounded_or_unbounded (fromDate lastDate : UInt64) :
    (fromDate ≠ 0 ∨ lastDate ≠ 0) ∨ (fromDate = 0 ∧ lastDate = 0) := by
  rw [← not_and_or]
  exact (Decidable.em (fromDate = 0 ∧ lastDate = 0)).symm

theorem whereClause_of_bound {boardId : Str} {fromDate lastDate : UInt64}
    (h : fromDate ≠ 0 ∨ lastDate ≠ 0) :
    whereClause (F := F) boardId fromDate lastDate =
      some fun row => decide (Within boardId fromDate lastDate row) := by
  unfold whereClause Within
  by_cases hfrom : fromDate = 0
  · have hlast := h.resolve_left (not_not.mpr hfrom)
    simp [hfrom, hlast]
  · by_cases hlast : lastDate = 0 <;> simp [hfrom, hlast]

theorem whereClause_none (boardId : Str) : whereClause (F := F) boardId 0 0 = none := by
  simp [whereClause]

end TimeLine

end OwAnalytics.Storage
