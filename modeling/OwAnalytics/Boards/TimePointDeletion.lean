/-
  OwAnalytics.Boards.TimePointDeletion

  `RESTAPI_board_timepoint_handler::DoDelete`: the deletion of a board's time points
  between two dates.  Without a date the clause is empty, the statement is refused, and
  the answer is `OK` all the same.
-/

import OwAnalytics.Ap.Json
import OwAnalytics.Mcp.Mac
import OwAnalytics.Storage.TimeLine

namespace OwAnalytics.Boards

open Ap (DeviceTimePoint)
open Mcp (isHex)
open Storage TimeLine

variable {F : Type} [Zero F]

/-- `Utils::ValidUUID`. -/
def validUUID (uuid : Str) : Bool :=
  uuid.length ≤ 36 && uuid.all (fun c => c == '-' || isHex c) && 0 < uuid.count '-'

/-- What `DoDelete` answers. -/
inductive Response
  | badRequest
  | notFound
  | ok
deriving DecidableEq

/-- `DoDelete`, with the lookup of the board and the dates of the request: the answer and the rows
    of the table after it; `none` where an assertion ends the program. -/
def doDelete (db : TimeLine F) (assertions : Bool) (boardFound : Str → Bool) (id : Str)
    (fromDate endDate : UInt64) : Option (Response × List (DeviceTimePoint F)) :=
  if id.isEmpty || !validUUID id then some (.badRequest, db.rows)
  else if !boardFound id then some (.notFound, db.rows)
  else (db.deleteTimeLine assertions id fromDate endDate).map fun deleted => (.ok, deleted.2)

/-- A request that gets to the deletion. -/
def Reaches (boardFound : Str → Bool) (id : Str) : Prop :=
  id ≠ [] ∧ validUUID id = true ∧ boardFound id = true

theorem doDelete_of_reaches {db : TimeLine F} {assertions : Bool} {boardFound : Str → Bool}
    {id : Str} (h : Reaches boardFound id) (fromDate endDate : UInt64) :
    doDelete db assertions boardFound id fromDate endDate =
      (db.deleteRecords assertions (whereClause id fromDate endDate)).map fun deleted =>
        (.ok, deleted.2) := by
  obtain ⟨hid, hvalid, hfound⟩ := h
  unfold doDelete deleteTimeLine
  rw [if_neg (by simp [hid, hvalid]), if_neg (by simp [hfound]), Option.map_map]
  rfl

theorem doDelete_of_not_reaches (db : TimeLine F) (assertions : Bool) {boardFound : Str → Bool}
    {id : Str} (h : ¬ Reaches boardFound id) (fromDate endDate : UInt64) :
    ∃ response, response ≠ .ok ∧
      doDelete db assertions boardFound id fromDate endDate = some (response, db.rows) := by
  unfold doDelete
  by_cases hid : (id.isEmpty || !validUUID id) = true
  · exact ⟨.badRequest, by decide, if_pos hid⟩
  · rw [if_neg hid]
    by_cases hfound : (!boardFound id) = true
    · exact ⟨.notFound, by decide, if_pos hfound⟩
    · refine absurd ⟨?_, ?_, ?_⟩ h
      · rintro rfl
        exact hid rfl
      · simp only [Bool.or_eq_true, not_or] at hid
        simpa using hid.2
      · simpa using hfound

/-! ## What a deletion leaves -/

theorem deleteRecords_of_bound (db : TimeLine F) (assertions : Bool) {id : Str}
    {fromDate endDate : UInt64} (hbound : fromDate ≠ 0 ∨ endDate ≠ 0) :
    db.deleteRecords assertions (whereClause id fromDate endDate) =
      some (db.succeeds .delete,
        if db.succeeds .delete then
          db.rows.filter fun row => ¬ Within id fromDate endDate row
        else db.rows) := by
  unfold deleteRecords
  rw [whereClause_of_bound hbound]
  cases db.succeeds .delete with
  | true => simp
  | false => simp

theorem deleteRecords_unbounded (db : TimeLine F) (assertions : Bool) (id : Str) :
    db.deleteRecords assertions (whereClause id 0 0) =
      if assertions then none else some (false, db.rows) := by
  unfold deleteRecords
  rw [whereClause_none]

/-- The rows that are not deleted are all of them iff none is to be deleted. -/
theorem eq_filter_not_iff {α : Type*} {p : α → Prop} [DecidablePred p] {l : List α} :
    l = l.filter (fun a => ¬ p a) ↔ ∀ a ∈ l, ¬ p a := by
  rw [eq_comm, List.filter_eq_self]
  simp

/-- An answer `OK` means that the rows of the board within the bounds, and no others, are gone. -/
def DeletesExactly (db : TimeLine F) (assertions : Bool) (boardFound : Str → Bool) (id : Str)
    (fromDate endDate : UInt64) : Prop :=
  ∀ rows, doDelete db assertions boardFound id fromDate endDate = some (.ok, rows) →
    rows = db.rows.filter fun row => ¬ Within id fromDate endDate row

theorem deletesExactly_of_bound {db : TimeLine F} {assertions : Bool} {boardFound : Str → Bool}
    {id : Str} {fromDate endDate : UInt64} (h : Reaches boardFound id)
    (hbound : fromDate ≠ 0 ∨ endDate ≠ 0) :
    DeletesExactly db assertions boardFound id fromDate endDate ↔
      db.succeeds .delete = true ∨ ∀ row ∈ db.rows, ¬ Within id fromDate endDate row := by
  unfold DeletesExactly
  rw [doDelete_of_reaches h, deleteRecords_of_bound db assertions hbound]
  cases db.succeeds .delete with
  | true => simp
  | false =>
      rw [← eq_filter_not_iff]
      simp

theorem deletesExactly_unbounded {db : TimeLine F} {assertions : Bool} {boardFound : Str → Bool}
    {id : Str} (h : Reaches boardFound id) :
    DeletesExactly db assertions boardFound id 0 0 ↔
      assertions = true ∨ ∀ row ∈ db.rows, ¬ Within id 0 0 row := by
  unfold DeletesExactly
  rw [doDelete_of_reaches h, deleteRecords_unbounded]
  cases assertions with
  | true => simp
  | false =>
      rw [← eq_filter_not_iff]
      simp

/-- A deletion takes rows of the board within the bounds or none, so that the rows of the other
    boards stay. -/
theorem doDelete_others {db : TimeLine F} {assertions : Bool} {boardFound : Str → Bool} {id : Str}
    {fromDate endDate : UInt64} {response : Response} {rows : List (DeviceTimePoint F)}
    (h : doDelete db assertions boardFound id fromDate endDate = some (response, rows)) :
    rows.filter (fun row => row.boardId ≠ id) = db.rows.filter fun row => row.boardId ≠ id := by
  -- rows of other boards are not within
  have hkeeps : (db.rows.filter fun row => ¬ Within id fromDate endDate row).filter
      (fun row => row.boardId ≠ id) = db.rows.filter fun row => row.boardId ≠ id := by
    rw [List.filter_filter]
    refine List.filter_congr fun row _ => ?_
    by_cases hboard : row.boardId = id <;> simp [Within, hboard]
  by_cases hreaches : Reaches boardFound id
  · rw [doDelete_of_reaches hreaches] at h
    rcases bounded_or_unbounded fromDate endDate with hbound | ⟨rfl, rfl⟩
    · rw [deleteRecords_of_bound db assertions hbound] at h
      obtain ⟨-, rfl⟩ := Prod.mk.inj (Option.some.inj h)
      cases db.succeeds .delete with
      | true => exact hkeeps
      | false => rfl
    · rw [deleteRecords_unbounded] at h
      cases assertions with
      | true => cases h
      | false =>
          obtain ⟨-, rfl⟩ := Prod.mk.inj (Option.some.inj h)
          rfl
  · obtain ⟨_, -, hsome⟩ :=
      doDelete_of_not_reaches db assertions hreaches fromDate endDate
    rw [hsome] at h
    obtain ⟨-, rfl⟩ := Prod.mk.inj (Option.some.inj h)
    rfl

/-- The answer `OK` is true iff the request does not get to the deletion, or a bound is given and
    the statement succeeds, or there is no bound and the assertion is compiled in, or the board has
    no row within the bounds; the rows of other boards always stay. -/
theorem doDelete_exact_iff (db : TimeLine F) (assertions : Bool) (boardFound : Str → Bool)
    (id : Str) (fromDate endDate : UInt64) :
    (DeletesExactly db assertions boardFound id fromDate endDate ↔
      ¬ Reaches boardFound id ∨
        ((fromDate ≠ 0 ∨ endDate ≠ 0) ∧ db.succeeds .delete = true) ∨
        ((fromDate = 0 ∧ endDate = 0) ∧ assertions = true) ∨
        ∀ row ∈ db.rows, ¬ Within id fromDate endDate row) ∧
    ∀ response rows,
      doDelete db assertions boardFound id fromDate endDate = some (response, rows) →
        rows.filter (fun row => row.boardId ≠ id) =
          db.rows.filter fun row => row.boardId ≠ id := by
  refine ⟨?_, fun response rows h => doDelete_others h⟩
  -- the answer is `OK` only where the deletion is reached, and then whatever came of it
  by_cases hreaches : Reaches boardFound id
  · rcases bounded_or_unbounded fromDate endDate with hbound | ⟨rfl, rfl⟩
    · rw [deletesExactly_of_bound hreaches hbound]
      have hnot : ¬ (fromDate = 0 ∧ endDate = 0) := fun h => hbound.elim (· h.1) (· h.2)
      simp only [hreaches, hbound, hnot, not_true_eq_false, false_or, true_and, false_and]
    · rw [deletesExactly_unbounded hreaches]
      simp [hreaches]
  · refine iff_of_true (fun rows h => ?_) (.inl hreaches)
    obtain ⟨response, hresponse, hsome⟩ :=
      doDelete_of_not_reaches db assertions hreaches fromDate endDate
    rw [hsome] at h
    exact absurd (Prod.mk.inj (Option.some.inj h)).1 hresponse

/-! ## A deletion without bounds -/

/-- A board with one point. -/
def oneBoard : TimeLine ℚ where
  rows := [{ boardId := "a-1".toList, timestamp := 5 }]
  succeeds _ := true

/-- The answer is `OK` and the point of the board is still there. -/
theorem unbounded_deletes_nothing :
    ¬ ∀ (db : TimeLine ℚ) (assertions : Bool) (boardFound : Str → Bool) (id : Str)
      (fromDate endDate : UInt64), (∀ statement, db.succeeds statement = true) →
        DeletesExactly db assertions boardFound id fromDate endDate := by
  intro h
  have hdeletes := h oneBoard false (fun _ => true) "a-1".toList 0 0 (fun _ => rfl) oneBoard.rows
    (by decide +kernel)
  revert hdeletes
  decide +kernel

end OwAnalytics.Boards
