/-
  OwAnalytics.Boards.OneBoard

  Any number of `DoPost`, `DoPut`, `DoDelete` and `RetireBoard` calls at work on the
  boards table, storage step by storage step.  `DoPost` looks for a board of the venue
  and inserts its own under the create lock; the others take no lock.  The table keeps
  at most one row per venue, and the resolver finds that row.
-/

import OwAnalytics.Boards.Identity
import OwAnalytics.Lib.Transitions
import OwAnalytics.Mcp.RouterId
import OwAnalytics.Storage.Boards

namespace OwAnalytics.Boards.OneBoard

open AnalyticsObjects Storage Transitions
open Mcp (DeviceFetch multipleBoards resolve resolveBoardForVenue)
open Venue (firstVenue)

variable {F : Type}

/-! ## Requests -/

/-- The next storage step of a request. -/
inductive Request (F : Type)
  | idle
  /-- `DoPost` at the create lock. -/
  | lock (b : BoardInfo)
  /-- `DoPost` with the create lock. -/
  | findBoardsByVenue (b : BoardInfo)
  | createRecord (b : BoardInfo)
  /-- `DoPut` before it has read the board. -/
  | getRecordToUpdate (id : Str) (body : Document F) (email : Str) (now : UInt64)
  | updateRecord (b : BoardInfo)
  /-- `DoDelete` before it has read the board. -/
  | getRecordToDelete (id : Str)
  /-- `DoDelete` or `RetireBoard` before it deletes the board. -/
  | deleteRecord (id : Str)

/-- The table, the requests at work on it, and the mutex of `DoPost`. -/
structure State (F : Type) where
  rows : List BoardRow
  /-- The request that holds `BoardCreateMutex`. -/
  createMutex : Option Nat := none
  requests : Nat → Request F := fun _ => .idle
  /-- The ids of all boards that were ever stored. -/
  used : List Str

/-- What comes in, and the next step of a request. -/
inductive Label (F : Type)
  | post (n : Nat) (body : Document F) (email : Str) (now : UInt64) (uuid : Str)
  | put (n : Nat) (id : Str) (body : Document F) (email : Str) (now : UInt64)
  | delete (n : Nat) (id : Str)
  | retire (n : Nat) (id : Str)
  /-- The next step of a request; whether the storage does it. -/
  | request (n : Nat) (ok : Bool)

namespace State

/-- A request stands at its next step. -/
def setRequest (s : State F) (n : Nat) (r : Request F) : State F :=
  { s with requests := Function.update s.requests n r }

@[simp] theorem rows_setRequest (s : State F) (n : Nat) (r : Request F) :
    (s.setRequest n r).rows = s.rows := rfl

@[simp] theorem createMutex_setRequest (s : State F) (n : Nat) (r : Request F) :
    (s.setRequest n r).createMutex = s.createMutex := rfl

@[simp] theorem used_setRequest (s : State F) (n : Nat) (r : Request F) :
    (s.setRequest n r).used = s.used := rfl

/-- A request comes in, and stands where it does its first storage step. -/
def start (s : State F) (n : Nat) (r : Request F) : Option (State F) :=
  match s.requests n with
  | .idle => some (s.setRequest n r)
  | _ => none

/-- The next storage step of a request. -/
def stepRequest (p : Poco F) (s : State F) (n : Nat) (ok : Bool) : Option (State F) :=
  match s.requests n with
  | .idle => none
  | .lock b =>
      match s.createMutex with
      | none => some { s.setRequest n (.findBoardsByVenue b) with createMutex := some n }
      | some _ => none
  | .findBoardsByVenue b =>
      if ok ∧ BoardsDB.findBoardsByVenue s.rows (firstVenue b).id = [] then
        some (s.setRequest n (.createRecord b))
      -- The board is refused, and the mutex is released with the answer.
      else some { s.setRequest n .idle with createMutex := none }
  | .createRecord b =>
      match if ok then BoardsDB.createRecord s.rows b else none with
      | some rows =>
          some
            { s.setRequest n .idle with
              rows, createMutex := none, used := b.info.id :: s.used }
      | none => some { s.setRequest n .idle with createMutex := none }
  | .getRecordToUpdate id body email now =>
      match (if ok then BoardsDB.getRecord s.rows id else none).bind
          (acceptPut p body email now) with
      | some b => some (s.setRequest n (.updateRecord b))
      | none => some (s.setRequest n .idle)
  | .updateRecord b =>
      if ok then
        some { s.setRequest n .idle with rows := BoardsDB.updateRecord s.rows b.info.id b }
      else some (s.setRequest n .idle)
  | .getRecordToDelete id =>
      match if ok then BoardsDB.getRecord s.rows id else none with
      | some _ => some (s.setRequest n (.deleteRecord id))
      | none => some (s.setRequest n .idle)
  | .deleteRecord id =>
      if ok then some { s.setRequest n .idle with rows := BoardsDB.deleteRecord s.rows id }
      else some (s.setRequest n .idle)

/-- A request comes in, or goes one storage step further. -/
def step (p : Poco F) (s : State F) : Label F → Option (State F)
  | .post n body email now uuid =>
      match acceptPost p body email now uuid with
      | some b => s.start n (.lock b)
      | none => some s
  | .put n id body email now => s.start n (.getRecordToUpdate id body email now)
  | .delete n id => s.start n (.getRecordToDelete id)
  | .retire n id => s.start n (.deleteRecord id)
  | .request n ok => s.stepRequest p n ok

end State

/-- At most one row for each venue id that is not empty. -/
def OnePerVenue (rows : List BoardRow) : Prop :=
  ∀ venueId, venueId ≠ [] → (rows.map BoardRow.venueId).count venueId ≤ 1

/-- No request has come in yet, and the table has at most one row per venue. -/
structure Initial (s : State F) : Prop where
  onePerVenue : OnePerVenue s.rows
  /-- The id is the primary key. -/
  primaryKey : (s.rows.map BoardRow.id).Nodup
  used : ∀ r ∈ s.rows, r.id ∈ s.used
  createMutex : s.createMutex = none
  idle : ∀ n, s.requests n = .idle

/-- Any number of requests, in any order of their steps. -/
def system (p : Poco F) : System (State F) (Label F) where
  init := Initial
  step s a s' := s.step p a = some s'

/-- A board that is inserted has an id that no board had before. -/
def NeverReused (s : State F) : Label F → Prop
  | .request n _ => ∀ b, s.requests n = .createRecord b → b.info.id ∉ s.used
  | _ => True

/-! ## The invariant -/

/-- What a request relies on at its next step. -/
def Stands (s : State F) (n : Nat) : Request F → Prop
  | .findBoardsByVenue _ => s.createMutex = some n
  | .createRecord b =>
      s.createMutex = some n ∧
        ((firstVenue b).id ≠ [] → (firstVenue b).id ∉ s.rows.map BoardRow.venueId)
  | .updateRecord b =>
      b.info.id ∈ s.used ∧ ∀ r ∈ s.rows, r.id = b.info.id → r.venueId = (firstVenue b).id
  | _ => True

/-- The table as the requests leave it: one row a venue, one row an id, and no id that is new. -/
structure Table (rows : List BoardRow) (used : List Str) : Prop where
  onePerVenue : OnePerVenue rows
  primaryKey : (rows.map BoardRow.id).Nodup
  used : ∀ r ∈ rows, r.id ∈ used

/-- What holds at every moment: the table, and what each request relies on. -/
structure Inv (s : State F) : Prop where
  table : Table s.rows s.used
  stands : ∀ n, Stands s n (s.requests n)

variable {p : Poco F} {s s' : State F}

/-- One request moves on; what the others rely on is not touched. -/
theorem inv_of_request {n : Nat} {r : Request F} (h : Inv s)
    (hrequests : s'.requests = Function.update s.requests n r) (htable : Table s'.rows s'.used)
    (hr : Stands s' n r)
    (hothers : ∀ m, m ≠ n → ∀ r, Stands s m r → Stands s' m r) : Inv s' := by
  refine ⟨htable, fun m => ?_⟩
  rw [hrequests]
  by_cases hm : m = n
  · rw [hm, Function.update_self]
    exact hr
  · rw [Function.update_of_ne hm]
    exact hothers m hm _ (h.stands m)

/-- A request that takes no lock and leaves the table alone. -/
theorem inv_setRequest {n : Nat} {r : Request F} (h : Inv s) (hr : Stands s n r) :
    Inv (s.setRequest n r) := by
  refine inv_of_request h rfl h.table ?_ fun m _ r hm => ?_
  · cases r <;> exact hr
  · cases r <;> exact hm

/-- A request that has not the create lock does not rely on it. -/
theorem stands_of_unlocked {m : Nat} {r : Request F} (hne : s.createMutex ≠ some m)
    (hr : Stands s m r) (hrows : s'.rows = s.rows) (hused : s'.used = s.used) : Stands s' m r := by
  cases r with
  | findBoardsByVenue b => exact absurd hr hne
  | createRecord b => exact absurd hr.1 hne
  | updateRecord b =>
      unfold Stands at hr ⊢
      rw [hrows, hused]
      exact hr
  | _ => trivial

/-- The request with the create lock gives it up. -/
theorem inv_unlock {n : Nat} (h : Inv s) (hlock : s.createMutex = some n) :
    Inv { s.setRequest n .idle with createMutex := none } := by
  refine inv_of_request h rfl h.table trivial fun m hm r hr => ?_
  have hne : s.createMutex ≠ some m := by
    rw [hlock]
    exact fun heq => hm (Option.some.inj heq).symm
  exact stands_of_unlocked hne hr rfl rfl

theorem inv_lock {n : Nat} {b : BoardInfo} (h : Inv s) (hfree : s.createMutex = none) :
    Inv { s.setRequest n (.findBoardsByVenue b) with createMutex := some n } := by
  refine inv_of_request h rfl h.table rfl fun m _ r hr => ?_
  have hne : s.createMutex ≠ some m := by
    rw [hfree]
    exact nofun
  exact stands_of_unlocked hne hr rfl rfl

/-! ## The statements on the table -/

theorem notMem_of_findBoardsByVenue {rows : List BoardRow} {venueId : Str}
    (h : BoardsDB.findBoardsByVenue rows venueId = []) (hne : venueId ≠ []) :
    venueId ∉ rows.map BoardRow.venueId := by
  intro hmem
  obtain ⟨r, hr, rfl⟩ := List.mem_map.mp hmem
  have hempty : r.venueId.isEmpty = false := by simpa using hne
  simp only [BoardsDB.findBoardsByVenue, hempty, Bool.false_eq_true, if_false,
    List.map_eq_nil_iff, List.take_eq_nil_iff, List.filter_eq_nil_iff] at h
  rcases h with h | h
  · omega
  · exact h r hr (by simp)

theorem createRecord_eq {rows rows' : List BoardRow} {b : BoardInfo}
    (h : BoardsDB.createRecord rows b = some rows') : rows' = rows ++ [BoardRow.ofBoard b] := by
  unfold BoardsDB.createRecord at h
  split at h
  · cases h
  · exact (Option.some.inj h).symm

/-- A board of a venue without one, under an id that is new. -/
theorem table_createRecord {rows rows' : List BoardRow} {used : List Str} {b : BoardInfo}
    (h : Table rows used) (hcreate : BoardsDB.createRecord rows b = some rows')
    (hvenue : (firstVenue b).id ≠ [] → (firstVenue b).id ∉ rows.map BoardRow.venueId)
    (hnew : b.info.id ∉ used) : Table rows' (b.info.id :: used) := by
  rw [createRecord_eq hcreate]
  refine ⟨?_, ?_, ?_⟩
  · intro venueId hne
    have hcount : (rows.map BoardRow.venueId).count venueId ≤ 1 := h.onePerVenue venueId hne
    rw [List.map_append, List.count_append]
    -- The new row counts for its own venue only, of which there was none.
    by_cases heq : (firstVenue b).id = venueId
    · have hzero : (rows.map BoardRow.venueId).count venueId = 0 := by
        rw [← heq] at hne ⊢
        exact List.count_eq_zero_of_not_mem (hvenue hne)
      have hone : ([BoardRow.ofBoard b].map BoardRow.venueId).count venueId ≤ 1 :=
        List.count_le_length
      omega
    · have hnone : ([BoardRow.ofBoard b].map BoardRow.venueId).count venueId = 0 :=
        List.count_eq_zero_of_not_mem fun hmem => heq (List.mem_singleton.mp hmem).symm
      omega
  · rw [List.map_append, List.nodup_append]
    refine ⟨h.primaryKey, List.nodup_singleton _, ?_⟩
    -- An id that was given out before is not given out again.
    rintro id hid id' hid' rfl
    obtain ⟨r, hr, rfl⟩ := List.mem_map.mp hid
    have hsame : r.id = b.info.id := List.mem_singleton.mp hid'
    exact hnew (hsame ▸ h.used r hr)
  · intro r hr
    rcases List.mem_append.mp hr with hr | hr
    · exact List.mem_cons_of_mem _ (h.used r hr)
    · rw [List.mem_singleton.mp hr]
      exact List.mem_cons_self

/-- A row is the one it was, or the board that was written. -/
theorem mem_updateRecord {rows : List BoardRow} {id : Str} {b : BoardInfo} {r : BoardRow}
    (h : r ∈ BoardsDB.updateRecord rows id b) :
    r ∈ rows ∨ r = BoardRow.ofBoard b ∧ ∃ r' ∈ rows, r'.id = id := by
  obtain ⟨r', hr', rfl⟩ := List.mem_map.mp h
  by_cases hid : r'.id = id
  · exact .inr ⟨if_pos (beq_iff_eq.mpr hid), r', hr', hid⟩
  · rw [if_neg (fun heq => hid (beq_iff_eq.mp heq))]
    exact .inl hr'

/-- A column the written board agrees in with the rows of its id is not changed. -/
theorem map_updateRecord {α : Type} {rows : List BoardRow} {b : BoardInfo} {id : Str}
    (column : BoardRow → α) (h : ∀ r ∈ rows, r.id = id → column r = column (BoardRow.ofBoard b)) :
    (BoardsDB.updateRecord rows id b).map column = rows.map column := by
  rw [BoardsDB.updateRecord, List.map_map]
  refine List.map_congr_left fun r hr => ?_
  by_cases hid : r.id = id
  · simp [hid, h r hr hid]
  · simp [hid]

theorem table_updateRecord {rows : List BoardRow} {used : List Str} {b : BoardInfo}
    (h : Table rows used)
    (hvenue : ∀ r ∈ rows, r.id = b.info.id → r.venueId = (firstVenue b).id) :
    Table (BoardsDB.updateRecord rows b.info.id b) used := by
  refine ⟨?_, ?_, ?_⟩
  · unfold OnePerVenue
    rw [map_updateRecord BoardRow.venueId hvenue]
    exact h.onePerVenue
  · have hids : (BoardsDB.updateRecord rows b.info.id b).map BoardRow.id = rows.map BoardRow.id :=
      map_updateRecord BoardRow.id fun r _ hid => hid
    rw [hids]
    exact h.primaryKey
  · intro r hr
    rcases mem_updateRecord hr with hr | ⟨rfl, r', hr', hid⟩
    · exact h.used r hr
    · rw [BoardRow.id_ofBoard, ← hid]
      exact h.used r' hr'

theorem table_deleteRecord {rows : List BoardRow} {used : List Str} (h : Table rows used)
    (id : Str) : Table (BoardsDB.deleteRecord rows id) used := by
  have hsub : (BoardsDB.deleteRecord rows id).Sublist rows := List.filter_sublist
  exact
    { onePerVenue := fun venueId hne =>
        ((hsub.map BoardRow.venueId).count_le venueId).trans (h.onePerVenue venueId hne)
      primaryKey := h.primaryKey.sublist (hsub.map BoardRow.id)
      used := fun r hr => h.used r (hsub.subset hr) }

/-! ## The steps -/

theorem inv_createRecord {n : Nat} {b : BoardInfo} {rows : List BoardRow} (h : Inv s)
    (hstands : Stands s n (.createRecord b)) (hnew : b.info.id ∉ s.used)
    (hcreate : BoardsDB.createRecord s.rows b = some rows) :
    Inv { s.setRequest n .idle with rows, createMutex := none, used := b.info.id :: s.used } := by
  refine inv_of_request h rfl (table_createRecord h.table hcreate hstands.2 hnew) trivial
    fun m hm r hr => ?_
  have hne : s.createMutex ≠ some m := by
    rw [hstands.1]
    exact fun heq => hm (Option.some.inj heq).symm
  cases r with
  | findBoardsByVenue b' => exact absurd hr hne
  | createRecord b' => exact absurd hr.1 hne
  | updateRecord b' =>
      refine ⟨List.mem_cons_of_mem _ hr.1, fun r hmem hid => ?_⟩
      rw [createRecord_eq hcreate] at hmem
      rcases List.mem_append.mp hmem with hmem | hmem
      · exact hr.2 r hmem hid
      · -- The row is new, and the board that is about to be written is not.
        rw [List.mem_singleton.mp hmem] at hid
        have hsame : b.info.id = b'.info.id := hid
        exact absurd (hsame ▸ hr.1) hnew
  | _ => trivial

theorem inv_updateRecord {n : Nat} {b : BoardInfo} (h : Inv s)
    (hstands : Stands s n (.updateRecord b)) :
    Inv { s.setRequest n .idle with rows := BoardsDB.updateRecord s.rows b.info.id b } := by
  have hvenues : (BoardsDB.updateRecord s.rows b.info.id b).map BoardRow.venueId =
      s.rows.map BoardRow.venueId := map_updateRecord BoardRow.venueId hstands.2
  refine inv_of_request h rfl (table_updateRecord h.table hstands.2) trivial fun m _ r hr => ?_
  cases r with
  | findBoardsByVenue b' => exact hr
  | createRecord b' =>
      refine ⟨hr.1, ?_⟩
      rw [show (BoardsDB.updateRecord s.rows b.info.id b).map BoardRow.venueId = _ from hvenues]
      exact hr.2
  | updateRecord b' =>
      refine ⟨hr.1, fun r hmem hid => ?_⟩
      rcases mem_updateRecord hmem with hmem | ⟨rfl, r', hr', hid'⟩
      · exact hr.2 r hmem hid
      · -- Both boards are boards of the row `r'`.
        have hsame : b.info.id = b'.info.id := hid
        rw [← hr.2 r' hr' (hid'.trans hsame), hstands.2 r' hr' hid']
        rfl
  | _ => trivial

theorem inv_deleteRecord {n : Nat} {id : Str} (h : Inv s) :
    Inv { s.setRequest n .idle with rows := BoardsDB.deleteRecord s.rows id } := by
  have hsub : (BoardsDB.deleteRecord s.rows id).Sublist s.rows := List.filter_sublist
  refine inv_of_request h rfl (table_deleteRecord h.table id) trivial fun m _ r hr => ?_
  cases r with
  | findBoardsByVenue b => exact hr
  | createRecord b =>
      exact ⟨hr.1, fun hne hmem => hr.2 hne ((hsub.map BoardRow.venueId).subset hmem)⟩
  | updateRecord b => exact ⟨hr.1, fun r hmem => hr.2 r (hsub.subset hmem)⟩
  | _ => trivial

/-- The board `DoPut` is about to write has the venue of each row of its id. -/
theorem stands_updateRecord {n : Nat} {id : Str} {body : Document F} {email : Str} {now : UInt64}
    {existing b : BoardInfo} (h : Table s.rows s.used)
    (hread : BoardsDB.getRecord s.rows id = some existing)
    (hput : acceptPut p body email now existing = some b) : Stands s n (.updateRecord b) := by
  obtain ⟨row, hfind, rfl⟩ := Option.map_eq_some_iff.mp hread
  have hrow : row ∈ s.rows := List.mem_of_find?_eq_some hfind
  have hkeeps := acceptPut_keeps hput
  rw [BoardRow.id_toBoard] at hkeeps
  refine ⟨hkeeps.1 ▸ h.used row hrow, fun r hr hid => ?_⟩
  have hsame : r = row :=
    List.inj_on_of_nodup_map h.primaryKey hr hrow (hid.trans hkeeps.1)
  calc r.venueId = row.venueId := by rw [hsame]
    _ = (BoardRow.ofBoard row.toBoard).venueId := (BoardRow.venueId_ofBoard_toBoard row).symm
    _ = (firstVenue row.toBoard).id := rfl
    _ = (firstVenue b).id := hkeeps.2.symm

theorem inv_start {n : Nat} {r : Request F} (h : Inv s) (hr : Stands s n r)
    (hstep : s.start n r = some s') : Inv s' := by
  unfold State.start at hstep
  split at hstep
  · obtain rfl := Option.some.inj hstep
    exact inv_setRequest h hr
  · cases hstep

theorem inv_stepRequest {n : Nat} {ok : Bool} (h : Inv s)
    (hnew : NeverReused s (.request n ok)) (hstep : s.stepRequest p n ok = some s') : Inv s' := by
  have hstands : Stands s n (s.requests n) := h.stands n
  unfold State.stepRequest at hstep
  cases hrequest : s.requests n with
  | idle =>
      rw [hrequest] at hstep
      cases hstep
  | lock b =>
      simp only [hrequest] at hstep
      split at hstep
      · rename_i hfree
        obtain rfl := Option.some.inj hstep
        exact inv_lock h hfree
      · cases hstep
  | findBoardsByVenue b =>
      simp only [hrequest] at hstep hstands
      split at hstep
      · rename_i hfound
        obtain rfl := Option.some.inj hstep
        exact inv_setRequest h ⟨hstands, notMem_of_findBoardsByVenue hfound.2⟩
      · obtain rfl := Option.some.inj hstep
        exact inv_unlock h hstands
  | createRecord b =>
      -- The venue was free when it was looked up, and the lock has kept it free.
      simp only [hrequest] at hstep hstands
      split at hstep
      · rename_i rows hrows
        obtain rfl := Option.some.inj hstep
        have hcreate : BoardsDB.createRecord s.rows b = some rows := by
          cases ok with
          | true => exact hrows
          | false => cases hrows
        exact inv_createRecord h hstands (hnew b hrequest) hcreate
      · obtain rfl := Option.some.inj hstep
        exact inv_unlock h hstands.1
  | getRecordToUpdate id body email now =>
      -- What is written later is merged into the row of this moment.
      simp only [hrequest] at hstep
      split at hstep
      · rename_i b hb
        obtain rfl := Option.some.inj hstep
        obtain ⟨existing, hread, hput⟩ := Option.bind_eq_some_iff.mp hb
        have hrecord : BoardsDB.getRecord s.rows id = some existing := by
          cases ok with
          | true => exact hread
          | false => cases hread
        exact inv_setRequest h (stands_updateRecord h.table hrecord hput)
      · obtain rfl := Option.some.inj hstep
        exact inv_setRequest h trivial
  | updateRecord b =>
      -- The row may be another one by now or gone, but not one of another venue.
      simp only [hrequest] at hstep hstands
      split at hstep
      · obtain rfl := Option.some.inj hstep
        exact inv_updateRecord h hstands
      · obtain rfl := Option.some.inj hstep
        exact inv_setRequest h trivial
  | getRecordToDelete id =>
      simp only [hrequest] at hstep
      split at hstep <;> obtain rfl := Option.some.inj hstep <;> exact inv_setRequest h trivial
  | deleteRecord id =>
      simp only [hrequest] at hstep
      split at hstep
      · obtain rfl := Option.some.inj hstep
        exact inv_deleteRecord h
      · obtain rfl := Option.some.inj hstep
        exact inv_setRequest h trivial

theorem inv_step {a : Label F} (hnew : NeverReused s a) (h : Inv s)
    (hstep : s.step p a = some s') : Inv s' := by
  cases a with
  | post n body email now uuid =>
      simp only [State.step] at hstep
      split at hstep
      · rename_i b _
        exact inv_start (r := .lock b) h trivial hstep
      · obtain rfl := Option.some.inj hstep
        exact h
  | put n id body email now =>
      exact inv_start (r := .getRecordToUpdate id body email now) h trivial hstep
  | delete n id => exact inv_start (r := .getRecordToDelete id) h trivial hstep
  | retire n id => exact inv_start (r := .deleteRecord id) h trivial hstep
  | request n ok => exact inv_stepRequest h hnew hstep

theorem inv_of_reachable (h : ReachableUnder (system p) NeverReused s) : Inv s := by
  refine h.invariant (fun s hs => ?_) fun s a s' _ hnew hinv hstep => inv_step hnew hinv hstep
  refine ⟨⟨hs.onePerVenue, hs.primaryKey, hs.used⟩, fun n => ?_⟩
  rw [hs.idle n]
  trivial

/-! ## The resolver -/

/-- What the resolver finds in the table, if the storage answers. -/
def lookup (rows : List BoardRow) (ok : Bool) (venueId : Str) : Option (List BoardVenueRecord) :=
  if ok then some (BoardsDB.findBoardVenueRecordsByVenue rows venueId) else none

theorem lookup_some {rows : List BoardRow} {ok : Bool} {venueId : Str}
    {boards : List BoardVenueRecord} (h : lookup rows ok venueId = some boards) :
    BoardsDB.findBoardVenueRecordsByVenue rows venueId = boards := by
  cases ok with
  | true => exact Option.some.inj h
  | false => cases h

/-- The rows of a venue: none or one. -/
theorem filter_venueId_cases {rows : List BoardRow} (h : OnePerVenue rows) {venueId : Str}
    (hne : venueId ≠ []) :
    (rows.filter fun r => r.venueId == venueId) = [] ∨
      ∃ row, (rows.filter fun r => r.venueId == venueId) = [row] := by
  have hlength : (rows.filter fun r => r.venueId == venueId).length ≤ 1 := by
    have hcount := h venueId hne
    rwa [List.count, List.countP_map, List.countP_eq_length_filter] at hcount
  cases hrows : rows.filter fun r => r.venueId == venueId with
  | nil => exact .inl rfl
  | cons row rest =>
      rw [hrows] at hlength
      cases rest with
      | nil => exact .inr ⟨row, rfl⟩
      | cons row' rest => simp only [List.length_cons] at hlength; omega

/-- What the lookup of the board answers. -/
theorem resolveBoardForVenue_cases {rows : List BoardRow} (h : OnePerVenue rows)
    {routerId venueId : Str} (hne : venueId ≠ []) :
    resolveBoardForVenue routerId venueId (BoardsDB.findBoardVenueRecordsByVenue rows venueId) =
        .error Mcp.Bandwidth.routerNotFound ∨
      ∃ row, (rows.filter fun r => r.venueId == venueId) = [row] ∧
        resolveBoardForVenue routerId venueId
            (BoardsDB.findBoardVenueRecordsByVenue rows venueId) =
          .ok
            { routerId
              resolvedBoardId := row.id
              resolvedVenueId := venueId
              retention := row.retention
              interval := row.interval
              monitorSubVenues := row.monitorSubVenues } := by
  have hempty : venueId.isEmpty = false := by simpa using hne
  -- Either no row of the venue, or the one row that is also taken.
  rcases filter_venueId_cases h hne with hrows | ⟨row, hrows⟩
  · refine .inl ?_
    simp [BoardsDB.findBoardVenueRecordsByVenue, hempty, hrows, resolveBoardForVenue]
  · refine .inr ⟨row, hrows, ?_⟩
    have hvenue : row.venueId = venueId := by
      have hmem : row ∈ rows.filter fun r => r.venueId == venueId := by
        rw [hrows]
        exact List.mem_singleton_self row
      exact beq_iff_eq.mp (List.mem_filter.mp hmem).2
    simp [BoardsDB.findBoardVenueRecordsByVenue, hempty, hrows, resolveBoardForVenue, hvenue]

/-- The resolver never finds several boards, and answers with the one row of the device's venue. -/
def ResolvesToTheRow (rows : List BoardRow) : Prop :=
  ∀ (fetch : Str → DeviceFetch) (ok : Bool) (routerId : Str),
    resolve fetch (lookup rows ok) routerId ≠ .error multipleBoards ∧
    ∀ r, resolve fetch (lookup rows ok) routerId = .ok r →
      ∃ row, (rows.filter fun row => row.venueId == (fetch routerId).venue) = [row] ∧
        r.resolvedBoardId = row.id ∧ r.retention = row.retention ∧ r.interval = row.interval

/-- However the storage steps of the requests interleave, a venue has at most one row, and the
    resolver answers with that row. -/
theorem one_board (h : ReachableUnder (system p) NeverReused s) :
    OnePerVenue s.rows ∧ ResolvesToTheRow s.rows := by
  have hone : OnePerVenue s.rows := (inv_of_reachable h).table.onePerVenue
  refine ⟨hone, fun fetch ok routerId => ⟨fun herror => ?_, fun r hr => ?_⟩⟩
  · obtain ⟨hvenue, boards, hboards, herror⟩ := Mcp.resolve_multipleBoards herror
    rw [← lookup_some hboards] at herror
    rcases resolveBoardForVenue_cases hone hvenue with hnone | ⟨row, -, hsome⟩
    · rw [hnone] at herror
      exact absurd (Except.error.inj herror) (by decide)
    · rw [hsome] at herror
      cases herror
  · obtain ⟨hvenue, boards, hboards, hok⟩ := Mcp.resolve_ok hr
    rw [← lookup_some hboards] at hok
    rcases resolveBoardForVenue_cases hone hvenue with hnone | ⟨row, hrow, hsome⟩
    · rw [hnone] at hok
      cases hok
    · rw [hsome] at hok
      obtain rfl := Except.ok.inj hok
      exact ⟨row, hrow, rfl, rfl, rfl⟩

/-- Two `DoPost`s of one venue: both stand at the lock before one of them takes it. -/
def twoPosts : List (Label Unit) :=
  [.post 0 (postBody [("name", "n")]) [] 5 ['u'], .post 1 (postBody [("name", "m")]) [] 6 ['w'],
    .request 0 true, .request 0 true, .request 0 true, .request 1 true, .request 1 true]

/-- The second `DoPost` finds the row of the first, and its own board is not stored. -/
theorem one_board_twoPosts :
    ∃ b c, acceptPost stringsOnly (postBody [("name", "n")]) [] 5 ['u'] = some b ∧
      acceptPost stringsOnly (postBody [("name", "m")]) [] 6 ['w'] = some c ∧
      (firstVenue b).id = (firstVenue c).id ∧ b.info.id ≠ c.info.id ∧
      ∃ s, run (State.step stringsOnly) { rows := [], used := [] } twoPosts = some s ∧
        s.rows = [BoardRow.ofBoard b] ∧ OnePerVenue s.rows ∧ ResolvesToTheRow s.rows := by
  obtain ⟨b, hb, hbValues⟩ := Option.map_eq_some_iff.mp
    (by decide +kernel :
      (acceptPost stringsOnly (postBody [("name", "n")]) [] 5 ['u']).map
        (fun b => ((firstVenue b).id, b.info.id)) = some (['v'], ['u']))
  obtain ⟨c, hc, hcValues⟩ := Option.map_eq_some_iff.mp
    (by decide +kernel :
      (acceptPost stringsOnly (postBody [("name", "m")]) [] 6 ['w']).map
        (fun c => ((firstVenue c).id, c.info.id)) = some (['v'], ['w']))
  obtain ⟨hbVenue, hbId⟩ := Prod.mk.inj hbValues
  obtain ⟨hcVenue, hcId⟩ := Prod.mk.inj hcValues
  have hrow : (BoardRow.ofBoard b).venueId = ['v'] := hbVenue
  let start : State Unit := { rows := [], used := [] }
  have hinit : Initial start :=
    { onePerVenue := fun _ _ => Nat.zero_le 1
      primaryKey := List.nodup_nil
      used := fun _ hr => absurd hr List.not_mem_nil
      createMutex := rfl
      idle := fun _ => rfl }
  -- The one insertion is that of `b`, and no id is in use then.
  have halong : Along (State.step stringsOnly) NeverReused start twoPosts := by
    simp [twoPosts, Along, NeverReused, State.step, State.start, State.stepRequest,
      State.setRequest, hb, hc, start, BoardsDB.findBoardsByVenue, BoardsDB.createRecord,
      hbVenue, hcVenue, hrow, Function.update]
  obtain ⟨s, hrun, hrows⟩ : ∃ s, run (State.step stringsOnly) start twoPosts = some s ∧
      s.rows = [BoardRow.ofBoard b] := by
    simp [twoPosts, run, State.step, State.start, State.stepRequest, State.setRequest, hb, hc,
      start, BoardsDB.findBoardsByVenue, BoardsDB.createRecord, hbVenue, hcVenue, hrow]
  have hreached : ReachableUnder (system stringsOnly) NeverReused s :=
    halong.reachableUnder (S := system stringsOnly) (fun _ _ _ h => h) (.init hinit) hrun
  have hids : b.info.id ≠ c.info.id := by
    rw [hbId, hcId]
    decide
  exact ⟨b, c, hb, hc, hbVenue.trans hcVenue.symm, hids, s, hrun, hrows, one_board hreached⟩

end OwAnalytics.Boards.OneBoard
