/-
  OwAnalytics.Clients.HistoryDeletion

  What `DoDelete` removes from the client history against what `DoGet` lists.  With a
  date the two put the same condition together, and the rows removed are the rows on
  the pages of the listing.  Without a date `DoDelete` has no condition: the exception
  of its format text leaves it.
-/

import OwAnalytics.Clients.HistoryClauses

namespace OwAnalytics.Clients

open Ap (WifiClientCache WifiClientHistory)
open Rest (Parameters)
open Sql (Comparison escape)
open Storage

/-! ## The rows of a condition -/

/-- The row is one of the client in the venue, between the dates. -/
def Within (venueId stationId : Str) (fromDate endDate : UInt64) (row : WifiClientHistory) : Prop :=
  row.venueId = venueId ∧ row.stationId = stationId ∧
    (fromDate = 0 ∨ fromDate ≤ row.timestamp) ∧ (endDate = 0 ∨ row.timestamp ≤ endDate)

instance (venueId stationId : Str) (fromDate endDate : UInt64) :
    DecidablePred (Within venueId stationId fromDate endDate) :=
  fun _ => inferInstanceAs (Decidable (_ ∧ _ ∧ _ ∧ _))

theorem selects_venueId (venueId : Str) :
    (Comparison.eq "venue_id".toList venueId).selects columns
      = some fun row => row.venueId == venueId := rfl

theorem selects_stationId (stationId : Str) :
    (Comparison.eq "station_id".toList stationId).selects columns
      = some fun row => row.stationId == stationId := rfl

theorem selects_from (n : Nat) :
    (Comparison.ge "timestamp".toList n).selects columns
      = some fun row => decide (n ≤ row.timestamp.toNat) := rfl

theorem selects_to (n : Nat) :
    (Comparison.le "timestamp".toList n).selects columns
      = some fun row => decide (row.timestamp.toNat ≤ n) := rfl

theorem selection_dateComparisons (fromDate endDate : UInt64) :
    Sql.selection columns (dateComparisons fromDate endDate) = some fun row =>
      decide ((fromDate = 0 ∨ fromDate ≤ row.timestamp) ∧
        (endDate = 0 ∨ row.timestamp ≤ endDate)) := by
  have hnone : Sql.selection columns [] = some fun _ => true := rfl
  unfold dateComparisons
  -- a date of 0 has no comparison, so all rows pass it
  by_cases hfrom : fromDate = 0
  · by_cases hend : endDate = 0
    · simp only [hfrom, hend, if_true, List.append_nil, true_or, and_self, decide_true]
      exact hnone
    · simp only [hfrom, hend, if_true, if_false, List.nil_append, true_or, false_or, true_and]
      rw [Sql.selection_cons (selects_to _) hnone]
      simp only [Bool.and_true, UInt64.le_iff_toNat_le]
  · by_cases hend : endDate = 0
    · simp only [hfrom, hend, if_true, if_false, List.append_nil, true_or, false_or, and_true]
      rw [Sql.selection_cons (selects_from _) hnone]
      simp only [Bool.and_true, UInt64.le_iff_toNat_le]
    · simp only [hfrom, hend, if_false, List.cons_append, List.nil_append, false_or]
      rw [Sql.selection_cons (selects_from _) (Sql.selection_cons (selects_to _) hnone)]
      simp only [Bool.and_true, UInt64.le_iff_toNat_le, Bool.decide_and]

/-- The comparisons together are the rows of the venue and the client between the dates. -/
theorem selection_comparisons (venueId stationId : Str) (fromDate endDate : UInt64) :
    Sql.selection columns (comparisons venueId stationId fromDate endDate)
      = some fun row => decide (Within venueId stationId fromDate endDate row) := by
  rw [comparisons, Sql.selection_cons (selects_venueId _)
    (Sql.selection_cons (selects_stationId _) (selection_dateComparisons fromDate endDate))]
  refine congrArg some (funext fun row => ?_)
  rw [Bool.eq_iff_iff, decide_eq_true_iff]
  simp only [Within, Bool.and_eq_true, beq_iff_eq, decide_eq_true_eq]

/-- What the database makes of the condition, for an escaped venue and a valid client. -/
theorem selects_clauseText (db : Database) {stationId : Str}
    (hstation : validSerialNumber stationId = true) (venueId : Str) (fromDate endDate : UInt64) :
    db.engine.selects (clauseText (escape venueId) stationId fromDate endDate)
      = some fun row => decide (Within venueId stationId fromDate endDate row) :=
  (db.engine.selects_of_read (read_clauseText hstation venueId fromDate endDate)).trans
    (selection_comparisons venueId stationId fromDate endDate)

/-! ## The two calls -/

/-- A deletion that is refused before its dates are read. -/
def Refused (r : Request) : Prop :=
  (r.userRole ≠ .admin ∧ r.userRole ≠ .root) ∨ r.getParameter "venue" = [] ∨
    validSerialNumber r.stationId = false

/-- Dates that are numbers in range, one of them set. -/
def HasDate (r : Request) (fromDate endDate : UInt64) : Prop :=
  r.getNumber "fromDate" = some fromDate ∧ r.getNumber "endDate" = some endDate ∧
    (fromDate ≠ 0 ∨ endDate ≠ 0)

theorem deletePlan_of_refused {r : Request} (h : Refused r) :
    (∃ e, deletePlan r = some (.unAuthorized e)) ∨ ∃ e, deletePlan r = some (.badRequest e) := by
  unfold deletePlan
  by_cases hrole : r.userRole ≠ .admin ∧ r.userRole ≠ .root
  · exact .inl ⟨_, if_pos hrole⟩
  · rw [if_neg hrole]
    by_cases hvenue : r.getParameter "venue" = []
    · exact .inr ⟨_, if_pos (by simp [hvenue, escape])⟩
    · have hserial := (h.resolve_left hrole).resolve_left hvenue
      have hescape : (escape (r.getParameter "venue")).isEmpty = false := by
        simpa [Sql.escape_eq_nil] using hvenue
      simp only [hescape, hserial, if_true]
      exact .inr ⟨_, rfl⟩

theorem deletePlan_of_not_refused {r : Request} (h : ¬ Refused r) :
    deletePlan r = do
      let fromDate ← r.getNumber "fromDate"
      let endDate ← r.getNumber "endDate"
      let clause ← deleteClause (escape (r.getParameter "venue")) r.stationId fromDate endDate
      return .deleteRecords clause := by
  simp only [Refused, not_or] at h
  obtain ⟨hrole, hvenue, hserial⟩ := h
  have hescape : (escape (r.getParameter "venue")).isEmpty = false := by
    simpa [Sql.escape_eq_nil] using hvenue
  unfold deletePlan
  simp only [hrole, hescape, hserial, if_false]
  rfl

/-- A deletion that answers `OK`. -/
theorem doDelete_of_hasDate (db : Database) (table : HistoryTable) {r : Request}
    (h : ¬ Refused r) {fromDate endDate : UInt64} (hdate : HasDate r fromDate endDate) :
    ∃ table', doDelete db table r = some (.ok, table') ∧ table'.val = table.val.filter fun row =>
      !decide (Within (r.getParameter "venue") r.stationId fromDate endDate row) := by
  obtain ⟨hfrom, hend, hset⟩ := hdate
  have hserial : validSerialNumber r.stationId = true := by
    simp only [Refused, not_or] at h
    simpa using h.2.2
  have hplan : deletePlan r = some (.deleteRecords
      (clauseText (escape (r.getParameter "venue")) r.stationId fromDate endDate)) := by
    rw [deletePlan_of_not_refused h, hfrom, hend]
    simp only [Option.bind_eq_bind, Option.bind_some]
    rw [deleteClause_of_date hset, getClause_eq]
    rfl
  have hselects := selects_clauseText db hserial (r.getParameter "venue") fromDate endDate
  unfold doDelete
  rw [hplan]
  simp only [Option.bind_eq_bind, Option.bind_some, deleteRecords, hselects]
  exact ⟨_, rfl, rfl⟩

/-- A deletion without a date throws. -/
theorem exists_hasDate_of_answer {db : Database} {table : HistoryTable} {r : Request}
    (h : ¬ Refused r) {answer : Response × HistoryTable}
    (hanswer : doDelete db table r = some answer) :
    ∃ fromDate endDate, HasDate r fromDate endDate := by
  unfold doDelete at hanswer
  obtain ⟨plan, hplan, -⟩ := Option.bind_eq_some_iff.mp hanswer
  rw [deletePlan_of_not_refused h] at hplan
  obtain ⟨fromDate, hfrom, hplan⟩ := Option.bind_eq_some_iff.mp hplan
  obtain ⟨endDate, hend, hplan⟩ := Option.bind_eq_some_iff.mp hplan
  obtain ⟨clause, hclause, -⟩ := Option.bind_eq_some_iff.mp hplan
  refine ⟨fromDate, endDate, hfrom, hend, ?_⟩
  by_contra hzero
  simp only [not_or, not_not] at hzero
  rw [hzero.1, hzero.2, deleteClause_no_date] at hclause
  cases hclause

/-! ## The listing -/

/-- A listing with the venue, the client and the dates of a deletion. -/
structure SameQuery (d g : Request) : Prop where
  venue : g.find? "venue" = d.find? "venue"
  client : g.client = d.client
  fromDate : g.find? "fromDate" = d.find? "fromDate"
  endDate : g.find? "endDate" = d.find? "endDate"

/-- The row is on a page of a listing. -/
def Listed (db : Database) (boards : List BoardRow) (cache : WifiClientCache) (table : HistoryTable)
    (d : Request) (row : WifiClientHistory) : Prop :=
  ∃ g qb records, SameQuery d g ∧ doGet db boards cache table qb g = some (.records records) ∧
    row ∈ records

/-- A listing is of the rows its condition selects. -/
theorem doGet_eq_records {db : Database} {boards : List BoardRow} {cache : WifiClientCache}
    {table : HistoryTable} {qb : QueryBlock} {g : Request} {records : List WifiClientHistory}
    (h : doGet db boards cache table qb g = some (.records records)) :
    ∃ venue fromDate endDate orderBy, BuildsClause boards g venue fromDate endDate ∧
      records = getRecords db table.val qb (clauseText venue g.stationId fromDate endDate)
        orderBy := by
  unfold doGet at h
  obtain ⟨plan, hplan, h⟩ := Option.bind_eq_some_iff.mp h
  cases plan with
  | returnFieldList => cases h
  | badRequest e => cases h
  | findNumbers venue macFilter =>
      obtain ⟨macs, -, h⟩ := Option.bind_eq_some_iff.mp h
      cases h
  | count clause => cases h
  | getRecords clause orderBy =>
      obtain ⟨venue, fromDate, endDate, hbuilds, rfl⟩ := buildsClause_of_getPlan hplan rfl
      cases h
      exact ⟨venue, fromDate, endDate, orderBy, hbuilds, rfl⟩

theorem mem_getRecords {db : Database} {rows : List WifiClientHistory} {qb : QueryBlock}
    {clause orderBy : Str} {p : WifiClientHistory → Bool} (hp : db.engine.selects clause = some p)
    {row : WifiClientHistory} (h : row ∈ getRecords db rows qb clause orderBy) :
    row ∈ rows ∧ p row = true := by
  unfold getRecords at h
  rw [hp] at h
  have hmem := List.mem_of_mem_drop (List.mem_of_mem_take h)
  exact List.mem_filter.mp ((db.arrange_perm orderBy _).mem_iff.mp hmem)

/-- The first page is the whole listing, if it is large enough. -/
theorem getRecords_whole {db : Database} (table : HistoryTable) {clause : Str} (orderBy : Str)
    {p : WifiClientHistory → Bool} (hp : db.engine.selects clause = some p) :
    ∃ qb, getRecords db table.val qb clause orderBy = db.arrange orderBy (table.val.filter p) := by
  have hlength : (db.arrange orderBy (table.val.filter p)).length < 2 ^ 64 := by
    rw [(db.arrange_perm orderBy _).length_eq]
    have hle := List.length_filter_le p table.val
    have hlt := table.property
    omega
  refine ⟨{ offset := 0, limit := UInt64.ofNat (db.arrange orderBy (table.val.filter p)).length },
    ?_⟩
  unfold getRecords
  rw [hp]
  simp only [UInt64.toNat_zero, List.drop_zero, UInt64.toNat_ofNat', Nat.mod_eq_of_lt hlength,
    List.take_length]

theorem SameQuery.getNumber {d g : Request} (h : SameQuery d g) :
    g.getNumber "fromDate" = d.getNumber "fromDate" ∧
      g.getNumber "endDate" = d.getNumber "endDate" := by
  have hsame : ∀ name, g.find? name = d.find? name → g.getNumber name = d.getNumber name := by
    intro name hname
    rw [Request.getNumber, Parameters.getNumber, show g.parameters.first? _ = _ from hname]
    rfl
  exact ⟨hsame _ h.fromDate, hsame _ h.endDate⟩

theorem SameQuery.getParameter {d g : Request} (h : SameQuery d g) :
    g.getParameter "venue" = d.getParameter "venue" := by
  rw [Request.getParameter, Parameters.getText, show g.parameters.first? _ = _ from h.venue]
  rfl

theorem SameQuery.stationId {d g : Request} (h : SameQuery d g) : g.stationId = d.stationId := by
  rw [Request.stationId, h.client, Request.stationId]

theorem selectVenue_of_parameter {r : Request} (h : r.getParameter "venue" ≠ [])
    (boards : List BoardRow) : selectVenue boards r = some (escape (r.getParameter "venue")) := by
  have hescape : (escape (r.getParameter "venue")).isEmpty = false := by
    simpa [Sql.escape_eq_nil] using h
  unfold selectVenue
  simp only [hescape, Bool.false_eq_true, if_false]

/-- The parameters of a deletion that a listing takes over. -/
def sharedNames : List String := ["venue", "fromDate", "endDate"]

/-- The request that lists what a deletion would delete. -/
def listing (d : Request) : Request :=
  { d with parameters := d.parameters.filter fun p => p.1 ∈ sharedNames.map String.toList }

theorem find?_listing (d : Request) (name : String) :
    (listing d).find? name = if name ∈ sharedNames then d.find? name else none := by
  have hkept : (name.toList ∈ sharedNames.map String.toList) ↔ name ∈ sharedNames :=
    List.mem_map_of_injective fun _ _ => String.toList_injective
  unfold Request.find? Parameters.first? listing
  rw [List.find?_filter]
  by_cases h : name ∈ sharedNames
  · rw [if_pos h]
    refine congrArg _ (congrFun (congrArg _ (funext fun p => ?_)) _)
    rw [Bool.eq_iff_iff]
    simp only [decide_eq_true_eq, beq_iff_eq, and_iff_right_iff_imp]
    intro hp
    rw [hp]
    exact hkept.mpr h
  · rw [if_neg h, Option.map_eq_none_iff, List.find?_eq_none]
    intro p _ hp
    simp only [decide_eq_true_eq, beq_iff_eq] at hp
    rw [hp.2] at hp
    exact h (hkept.mp hp.1)

theorem sameQuery_listing (d : Request) : SameQuery d (listing d) where
  venue := (find?_listing d "venue").trans (if_pos (by decide))
  client := rfl
  fromDate := (find?_listing d "fromDate").trans (if_pos (by decide))
  endDate := (find?_listing d "endDate").trans (if_pos (by decide))

/-- It asks for nothing else. -/
theorem getPlan_listing {d : Request} (h : ¬ Refused d) {fromDate endDate : UInt64}
    (hdate : HasDate d fromDate endDate) (boards : List BoardRow) :
    ∃ orderBy, getPlan boards (listing d) = some (.getRecords
      (clauseText (escape (d.getParameter "venue")) d.stationId fromDate endDate) orderBy) := by
  -- Only the parameters of a deletion are kept, so no flag is set.
  have hbool : ∀ name, name ∉ sharedNames → (listing d).getBoolParameter name = false := by
    intro name hname
    have hnone : (listing d).find? name = none := by rw [find?_listing, if_neg hname]
    rw [Request.getBoolParameter, Parameters.getBoolParameter,
      show (listing d).parameters.first? _ = _ from hnone]
  have hsame := sameQuery_listing d
  simp only [Refused, not_or] at h
  have hvenue : selectVenue boards (listing d) = some (escape (d.getParameter "venue")) := by
    rw [← hsame.getParameter]
    exact selectVenue_of_parameter (by rw [hsame.getParameter]; exact h.2.1) boards
  have horder : (listing d).orderBy ≠ none := by
    rw [Request.orderBy, find?_listing, if_neg (by decide)]
    simp
  have hbuilds : BuildsClause boards (listing d) (escape (d.getParameter "venue")) fromDate
      endDate :=
    { orderSpec := hbool _ (by decide)
      venue := hvenue
      macsOnly := hbool _ (by decide)
      serial := by
        rw [hsame.stationId]
        simpa using h.2.2
      orderBy := horder
      fromDate := hsame.getNumber.1.trans hdate.1
      endDate := hsame.getNumber.2.trans hdate.2.1 }
  obtain ⟨orderBy, hplan⟩ := getPlan_of_buildsClause hbuilds
  rw [hbool "countOnly" (by decide), hsame.stationId] at hplan
  exact ⟨orderBy, hplan⟩

/-- The pages of the listings hold the rows of the venue and the client between the dates. -/
theorem listed_iff (db : Database) (boards : List BoardRow) (cache : WifiClientCache)
    (table : HistoryTable) {d : Request} (h : ¬ Refused d) {fromDate endDate : UInt64}
    (hdate : HasDate d fromDate endDate) (row : WifiClientHistory) :
    Listed db boards cache table d row ↔
      row ∈ table.val ∧ Within (d.getParameter "venue") d.stationId fromDate endDate row := by
  have hserial : validSerialNumber d.stationId = true := by
    simp only [Refused, not_or] at h
    simpa using h.2.2
  have hvenue : d.getParameter "venue" ≠ [] := by
    simp only [Refused, not_or] at h
    exact h.2.1
  have hselects := selects_clauseText db hserial (d.getParameter "venue") fromDate endDate
  refine ⟨?_, ?_⟩
  · rintro ⟨g, qb, records, hsame, hget, hrow⟩
    obtain ⟨venue, from', end', orderBy, hbuilds, rfl⟩ := doGet_eq_records hget
    -- Whatever else a listing asks for, it selects with the venue and the dates of the deletion.
    have heq : venue = escape (d.getParameter "venue") ∧ from' = fromDate ∧ end' = endDate := by
      refine ⟨?_, ?_, ?_⟩
      · have hselect := selectVenue_of_parameter
          (by rw [hsame.getParameter]; exact hvenue : g.getParameter "venue" ≠ []) boards
        rw [hbuilds.venue, hsame.getParameter] at hselect
        exact Option.some.inj hselect
      · have hfrom := hsame.getNumber.1
        rw [hbuilds.fromDate, hdate.1] at hfrom
        exact Option.some.inj hfrom
      · have hend := hsame.getNumber.2
        rw [hbuilds.endDate, hdate.2.1] at hend
        exact Option.some.inj hend
    obtain ⟨rfl, rfl, rfl⟩ := heq
    rw [hsame.stationId] at hrow
    obtain ⟨hmem, hwithin⟩ := mem_getRecords hselects hrow
    exact ⟨hmem, of_decide_eq_true hwithin⟩
  · rintro ⟨hmem, hwithin⟩
    -- The plain listing, with a page as large as the table, shows every such row.
    obtain ⟨orderBy, hplan⟩ := getPlan_listing h hdate boards
    obtain ⟨qb, hwhole⟩ := getRecords_whole table orderBy hselects
    have hrow : row ∈ db.arrange orderBy (table.val.filter fun row =>
        decide (Within (d.getParameter "venue") d.stationId fromDate endDate row)) :=
      (db.arrange_perm orderBy _).mem_iff.mpr
        (List.mem_filter.mpr ⟨hmem, decide_eq_true hwithin⟩)
    refine ⟨listing d, qb, _, sameQuery_listing d, ?_, hrow⟩
    unfold doGet
    rw [hplan, ← hwhole]
    rfl

/-! ## Agreement -/

open Classical in
/-- `DoDelete` always answers; where it answers `OK`, what it has removed is what `DoGet` lists,
    and otherwise it has removed nothing. -/
structure DeletesListed (db : Database) (boards : List BoardRow) (cache : WifiClientCache)
    (table : HistoryTable) (d : Request) : Prop where
  answers : ∃ answer, doDelete db table d = some answer
  removed : ∀ table', doDelete db table d = some (.ok, table') →
    table'.val = table.val.filter fun row => ¬ Listed db boards cache table d row
  refused : ∀ response table', response ≠ .ok →
    doDelete db table d = some (response, table') → table' = table

/-- That is so unless a deletion that gets to its dates has none, or one that is out of range. -/
theorem deletes_listed_iff (db : Database) (boards : List BoardRow) (cache : WifiClientCache)
    (table : HistoryTable) (d : Request) :
    DeletesListed db boards cache table d ↔
      Refused d ∨ ∃ fromDate endDate, HasDate d fromDate endDate := by
  refine ⟨?_, ?_⟩
  · intro h
    by_cases hrefused : Refused d
    · exact .inl hrefused
    · obtain ⟨answer, hanswer⟩ := h.answers
      exact .inr (exists_hasDate_of_answer hrefused hanswer)
  · intro h
    by_cases hrefused : Refused d
    -- A refused deletion gets to no statement, so all there is to know is its answer.
    · have hanswer : ∃ response, response ≠ .ok ∧ doDelete db table d = some (response, table) := by
        rcases deletePlan_of_refused hrefused with ⟨e, hplan⟩ | ⟨e, hplan⟩
        · exact ⟨.unAuthorized e, by simp, by rw [doDelete, hplan]; rfl⟩
        · exact ⟨.badRequest e, by simp, by rw [doDelete, hplan]; rfl⟩
      obtain ⟨response, hresponse, hanswer⟩ := hanswer
      refine ⟨⟨_, hanswer⟩, fun table' hok => ?_, fun response' table' _ hother => ?_⟩
      · rw [hanswer] at hok
        cases hok
        exact absurd rfl hresponse
      · rw [hanswer] at hother
        cases hother
        rfl
    -- The rows removed are those of the condition, which are the rows listed.
    · obtain ⟨fromDate, endDate, hdate⟩ := h.resolve_left hrefused
      obtain ⟨table₁, hanswer, hrows⟩ := doDelete_of_hasDate db table hrefused hdate
      refine ⟨⟨_, hanswer⟩, fun table' hok => ?_, fun response' table' hne hother => ?_⟩
      · rw [hanswer] at hok
        cases hok
        rw [hrows]
        refine List.filter_congr fun row hrow => ?_
        rw [Bool.eq_iff_iff]
        simp [listed_iff db boards cache table hrefused hdate row, hrow]
      · rw [hanswer] at hother
        cases hother
        exact absurd rfl hne

/-- A database that knows the conditions only, and a deletion without dates. -/
def plainDatabase : Database where
  engine := .conjunctions columns
  arrange _ rows := rows
  arrange_perm _ rows := .refl rows

/-- A deletion of an administrator without dates. -/
def undated : Request where
  parameters := [("venue".toList, "venue".toList)]
  client := some "aabbccddeeff".toList
  userRole := .admin

/-- It ends in an exception. -/
theorem undated_deletion_throws :
    ¬ DeletesListed plainDatabase [] (fun _ => none) ⟨[], by decide⟩ undated := by
  intro h
  obtain ⟨answer, hanswer⟩ := h.answers
  have hplan : deletePlan undated = none := by decide +kernel
  rw [doDelete, hplan] at hanswer
  cases hanswer

end OwAnalytics.Clients
