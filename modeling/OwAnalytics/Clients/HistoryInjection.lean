/-
  OwAnalytics.Clients.HistoryInjection

  The venue of a `DoGet` request in its two uses.  A venue given as a parameter is
  escaped, which is right for the condition and wrong for the cache; the venue of a
  board is taken as it is stored, which is right for the cache and wrong for the
  condition.
-/

import OwAnalytics.Clients.HistoryDeletion

namespace OwAnalytics.Clients

open Sql (escape)
open Storage

/-! ## The venue that is meant -/

/-- The first venue of the board a request names. -/
def boardVenue (boards : List BoardRow) (r : Request) : Option Str :=
  if r.getParameter "boardId" = [] then none
  else
    ((BoardsDB.getRecord boards (r.getParameter "boardId")).bind fun b =>
      b.venueList.head?.map (·.id)).filter fun venueId => !venueId.isEmpty

/-- The id of the venue a request selects. -/
def selectedVenue (boards : List BoardRow) (r : Request) : Option Str :=
  if r.getParameter "venue" = [] then boardVenue boards r else some (r.getParameter "venue")

theorem selectVenue_of_board {r : Request} (h : r.getParameter "venue" = [])
    (boards : List BoardRow) : selectVenue boards r = selectedVenue boards r := by
  unfold selectVenue selectedVenue boardVenue
  rw [h, if_pos rfl]
  simp only [escape, List.isEmpty_nil, if_true]
  by_cases hid : r.getParameter "boardId" = []
  · simp only [hid, List.isEmpty_nil, if_true]
  · have hempty : (r.getParameter "boardId").isEmpty = false := by simpa using hid
    simp only [hid, hempty, Bool.false_eq_true, if_false]
    cases BoardsDB.getRecord boards (r.getParameter "boardId") with
    | none => rfl
    | some b =>
        cases hlist : b.venueList with
        | nil => simp [hlist]
        | cons v rest =>
            cases hvenue : v.id.isEmpty with
            | true => simp [hlist, hvenue, Option.filter]
            | false => simp [hlist, hvenue, Option.filter]

/-- The text in hand is the venue, escaped if it was a parameter. -/
theorem selectVenue_eq (boards : List BoardRow) (r : Request) :
    selectVenue boards r = (selectedVenue boards r).map fun venueId =>
      if r.getParameter "venue" = [] then venueId else escape venueId := by
  by_cases h : r.getParameter "venue" = []
  · rw [selectVenue_of_board h]
    simp [h]
  · rw [selectVenue_of_parameter h]
    simp [selectedVenue, h]

/-! ## The uses -/

/-- Every condition is read as the comparisons with the selected venue, the client and the dates,
    and the cache is asked for the selected venue. -/
structure QueriesIntended (boards : List BoardRow) (r : Request) : Prop where
  conditions : ∀ plan clause, getPlan boards r = some plan → plan.clause? = some clause →
    ∃ venueId fromDate endDate, selectedVenue boards r = some venueId ∧
      r.getNumber "fromDate" = some fromDate ∧ r.getNumber "endDate" = some endDate ∧
      Sql.read clause = some (comparisons venueId r.stationId fromDate endDate)
  lookups : ∀ key macFilter, getPlan boards r = some (.findNumbers key macFilter) →
    selectedVenue boards r = some key

/-- A request that is answered from the table: it passes the checks behind the venue's. -/
structure AsksTable (r : Request) : Prop where
  orderSpec : r.getBoolParameter "orderSpec" = false
  macsOnly : r.getBoolParameter "macsOnly" = false
  serial : validSerialNumber r.stationId = true
  orderBy : r.orderBy ≠ none
  fromDate : r.getNumber "fromDate" ≠ none
  endDate : r.getNumber "endDate" ≠ none

theorem BuildsClause.asksTable {boards : List BoardRow} {r : Request} {venue : Str}
    {fromDate endDate : UInt64} (h : BuildsClause boards r venue fromDate endDate) :
    AsksTable r :=
  ⟨h.orderSpec, h.macsOnly, h.serial, h.orderBy, by simp [h.fromDate], by simp [h.endDate]⟩

theorem AsksTable.buildsClause {boards : List BoardRow} {r : Request} (h : AsksTable r)
    {venue : Str} (hvenue : selectVenue boards r = some venue) :
    ∃ fromDate endDate, BuildsClause boards r venue fromDate endDate := by
  obtain ⟨fromDate, hfrom⟩ := Option.ne_none_iff_exists'.mp h.fromDate
  obtain ⟨endDate, hend⟩ := Option.ne_none_iff_exists'.mp h.endDate
  exact ⟨fromDate, endDate, h.orderSpec, hvenue, h.macsOnly, h.serial, h.orderBy, hfrom, hend⟩

/-- A venue with a quote is put to the use its form is wrong for. -/
def Misused (r : Request) : Prop :=
  (r.getParameter "venue" ≠ [] ∧ AsksCache r) ∨ (r.getParameter "venue" = [] ∧ AsksTable r)

/-- Everything is as intended exactly if no venue with a quote is misused. -/
theorem queries_intended_iff (boards : List BoardRow) (r : Request) :
    QueriesIntended boards r ↔
      ∀ venueId, selectedVenue boards r = some venueId → '\'' ∈ venueId → ¬ Misused r := by
  refine ⟨?_, ?_⟩
  -- A misused venue with a quote shows: in the key of a lookup, or in the text of a condition.
  · rintro h venueId hselected hquote (⟨hparameter, hasks⟩ | ⟨hboard, hasks⟩)
    · have hvenue : selectVenue boards r = some (escape venueId) := by
        rw [selectVenue_eq, hselected, Option.map_some, if_neg hparameter]
      have hkey := h.lookups _ _ (getPlan_of_asksCache hasks hvenue)
      rw [hselected] at hkey
      exact Sql.escape_ne_self hquote (Option.some.inj hkey).symm
    · have hvenue : selectVenue boards r = some venueId := by
        rw [selectVenue_eq, hselected, Option.map_some, if_pos hboard]
      obtain ⟨fromDate, endDate, hbuilds⟩ := hasks.buildsClause hvenue
      obtain ⟨orderBy, hplan⟩ := getPlan_of_buildsClause hbuilds
      have hclause : ∀ countOnly : Bool, (if countOnly then
          GetPlan.count (clauseText venueId r.stationId fromDate endDate)
        else .getRecords (clauseText venueId r.stationId fromDate endDate) orderBy).clause?
          = some (clauseText venueId r.stationId fromDate endDate) := by
        intro countOnly
        cases countOnly with
        | true => rfl
        | false => rfl
      obtain ⟨venueId', from', end', hselected', hfrom, hend, hread⟩ :=
        h.conditions _ _ hplan (hclause _)
      rw [hselected] at hselected'
      rw [hbuilds.fromDate] at hfrom
      rw [hbuilds.endDate] at hend
      cases hselected'
      cases hfrom
      cases hend
      -- A condition with the bare id is read as intended only if the id has no quote.
      exact not_quote_of_read_clauseText hread hquote
  · intro h
    refine ⟨?_, ?_⟩
    · intro plan clause hplan hclause
      obtain ⟨venue, fromDate, endDate, hbuilds, rfl⟩ := buildsClause_of_getPlan hplan hclause
      have hvenue := hbuilds.venue
      rw [selectVenue_eq] at hvenue
      obtain ⟨venueId, hselected, hform⟩ := Option.map_eq_some_iff.mp hvenue
      -- Named as a parameter the venue is escaped; found as a board it is not, and has no quote.
      have hescape : venue = escape venueId := by
        by_cases hboard : r.getParameter "venue" = []
        · have hquote : '\'' ∉ venueId := fun hquote =>
            h venueId hselected hquote (.inr ⟨hboard, hbuilds.asksTable⟩)
          rw [if_pos hboard] at hform
          rw [Sql.escape_eq_self hquote, hform]
        · rw [if_neg hboard] at hform
          exact hform.symm
      rw [hescape]
      exact ⟨venueId, fromDate, endDate, hselected, hbuilds.fromDate, hbuilds.endDate,
        read_clauseText hbuilds.serial venueId fromDate endDate⟩
    · intro key macFilter hplan
      obtain ⟨hasks, hvenue⟩ := asksCache_of_getPlan hplan
      rw [selectVenue_eq] at hvenue
      obtain ⟨venueId, hselected, hform⟩ := Option.map_eq_some_iff.mp hvenue
      rw [hselected, ← hform]
      -- The other way round for the key of a lookup, which is no text and needs no escape.
      by_cases hboard : r.getParameter "venue" = []
      · rw [if_pos hboard]
      · have hquote : '\'' ∉ venueId := fun hquote =>
          h venueId hselected hquote (.inl ⟨hboard, hasks⟩)
        rw [if_neg hboard, Sql.escape_eq_self hquote]

/-- A board of a venue whose id is the rest of a condition, and a listing for it. -/
def craftedBoard : BoardRow where
  id := "board".toList
  venueId := "' or '1'='1".toList

/-- A request for the history of a client by the board of its venue. -/
def craftedRequest : Request where
  parameters := [("boardId".toList, "board".toList)]
  client := some "aabbccddeeff".toList
  userRole := .csr

/-- The venue's quote ends its literal. -/
theorem crafted_board_injects : ¬ QueriesIntended [craftedBoard] craftedRequest := by
  intro h
  have hplan : getPlan [craftedBoard] craftedRequest = some (.getRecords
      " venue_id='' or '1'='1' and station_id='aabbccddeeff' ".toList
      " ORDER BY timestamp DESC ".toList) := by
    decide +kernel
  obtain ⟨_, _, _, _, _, _, hread⟩ := h.conditions _ _ hplan rfl
  have hnone : Sql.read " venue_id='' or '1'='1' and station_id='aabbccddeeff' ".toList = none := by
    decide +kernel
  rw [hnone] at hread
  cases hread

end OwAnalytics.Clients
