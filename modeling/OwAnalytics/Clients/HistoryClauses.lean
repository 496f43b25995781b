/-
  OwAnalytics.Clients.HistoryClauses

  The conditions of `RESTAPI_wificlienthistory_handler` as they are read.  Between its
  quotes a venue that has been escaped is read back as it was, and a client has no
  quotes to escape; a venue put in as it is, is read back only without quotes.
-/

import OwAnalytics.Clients.HistoryHandler

namespace OwAnalytics.Clients

open Mcp (isHex)
open Sql (Comparison Mode Token escape lexFrom lexFrom_append scan)
open Storage

/-! ## The texts -/

/-- The comparisons with the dates, as text. -/
def dateText (fromDate endDate : UInt64) : Str :=
  (if fromDate = 0 then [] else " and timestamp".toList ++ '>' :: '=' :: decimal fromDate) ++
    if endDate = 0 then [] else " and timestamp".toList ++ '<' :: '=' :: decimal endDate

/-- The text of the clauses with their arguments in place. -/
def clauseText (venue stationId : Str) (fromDate endDate : UInt64) : Str :=
  " venue_id='".toList ++ (venue ++ ("' and station_id='".toList ++ (stationId ++
    ("'".toList ++ (dateText fromDate endDate ++ " ".toList)))))

theorem getClause_eq (venue stationId : Str) (fromDate endDate : UInt64) :
    getClause venue stationId fromDate endDate
      = some (clauseText venue stationId fromDate endDate) := by
  unfold getClause clauseText dateText
  by_cases hfrom : fromDate = 0
  · by_cases hend : endDate = 0
    · simp only [hfrom, hend, ne_eq, not_true_eq_false, and_self, and_false, if_false, if_true]
      rfl
    · simp only [hfrom, hend, ne_eq, not_true_eq_false, not_false_eq_true, and_true, and_false,
        if_false, if_true, List.nil_append, List.append_assoc]
      rfl
  · by_cases hend : endDate = 0
    · simp only [hfrom, hend, ne_eq, not_true_eq_false, not_false_eq_true, and_true, and_false,
        if_false, if_true, List.append_nil, List.append_assoc]
      rfl
    · simp only [hfrom, hend, ne_eq, not_false_eq_true, and_true, if_false, if_true,
        List.append_assoc]
      rfl

/-- With a date the two calls put the same condition together. -/
theorem deleteClause_of_date {fromDate endDate : UInt64} (h : fromDate ≠ 0 ∨ endDate ≠ 0)
    (venue stationId : Str) :
    deleteClause venue stationId fromDate endDate
      = getClause venue stationId fromDate endDate := by
  unfold deleteClause getClause
  by_cases hfrom : fromDate = 0
  · have hend : endDate ≠ 0 := h.resolve_left (not_not_intro hfrom)
    simp only [hfrom, hend, ne_eq, not_true_eq_false, not_false_eq_true, and_true, and_false,
      if_false, if_true]
  · by_cases hend : endDate = 0
    · simp only [hfrom, hend, ne_eq, not_true_eq_false, not_false_eq_true, and_true, and_false,
        if_false, if_true]
    · simp only [hfrom, hend, ne_eq, not_false_eq_true, and_true, if_true]

/-- Without one, `DoDelete` throws. -/
theorem deleteClause_no_date (venue stationId : Str) : deleteClause venue stationId 0 0 = none := by
  rfl

/-! ## The comparisons -/

/-- The bounds of the time, of which a date 0 sets none. -/
def dateComparisons (fromDate endDate : UInt64) : List Comparison :=
  (if fromDate = 0 then [] else [.ge "timestamp".toList fromDate.toNat]) ++
    if endDate = 0 then [] else [.le "timestamp".toList endDate.toNat]

/-- What a condition is meant to compare. -/
def comparisons (venueId stationId : Str) (fromDate endDate : UInt64) : List Comparison :=
  .eq "venue_id".toList venueId :: .eq "station_id".toList stationId ::
    dateComparisons fromDate endDate

theorem number_decimal (n : UInt64) : Sql.number (decimal n) = n.toNat :=
  Nat.ofDigitChars_ten_toDigits

theorem scan_decimal (n : UInt64) : scan .between (decimal n) = ([], .digits (decimal n)) :=
  Sql.scan_between_digits Nat.toDigits_ne_nil fun _ =>
    Nat.isDigit_of_mem_toDigits (by decide) (by decide)

/-- A comparison with a number, behind a token that the blank ends. -/
theorem lexFrom_date {m : Mode} {t : Token} (hblank : Sql.step m ' ' = ([t], .between)) {c : Char}
    (hc : c = '>' ∨ c = '<') {digits : Str}
    (hdigits : scan .between digits = ([], .digits digits)) (rest : Str) :
    lexFrom m (" and timestamp".toList ++ c :: '=' :: (digits ++ rest))
      = (lexFrom (.digits digits) rest).map
          ([t, .word "and".toList, .word "timestamp".toList, .symbol c, .symbol '='] ++ ·) := by
  have hwords : scan .between ("and timestamp".toList ++ [c, '='])
      = ([.word "and".toList, .word "timestamp".toList, .symbol c, .symbol '='], .between) := by
    rcases hc with rfl | rfl
    · rfl
    · rfl
  have hhead : scan m (' ' :: ("and timestamp".toList ++ [c, '=']))
      = ([t, .word "and".toList, .word "timestamp".toList, .symbol c, .symbol '='], .between) := by
    rw [scan, hblank, hwords]
    rfl
  have htext : " and timestamp".toList ++ c :: '=' :: (digits ++ rest)
      = ' ' :: ("and timestamp".toList ++ [c, '=']) ++ (digits ++ rest) := by simp
  rw [htext, lexFrom_append, hhead, lexFrom_append, hdigits]
  simp

/-- The tokens of the comparisons with the dates. -/
def dateTokens (fromDate endDate : UInt64) : List Token :=
  (if fromDate = 0 then []
    else
      [.word "and".toList, .word "timestamp".toList, .symbol '>', .symbol '=',
        .digits (decimal fromDate)]) ++
    if endDate = 0 then []
    else
      [.word "and".toList, .word "timestamp".toList, .symbol '<', .symbol '=',
        .digits (decimal endDate)]

theorem lexFrom_digits (digits : Str) :
    lexFrom (.digits digits) " ".toList = some [.digits digits] := rfl

theorem lexFrom_dateText (stationId : Str) (fromDate endDate : UInt64) :
    lexFrom (.quote stationId) (dateText fromDate endDate ++ " ".toList)
      = some (.literal stationId :: dateTokens fromDate endDate) := by
  have hquote : Sql.step (.quote stationId) ' ' = ([.literal stationId], .between) := rfl
  have hdigits : ∀ digits, Sql.step (.digits digits) ' ' = ([.digits digits], .between) :=
    fun _ => rfl
  unfold dateText dateTokens
  -- a date of 0 has no text
  by_cases hfrom : fromDate = 0
  · by_cases hend : endDate = 0
    · simp only [hfrom, hend, if_true]
      rfl
    · simp only [hfrom, hend, if_true, if_false, List.nil_append, List.append_assoc,
        List.cons_append]
      rw [lexFrom_date hquote (.inr rfl) (scan_decimal endDate), lexFrom_digits]
      simp
  · by_cases hend : endDate = 0
    · simp only [hfrom, hend, if_true, if_false, List.append_nil, List.append_assoc,
        List.cons_append]
      rw [lexFrom_date hquote (.inl rfl) (scan_decimal fromDate), lexFrom_digits]
      simp
    · simp only [hfrom, hend, if_false, List.append_assoc, List.cons_append]
      rw [lexFrom_date hquote (.inl rfl) (scan_decimal fromDate),
        lexFrom_date (hdigits _) (.inr rfl) (scan_decimal endDate), lexFrom_digits]
      simp

/-! ## The venue and the client between their quotes -/

theorem not_quote_of_validSerialNumber {stationId : Str}
    (h : validSerialNumber stationId = true) : '\'' ∉ stationId := by
  intro hmem
  simp only [validSerialNumber, Bool.and_eq_true, List.all_eq_true] at h
  exact absurd (h.2 _ hmem) (by decide)

/-- Up to the venue the text is read whatever the venue is. -/
theorem lexFrom_clauseText (venue stationId : Str) (fromDate endDate : UInt64) :
    lexFrom .between (clauseText venue stationId fromDate endDate)
      = (lexFrom (.literal []) (venue ++ ("' and station_id='".toList ++ (stationId ++
          ("'".toList ++ (dateText fromDate endDate ++ " ".toList)))))).map
          fun tokens => .word "venue_id".toList :: .symbol '=' :: tokens := by
  have hhead : scan .between " venue_id='".toList
      = ([.word "venue_id".toList, .symbol '='], .literal []) := rfl
  unfold clauseText
  rw [lexFrom_append, hhead]
  simp only [List.cons_append, List.nil_append]

/-- From the venue's quote on. -/
theorem lexFrom_afterVenue {stationId : Str} (hstation : '\'' ∉ stationId) (venueId : Str)
    (fromDate endDate : UInt64) :
    lexFrom (.literal venueId) ("' and station_id='".toList ++ (stationId ++
        ("'".toList ++ (dateText fromDate endDate ++ " ".toList))))
      = some ([.literal venueId, .word "and".toList, .word "station_id".toList, .symbol '=',
          .literal stationId] ++ dateTokens fromDate endDate) := by
  have hmiddle : scan (.literal venueId) "' and station_id='".toList
      = ([.literal venueId, .word "and".toList, .word "station_id".toList, .symbol '='],
        .literal []) := rfl
  have hclient : scan (.literal []) stationId = ([], .literal stationId) := by
    conv_lhs => rw [← Sql.escape_eq_self hstation]
    exact Sql.scan_escape [] stationId
  have hclose : scan (.literal stationId) "'".toList = ([], .quote stationId) := rfl
  rw [lexFrom_append, hmiddle, lexFrom_append, hclient, lexFrom_append, hclose, lexFrom_dateText]
  simp

/-- With the venue escaped the condition is read as the comparisons it is meant to be. -/
theorem read_clauseText {stationId : Str} (hstation : validSerialNumber stationId = true)
    (venueId : Str) (fromDate endDate : UInt64) :
    Sql.read (clauseText (escape venueId) stationId fromDate endDate)
      = some (comparisons venueId stationId fromDate endDate) := by
  have hvenue : scan (.literal []) (escape venueId) = ([], .literal venueId) :=
    Sql.scan_escape [] venueId
  have hlex := lexFrom_clauseText (escape venueId) stationId fromDate endDate
  rw [lexFrom_append, hvenue, lexFrom_afterVenue (not_quote_of_validSerialNumber hstation)] at hlex
  rw [Sql.read, Sql.lex_eq_lexFrom, hlex]
  unfold dateTokens comparisons dateComparisons
  by_cases hfrom : fromDate = 0
  · by_cases hend : endDate = 0
    · simp [hfrom, hend, Sql.conjunction]
    · simp [hfrom, hend, Sql.conjunction, number_decimal]
  · by_cases hend : endDate = 0
    · simp [hfrom, hend, Sql.conjunction, number_decimal]
    · simp [hfrom, hend, Sql.conjunction, number_decimal]

/-- With a venue put in as it is, only if the venue has no quote. -/
theorem not_quote_of_read_clauseText {venueId stationId : Str} {fromDate endDate : UInt64}
    (h : Sql.read (clauseText venueId stationId fromDate endDate)
      = some (comparisons venueId stationId fromDate endDate)) : '\'' ∉ venueId := by
  rw [Sql.read, Sql.lex_eq_lexFrom, lexFrom_clauseText] at h
  obtain ⟨tokens, htokens, hread⟩ := Option.bind_eq_some_iff.mp h
  obtain ⟨rest, hrest, rfl⟩ := Option.map_eq_some_iff.mp htokens
  obtain ⟨ts, rfl⟩ := Sql.eq_literal_of_conjunction hread
  obtain ⟨w, s, hw, htext⟩ := Sql.eq_escape_of_lexFrom_literal _ _ _ _ hrest
  rw [List.nil_append] at hw
  subst hw
  exact Sql.not_mem_of_append_eq_escape (by decide : ' ' ≠ '\'') htext

/-! ## The requests that get to a query -/

/-- The condition of a query. -/
def GetPlan.clause? : GetPlan → Option Str
  | .count clause => some clause
  | .getRecords clause _ => some clause
  | _ => none

/-- The request gets past all checks of `DoGet`, with this venue text and these dates. -/
structure BuildsClause (boards : List BoardRow) (r : Request) (venue : Str)
    (fromDate endDate : UInt64) : Prop where
  orderSpec : r.getBoolParameter "orderSpec" = false
  venue : selectVenue boards r = some venue
  macsOnly : r.getBoolParameter "macsOnly" = false
  serial : validSerialNumber r.stationId = true
  orderBy : r.orderBy ≠ none
  fromDate : r.getNumber "fromDate" = some fromDate
  endDate : r.getNumber "endDate" = some endDate

/-- The plan of such a request. -/
theorem getPlan_of_buildsClause {boards : List BoardRow} {r : Request} {venue : Str}
    {fromDate endDate : UInt64} (h : BuildsClause boards r venue fromDate endDate) :
    ∃ orderBy, getPlan boards r = some
      (if r.getBoolParameter "countOnly" then
        .count (clauseText venue r.stationId fromDate endDate)
      else .getRecords (clauseText venue r.stationId fromDate endDate) orderBy) := by
  obtain ⟨orderBy, horder⟩ := Option.ne_none_iff_exists'.mp h.orderBy
  refine ⟨orderBy, ?_⟩
  unfold getPlan
  simp only [h.orderSpec, h.venue, h.macsOnly, h.serial, horder, h.fromDate, h.endDate,
    getClause_eq, Bool.false_eq_true, if_false, Bool.true_eq_false]
  rfl

/-- A request that is answered from the cache. -/
def AsksCache (r : Request) : Prop :=
  r.getBoolParameter "orderSpec" = false ∧ r.getBoolParameter "macsOnly" = true

theorem getPlan_of_asksCache {boards : List BoardRow} {r : Request} (h : AsksCache r)
    {venue : Str} (hvenue : selectVenue boards r = some venue) :
    getPlan boards r = some (.findNumbers venue (r.getParameter "macFilter")) := by
  unfold getPlan
  simp only [h.1, h.2, hvenue, Bool.false_eq_true, if_false, if_true]

/-- All that `DoGet` does. -/
theorem getPlan_cases {boards : List BoardRow} {r : Request} {plan : GetPlan}
    (hplan : getPlan boards r = some plan) :
    plan = .returnFieldList ∨ (∃ e, plan = .badRequest e) ∨
    (AsksCache r ∧ ∃ venue, selectVenue boards r = some venue ∧
      plan = .findNumbers venue (r.getParameter "macFilter")) ∨
    ∃ venue fromDate endDate, BuildsClause boards r venue fromDate endDate ∧
      plan.clause? = some (clauseText venue r.stationId fromDate endDate) := by
  -- One split for each check of the source, in its order; the first that fails ends the request.
  unfold getPlan at hplan
  cases hspec : r.getBoolParameter "orderSpec" with
  | true =>
      rw [hspec] at hplan
      cases hplan
      exact .inl rfl
  | false =>
  cases hvenue : selectVenue boards r with
  | none =>
      rw [hspec, hvenue] at hplan
      cases hplan
      exact .inr (.inl ⟨_, rfl⟩)
  | some venue =>
  cases hmacs : r.getBoolParameter "macsOnly" with
  | true =>
      rw [hspec, hvenue, hmacs] at hplan
      cases hplan
      exact .inr (.inr (.inl ⟨⟨hspec, hmacs⟩, venue, rfl, rfl⟩))
  | false =>
  cases hserial : validSerialNumber r.stationId with
  | false =>
      rw [hspec, hvenue, hmacs, hserial] at hplan
      cases hplan
      exact .inr (.inl ⟨_, rfl⟩)
  | true =>
  cases horder : r.orderBy with
  | none =>
      rw [hspec, hvenue, hmacs, hserial, horder] at hplan
      cases hplan
      exact .inr (.inl ⟨_, rfl⟩)
  | some orderBy =>
      rw [hspec, hvenue, hmacs, hserial, horder] at hplan
      obtain ⟨fromDate, hfrom, hplan⟩ := Option.bind_eq_some_iff.mp hplan
      obtain ⟨endDate, hend, hplan⟩ := Option.bind_eq_some_iff.mp hplan
      rw [getClause_eq] at hplan
      refine .inr (.inr (.inr ⟨venue, fromDate, endDate,
        ⟨hspec, hvenue, hmacs, hserial, by simp [horder], hfrom, hend⟩, ?_⟩))
      -- The count and the listing are asked with the same condition.
      cases hcount : r.getBoolParameter "countOnly" with
      | true =>
          rw [hcount] at hplan
          cases hplan
          rfl
      | false =>
          rw [hcount] at hplan
          cases hplan
          rfl

/-- A condition is built for no other request. -/
theorem buildsClause_of_getPlan {boards : List BoardRow} {r : Request} {plan : GetPlan}
    (hplan : getPlan boards r = some plan) {clause : Str} (hclause : plan.clause? = some clause) :
    ∃ venue fromDate endDate, BuildsClause boards r venue fromDate endDate ∧
      clause = clauseText venue r.stationId fromDate endDate := by
  rcases getPlan_cases hplan with rfl | ⟨e, rfl⟩ | ⟨-, venue, -, rfl⟩ |
    ⟨venue, fromDate, endDate, hbuilds, htext⟩
  · cases hclause
  · cases hclause
  · cases hclause
  · rw [hclause] at htext
    exact ⟨venue, fromDate, endDate, hbuilds, Option.some.inj htext⟩

/-- And the cache is asked for no other. -/
theorem asksCache_of_getPlan {boards : List BoardRow} {r : Request} {key macFilter : Str}
    (hplan : getPlan boards r = some (.findNumbers key macFilter)) :
    AsksCache r ∧ selectVenue boards r = some key := by
  rcases getPlan_cases hplan with h | ⟨e, h⟩ | ⟨hasks, venue, hvenue, h⟩ | ⟨_, _, _, _, htext⟩
  · cases h
  · cases h
  · cases h
    exact ⟨hasks, hvenue⟩
  · cases htext

end OwAnalytics.Clients
