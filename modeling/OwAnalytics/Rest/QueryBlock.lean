/-
  OwAnalytics.Rest.QueryBlock

  `InitQueryBlock` (`framework/RESTAPI_Handler.h`), which every request passes before
  its handler runs, and the search of the client history: the conversions of numbers
  that no handler answers for.
-/

import OwAnalytics.Ap.FilterText
import OwAnalytics.Rest.Parameters

namespace OwAnalytics.Rest

open Ap (Convertible WifiClientCache searchText)

/-- `QueryBlock`. -/
structure QueryBlock where
  startDate : UInt64 := 0
  endDate : UInt64 := 0
  offset : UInt64 := 0
  limit : UInt64 := 0
  logType : UInt64 := 0
  serialNumber : Str := []
  filter : Str := []
  select : List Str := []
  lifetime : Bool := false
  lastOnly : Bool := false
  newest : Bool := false
  countOnly : Bool := false
  additionalInfo : Bool := false

/-- `InitQueryBlock`, the first time it is called. -/
def initQueryBlock (parameters : Parameters) : Result QueryBlock := do
  let startDate ← parameters.getNumber "startDate".toList 0
  let endDate ← parameters.getNumber "endDate".toList 0
  let offset ← parameters.getNumber "offset".toList 0
  let limit ← parameters.getNumber "limit".toList 100
  let logType ← parameters.getNumber "logType".toList 0
  return {
    serialNumber := parameters.getText "serialNumber".toList []
    startDate
    endDate
    offset := if offset < 1 then 0 else offset
    limit
    filter := parameters.getText "filter".toList []
    lifetime := parameters.getBoolParameter "lifetime".toList false
    logType
    lastOnly := parameters.getBoolParameter "lastOnly".toList false
    newest := parameters.getBoolParameter "newest".toList false
    countOnly := parameters.getBoolParameter "countOnly".toList false
    additionalInfo := parameters.getBoolParameter "withExtendedInfo".toList false
    select := tokens (parameters.getText "select".toList []) ',' }

/-- `FindNumbers`, with the exception of a filter that is no number. -/
def findNumbers (cache : WifiClientCache) (venueId filter : Str) (offset howMany : UInt64) :
    Result (List UInt64) :=
  match cache.findNumbers venueId filter offset howMany with
  | none => .error .invalidArgument
  | some numbers => .ok numbers

/-- The search of `DoGet` of the client history for `macsOnly`. -/
def macFilterSearch (parameters : Parameters) (cache : WifiClientCache) (venueId : Str)
    (offset howMany : UInt64) : Result (List UInt64) :=
  findNumbers cache venueId (parameters.getText "macFilter".toList []) offset howMany

/-- The names `InitQueryBlock` reads numbers of. -/
def blockNames : List Str :=
  ["startDate", "endDate", "offset", "limit", "logType"].map String.toList

/-! ## What they throw -/

/-- The first number that does not fit ends the request. -/
theorem escapes_initQueryBlock_iff {parameters : Parameters} :
    Escapes (initQueryBlock parameters) ↔ ∃ name ∈ blockNames, Oversized parameters name := by
  have hescapes : ∀ {name : String} {result : Result QueryBlock},
      name.toList ∈ blockNames → Oversized parameters name.toList →
      result = .error .outOfRange →
        (Escapes result ↔ ∃ name ∈ blockNames, Oversized parameters name) := by
    rintro name result hname hover rfl
    exact iff_of_true (escapes_error nofun) ⟨name.toList, hname, hover⟩
  -- the parameters are read one after the other, and the first that is too large throws
  rcases getNumber_result parameters "startDate".toList 0 with ⟨hover, he⟩ | ⟨hstart, _, h₁⟩
  · exact hescapes (by decide) hover (by rw [initQueryBlock, he]; rfl)
  rcases getNumber_result parameters "endDate".toList 0 with ⟨hover, he⟩ | ⟨hend, _, h₂⟩
  · exact hescapes (by decide) hover (by rw [initQueryBlock, h₁, he]; rfl)
  rcases getNumber_result parameters "offset".toList 0 with ⟨hover, he⟩ | ⟨hoffset, _, h₃⟩
  · exact hescapes (by decide) hover (by rw [initQueryBlock, h₁, h₂, he]; rfl)
  rcases getNumber_result parameters "limit".toList 100 with ⟨hover, he⟩ | ⟨hlimit, _, h₄⟩
  · exact hescapes (by decide) hover (by rw [initQueryBlock, h₁, h₂, h₃, he]; rfl)
  rcases getNumber_result parameters "logType".toList 0 with ⟨hover, he⟩ | ⟨htype, _, h₅⟩
  · exact hescapes (by decide) hover (by rw [initQueryBlock, h₁, h₂, h₃, h₄, he]; rfl)
  -- all of them were read
  have hok : ∃ block, initQueryBlock parameters = .ok block := by
    rw [initQueryBlock, h₁, h₂, h₃, h₄, h₅]
    exact ⟨_, rfl⟩
  obtain ⟨block, hblock⟩ := hok
  rw [hblock]
  refine iff_of_false (not_escapes_ok block) ?_
  rintro ⟨name, hname, hover⟩
  simp only [blockNames, List.map_cons, List.map_nil, List.mem_cons, List.not_mem_nil,
    or_false] at hname
  rcases hname with rfl | rfl | rfl | rfl | rfl
  · exact hstart hover
  · exact hend hover
  · exact hoffset hover
  · exact hlimit hover
  · exact htype hover

theorem escapes_macFilterSearch_iff {parameters : Parameters} {cache : WifiClientCache}
    {venueId : Str} {offset howMany : UInt64} :
    ¬ Escapes (macFilterSearch parameters cache venueId offset howMany) ↔
      ((cache venueId).isSome = true →
        Convertible (searchText (parameters.getText "macFilter".toList []))) := by
  rw [← @Ap.findNumbers_isSome_iff cache venueId _ offset howMany, macFilterSearch, findNumbers]
  cases cache.findNumbers venueId (parameters.getText "macFilter".toList []) offset howMany with
  | none =>
      refine iff_of_false (fun h => h (escapes_error nofun)) ?_
      exact Bool.false_ne_true
  | some numbers => exact iff_of_true (not_escapes_ok numbers) rfl

/-! ## Requests -/

/-- The query string of a request throws nothing that is not answered, and the numbers of these
    names are read exactly. -/
structure Answers (parameters : Parameters) (names : List Str) (cache : WifiClientCache)
    (venueId : Str) (offset howMany : UInt64) : Prop where
  block : ¬ Escapes (initQueryBlock parameters)
  number : ∀ name ∈ blockNames ++ names, Exact parameters name ∧
    ∀ default, ¬ Escapes (parameters.getNumber name default)
  search : ¬ Escapes (macFilterSearch parameters cache venueId offset howMany)

/-- It does so iff no numeral is out of range, and the filter is a number where it is looked
    for. -/
theorem query_answers_iff (parameters : Parameters) (names : List Str) (cache : WifiClientCache)
    (venueId : Str) (offset howMany : UInt64) :
    Answers parameters names cache venueId offset howMany ↔
      (∀ name ∈ blockNames ++ names, ¬ Oversized parameters name) ∧
        ((cache venueId).isSome = true →
          Convertible (searchText (parameters.getText "macFilter".toList []))) := by
  rw [← @escapes_macFilterSearch_iff parameters cache venueId offset howMany]
  constructor
  · intro h
    exact ⟨fun name hname => exact_iff.mp (h.number name hname).1, h.search⟩
  · rintro ⟨hfits, hsearch⟩
    refine ⟨?_, fun name hname => ?_, hsearch⟩
    · rw [escapes_initQueryBlock_iff]
      rintro ⟨name, hname, hover⟩
      exact hfits name (List.mem_append_left _ hname) hover
    · have hname' := hfits name hname
      exact ⟨exact_iff.mpr hname', fun default h => hname' (escapes_getNumber_iff.mp h)⟩

/-- A limit of `2 ^ 64` ends a request without an answer. -/
theorem limit_escapes :
    ¬ ∀ (parameters : Parameters) (names : List Str) (cache : WifiClientCache) (venueId : Str)
      (offset howMany : UInt64), Answers parameters names cache venueId offset howMany := by
  intro h
  have hblock := (h [("limit".toList, "18446744073709551616".toList)] [] (fun _ => none) [] 0
    100).block
  have herror : initQueryBlock [("limit".toList, "18446744073709551616".toList)] =
      .error .outOfRange := rfl
  rw [herror] at hblock
  exact hblock (escapes_error nofun)

end OwAnalytics.Rest
