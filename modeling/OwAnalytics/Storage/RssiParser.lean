/-
  OwAnalytics.Storage.RssiParser

  `ParseSsidDataForRssi`, which skips what it cannot read in the SSIDs of a time point,
  next to `to_object_array`, which ends at the first element that is not an object and
  takes a record that was read in part as it is.
-/

import OwAnalytics.Storage.JsonReading
import OwAnalytics.Storage.TimePointJson

namespace OwAnalytics.Storage

open Ap Boards Document

variable {F : Type} [Zero F] (L : JsonLibrary F)

/-! ## The two decoders -/

/-- One turn of the loop over the associations; the handlers end the turn. -/
def cleanAssociation (clean : List (Document F)) (item : Document F) : List (Document F) :=
  match item with
  | .obj fields =>
    match UETimePoint.decode L (.obj fields) {} with
    | (_, true) => clean ++ [.obj fields]
    | (_, false) => clean
  | _ => clean

/-- The object with its associations replaced, if it has an array of them. -/
def cleanObject (fields : List (Str × Document F)) : Document F :=
  match (obj fields).find? "associations" with
  | some (.arr associations) =>
    .obj (setMember "associations".toList
      (.arr (associations.foldl (cleanAssociation L) [])) fields)
  | _ => .obj fields

/-- One turn of the loop over the SSIDs; the handlers end the turn. -/
def parseSsid (ssids : List (SSIDTimePoint F)) (item : Document F) : List (SSIDTimePoint F) :=
  match item with
  | .obj fields =>
    match SSIDTimePoint.decode L (cleanObject L fields) {} with
    | (ssid, true) => ssids ++ [ssid]
    | (_, false) => ssids
  | _ => ssids

/-- `ParseSsidDataForRssi`: its answer and its list. -/
def parseSsidDataForRssi (json : Str) : Bool × List (SSIDTimePoint F) :=
  if json.isEmpty then (true, [])
  else
    match L.parse json with
    | some (.arr items) => (true, items.foldl (parseSsid L) [])
    | _ => (false, [])

/-- The loop of `to_object_array`. -/
def objectArray {R : Type} (decode : Document F → R) (items : List (Document F)) : List R :=
  (pushObjects decode (fun rs r => rs ++ [r]) items []).1

omit [Zero F] in
theorem toObjectArray_eq {R : Type} {text : Str} {items : List (Document F)} (hne : text ≠ [])
    (h : L.parse text = some (.arr items)) (decode : Document F → R) :
    toObjectArray L decode text = objectArray decode items := by
  rw [toObjectArray, if_neg (by simpa using hne), h]
  rfl

omit [Zero F] in
theorem objectArray_eq_map {R : Type} {items : List (Document F)}
    (h : ∀ d ∈ items, ∃ fields, d = .obj fields) (decode : Document F → R) :
    objectArray decode items = items.map decode := by
  rw [objectArray, pushObjects_eq h, foldl_push, List.nil_append]

/-! ## What is deleted -/

/-- An object whose `UETimePoint::from_json` does not fail. -/
def isAssociation : Document F → Bool
  | .obj fields => (UETimePoint.decode L (.obj fields) {}).2
  | _ => false

/-- An object whose `SSIDTimePoint::from_json` does not fail. -/
def isSsid : Document F → Bool
  | .obj fields => (SSIDTimePoint.decode L (.obj fields) {}).2
  | _ => false

/-- A member of an SSID, without the associations that cannot be read. -/
def deleteMember (k : Str) : Document F → Document F
  | .arr items =>
    .arr (if k = "associations".toList then items.filter (isAssociation L) else items)
  | d => d

/-- An SSID without the associations that cannot be read. -/
def deleteAssociations : Document F → Document F
  | .obj fields => .obj (fields.map fun e => (e.1, deleteMember L e.1 e.2))
  | d => d

/-- An array without the SSIDs and, in each, the associations that cannot be read. -/
def deleteMalformed (items : List (Document F)) : List (Document F) :=
  (items.map (deleteAssociations L)).filter (isSsid L)

/-- An SSID that can be read, and all its associations. -/
structure WellFormed (d : Document F) : Prop where
  ssid : isSsid L d = true
  associations : ∀ items, d.find? "associations" = some (.arr items) →
    ∀ a ∈ items, isAssociation L a = true

variable {L}

theorem exists_obj_of_isSsid {d : Document F} (h : isSsid L d = true) :
    ∃ fields, d = .obj fields := by
  cases d with
  | obj fields => exact ⟨fields, rfl⟩
  | _ => cases h

theorem foldl_cleanAssociation (items clean : List (Document F)) :
    items.foldl (cleanAssociation L) clean = clean ++ items.filter (isAssociation L) := by
  induction items generalizing clean with
  | nil => simp
  | cons item rest ih =>
      rw [List.foldl_cons, ih]
      -- an association is kept if it is an object and can be decoded
      cases item with
      | obj fields =>
          have hanswer :
              isAssociation L (.obj fields) = (UETimePoint.decode L (.obj fields) {}).2 :=
            rfl
          cases hdecode : UETimePoint.decode L (.obj fields) {} with
          | mk u ok =>
              rw [hdecode] at hanswer
              cases ok with
              | true =>
                  rw [List.filter_cons_of_pos hanswer, cleanAssociation, hdecode]
                  simp
              | false => rw [List.filter_cons_of_neg (by simp [hanswer]), cleanAssociation, hdecode]
      | _ => rw [List.filter_cons_of_neg (by simp [isAssociation])]; rfl

/-! ## One SSID -/

omit [Zero F] in
theorem lookup_map_snd (k : Str) (fields : List (Str × Document F))
    (f : Str → Document F → Document F) :
    (fields.map fun e => (e.1, f e.1 e.2)).lookup k = (fields.lookup k).map (f k) := by
  induction fields with
  | nil => rfl
  | cons e rest ih =>
      rw [List.map_cons, lookup_cons_eq, lookup_cons_eq, ih]
      by_cases hk : k = e.1
      · rw [if_pos hk, if_pos hk, hk]
        rfl
      · rw [if_neg hk, if_neg hk]

theorem find?_deleteAssociations (d : Document F) (field : String) :
    (deleteAssociations L d).find? field = (d.find? field).map (deleteMember L field.toList) := by
  cases d with
  | obj fields => exact lookup_map_snd field.toList fields (deleteMember L)
  | _ => rfl

/-- What is read of an SSID is a matter of its members. -/
theorem decode_congr {d d' : Document F} (h : ∀ field, d.find? field = d'.find? field)
    (ssid : SSIDTimePoint F) : SSIDTimePoint.decode L d ssid = SSIDTimePoint.decode L d' ssid := by
  simp only [SSIDTimePoint.decode, inTurn, stringFromJson, uint64FromJson, fieldFromJson,
    vectorFromJson, objectFromJson, h]

theorem deleteMember_of_ne {k : Str} (hk : k ≠ "associations".toList) :
    deleteMember L k = id := by
  funext d
  cases d with
  | arr items => rw [deleteMember, if_neg hk, id]
  | _ => rfl

/-- An object in which the associations are no array stays as it is. -/
theorem find?_deleteAssociations_of_not_array {fields : List (Str × Document F)}
    (h : ∀ items, (obj fields).find? "associations" ≠ some (.arr items)) (field : String) :
    (deleteAssociations L (.obj fields)).find? field = (obj fields).find? field := by
  rw [find?_deleteAssociations]
  by_cases hfield : field.toList = "associations".toList
  · have hsame : (obj fields).find? field = (obj fields).find? "associations" :=
      congrArg (fun k => List.lookup k fields) hfield
    rw [hsame]
    cases hfind : (obj fields).find? "associations" with
    | none => rfl
    | some d =>
        cases d with
        | arr items => exact absurd hfind (h items)
        | _ => rfl
  · rw [deleteMember_of_ne hfield, Option.map_id, id]

/-- The array of associations is replaced, and the other members stay. -/
theorem find?_cleanObject (fields : List (Str × Document F)) (field : String) :
    (cleanObject L fields).find? field = (deleteAssociations L (.obj fields)).find? field := by
  rw [cleanObject]
  split
  · rename_i items hfind
    -- `set` puts the cleaned array where the old one was, found again under the same name.
    rw [find?_deleteAssociations, find?, lookup_setMember, foldl_cleanAssociation, List.nil_append]
    rw [find?] at hfind ⊢
    by_cases hfield : field.toList = "associations".toList
    · rw [if_pos hfield, hfield, hfind, Option.map_some, deleteMember, if_pos rfl]
    · rw [if_neg hfield, deleteMember_of_ne hfield, Option.map_id, id]
  · rename_i hfind
    exact (find?_deleteAssociations_of_not_array hfind field).symm

theorem decode_answer (fields : List (Str × Document F)) :
    SSIDTimePoint.decode L (.obj fields) {} =
      (SSIDTimePoint.fromJson L {} (.obj fields), isSsid L (.obj fields)) := rfl

/-- One turn of the loop reads the SSID without the associations that cannot be read. -/
theorem parseSsid_eq (ssids : List (SSIDTimePoint F)) (item : Document F) :
    parseSsid L ssids item =
      if isSsid L (deleteAssociations L item) = true then
        ssids ++ [SSIDTimePoint.fromJson L {} (deleteAssociations L item)]
      else ssids := by
  cases item with
  | obj fields =>
      -- The cleaned object is read like one with the associations deleted, member by member.
      rw [parseSsid, decode_congr (find?_cleanObject fields), deleteAssociations, decode_answer]
      cases isSsid L (obj _) with
      | true => rfl
      | false => rfl
  | _ => rfl

theorem deleteMalformed_cons (item : Document F) (rest : List (Document F)) :
    deleteMalformed L (item :: rest) =
      if isSsid L (deleteAssociations L item) = true then
        deleteAssociations L item :: deleteMalformed L rest
      else deleteMalformed L rest := by
  rw [deleteMalformed, List.map_cons, List.filter_cons]
  rfl

theorem foldl_parseSsid (items : List (Document F)) (ssids : List (SSIDTimePoint F)) :
    items.foldl (parseSsid L) ssids =
      ssids ++ (deleteMalformed L items).map (SSIDTimePoint.fromJson L {}) := by
  induction items generalizing ssids with
  | nil => simp [deleteMalformed]
  | cons item rest ih =>
      rw [List.foldl_cons, ih, parseSsid_eq, deleteMalformed_cons]
      by_cases hitem : isSsid L (deleteAssociations L item) = true
      · rw [if_pos hitem, if_pos hitem, List.map_cons, List.append_assoc, List.singleton_append]
      · rw [if_neg hitem, if_neg hitem]

/-- Nothing is deleted of an SSID that can be read with all its associations. -/
theorem WellFormed.find? {d : Document F} (h : WellFormed L d) (field : String) :
    (deleteAssociations L d).find? field = d.find? field := by
  obtain ⟨fields, rfl⟩ := exists_obj_of_isSsid h.ssid
  by_cases harray : ∃ items, (obj fields).find? "associations" = some (.arr items)
  · obtain ⟨items, hfind⟩ := harray
    rw [find?_deleteAssociations]
    by_cases hfield : field.toList = "associations".toList
    · have hsame : (obj fields).find? field = some (.arr items) :=
        (congrArg (fun k => List.lookup k fields) hfield).trans hfind
      rw [hsame, Option.map_some, deleteMember, if_pos hfield,
        List.filter_eq_self.mpr (h.associations items hfind)]
    · rw [deleteMember_of_ne hfield, Option.map_id, id]
  · exact find?_deleteAssociations_of_not_array (not_exists.mp harray) field

theorem deleteMalformed_of_wellFormed {items : List (Document F)}
    (h : ∀ d ∈ items, WellFormed L d) :
    (deleteMalformed L items).map (SSIDTimePoint.fromJson L {}) =
      items.map (SSIDTimePoint.fromJson L {}) := by
  have hdecode : ∀ d ∈ items, SSIDTimePoint.decode L (deleteAssociations L d) {} =
      SSIDTimePoint.decode L d {} :=
    fun d hd => decode_congr (h d hd).find? {}
  have hkept : ∀ d ∈ items.map (deleteAssociations L), isSsid L d = true := by
    intro d hd
    obtain ⟨x, hx, rfl⟩ := List.mem_map.mp hd
    have hssid := (h x hx).ssid
    have hsame := congrArg Prod.snd (hdecode x hx)
    obtain ⟨fields, rfl⟩ := exists_obj_of_isSsid hssid
    exact hsame.trans hssid
  rw [deleteMalformed, List.filter_eq_self.mpr hkept, List.map_map]
  exact List.map_congr_left fun d hd => congrArg Prod.fst (hdecode d hd)

/-! ## The whole text -/

theorem exists_obj_of_mem_deleteMalformed {items : List (Document F)} {d : Document F}
    (h : d ∈ deleteMalformed L items) : ∃ fields, d = .obj fields :=
  exists_obj_of_isSsid (List.mem_filter.mp h).2

theorem parseSsidDataForRssi_array {json : Str} {items : List (Document F)} (hne : json ≠ [])
    (h : L.parse json = some (.arr items)) :
    parseSsidDataForRssi L json =
      (true, objectArray (SSIDTimePoint.fromJson L {}) (deleteMalformed L items)) := by
  rw [parseSsidDataForRssi, if_neg (by simpa using hne), h,
    objectArray_eq_map fun d => exists_obj_of_mem_deleteMalformed]
  exact congrArg (Prod.mk true) ((foldl_parseSsid items []).trans (List.nil_append _))

theorem parseSsidDataForRssi_of_no_array {json : Str} (hne : json ≠ [])
    (h : ∀ items, L.parse json ≠ some (.arr items)) :
    parseSsidDataForRssi L json = (false, []) := by
  rw [parseSsidDataForRssi, if_neg (by simpa using hne)]
  split
  · rename_i items hparse
    exact absurd hparse (h items)
  · rfl

/-- The decoder that skips refines the one that does not.  It fails, with an empty list, for a
    text that is not empty and no array; for an array its list is what the other makes of the
    array without what cannot be read; and where there is nothing of the kind they agree. -/
theorem tolerant_refines_strict (L : JsonLibrary F) (json : Str) :
    ((parseSsidDataForRssi L json).1 = false ↔
        json ≠ [] ∧ ∀ items, L.parse json ≠ some (.arr items)) ∧
      ((parseSsidDataForRssi L json).1 = false → (parseSsidDataForRssi L json).2 = []) ∧
      (json = [] → (parseSsidDataForRssi L json).2 =
        toObjectArray L (SSIDTimePoint.fromJson L {}) json) ∧
      ∀ items, json ≠ [] → L.parse json = some (.arr items) →
        (parseSsidDataForRssi L json).2 =
            objectArray (SSIDTimePoint.fromJson L {}) (deleteMalformed L items) ∧
          (∀ json', json' ≠ [] → L.parse json' = some (.arr (deleteMalformed L items)) →
            (parseSsidDataForRssi L json).2 =
              toObjectArray L (SSIDTimePoint.fromJson L {}) json') ∧
          ((∀ d ∈ items, WellFormed L d) →
            (parseSsidDataForRssi L json).2 =
              toObjectArray L (SSIDTimePoint.fromJson L {}) json) := by
  by_cases hempty : json = []
  · subst hempty
    have hparsed : parseSsidDataForRssi L [] = (true, []) := rfl
    rw [hparsed]
    exact ⟨by simp, nofun, fun _ => rfl, fun items hne => absurd rfl hne⟩
  · by_cases harray : ∃ items, L.parse json = some (.arr items)
    · obtain ⟨items, hparse⟩ := harray
      have hread := parseSsidDataForRssi_array hempty hparse
      rw [hread]
      refine ⟨?_, nofun, fun hnil => absurd hnil hempty, fun items' _ hparse' => ?_⟩
      · refine iff_of_false nofun ?_
        rintro ⟨-, hno⟩
        exact hno items hparse
      · obtain rfl : items = items' := by simpa [hparse] using hparse'
        -- what was cleaned and what was given have the same well-formed elements
        refine ⟨rfl, fun json' hne hjson' => (toObjectArray_eq L hne hjson' _).symm, fun h => ?_⟩
        have hobj : ∀ d ∈ items, ∃ fields, d = .obj fields :=
          fun d hd => exists_obj_of_isSsid (h d hd).ssid
        rw [toObjectArray_eq L hempty hparse, objectArray_eq_map hobj,
          objectArray_eq_map fun d => exists_obj_of_mem_deleteMalformed,
          deleteMalformed_of_wellFormed h]
    · have hread := parseSsidDataForRssi_of_no_array hempty (not_exists.mp harray)
      rw [hread]
      refine ⟨iff_of_true rfl ⟨hempty, not_exists.mp harray⟩, fun _ => rfl,
        fun hnil => absurd hnil hempty, fun items _ hparse => ?_⟩
      exact absurd ⟨items, hparse⟩ harray

end OwAnalytics.Storage
