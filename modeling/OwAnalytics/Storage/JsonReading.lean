/-
  OwAnalytics.Storage.JsonReading

  What `field_from_json` finds in an object that `field_to_json` has put together and
  the library has written and read: of each field the value that was set, with its
  numbers as they are read back.
-/

import OwAnalytics.Mcp.Admission
import OwAnalytics.Storage.JsonFields

namespace OwAnalytics

open Boards

variable {F : Type}

namespace Document

/-! ## Members -/

theorem lookup_cons_eq (k : Str) (e : Str × Document F) (rest : List (Str × Document F)) :
    (e :: rest).lookup k = if k = e.1 then some e.2 else rest.lookup k := by
  rw [List.lookup_cons]
  by_cases h : k = e.1
  · rw [if_pos h, beq_iff_eq.mpr h]
  · rw [if_neg h, beq_eq_false_iff_ne.mpr h]

theorem lookup_setMember (k k' : Str) (v : Document F) (members : List (Str × Document F)) :
    (setMember k v members).lookup k' = if k' = k then some v else members.lookup k' := by
  induction members with
  | nil => exact lookup_cons_eq k' (k, v) []
  | cons e rest ih =>
      rw [setMember]
      -- the members are in order, so the comparison says where the key belongs
      cases hcmp : compare k e.1 with
      | lt => exact lookup_cons_eq k' (k, v) (e :: rest)
      | eq =>
          have hkey : k = e.1 := Std.LawfulEqCmp.eq_of_compare hcmp
          dsimp only
          rw [lookup_cons_eq, lookup_cons_eq, hkey]
          by_cases h : k' = e.1
          · rw [if_pos h, if_pos h]
          · rw [if_neg h, if_neg h, if_neg h]
      | gt =>
          dsimp only
          rw [lookup_cons_eq, lookup_cons_eq, ih]
          by_cases h : k' = e.1
          · have hne : k' ≠ k := by
              rintro rfl
              have hself : compare e.1 e.1 = .eq := Std.ReflCmp.compare_self
              rw [h, hself] at hcmp
              cases hcmp
            rw [if_pos h, if_neg hne, if_pos h]
          · rw [if_neg h, if_neg h]

theorem mem_setMember {k : Str} {v : Document F} {members : List (Str × Document F)}
    {e : Str × Document F} (h : e ∈ setMember k v members) : e = (k, v) ∨ e ∈ members := by
  induction members with
  | nil => exact .inl (List.mem_singleton.mp h)
  | cons x rest ih =>
      rw [setMember] at h
      split at h
      · rcases List.mem_cons.mp h with h | h
        · exact .inl h
        · exact .inr h
      · rcases List.mem_cons.mp h with h | h
        · exact .inl h
        · exact .inr (List.mem_cons_of_mem _ h)
      · rcases List.mem_cons.mp h with rfl | h
        · exact .inr List.mem_cons_self
        · rcases ih h with h | h
          · exact .inl h
          · exact .inr (List.mem_cons_of_mem _ h)

theorem pairwise_setMember (k : Str) (v : Document F) {members : List (Str × Document F)}
    (h : members.Pairwise fun a b => compare a.1 b.1 = .lt) :
    (setMember k v members).Pairwise fun a b => compare a.1 b.1 = .lt := by
  induction members with
  | nil => exact List.pairwise_singleton _ _
  | cons e rest ih =>
      obtain ⟨he, hrest⟩ := List.pairwise_cons.mp h
      rw [setMember]
      split
      · rename_i hlt
        refine List.pairwise_cons.mpr ⟨fun x hx => ?_, h⟩
        rcases List.mem_cons.mp hx with rfl | hx
        · exact hlt
        · exact Std.TransCmp.lt_trans hlt (he x hx)
      · rename_i heq
        obtain rfl : k = e.1 := Std.LawfulEqCmp.eq_of_compare heq
        exact List.pairwise_cons.mpr ⟨he, hrest⟩
      · rename_i hgt
        refine List.pairwise_cons.mpr ⟨fun x hx => ?_, ih hrest⟩
        rcases mem_setMember hx with rfl | hx
        · exact Std.OrientedCmp.gt_iff_lt.mp hgt
        · exact he x hx

theorem map_setMember (f : Document F → Document F) (k : Str) (v : Document F)
    (members : List (Str × Document F)) :
    (setMember k v members).map (fun e => (e.1, f e.2))
      = setMember k (f v) (members.map fun e => (e.1, f e.2)) := by
  induction members with
  | nil => rfl
  | cons e rest ih =>
      rw [setMember, List.map_cons, setMember]
      dsimp only
      cases compare k e.1 with
      | lt => rfl
      | eq => rfl
      | gt =>
          dsimp only
          rw [List.map_cons, ih]

/-- Members in the order of their keys are put together as they stand. -/
theorem foldl_setMember {members : List (Str × Document F)}
    (h : members.Pairwise fun a b => compare a.1 b.1 = .lt) :
    members.foldl (fun members e => setMember e.1 e.2 members) [] = members := by
  -- a key that comes after all others goes to the end
  have hlast : ∀ (l : List (Str × Document F)) (e : Str × Document F),
      (∀ x ∈ l, compare x.1 e.1 = .lt) → setMember e.1 e.2 l = l ++ [e] := by
    intro l e
    induction l with
    | nil => exact fun _ => rfl
    | cons x rest ih =>
        intro hlt
        have hgt : compare e.1 x.1 = .gt :=
          Std.OrientedCmp.gt_iff_lt.mpr (hlt x List.mem_cons_self)
        rw [setMember, hgt]
        dsimp only
        rw [ih fun y hy => hlt y (List.mem_cons_of_mem _ hy)]
        rfl
  induction members using List.reverseRecOn with
  | nil => rfl
  | append_singleton rest e ih =>
      obtain ⟨hrest, -, hlt⟩ := List.pairwise_append.mp h
      rw [List.foldl_append, List.foldl_cons, List.foldl_nil, ih hrest]
      exact hlast rest e fun x hx => hlt x hx e (List.mem_singleton_self e)

/-! ## Objects -/

attribute [simp] Ordered.null Ordered.bool Ordered.unsigned Ordered.integer Ordered.float
  Ordered.str

/-- An object is ordered when its values are. -/
theorem Ordered.foldl_setMember {members : List (Str × Document F)}
    (h : ∀ e ∈ members, e.2.Ordered) :
    (Document.obj (members.foldl (fun members e => setMember e.1 e.2 members) [])).Ordered := by
  induction members using List.reverseRecOn with
  | nil => exact .obj List.Pairwise.nil (by simp)
  | append_singleton rest e ih =>
      cases ih fun x hx => h x (List.mem_append_left _ hx) with
      | obj hkeys hvalues =>
          rw [List.foldl_append, List.foldl_cons, List.foldl_nil]
          refine .obj (pairwise_setMember _ _ hkeys) fun x hx => ?_
          rcases mem_setMember hx with rfl | hx
          · exact h e (by simp)
          · exact hvalues x hx

theorem Ordered.object {fields : List (String × Document F)} (h : ∀ e ∈ fields, e.2.Ordered) :
    (object fields).Ordered := by
  have hmembers : ∀ e ∈ fields.map fun e => (e.1.toList, e.2), e.2.Ordered := by
    intro e he
    obtain ⟨x, hx, rfl⟩ := List.mem_map.mp he
    exact h x hx
  have hordered := Ordered.foldl_setMember hmembers
  rwa [List.foldl_map] at hordered

theorem reread_object (number : F → Document F) (fields : List (String × Document F)) :
    reread number (object fields) = object (fields.map fun e => (e.1, reread number e.2)) := by
  rw [object, object, reread, rereadMembers_eq_map]
  congr 1
  induction fields using List.reverseRecOn with
  | nil => rfl
  | append_singleton fields e ih =>
      rw [List.map_append, List.foldl_append, List.foldl_append, List.map_singleton,
        List.foldl_cons, List.foldl_cons, List.foldl_nil, List.foldl_nil, map_setMember, ih]

/-- The value of a field that is always set to one value. -/
theorem find?_object {fields : List (String × Document F)} {k : String} {d : Document F}
    (hmem : (k, d) ∈ fields) (hsame : ∀ e ∈ fields, e.1 = k → e.2 = d) :
    (object fields).find? k = some d := by
  rw [object, find?]
  induction fields using List.reverseRecOn with
  | nil => cases hmem
  | append_singleton fields e ih =>
      rw [List.foldl_append, List.foldl_cons, List.foldl_nil, lookup_setMember]
      by_cases hkey : e.1 = k
      · rw [if_pos (by rw [hkey]), hsame e (by simp) hkey]
      · have hne : k.toList ≠ e.1.toList := fun h => hkey (String.toList_inj.mp h).symm
        rw [if_neg hne]
        refine ih ?_ fun x hx => hsame x (List.mem_append_left _ hx)
        rcases List.mem_append.mp hmem with hmem | hmem
        · exact hmem
        · rw [List.mem_singleton] at hmem
          exact absurd (congrArg Prod.fst hmem).symm hkey

/-- An object some of whose fields are set on a condition. -/
theorem Ordered.object_present {fields : List (String × Option (Document F))}
    (h : ∀ e ∈ fields, ∀ d ∈ e.2, d.Ordered) : (Document.object (present fields)).Ordered := by
  refine Ordered.object fun e he => ?_
  obtain ⟨x, hx, heq⟩ := List.mem_filterMap.mp he
  obtain ⟨d, hd, rfl⟩ := Option.map_eq_some_iff.mp heq
  exact h x hx d hd

theorem find?_object_none {fields : List (String × Document F)} {k : String}
    (h : ∀ e ∈ fields, e.1 ≠ k) : (object fields).find? k = none := by
  rw [object, find?]
  induction fields using List.reverseRecOn with
  | nil => rfl
  | append_singleton fields e ih =>
      have hne : k.toList ≠ e.1.toList := fun hk =>
        h e (by simp) (String.toList_inj.mp hk).symm
      rw [List.foldl_append, List.foldl_cons, List.foldl_nil, lookup_setMember, if_neg hne]
      exact ih fun x hx => h x (List.mem_append_left _ hx)

/-- Values with one key among distinct keys are one value. -/
theorem eq_of_nodup_keys {V : Type} {fields : List (String × V)}
    (hkeys : (fields.map Prod.fst).Nodup) {e e' : String × V} (he : e ∈ fields)
    (he' : e' ∈ fields) (h : e.1 = e'.1) : e = e' :=
  List.inj_on_of_nodup_map hkeys he he' h

theorem mem_present {fields : List (String × Option (Document F))} {k : String} {d : Document F} :
    (k, d) ∈ present fields ↔ (k, some d) ∈ fields := by
  rw [present, List.mem_filterMap]
  refine ⟨?_, ?_⟩
  · rintro ⟨⟨k', o⟩, hmem, heq⟩
    obtain ⟨d', rfl, h⟩ := Option.map_eq_some_iff.mp heq
    obtain ⟨rfl, rfl⟩ := Prod.mk.inj h
    exact hmem
  · exact fun hmem => ⟨_, hmem, rfl⟩

end Document

open Document

namespace JsonLibrary

variable {L : JsonLibrary F} {body : Document F}

/-- What is read of the fields of an object that was written and read. -/
theorem find?_reread {fields distinct : List (String × Document F)}
    (hbody : body = L.reread (object fields)) (hsub : fields ⊆ distinct)
    (hkeys : (distinct.map Prod.fst).Nodup) :
    ∀ e ∈ fields, body.find? e.1 = some (L.reread e.2) := by
  intro e he
  rw [hbody, reread, reread_object]
  refine find?_object (List.mem_map.mpr ⟨e, he, rfl⟩) fun x hx hkey => ?_
  obtain ⟨y, hy, rfl⟩ := List.mem_map.mp hx
  rw [eq_of_nodup_keys hkeys (hsub hy) (hsub he) hkey]

/-- The same where the field with this index is set to a value it has anyway. -/
theorem find?_reread_again {fields : List (String × Document F)} {n : ℕ} {e : String × Document F}
    (hbody : body = L.reread (object fields)) (he : fields[n]? = some e)
    (hagain : e ∈ fields.eraseIdx n) (hkeys : ((fields.eraseIdx n).map Prod.fst).Nodup) :
    ∀ e ∈ fields, body.find? e.1 = some (L.reread e.2) := by
  refine find?_reread hbody (fun x hx => ?_) hkeys
  obtain ⟨i, hi⟩ := List.mem_iff_getElem?.mp hx
  by_cases hn : i = n
  · rw [hn, he] at hi
    exact Option.some.inj hi ▸ hagain
  · exact List.mem_eraseIdx_iff_getElem?.mpr ⟨i, hn, hi⟩

/-- The same where some fields are set on a condition. -/
theorem find?_reread_present {fields : List (String × Option (Document F))}
    (hbody : body = L.reread (object (present fields))) (hkeys : (fields.map Prod.fst).Nodup) :
    ∀ e ∈ fields, body.find? e.1 = e.2.map L.reread := by
  rintro ⟨k, o⟩ he
  rw [hbody, reread, reread_object]
  cases o with
  | none =>
      refine find?_object_none fun x hx hkey => ?_
      obtain ⟨⟨k', d⟩, hy, rfl⟩ := List.mem_map.mp hx
      obtain rfl : k' = k := hkey
      have heq := eq_of_nodup_keys hkeys (mem_present.mp hy) he rfl
      cases heq
  | some d =>
      refine find?_object (List.mem_map.mpr ⟨(k, d), mem_present.mpr he, rfl⟩) fun x hx hkey => ?_
      obtain ⟨⟨k', d'⟩, hy, rfl⟩ := List.mem_map.mp hx
      obtain rfl : k' = k := hkey
      have heq := eq_of_nodup_keys hkeys (mem_present.mp hy) he rfl
      rw [Option.some.inj (congrArg Prod.snd heq)]

end JsonLibrary

/-! ## Fields -/

section Fields

variable {L : JsonLibrary F} {body : Document F} {field : String} {R : Type}

theorem fieldFromJson_eq {α : Type} {convert : Document F → Option α} {d : Document F} {a : α}
    (hnull : convert .null = none) (hfind : body.find? field = some d) (h : convert d = some a)
    (set : R → α → R) (r : R) : fieldFromJson body field convert set r = (set r a, true) := by
  rw [fieldFromJson, hfind]
  cases d with
  | null =>
      rw [hnull] at h
      cases h
  | _ => simp only [h]

theorem stringFromJson_eq {s : Str} (h : body.find? field = some (L.reread (.str s)))
    (set : R → Str → R) (r : R) : stringFromJson L.toPoco body field set r = (set r s, true) := by
  have hnull : L.toPoco.toString .null = none := rfl
  have htext : L.toPoco.toString (.str s) = some s := rfl
  rw [JsonLibrary.reread, reread] at h
  exact fieldFromJson_eq hnull h htext set r

theorem uint64FromJson_eq (hL : L.Inverts) {n : UInt64}
    (h : body.find? field = some (L.reread (.unsigned n))) (set : R → UInt64 → R) (r : R) :
    uint64FromJson L.toPoco body field set r = (set r n, true) := by
  have hnull : L.toPoco.toUInt64 .null = none := rfl
  have hnumber : L.toPoco.toUInt64 (.unsigned n) = some n := hL.uint64_unsigned n
  rw [JsonLibrary.reread, reread] at h
  exact fieldFromJson_eq hnull h hnumber set r

theorem boolFromJson_eq (hL : L.Inverts) {b : Bool}
    (h : body.find? field = some (L.reread (.bool b))) (set : R → Bool → R) (r : R) :
    boolFromJson L.toPoco body field set r = (set r b, true) := by
  rw [JsonLibrary.reread, reread] at h
  refine fieldFromJson_eq rfl h ?_ set r
  show (L.text (.bool b)).map _ = _
  rw [hL.text_bool]
  cases b with
  | true => rfl
  | false => rfl

theorem int64FromJson_eq (hL : L.Inverts) {n : Int64}
    (h : body.find? field = some (L.reread (.integer n))) (set : R → Int64 → R) (r : R) :
    int64FromJson L body field set r = (set r n, true) := by
  refine fieldFromJson_eq rfl h ?_ set r
  have hconvert := hL.int64_integer n
  rw [JsonLibrary.reread, reread] at hconvert ⊢
  split at hconvert
  · rename_i hneg
    rw [if_pos hneg]
    exact hconvert
  · rename_i hneg
    rw [if_neg hneg]
    exact hconvert

theorem doubleFromJson_eq (hL : L.Inverts) {x : F}
    (h : body.find? field = some (L.reread (.float x))) (set : R → F → R) (r : R) :
    doubleFromJson L body field set r = (set r x, true) := by
  rw [JsonLibrary.reread, reread] at h
  exact fieldFromJson_eq rfl h (hL.double_number x) set r

theorem objectFromJson_eq {α : Type} {d : Document F} (hobj : ∃ members, d = .obj members)
    (h : body.find? field = some (L.reread d)) (decode : α → Document F → α) (get : R → α)
    (set : R → α → R) (r : R) :
    objectFromJson body field decode get set r = (set r (decode (get r) (L.reread d)), true) := by
  obtain ⟨members, rfl⟩ := hobj
  rw [objectFromJson, h, JsonLibrary.reread, reread]

/-- All elements of an array of objects are pushed. -/
theorem pushObjects_eq {α : Type} {item : Document F → α} {push : R → α → R}
    {items : List (Document F)} (h : ∀ d ∈ items, ∃ members, d = .obj members) (r : R) :
    pushObjects item push items r = ((items.map item).foldl push r, true) := by
  induction items generalizing r with
  | nil => rfl
  | cons d rest ih =>
      obtain ⟨members, rfl⟩ := h d List.mem_cons_self
      rw [pushObjects, ih fun x hx => h x (List.mem_cons_of_mem _ hx)]
      rfl

theorem vectorFromJson_eq {α : Type} {items : List (Document F)}
    (h : body.find? field = some (L.reread (.arr items)))
    (hobj : ∀ d ∈ items, ∃ members, d = .obj members) (item : Document F → α) (push : R → α → R)
    (r : R) :
    vectorFromJson body field item push r
      = ((items.map fun d => item (L.reread d)).foldl push r, true) := by
  rw [JsonLibrary.reread, reread, rereadItems_eq_map] at h
  rw [vectorFromJson, h]
  dsimp only
  rw [pushObjects_eq, List.map_map]
  · rfl
  · intro d hd
    obtain ⟨x, hx, rfl⟩ := List.mem_map.mp hd
    obtain ⟨members, rfl⟩ := hobj x hx
    exact ⟨_, by rw [reread]⟩

/-- A list of tags is read as it was written. -/
theorem tagsFromJson_eq (hL : L.Inverts) {tags : List UInt64}
    (h : body.find? field = some (L.reread (.arr (tags.map .unsigned)))) (push : R → UInt64 → R)
    (r : R) : tagsFromJson L.toPoco body field push r = (tags.foldl push r, true) := by
  rw [JsonLibrary.reread, reread, rereadItems_eq_map] at h
  rw [tagsFromJson, h]
  dsimp only
  clear h
  induction tags generalizing r with
  | nil => rfl
  | cons tag rest ih =>
      have hnumber : L.toPoco.toUInt64 (.unsigned tag) = some tag := hL.uint64_unsigned tag
      rw [List.map_cons, List.map_cons, reread, pushValues, hnumber]
      exact ih (push r tag)

/-! ## Optional numbers -/

/-- The loop is that of the numbers in a query. -/
theorem parseCounter_eq (parsed : UInt64) (text : Str) :
    parseCounter parsed text = Mcp.parseDigits parsed text := by
  induction text generalizing parsed with
  | nil => rfl
  | cons c rest ih =>
      rw [parseCounter, Mcp.parseDigits, Mcp.isDigit_eq]
      dsimp only
      rw [ih]
      rfl

theorem parseCounter_toDigits (n : UInt64) : parseCounter 0 (Nat.toDigits 10 n.toNat) = some n := by
  rw [parseCounter_eq]
  refine Mcp.parseDigits_eq_some_iff.mpr ⟨fun c hc => ?_, Nat.ofDigitChars_ten_toDigits⟩
  exact Nat.isDigit_of_mem_toDigits (by decide) (by decide) hc

theorem optionalUint64FromJson_eq (hL : L.Inverts) {o : Option UInt64}
    (h : body.find? field = (o.map .unsigned).map L.reread) :
    optionalUint64FromJson L body field = some o := by
  cases o with
  | none =>
      rw [optionalUint64FromJson, h]
      rfl
  | some n =>
      have hnumber : L.reread (.unsigned n) = .unsigned n := by rw [JsonLibrary.reread, reread]
      have htext : L.toPoco.toString (.unsigned n) = some (Nat.toDigits 10 n.toNat) :=
        hL.text_unsigned n
      have hne : (Nat.toDigits 10 n.toNat).isEmpty = false := by
        rw [List.isEmpty_eq_false_iff]
        exact List.ne_nil_of_length_pos Nat.length_toDigits_pos
      rw [optionalUint64FromJson, h, Option.map_some, Option.map_some, hnumber]
      dsimp only
      rw [htext, Option.map_some, hne, parseCounter_toDigits]
      rfl

theorem counterFromJson_eq (hL : L.Inverts) {o : Option UInt64}
    (h : body.find? field = (o.map .unsigned).map L.reread) (set : R → Option UInt64 → R) (r : R) :
    counterFromJson L body field set r = (set r o, true) := by
  rw [counterFromJson, optionalUint64FromJson_eq hL h]

/-- A counter that is set on a condition. -/
theorem counterFromJson_ite (hL : L.Inverts) {present : Bool} {n : UInt64}
    (h : body.find? field = (if present then some (.unsigned n) else none).map L.reread)
    (set : R → Option UInt64 → R) (r : R) :
    counterFromJson L body field set r = (set r (if present then some n else none), true) := by
  cases present with
  | true => exact counterFromJson_eq (o := some n) hL h set r
  | false => exact counterFromJson_eq (o := none) hL h set r

theorem optionalDoubleFromJson_eq (hL : L.Inverts) {o : Option F}
    (h : body.find? field = some (L.reread (o.elim .null .float))) :
    optionalDoubleFromJson L body field = o := by
  cases o with
  | none =>
      rw [Option.elim_none, JsonLibrary.reread, reread] at h
      rw [optionalDoubleFromJson, h]
  | some x =>
      rw [Option.elim_some, JsonLibrary.reread, reread] at h
      obtain ⟨hnumeric, hboolean⟩ := hL.isNumeric_number x
      have hdouble := hL.double_number x
      rw [optionalDoubleFromJson, h]
      -- a number that prints as a number is read as one; it is neither null nor a boolean
      cases hnumber : L.number x with
      | null =>
          rw [hnumber] at hnumeric
          cases hnumeric
      | _ =>
          rw [hnumber] at hnumeric hboolean hdouble
          dsimp only
          rw [hnumeric, hboolean, hdouble]
          rfl

end Fields

/-! ## Texts -/

section Texts

variable {L : JsonLibrary F} {R : Type}

theorem toObject_stringify (hL : L.Inverts) {d : Document F} (hobj : ∃ members, d = .obj members)
    (h : d.Ordered) (decode : R → Document F → R) (result : R) :
    toObject L decode result (L.stringify d) = some (decode result (L.reread d)) := by
  obtain ⟨members, rfl⟩ := hobj
  have hne : (L.stringify (.obj members)).isEmpty = false := by
    rw [List.isEmpty_eq_false_iff]
    intro hnil
    have hparse := hL.parse_stringify h
    rw [hnil, hL.parse_nil] at hparse
    cases hparse
  rw [toObject, hne, hL.parse_stringify h, JsonLibrary.reread, reread]
  rfl

theorem foldl_push {α : Type} (rs start : List α) :
    rs.foldl (fun rs r => rs ++ [r]) start = start ++ rs := by
  induction rs generalizing start with
  | nil => rw [List.foldl_nil, List.append_nil]
  | cons r rest ih => rw [List.foldl_cons, ih, List.append_assoc, List.singleton_append]

/-- A vector is not written as the empty text, and its array is read again. -/
theorem parse_arrayToString (hL : L.Inverts) {items : List (Document F)}
    (h : ∀ d ∈ items, d.Ordered) :
    arrayToString L items ≠ [] ∧
      L.parse (arrayToString L items) = some (.arr (items.map L.reread)) := by
  -- an empty vector is written without the stringifier
  have hparse : L.parse (arrayToString L items) = some (.arr (rereadItems L.number items)) := by
    rw [arrayToString]
    cases items with
    | nil => exact hL.parse_brackets
    | cons d rest => exact (hL.parse_stringify (.arr h)).trans (by rw [JsonLibrary.reread, reread])
  refine ⟨fun hnil => ?_, hparse.trans (by rw [rereadItems_eq_map]; rfl)⟩
  rw [hnil, hL.parse_nil] at hparse
  cases hparse

theorem toObjectArray_arrayToString (hL : L.Inverts) {items : List (Document F)}
    (hobj : ∀ d ∈ items, ∃ members, d = .obj members) (h : ∀ d ∈ items, d.Ordered)
    (decode : Document F → R) :
    toObjectArray L decode (arrayToString L items) = items.map fun d => decode (L.reread d) := by
  have hpushed : ∀ d ∈ items.map L.reread, ∃ members, d = .obj members := by
    intro d hd
    obtain ⟨x, hx, rfl⟩ := List.mem_map.mp hd
    obtain ⟨members, rfl⟩ := hobj x hx
    exact ⟨_, by rw [JsonLibrary.reread, reread]⟩
  obtain ⟨hne, hparse⟩ := parse_arrayToString hL h
  rw [toObjectArray, if_neg (by simpa using hne), hparse]
  dsimp only
  rw [pushObjects_eq hpushed, foldl_push, List.nil_append, List.map_map]
  rfl

end Texts

/-! ## Reading again -/

namespace Document

theorem Ordered.reread {number : F → Document F} (hnumber : ∀ x, (number x).Ordered)
    {d : Document F} (h : d.Ordered) : (d.reread number).Ordered := by
  induction h with
  | null => rw [Document.reread]; exact .null
  | bool b => rw [Document.reread]; exact .bool b
  | unsigned n => rw [Document.reread]; exact .unsigned n
  | integer n =>
      rw [Document.reread]
      split
      · exact .integer n
      · exact .unsigned _
  | float x => rw [Document.reread]; exact hnumber x
  | str s => rw [Document.reread]; exact .str s
  | arr h ih =>
      rw [Document.reread, rereadItems_eq_map]
      refine .arr fun d hd => ?_
      obtain ⟨x, hx, rfl⟩ := List.mem_map.mp hd
      exact ih x hx
  | obj hkeys h ih =>
      rw [Document.reread, rereadMembers_eq_map]
      refine .obj (List.pairwise_map.mpr hkeys) fun e he => ?_
      obtain ⟨x, hx, rfl⟩ := List.mem_map.mp he
      exact ih x hx

/-- What has been read once is read again as it is. -/
theorem Ordered.reread_reread {number : F → Document F}
    (hnumber : ∀ x, (number x).reread number = number x) {d : Document F} (h : d.Ordered) :
    (d.reread number).reread number = d.reread number := by
  induction h with
  | null => rw [Document.reread, Document.reread]
  | bool b => rw [Document.reread, Document.reread]
  | unsigned n => rw [Document.reread, Document.reread]
  | integer n =>
      rw [Document.reread]
      split
      · rename_i hneg
        rw [Document.reread, if_pos hneg]
      · rw [Document.reread]
  | float x => rw [Document.reread, hnumber]
  | str s => rw [Document.reread, Document.reread]
  | arr h ih =>
      rw [Document.reread, Document.reread, rereadItems_eq_map, rereadItems_eq_map, List.map_map]
      exact congrArg Document.arr (List.map_congr_left ih)
  | obj hkeys h ih =>
      rw [Document.reread, Document.reread, rereadMembers_eq_map, rereadMembers_eq_map,
        List.map_map]
      refine congrArg Document.obj (List.map_congr_left fun e he => ?_)
      exact congrArg (Prod.mk e.1) (ih e he)

end Document

theorem JsonLibrary.Inverts.ordered_number {L : JsonLibrary F} (hL : L.Inverts) (x : F) :
    (L.number x).Ordered := by
  obtain ⟨hnumeric, -⟩ := hL.isNumeric_number x
  cases hnumber : L.number x with
  | bool b => exact .bool b
  | unsigned n => exact .unsigned n
  | integer n => exact .integer n
  | float y => exact .float y
  | null => rw [hnumber] at hnumeric; cases hnumeric
  | str s => rw [hnumber] at hnumeric; cases hnumeric
  | arr items => rw [hnumber] at hnumeric; cases hnumeric
  | obj members => rw [hnumber] at hnumeric; cases hnumeric

end OwAnalytics
