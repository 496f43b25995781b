/-
  OwAnalytics.Boards.Identity

  Who owns the id of a board.  `CreateObjectInfo` sets the id and the times of a new
  board last, and returns before it does where the board has no name; `DoPost` does
  not look at its result and stores the id the body was decoded to.
-/

import OwAnalytics.Boards.Handler
import OwAnalytics.Storage.Boards

namespace OwAnalytics.Boards

open AnalyticsObjects ProvObjects Storage

variable {F : Type} {p : Poco F} {d : Document F} {email : Str} {now : UInt64} {uuid : Str}

/-- The row has the id the server made, a name, and the times of its creation. -/
structure ServerOwned (uuid : Str) (now : UInt64) (r : BoardRow) : Prop where
  id : r.id = uuid
  name : r.name ≠ []
  created : r.created = now
  modified : r.modified = now

/-- The body has a name whose text is not empty. -/
def Named (p : Poco F) (d : Document F) : Prop :=
  ∃ value s, d.find? "name" = some value ∧ p.toString value = some s ∧ s ≠ []

/-- A body without a name is decoded to a board without one. -/
theorem fromJson_name (hname : d.find? "name" = none) : (ObjectInfo.fromJson p d).1.name = [] := by
  apply inTurn_invariant (P := fun i : ObjectInfo => i.name = []) _ rfl
  intro e he i hi
  simp only [List.mem_cons, List.not_mem_nil, or_false] at he
  -- only the member `name` would write the name, and it is not there
  rcases he with rfl | rfl | rfl | rfl | rfl | rfl | rfl
  · rcases fieldFromJson_cases d "id" p.toString (fun i id => { i with id }) i with h | ⟨a, h⟩ <;>
      · rw [stringFromJson, h]
        exact hi
  · simpa only [stringFromJson, fieldFromJson, hname] using hi
  · rcases fieldFromJson_cases d "description" p.toString
      (fun i description => { i with description }) i with h | ⟨a, h⟩ <;>
      · rw [stringFromJson, h]
        exact hi
  · rcases fieldFromJson_cases d "created" p.toUInt64
      (fun i created => { i with created }) i with h | ⟨a, h⟩ <;>
      · rw [uint64FromJson, h]
        exact hi
  · rcases fieldFromJson_cases d "modified" p.toUInt64
      (fun i modified => { i with modified }) i with h | ⟨a, h⟩ <;>
      · rw [uint64FromJson, h]
        exact hi
  · unfold vectorFromJson
    split
    · refine pushObjects_invariant (P := fun i : ObjectInfo => i.name = []) ?_ _ hi
      intro _ _ h
      exact h
    · exact hi
  · unfold tagsFromJson
    split
    · refine pushValues_invariant (P := fun i : ObjectInfo => i.name = []) ?_ _ hi
      intro _ _ h
      exact h
    · exact hi

/-- The venues are decoded after `info`, which they leave alone. -/
theorem fromJson_info {b : BoardInfo} (h : BoardInfo.fromJson p d = some b) :
    b.info = (ObjectInfo.fromJson p d).1 := by
  unfold BoardInfo.fromJson vectorFromJson at h
  dsimp only at h
  split at h
  · rename_i b' hb
    obtain rfl := Option.some.inj h
    split at hb
    · rename_i items _
      -- the venues are pushed one by one, and none of them touches `info`
      have hinfo : (pushObjects (fun v => (VenueInfo.fromJson p v).1)
          (fun (b : BoardInfo) venue => { b with venueList := b.venueList ++ [venue] }) items
          { info := (ObjectInfo.fromJson p d).1 }).1.info = (ObjectInfo.fromJson p d).1 := by
        refine pushObjects_invariant
          (P := fun b : BoardInfo => b.info = (ObjectInfo.fromJson p d).1)
          (fun _ _ h => ?_) items rfl
        exact h
      rw [hb] at hinfo
      exact hinfo
    · cases hb
      rfl
  · cases h

/-- With a name, `CreateObjectInfo` sets what the server owns; without one, it leaves the id. -/
theorem createObjectInfo_cases {i i' : ObjectInfo} {ok : Bool}
    (h : createObjectInfo p d email now uuid i = some (ok, i')) :
    ∃ name, overwrite p d "name" i.name = some name ∧ i'.name = name ∧
      (name = [] ∧ i'.id = i.id ∨
        name ≠ [] ∧ i'.id = uuid ∧ i'.created = now ∧ i'.modified = now) := by
  unfold createObjectInfo at h
  obtain ⟨name, hname, h⟩ := Option.bind_eq_some_iff.mp h
  dsimp only at h
  refine ⟨name, hname, ?_⟩
  split at h
  · rename_i hempty
    cases h
    exact ⟨rfl, .inl ⟨List.isEmpty_iff.mp hempty, rfl⟩⟩
  · rename_i hempty
    obtain ⟨description, -, h⟩ := Option.bind_eq_some_iff.mp h
    cases h
    exact ⟨rfl, .inr ⟨fun hnil => hempty (List.isEmpty_iff.mpr hnil), rfl, rfl, rfl⟩⟩

/-- The id is the one the requests on the boards table are modelled with. -/
theorem createObjectInfo_id {i i' : ObjectInfo} {ok : Bool}
    (h : createObjectInfo p d email now uuid i = some (ok, i')) :
    i'.id = (Venue.BoardRequests.createObjectInfo { i with name := i'.name } uuid).id := by
  obtain ⟨name, -, rfl, ⟨hnil, hid⟩ | ⟨hne, hid, -, -⟩⟩ := createObjectInfo_cases h
  · simp [Venue.BoardRequests.createObjectInfo, hnil, hid]
  · simp [Venue.BoardRequests.createObjectInfo, hne, hid]

/-- The row `DoPost` stores is the server's iff the body names the board. -/
theorem serverOwned_iff {b : BoardInfo} (h : acceptPost p d email now uuid = some b) :
    ServerOwned uuid now (BoardRow.ofBoard b) ↔ Named p d := by
  unfold acceptPost at h
  obtain ⟨newObject, hdecode, h⟩ := Option.bind_eq_some_iff.mp h
  dsimp only at h
  split at h
  · cases h
  · obtain ⟨⟨ok, info⟩, hinfo, h⟩ := Option.bind_eq_some_iff.mp h
    obtain rfl := Option.some.inj h
    obtain ⟨name, hoverwrite, hname, hcases⟩ := createObjectInfo_cases hinfo
    refine ⟨?_, ?_⟩
    · intro howned
      have hne : name ≠ [] := by
        rw [← hname]
        exact howned.name
      unfold overwrite at hoverwrite
      split at hoverwrite
      · rename_i value hvalue
        exact ⟨value, name, hvalue, hoverwrite, hne⟩
      · -- Without the member the name is the decoded one, which is empty.
        rename_i hnone
        rw [fromJson_info hdecode, fromJson_name hnone] at hoverwrite
        exact absurd (Option.some.inj hoverwrite).symm hne
    · rintro ⟨value, s, hvalue, hs, hne⟩
      have hsame : s = name := by
        simp only [overwrite, hvalue, hs] at hoverwrite
        exact Option.some.inj hoverwrite
      rcases hcases with ⟨hnil, -⟩ | ⟨-, hid, hcreated, hmodified⟩
      · exact absurd (hsame.trans hnil) hne
      · refine ⟨hid, ?_, hcreated, hmodified⟩
        show info.name ≠ []
        rw [hname, ← hsame]
        exact hne

/-! ## Two bodies -/

/-- A library that converts strings only. -/
def stringsOnly : Poco Unit where
  text := fun _ => none
  uint64 := fun _ => none

/-- A board of one venue, with these members besides. -/
def postBody (members : List (String × String)) : Document Unit :=
  .obj (members.map (fun m => (m.1.toList, .str m.2.toList)) ++
    [("venueList".toList, .arr [.obj [("id".toList, .str ['v'])]])])

/-- A body without a name chooses the id of its row. -/
theorem client_chooses_id :
    ∃ b, acceptPost stringsOnly (postBody [("id", "x' or 'a'='a")]) [] 5 ['u'] = some b ∧
      (BoardRow.ofBoard b).id = "x' or 'a'='a".toList ∧ (BoardRow.ofBoard b).created = 0 ∧
      ¬ ServerOwned ['u'] 5 (BoardRow.ofBoard b) := by
  have haccept : (acceptPost stringsOnly (postBody [("id", "x' or 'a'='a")]) [] 5 ['u']).map
      (fun b => ((BoardRow.ofBoard b).id, (BoardRow.ofBoard b).name, (BoardRow.ofBoard b).created))
      = some ("x' or 'a'='a".toList, [], 0) := by
    decide +kernel
  obtain ⟨b, hb, hvalues⟩ := Option.map_eq_some_iff.mp haccept
  simp only [Prod.mk.injEq] at hvalues
  exact ⟨b, hb, hvalues.1, hvalues.2.2, fun howned => howned.name hvalues.2.1⟩

theorem serverOwned_iff_named :
    ∃ b, acceptPost stringsOnly (postBody [("id", "x"), ("name", "n")]) [] 5 ['u'] = some b ∧
      (ServerOwned ['u'] 5 (BoardRow.ofBoard b) ↔
        Named stringsOnly (postBody [("id", "x"), ("name", "n")])) := by
  obtain ⟨b, hb⟩ := Option.isSome_iff_exists.mp
    (by decide +kernel :
      (acceptPost stringsOnly (postBody [("id", "x"), ("name", "n")]) [] 5 ['u']).isSome = true)
  exact ⟨b, hb, serverOwned_iff hb⟩

end OwAnalytics.Boards
