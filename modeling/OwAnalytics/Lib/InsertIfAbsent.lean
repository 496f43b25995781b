/-
  OwAnalytics.Lib.InsertIfAbsent

  Tables with a unique key that are filled by inserting a row unless its key is
  there.  The keys alone decide what is inserted: which keys a table has after a
  sequence of insertions does not depend on their order or on repetitions.
-/

import Mathlib

namespace InsertIfAbsent

variable {α κ : Type*} [DecidableEq κ] (key : α → κ)

/-- Inserts a row unless its key is there. -/
def insert (rows : List α) (r : α) : List α :=
  if key r ∈ rows.map key then rows else rows ++ [r]

/-- Rows are inserted one after the other. -/
def insertAll (rows rs : List α) : List α := rs.foldl (insert key) rows

variable {key} {rows rs : List α} {r : α}

@[simp] theorem insertAll_nil : insertAll key rows [] = rows := rfl

@[simp] theorem insertAll_cons :
    insertAll key rows (r :: rs) = insertAll key (insert key rows r) rs := rfl

theorem insertAll_append {rs' : List α} :
    insertAll key rows (rs ++ rs') = insertAll key (insertAll key rows rs) rs' :=
  List.foldl_append

/-! ## The keys -/

theorem mem_keys_insert (k : κ) :
    k ∈ (insert key rows r).map key ↔ k ∈ rows.map key ∨ k = key r := by
  unfold insert
  split
  · rename_i hpresent
    refine ⟨?_, ?_⟩
    · exact .inl
    · rintro (hk | rfl)
      · exact hk
      · exact hpresent
  · simp [List.mem_append]

theorem mem_keys_insertAll (k : κ) :
    k ∈ (insertAll key rows rs).map key ↔ k ∈ rows.map key ∨ k ∈ rs.map key := by
  induction rs generalizing rows with
  | nil => simp
  | cons r rs ih => rw [insertAll_cons, ih, mem_keys_insert, List.map_cons, List.mem_cons, or_assoc]

theorem nodup_insert (h : (rows.map key).Nodup) : ((insert key rows r).map key).Nodup := by
  unfold insert
  split
  · exact h
  · rename_i habsent
    rw [List.map_append, List.map_singleton, List.nodup_append_comm, List.singleton_append,
      List.nodup_cons]
    exact ⟨habsent, h⟩

theorem nodup_insertAll (h : (rows.map key).Nodup) :
    ((insertAll key rows rs).map key).Nodup := by
  induction rs generalizing rows with
  | nil => exact h
  | cons r rs ih => exact ih (nodup_insert h)

/-! ## The rows -/

theorem mem_insert {x : α} (h : x ∈ insert key rows r) : x ∈ rows ∨ x = r := by
  unfold insert at h
  split at h
  · exact .inl h
  · simpa using h

theorem mem_insertAll {x : α} (h : x ∈ insertAll key rows rs) : x ∈ rows ∨ x ∈ rs := by
  induction rs generalizing rows with
  | nil => exact .inl h
  | cons r rs ih =>
      rcases ih h with hin | hin
      · rcases mem_insert hin with hin | rfl
        · exact .inl hin
        · exact .inr List.mem_cons_self
      · exact .inr (List.mem_cons_of_mem r hin)

/-- Where the key decides a property, the rows with the property are as many as the keys that
    have been inserted with it. -/
theorem length_filter_insertAll {p : α → Bool}
    (hp : ∀ x ∈ rs, ∀ y ∈ rs, key x = key y → p x = p y) :
    ((insertAll key [] rs).filter p).length = ((rs.filter p).map key).dedup.length := by
  have hmem : ∀ x ∈ insertAll key [] rs, x ∈ rs := fun x hx => by simpa using mem_insertAll hx
  have hnone : (([] : List α).map key).Nodup := List.nodup_nil
  have hnodup : (((insertAll key [] rs).filter p).map key).Nodup :=
    (nodup_insertAll hnone).sublist (List.filter_sublist.map key)
  have hperm : (((insertAll key [] rs).filter p).map key).Perm ((rs.filter p).map key).dedup := by
    refine (List.perm_ext_iff_of_nodup hnodup (List.nodup_dedup _)).mpr fun k => ?_
    simp only [List.mem_dedup, List.mem_map, List.mem_filter]
    refine ⟨?_, ?_⟩
    · rintro ⟨x, ⟨hx, hpx⟩, rfl⟩
      exact ⟨x, ⟨hmem x hx, hpx⟩, rfl⟩
    · rintro ⟨x, ⟨hx, hpx⟩, rfl⟩
      -- the row that has the key need not be the one that was inserted last
      have hkey : key x ∈ (insertAll key [] rs).map key :=
        (mem_keys_insertAll _).mpr (.inr (List.mem_map_of_mem hx))
      obtain ⟨y, hy, hyx⟩ := List.mem_map.mp hkey
      exact ⟨y, ⟨hy, (hp y (hmem y hy) x hx hyx).trans hpx⟩, hyx⟩
  simpa using hperm.length_eq

end InsertIfAbsent
