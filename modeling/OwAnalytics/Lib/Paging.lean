/-
  OwAnalytics.Lib.Paging

  Reading a list page by page, until a page is short or cannot be read.  A callback that
  never stops is folded over the rows that are visited; these are a prefix of the list,
  and all of it iff every page that has rows is read.
-/

import Mathlib.Data.List.Basic
import Mathlib.Data.List.Forall2

namespace OwAnalytics

/-- Pages of `batch` rows, of at most `total` rows; one that cannot be read is `none`. -/
structure Pager (β : Type) where
  batch : Nat
  batch_pos : 0 < batch
  total : Nat
  page : Nat → Option (List β)
  length_le : ∀ {offset : Nat} {rows : List β},
    page offset = some rows → rows.length ≤ total - offset

namespace Pager

variable {α β σ : Type}

/-- Hands the rows to the callback until it answers `false`. -/
def visit (f : σ → β → σ × Bool) (s : σ) : List β → σ × Bool
  | [] => (s, true)
  | row :: rest =>
    match f s row with
    | (s, true) => visit f s rest
    | (s, false) => (s, false)

/-- Goes through the pages from the offset on. -/
def iterate (p : Pager β) (f : σ → β → σ × Bool) (offset : Nat) (s : σ) : σ :=
  match _hpage : p.page offset with
  | none => s
  | some rows =>
    match visit f s rows with
    | (s, false) => s
    | (s, true) =>
      -- a page that is not full is the last
      if rows.length < p.batch then s else p.iterate f (offset + p.batch) s
termination_by p.total - offset
decreasing_by
  have hle := p.length_le _hpage
  have hpos := p.batch_pos
  omega

/-- The rows that are visited if the callback never stops. -/
def visited (p : Pager β) (offset : Nat) : List β :=
  match _hpage : p.page offset with
  | none => []
  | some rows =>
    rows ++ if rows.length < p.batch then [] else p.visited (offset + p.batch)
termination_by p.total - offset
decreasing_by
  have hle := p.length_le _hpage
  have hpos := p.batch_pos
  omega

theorem visit_of_goes {f : σ → β → σ × Bool} (hgoes : ∀ s row, (f s row).2 = true) (s : σ)
    (rows : List β) : visit f s rows = (rows.foldl (fun s row => (f s row).1) s, true) := by
  induction rows generalizing s with
  | nil => rfl
  | cons row rest ih =>
      have hrow : f s row = ((f s row).1, true) := Prod.ext rfl (hgoes s row)
      rw [visit, hrow]
      exact ih _

/-! ## The calls of the callback -/

/-- The callback that keeps the rows it is called on beside its state. -/
def logged (f : σ → β → σ × Bool) (s : σ × List β) (row : β) : (σ × List β) × Bool :=
  (((f s.1 row).1, s.2 ++ [row]), (f s.1 row).2)

/-- The state after calls on the rows. -/
def after (f : σ → β → σ × Bool) (s : σ) (rows : List β) : σ :=
  rows.foldl (fun s row => (f s row).1) s

/-- The calls are those on the first `k` rows: each but the last asks for more, and the last one
    does not if there are more. -/
structure StopsAfter (f : σ → β → σ × Bool) (s : σ) (rows : List β) (k : Nat) : Prop where
  le : k ≤ rows.length
  goes : ∀ {i : Nat} {row : β}, i + 1 < k → rows[i]? = some row →
    (f (after f s (rows.take i)) row).2 = true
  stops : k < rows.length → ∃ (i : Nat) (row : β), k = i + 1 ∧ rows[i]? = some row ∧
    (f (after f s (rows.take i)) row).2 = false

/-- A first call that asks for more is followed by the calls on the rest. -/
theorem StopsAfter.cons {f : σ → β → σ × Bool} {s : σ} {row : β} {rest : List β} {k : Nat}
    (hrow : (f s row).2 = true) (h : StopsAfter f (f s row).1 rest k) :
    StopsAfter f s (row :: rest) (k + 1) where
  le := Nat.succ_le_succ h.le
  goes := by
    intro i row' hi hrow'
    cases i with
    | zero =>
        obtain rfl : row = row' := Option.some.inj hrow'
        exact hrow
    | succ i => exact h.goes (by omega) hrow'
  stops := by
    intro hlt
    rw [List.length_cons] at hlt
    obtain ⟨i, row', rfl, hrow', hstop⟩ := h.stops (by omega)
    exact ⟨i + 1, row', rfl, hrow', hstop⟩

/-- The rows are handed over in their order, up to the first at which the callback stops. -/
theorem exists_visit (f : σ → β → σ × Bool) (s : σ) (log rows : List β) :
    ∃ k, StopsAfter f s rows k ∧ (visit f s rows).1 = after f s (rows.take k) ∧
      (visit (logged f) (s, log) rows).1.2 = log ++ rows.take k := by
  induction rows generalizing s log with
  | nil => exact ⟨0, ⟨Nat.le_refl 0, nofun, nofun⟩, rfl, (List.append_nil log).symm⟩
  | cons row rest ih =>
      have hlogged : logged f (s, log) row = (((f s row).1, log ++ [row]), (f s row).2) := rfl
      have hrow : f s row = ((f s row).1, (f s row).2) := rfl
      rw [visit, visit, hlogged, hrow]
      -- the row is visited in either case, and its answer decides about the rest
      cases hgoes : (f s row).2 with
      | true =>
          obtain ⟨k, hk, hstate, hlog⟩ := ih (f s row).1 (log ++ [row])
          refine ⟨k + 1, hk.cons hgoes, hstate, ?_⟩
          dsimp only
          rw [hlog, List.append_assoc]
          rfl
      | false =>
          refine ⟨1, ⟨Nat.succ_le_succ (Nat.zero_le _), ?_, ?_⟩, rfl, rfl⟩
          · intro i row' hi
            omega
          · exact fun _ => ⟨0, row, rfl, rfl, hgoes⟩

/-! ## What is visited -/

variable {p : Pager β} {offset : Nat}

theorem visited_of_none (h : p.page offset = none) : p.visited offset = [] := by
  rw [visited]
  split
  · rfl
  · rename_i hsome
    rw [h] at hsome
    cases hsome

theorem visited_of_some {rows : List β} (h : p.page offset = some rows) :
    p.visited offset =
      rows ++ if rows.length < p.batch then [] else p.visited (offset + p.batch) := by
  rw [visited]
  split
  · rename_i hnone
    rw [h] at hnone
    cases hnone
  · rename_i rows' hsome
    obtain rfl : rows = rows' := Option.some.inj (h.symm.trans hsome)
    rfl

theorem visit_append (f : σ → β → σ × Bool) (s : σ) (rows rest : List β) :
    visit f s (rows ++ rest) =
      if (visit f s rows).2 then visit f (visit f s rows).1 rest else visit f s rows := by
  induction rows generalizing s with
  | nil => rfl
  | cons row rows ih =>
      rw [List.cons_append, visit, visit]
      cases hrow : f s row with
      | mk s' goes =>
          cases goes with
          | true => exact ih s'
          | false => rfl

/-- The pages are visited as one list. -/
theorem iterate_eq_visit (p : Pager β) (f : σ → β → σ × Bool) (offset : Nat) (s : σ) :
    p.iterate f offset s = (visit f s (p.visited offset)).1 := by
  fun_induction iterate p f offset s with
  | case1 offset s hpage =>
      rw [visited_of_none hpage]
      rfl
  | case2 offset s rows hpage s' hstop =>
      rw [visited_of_some hpage, visit_append, hstop]
      rfl
  | case3 offset s rows hpage s' hvisit hlast =>
      rw [visited_of_some hpage, if_pos hlast, List.append_nil, hvisit]
  | case4 offset s rows hpage s' hvisit hfull ih =>
      rw [visited_of_some hpage, if_neg hfull, visit_append, hvisit, ih]
      rfl

/-- A callback that never stops is folded over the rows that are visited. -/
theorem iterate_of_goes (p : Pager β) {f : σ → β → σ × Bool}
    (hgoes : ∀ s row, (f s row).2 = true) (offset : Nat) (s : σ) :
    p.iterate f offset s = (p.visited offset).foldl (fun s row => (f s row).1) s := by
  rw [iterate_eq_visit, visit_of_goes hgoes]

/-- The pages are those of a list, each row read through `r`. -/
def Shows (p : Pager β) (rows : List α) (r : α → β → Prop) : Prop :=
  ∀ {offset : Nat} {page : List β}, p.page offset = some page →
    List.Forall₂ r ((rows.drop offset).take p.batch) page

/-- The pages that have rows are read, from the offset on. -/
def ReadsFrom (p : Pager β) (rows : List α) (offset : Nat) : Prop :=
  ∀ k, offset + p.batch * k < rows.length → (p.page (offset + p.batch * k)).isSome = true

/-- The first page, and those from the next one on. -/
theorem readsFrom_iff {rows : List α} :
    p.ReadsFrom rows offset ↔
      (offset < rows.length → (p.page offset).isSome = true) ∧
        p.ReadsFrom rows (offset + p.batch) := by
  have hnext : ∀ k, offset + p.batch * (k + 1) = offset + p.batch + p.batch * k := fun k => by
    rw [Nat.mul_succ]
    omega
  refine ⟨fun h => ⟨h 0, fun k hk => ?_⟩, fun ⟨hfirst, hrest⟩ k hk => ?_⟩
  · rw [← hnext] at hk ⊢
    exact h (k + 1) hk
  · cases k with
    | zero => exact hfirst hk
    | succ k =>
        rw [hnext] at hk ⊢
        exact hrest k hk

/-- The rows that are visited begin the list, and are all of it iff the pages are read. -/
theorem exists_visited {rows : List α} {r : α → β → Prop} (h : p.Shows rows r) (offset : Nat) :
    ∃ n, List.Forall₂ r ((rows.drop offset).take n) (p.visited offset) ∧
      (rows.length - offset ≤ n ↔ p.ReadsFrom rows offset) := by
  fun_induction visited p offset with
  | case1 offset hpage =>
      refine ⟨0, .nil, ?_⟩
      rw [readsFrom_iff, hpage]
      refine ⟨fun hend => ⟨fun hlt => by omega, fun k hk => by omega⟩, fun hreads => ?_⟩
      by_contra hrows
      exact absurd (hreads.1 (by omega)) Bool.false_ne_true
  | case2 offset page hpage ih =>
      have hshows := h hpage
      have hlength := hshows.length_eq
      rw [List.length_take, List.length_drop] at hlength
      have hfirst : offset < rows.length → (p.page offset).isSome = true := fun _ => by
        rw [hpage]
        rfl
      split
      · -- the rows end before the next page
        rename_i hlast
        refine ⟨p.batch, by rwa [List.append_nil], ?_⟩
        rw [readsFrom_iff]
        exact iff_of_true (by omega) ⟨hfirst, fun k hk => by omega⟩
      · rename_i hfull
        obtain ⟨n, hrest, hiff⟩ := ih hfull
        refine ⟨p.batch + n, ?_, ?_⟩
        · rw [List.take_add, List.drop_drop]
          exact List.rel_append hshows hrest
        · rw [readsFrom_iff, ← hiff, and_iff_right hfirst]
          omega

/-- Every row is on a page. -/
theorem forall_mem_pages {batch : Nat} (hpos : 0 < batch) {rows : List α} {q : α → Prop} :
    (∀ k, batch * k < rows.length → ∀ row ∈ (rows.drop (batch * k)).take batch, q row) ↔
      ∀ row ∈ rows, q row := by
  refine ⟨fun h row hrow => ?_, fun h k _ row hrow =>
    h row (List.mem_of_mem_drop (List.mem_of_mem_take hrow))⟩
  obtain ⟨i, hi, rfl⟩ := List.mem_iff_getElem.mp hrow
  have hdiv : batch * (i / batch) + i % batch = i := Nat.div_add_mod i batch
  have hmod : i % batch < batch := Nat.mod_lt i hpos
  refine h (i / batch) (by omega) _ (List.mem_take_iff_getElem.mpr ⟨i % batch, ?_, ?_⟩)
  · rw [List.length_drop]
    omega
  · rw [List.getElem_drop]
    exact getElem_congr_idx hdiv

end Pager

/-! ## Slices -/

section Slices

variable {α : Type*} (xs : List α)

/-- Slices of one size, one behind the other, are the beginning of the list. -/
theorem flatMap_slices (size k : Nat) :
    (List.range k).flatMap (fun i => (xs.drop (i * size)).take size) = xs.take (k * size) := by
  induction k with
  | zero => simp
  | succ k ih =>
      have hlast : [k].flatMap (fun i => (xs.drop (i * size)).take size) =
          (xs.drop (k * size)).take size := List.flatMap_singleton _ _
      rw [List.range_succ, List.flatMap_append, ih, hlast, ← List.take_add, Nat.succ_mul]

/-- When the beginning of a list is a slice of it: if it has so many elements, and they repeat
    those before the slice. -/
theorem take_eq_slice_iff (count bound offset limit : Nat) :
    xs.take count = ((xs.take bound).drop offset).take limit ↔
      min xs.length count = min (min xs.length bound - offset) limit ∧
        ∀ i < min xs.length count, xs[i]? = xs[i + offset]? := by
  have hlength : (xs.take count).length = min xs.length count := by
    rw [List.length_take, Nat.min_comm]
  have hslice : (((xs.take bound).drop offset).take limit).length =
      min (min xs.length bound - offset) limit := by
    rw [List.length_take, List.length_drop, List.length_take, Nat.min_comm limit,
      Nat.min_comm bound]
  -- within both lengths the elements are those of the list
  have hget : ∀ i, min xs.length count = min (min xs.length bound - offset) limit →
      i < min xs.length count →
      ((xs.take count)[i]? = (((xs.take bound).drop offset).take limit)[i]? ↔
        xs[i]? = xs[i + offset]?) := by
    intro i heq hi
    rw [List.getElem?_take_of_lt (by omega), List.getElem?_take_of_lt (by omega),
      List.getElem?_drop, List.getElem?_take_of_lt (by omega), Nat.add_comm offset i]
  refine ⟨fun h => ?_, fun ⟨heq, hrepeat⟩ => List.ext_getElem? fun i => ?_⟩
  · have heq : min xs.length count = min (min xs.length bound - offset) limit := by
      rw [← hlength, h, hslice]
    exact ⟨heq, fun i hi => (hget i heq hi).mp (congrArg (·[i]?) h)⟩
  · by_cases hi : i < min xs.length count
    · exact (hget i heq hi).mpr (hrepeat i hi)
    · rw [List.getElem?_eq_none (by omega), List.getElem?_eq_none (by omega)]

end Slices

end OwAnalytics
