/-
  OwAnalytics.Boards.LostUpdate

  `DoPut` reads a board, merges the body into it and writes the whole row, without a
  lock and without a look at what the row has become meanwhile.  Runs of any number of
  requests leave what the requests would leave one after the other, as long as each
  finds the board it read when it writes; otherwise the change of another request can
  be lost.
-/

import OwAnalytics.Boards.Handler
import OwAnalytics.Lib.Transitions
import OwAnalytics.Storage.Boards

namespace OwAnalytics.Boards.LostUpdate

open AnalyticsObjects Storage Transitions

variable {F : Type}

/-- A `DoPut` request: the id it is bound to, its body and its sender, and its time. -/
structure Put (F : Type) where
  id : Str
  body : Document F
  email : Str := []
  now : UInt64

/-- The next storage step of a request, or its answer. -/
inductive Phase
  | getRecord
  /-- Before the write of `b`, with the board that was read. -/
  | updateRecord (existing b : BoardInfo)
  | answered (ok : Bool)
deriving DecidableEq

/-- The table, and where each `DoPut` stands. -/
structure State where
  rows : List BoardRow
  phases : Nat → Phase := fun _ => .getRecord
  /-- The requests that have written, in the order of their writes. -/
  written : List Nat := []

/-- The `n`-th request does its next storage step, if the storage does it. -/
structure Label where
  n : Nat
  ok : Bool := true

section Put

variable (p : Poco F) (puts : Nat → Put F)

/-- The board a request writes where it has read `existing`. -/
def Put.merge (x : Put F) (existing : BoardInfo) : Option BoardInfo :=
  acceptPut p x.body x.email x.now existing

/-- A request goes on to its next phase. -/
def State.setPhase (s : State) (n : Nat) (phase : Phase) : State :=
  { s with phases := Function.update s.phases n phase }

/-- The next storage step of a request. -/
def State.step (s : State) (a : Label) : Option State :=
  match s.phases a.n with
  | .getRecord =>
      match if a.ok then BoardsDB.getRecord s.rows (puts a.n).id else none with
      | some existing =>
          match (puts a.n).merge p existing with
          | some b => some (s.setPhase a.n (.updateRecord existing b))
          | none => some (s.setPhase a.n (.answered false))
      | none => some (s.setPhase a.n (.answered false))
  | .updateRecord _ b =>
      if a.ok then
        some
          { s.setPhase a.n (.answered true) with
            rows := BoardsDB.updateRecord s.rows b.info.id b
            written := s.written ++ [a.n] }
      else some (s.setPhase a.n (.answered false))
  | .answered _ => none

/-- The requests on a table of boards, before their first step. -/
def system (rows : List BoardRow) : System State Label :=
  ofFun { rows } (State.step p puts)

/-- A request on its own. -/
def doPut (rows : List BoardRow) (x : Put F) : Option (List BoardRow) := do
  let existing ← BoardsDB.getRecord rows x.id
  let b ← x.merge p existing
  return BoardsDB.updateRecord rows b.info.id b

/-- The requests that answered success, one after the other in some order, leave the same table. -/
def Serializable (rows : List BoardRow) (s : State) : Prop :=
  ∃ order : List Nat, order.Nodup ∧ (∀ n, n ∈ order ↔ s.phases n = .answered true) ∧
    (order.map puts).foldlM (doPut p) rows = some s.rows

/-- A request writes only if the board is still as it has read it. -/
def Current (s : State) (a : Label) : Prop :=
  ∀ existing b, s.phases a.n = .updateRecord existing b →
    BoardsDB.getRecord s.rows (puts a.n).id = some existing

/-! ## The invariant -/

/-- What holds at every moment of the requests. -/
structure Inv (rows : List BoardRow) (s : State) : Prop where
  merged : ∀ n existing b, s.phases n = .updateRecord existing b →
    (puts n).merge p existing = some b
  nodup : s.written.Nodup
  mem_written : ∀ n, n ∈ s.written ↔ s.phases n = .answered true
  serial : (s.written.map puts).foldlM (doPut p) rows = some s.rows

end Put

variable {p : Poco F} {puts : Nat → Put F} {rows : List BoardRow} {s s' : State}

/-- A request moves on without a write. -/
theorem inv_setPhase {n : Nat} {phase : Phase} (h : Inv p puts rows s)
    (hbefore : s.phases n ≠ .answered true) (hafter : phase ≠ .answered true)
    (hmerged : ∀ existing b, phase = .updateRecord existing b →
      (puts n).merge p existing = some b) : Inv p puts rows (s.setPhase n phase) := by
  -- the request is at its new phase, all others are where they were
  refine ⟨?_, ?_, ?_, ?_⟩
  · intro m existing b hm
    by_cases heq : m = n
    · subst heq
      have hphase : phase = .updateRecord existing b := by
        simpa only [State.setPhase, Function.update_self] using hm
      exact hmerged existing b hphase
    · refine h.merged m existing b ?_
      simpa only [State.setPhase, Function.update_of_ne heq] using hm
  · exact h.nodup
  · intro m
    by_cases heq : m = n
    · subst heq
      simp only [State.setPhase, Function.update_self]
      exact iff_of_false (fun hmem => hbefore ((h.mem_written m).mp hmem)) hafter
    · simpa only [State.setPhase, Function.update_of_ne heq] using h.mem_written m
  · exact h.serial

/-- A request writes the board it has merged into the one that is stored. -/
theorem inv_write {n : Nat} {existing b : BoardInfo} (h : Inv p puts rows s)
    (hphase : s.phases n = .updateRecord existing b)
    (hcurrent : BoardsDB.getRecord s.rows (puts n).id = some existing) :
    Inv p puts rows
      { s.setPhase n (.answered true) with
        rows := BoardsDB.updateRecord s.rows b.info.id b
        written := s.written ++ [n] } := by
  have hmerge : (puts n).merge p existing = some b := h.merged n existing b hphase
  have hnot : n ∉ s.written := by
    rw [h.mem_written, hphase]
    exact nofun
  refine ⟨?_, ?_, ?_, ?_⟩
  · intro m existing' b' hm
    by_cases heq : m = n
    · subst heq
      simp only [State.setPhase, Function.update_self] at hm
      cases hm
    · refine h.merged m existing' b' ?_
      simpa only [State.setPhase, Function.update_of_ne heq] using hm
  · -- A request writes once, since it has answered then.
    exact List.nodup_append.mpr
      ⟨h.nodup, List.nodup_singleton n, fun m hm k hk heq =>
        hnot (List.mem_singleton.mp hk ▸ heq ▸ hm)⟩
  · intro m
    by_cases heq : m = n
    · subst heq
      simp only [State.setPhase, Function.update_self, List.mem_append, List.mem_singleton, or_true]
    · simpa only [State.setPhase, Function.update_of_ne heq, List.mem_append, List.mem_singleton,
        heq, or_false] using h.mem_written m
  · -- The row is still the one it has read: run now as a whole, it would do the same.
    have hput : doPut p s.rows (puts n) = some (BoardsDB.updateRecord s.rows b.info.id b) :=
      Option.bind_eq_some_iff.mpr
        ⟨existing, hcurrent, Option.bind_eq_some_iff.mpr ⟨b, hmerge, rfl⟩⟩
    rw [List.map_append, List.foldlM_append, h.serial]
    exact Option.bind_eq_some_iff.mpr ⟨_, rfl, Option.bind_eq_some_iff.mpr ⟨_, hput, rfl⟩⟩

theorem inv_step {a : Label} (hcurrent : Current puts s a) (h : Inv p puts rows s)
    (hstep : s.step p puts a = some s') : Inv p puts rows s' := by
  unfold State.step at hstep
  cases hphase : s.phases a.n with
  | getRecord =>
      have hbefore : s.phases a.n ≠ .answered true := by simp [hphase]
      simp only [hphase] at hstep
      split at hstep
      · split at hstep
        · rename_i existing _ b hmerge
          obtain rfl := Option.some.inj hstep
          refine inv_setPhase h hbefore nofun fun existing' b' heq => ?_
          cases heq
          exact hmerge
        · obtain rfl := Option.some.inj hstep
          exact inv_setPhase h hbefore (by decide) nofun
      · obtain rfl := Option.some.inj hstep
        exact inv_setPhase h hbefore (by decide) nofun
  | updateRecord existing b =>
      have hbefore : s.phases a.n ≠ .answered true := by simp [hphase]
      simp only [hphase] at hstep
      split at hstep
      -- the one step that writes, and what it writes is made of the row as it is
      · obtain rfl := Option.some.inj hstep
        exact inv_write h hphase (hcurrent existing b hphase)
      · obtain rfl := Option.some.inj hstep
        exact inv_setPhase h hbefore (by decide) nofun
  | answered ok =>
      simp only [hphase] at hstep
      cases hstep

/-- No update is lost in a run whose writes find the board that was read. -/
theorem serializable_of_current (h : ReachableUnder (system p puts rows) (Current puts) s) :
    Serializable p puts rows s := by
  have hinv : Inv p puts rows s := by
    refine h.invariant (fun s hs => ?_) fun s a s' _ hcurrent hinv hstep =>
      inv_step hcurrent hinv hstep
    rw [show s = _ from hs]
    exact
      { merged := nofun
        nodup := List.nodup_nil
        mem_written := fun n => iff_of_false List.not_mem_nil nofun
        serial := rfl }
  exact ⟨s.written, hinv.nodup, hinv.mem_written, hinv.serial⟩

/-- A step moves one request only. -/
theorem phases_step {a : Label} {n : Nat} (hn : n ≠ a.n) (hstep : s.step p puts a = some s') :
    s'.phases n = s.phases n := by
  unfold State.step at hstep
  split at hstep
  · split at hstep
    · split at hstep <;> obtain rfl := Option.some.inj hstep <;> exact Function.update_of_ne hn _ _
    · obtain rfl := Option.some.inj hstep
      exact Function.update_of_ne hn _ _
  · split at hstep <;> obtain rfl := Option.some.inj hstep <;> exact Function.update_of_ne hn _ _
  · cases hstep

theorem phases_run {labels : List Label} {n : Nat} (hn : ∀ a ∈ labels, n ≠ a.n)
    (hrun : run (State.step p puts) s labels = some s') : s'.phases n = s.phases n := by
  induction labels generalizing s with
  | nil =>
      obtain rfl := Option.some.inj hrun
      rfl
  | cons a rest ih =>
      obtain ⟨t, hstep, hrest⟩ := Option.bind_eq_some_iff.mp hrun
      rw [ih (fun b hb => hn b (List.mem_cons_of_mem _ hb)) hrest]
      exact phases_step (hn a List.mem_cons_self) hstep

theorem current_of_getRecord {a : Label} (h : s.phases a.n = .getRecord) : Current puts s a := by
  intro existing b hphase
  rw [h] at hphase
  cases hphase

/-- A request that writes right after its read finds the board as it has read it. -/
theorem current_after_read {a a' : Label} (hn : a'.n = a.n) (h : s.phases a.n = .getRecord)
    (hstep : s.step p puts a = some s') : Current puts s' a' := by
  intro existing b hphase
  rw [hn] at hphase ⊢
  simp only [State.step, h] at hstep
  split at hstep
  · rename_i existing' hread
    split at hstep
    · obtain rfl := Option.some.inj hstep
      simp only [State.setPhase, Function.update_self, Phase.updateRecord.injEq] at hphase
      cases hok : a.ok with
      | true => simpa only [State.setPhase, hok, if_true, hphase.1] using hread
      | false => simp [hok] at hread
    · obtain rfl := Option.some.inj hstep
      simp [State.setPhase] at hphase
  · obtain rfl := Option.some.inj hstep
    simp [State.setPhase] at hphase

/-! ## Two requests on one board -/

/-- A library that converts strings and unsigned integers. -/
def plainValues : Poco Unit where
  text := fun _ => none
  uint64 := fun
    | .unsigned n => some n
    | _ => none

/-- A stored board. -/
def row : BoardRow := { id := ['b'], name := "old".toList, venueId := ['v'], retention := 30 }

/-- The first request renames the board, the second sets the retention of its venue. -/
def twoPuts : Nat → Put Unit
  | 0 => { id := ['b'], body := .obj [("name".toList, .str "new".toList)], now := 5 }
  | _ =>
      { id := ['b']
        body := .obj [("venueList".toList,
          .arr [.obj [("id".toList, .str ['v']), ("retention".toList, .unsigned 60)]])]
        now := 5 }

/-- Both have read the board before either writes it. -/
def overlapping : List Label := [{ n := 0 }, { n := 1 }, { n := 0 }, { n := 1 }]

/-- Two requests that do not overlap. -/
def oneAfterTheOther : List Label := [{ n := 0 }, { n := 0 }, { n := 1 }, { n := 1 }]

/-- What a run of the two requests ends in. -/
def outcome (labels : List Label) : Option (List BoardRow × Phase × Phase) :=
  (run (State.step plainValues twoPuts) { rows := [row] } labels).map fun s =>
    (s.rows, s.phases 0, s.phases 1)

/-- The new name is lost, though both requests answer success. -/
theorem overlapping_loses_name :
    ∃ s, Reachable (system plainValues twoPuts [row]) s ∧
      s.phases 0 = .answered true ∧ s.phases 1 = .answered true ∧
      s.rows = [{ row with retention := 60, modified := 5 }] ∧
      ¬ Serializable plainValues twoPuts [row] s := by
  have houtcome : outcome overlapping =
      some ([{ row with retention := 60, modified := 5 }], .answered true, .answered true) := by
    decide +kernel
  obtain ⟨s, hrun, hs⟩ := Option.map_eq_some_iff.mp houtcome
  simp only [Prod.mk.injEq] at hs
  obtain ⟨hrows, hzero, hone⟩ := hs
  refine ⟨s, reachable_of_run_start hrun, hzero, hone, hrows, ?_⟩
  rintro ⟨order, hnodup, hmem, hserial⟩
  -- both requests were answered and no other, so these two are what is ordered
  have hperm : order.Perm [0, 1] := by
    refine (List.perm_ext_iff_of_nodup hnodup (by decide)).mpr fun n => ?_
    rw [hmem]
    by_cases hn : n = 0 ∨ n = 1
    · rcases hn with rfl | rfl <;> simp [hzero, hone]
    · have hphase : s.phases n = .getRecord :=
        phases_run (by simp only [overlapping, List.forall_mem_cons]; simp; omega) hrun
      simpa [hphase] using hn
  have horder : order = [0, 1] ∨ order = [1, 0] := by
    have hperms := List.mem_permutations.mpr hperm
    simpa [List.permutations, List.permutationsAux, List.permutationsAux.rec] using hperms
  rw [hrows] at hserial
  -- neither order ends in the row that is stored
  rcases horder with rfl | rfl
  · exact absurd hserial (by decide +kernel)
  · exact absurd hserial (by decide +kernel)

/-- One request after the other. -/
theorem serializable_oneAfterTheOther :
    ∃ s, ReachableUnder (system plainValues twoPuts [row]) (Current twoPuts) s ∧
      s.phases 0 = .answered true ∧ s.phases 1 = .answered true ∧
      Serializable plainValues twoPuts [row] s := by
  have houtcome : outcome oneAfterTheOther =
      some ([{ row with name := "new".toList, retention := 60, modified := 5 }],
        .answered true, .answered true) := by
    decide +kernel
  obtain ⟨s₄, hrun, hs⟩ := Option.map_eq_some_iff.mp houtcome
  simp only [Prod.mk.injEq] at hs
  obtain ⟨s₁, hread, hrun⟩ := Option.bind_eq_some_iff.mp hrun
  obtain ⟨s₂, hwrite, hrun⟩ := Option.bind_eq_some_iff.mp hrun
  obtain ⟨s₃, hread', hrun⟩ := Option.bind_eq_some_iff.mp hrun
  obtain ⟨s₄', hwrite', hrun⟩ := Option.bind_eq_some_iff.mp hrun
  obtain rfl := Option.some.inj hrun
  have hphase : s₂.phases 1 = .getRecord := by
    rw [phases_step (by decide) hwrite, phases_step (by decide) hread]
  -- each request writes before the other reads, so it finds what it has read
  have h₁ : ReachableUnder (system plainValues twoPuts [row]) (Current twoPuts) s₁ :=
    .step (.init rfl) (current_of_getRecord rfl) hread
  have h₂ := h₁.step (current_after_read rfl rfl hread) hwrite
  have h₃ := h₂.step (current_of_getRecord hphase) hread'
  have h₄ := h₃.step (current_after_read rfl hphase hread') hwrite'
  exact ⟨s₄', h₄, hs.2.1, hs.2.2, serializable_of_current h₄⟩

end OwAnalytics.Boards.LostUpdate
