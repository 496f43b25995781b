/-
  OwAnalytics.Lib.Transitions

  Labelled transition systems.  States may be reached through all steps or only
  through steps that meet a condition on the state they start from and on their
  label; an invariant of either is proved once, by its initial states and by its
  steps.  Systems whose steps are a partial function can be run on a list of
  labels.
-/

import Mathlib

namespace Transitions

variable {σ α : Type*}

/-- A system: its initial states and its labelled steps. -/
structure System (σ α : Type*) where
  init : σ → Prop
  step : σ → α → σ → Prop

/-- The states reached from an initial one through steps that meet the condition `C`. -/
inductive ReachableUnder (S : System σ α) (C : σ → α → Prop) : σ → Prop
  | init {s} (h : S.init s) : ReachableUnder S C s
  | step {s a s'} (hs : ReachableUnder S C s) (hC : C s a) (h : S.step s a s') :
      ReachableUnder S C s'

/-- The states reached through any steps. -/
abbrev Reachable (S : System σ α) : σ → Prop := ReachableUnder S fun _ _ => True

/-- What holds initially and is preserved by every step of the system, taken from a state that
    is itself reached, holds in every state reached. -/
theorem ReachableUnder.invariant {S : System σ α} {C : σ → α → Prop} {inv : σ → Prop}
    (hinit : ∀ s, S.init s → inv s)
    (hstep : ∀ s a s', ReachableUnder S C s → C s a → inv s → S.step s a s' → inv s') {s : σ}
    (h : ReachableUnder S C s) : inv s := by
  induction h with
  | init h => exact hinit _ h
  | step hs hC h ih => exact hstep _ _ _ hs hC ih h

/-- What is reached through steps that meet a condition is reached. -/
theorem ReachableUnder.reachable {S : System σ α} {C : σ → α → Prop} {s : σ}
    (h : ReachableUnder S C s) : Reachable S s := by
  induction h with
  | init h => exact .init h
  | step _ _ h ih => exact .step ih trivial h

/-! ## Systems with a step function -/

/-- The system of a partial step function and one initial state. -/
def ofFun (start : σ) (next : σ → α → Option σ) : System σ α where
  init s := s = start
  step s a s' := next s a = some s'

/-- The state after a list of labels, each of which has to be enabled when its turn comes. -/
def run (next : σ → α → Option σ) : σ → List α → Option σ
  | s, [] => some s
  | s, a :: rest => (next s a).bind fun s' => run next s' rest

theorem run_cons {next : σ → α → Option σ} {s t : σ} {a : α} (h : next s a = some t)
    (rest : List α) : run next s (a :: rest) = run next t rest := by
  rw [run, h, Option.bind_some]

theorem run_concat {next : σ → α → Option σ} (s : σ) (labels : List α) (a : α) :
    run next s (labels ++ [a]) = (run next s labels).bind fun t => next t a := by
  induction labels generalizing s with
  | nil =>
      show (next s a).bind some = next s a
      exact Option.bind_fun_some _
  | cons b rest ih =>
      rw [List.cons_append, run, run]
      cases next s b with
      | none => rfl
      | some t => exact ih t

/-- A run of a system's steps, on labels that meet the condition wherever they stand, leads from
    a reached state to reached states. -/
theorem reachableUnder_of_run {S : System σ α} {C : σ → α → Prop} {next : σ → α → Option σ}
    (hS : ∀ s a s', next s a = some s' → S.step s a s') {s s' : σ} {labels : List α}
    (hs : ReachableUnder S C s) (hC : ∀ a ∈ labels, ∀ t, C t a)
    (h : run next s labels = some s') : ReachableUnder S C s' := by
  induction labels generalizing s with
  | nil =>
      obtain rfl := Option.some.inj h
      exact hs
  | cons a rest ih =>
      obtain ⟨t, hnext, hrest⟩ := Option.bind_eq_some_iff.mp h
      have ht : ReachableUnder S C t := hs.step (hC a List.mem_cons_self s) (hS _ _ _ hnext)
      exact ih ht (fun b hb => hC b (List.mem_cons_of_mem _ hb)) hrest

theorem reachable_of_run {S : System σ α} {next : σ → α → Option σ}
    (hS : ∀ s a s', next s a = some s' → S.step s a s') {s s' : σ} {labels : List α}
    (hs : Reachable S s) (h : run next s labels = some s') : Reachable S s' :=
  reachableUnder_of_run hS hs (fun _ _ _ => trivial) h

/-- A run from the start reaches its last state. -/
theorem reachable_of_run_start {start : σ} {next : σ → α → Option σ} {s' : σ} {labels : List α}
    (h : run next start labels = some s') : Reachable (ofFun start next) s' :=
  reachable_of_run (fun _ _ _ hnext => hnext) (.init rfl) h

/-- Some run from the state ends in a state with the property. -/
def CanReach (next : σ → α → Option σ) (P : σ → Prop) (s : σ) : Prop :=
  ∃ labels s', run next s labels = some s' ∧ P s'

theorem canReach_here {next : σ → α → Option σ} {P : σ → Prop} {s : σ} (h : P s) :
    CanReach next P s :=
  ⟨[], s, rfl, h⟩

theorem canReach_step {next : σ → α → Option σ} {P : σ → Prop} {s s' : σ} {a : α}
    (h : next s a = some s') (hs' : CanReach next P s') : CanReach next P s := by
  obtain ⟨labels, t, hrun, ht⟩ := hs'
  exact ⟨a :: labels, t, by rw [run, h]; exact hrun, ht⟩

/-- One run after the other. -/
theorem CanReach.trans {next : σ → α → Option σ} {P Q : σ → Prop} {s : σ} (h : CanReach next P s)
    (hP : ∀ t, P t → CanReach next Q t) : CanReach next Q s := by
  obtain ⟨labels, t, hrun, ht⟩ := h
  induction labels generalizing s with
  | nil =>
      obtain rfl := Option.some.inj hrun
      exact hP _ ht
  | cons a rest ih =>
      obtain ⟨u, hu, hrest⟩ := Option.bind_eq_some_iff.mp hrun
      exact canReach_step hu (ih hrest)

/-! ## Along a run -/

/-- Every step the run on these labels takes meets the condition `C`. -/
def Along (next : σ → α → Option σ) (C : σ → α → Prop) : σ → List α → Prop
  | _, [] => True
  | s, a :: rest => ∀ s', next s a = some s' → C s a ∧ Along next C s' rest

/-- The property holds in every state of the run on these labels. -/
def Throughout (next : σ → α → Option σ) (P : σ → Prop) : σ → List α → Prop
  | s, [] => P s
  | s, a :: rest => P s ∧ ∀ s', next s a = some s' → Throughout next P s' rest

theorem Throughout.head {next : σ → α → Option σ} {P : σ → Prop} {s : σ} {labels : List α}
    (h : Throughout next P s labels) : P s := by
  cases labels with
  | nil => exact h
  | cons a rest => exact h.1

theorem Throughout.mono {next : σ → α → Option σ} {P Q : σ → Prop} {s : σ} {labels : List α}
    (h : Throughout next P s labels) (hPQ : ∀ s, P s → Q s) : Throughout next Q s labels := by
  induction labels generalizing s with
  | nil => exact hPQ s h
  | cons a rest ih => exact ⟨hPQ s h.1, fun s' hs' => ih (h.2 s' hs')⟩

theorem along_congr {next : σ → α → Option σ} {C D : σ → α → Prop} (h : ∀ s a, C s a ↔ D s a)
    (s : σ) (labels : List α) : Along next C s labels ↔ Along next D s labels := by
  induction labels generalizing s with
  | nil => exact Iff.rfl
  | cons a rest ih =>
      exact forall_congr' fun s' => imp_congr_right fun _ => and_congr (h s a) (ih s')

/-- A run all of whose steps meet the condition leads to a state reached through such steps. -/
theorem Along.reachableUnder {S : System σ α} {C : σ → α → Prop} {next : σ → α → Option σ}
    (hS : ∀ s a s', next s a = some s' → S.step s a s') {s s' : σ} {labels : List α}
    (h : Along next C s labels) (hs : ReachableUnder S C s) (hrun : run next s labels = some s') :
    ReachableUnder S C s' := by
  induction labels generalizing s with
  | nil =>
      obtain rfl := Option.some.inj hrun
      exact hs
  | cons a rest ih =>
      obtain ⟨t, hnext, hrest⟩ := Option.bind_eq_some_iff.mp hrun
      obtain ⟨hC, htail⟩ := h t hnext
      exact ih htail (hs.step hC (hS _ _ _ hnext)) hrest

/-- A step the run takes meets the condition, wherever it stands. -/
theorem Along.of_run {next : σ → α → Option σ} {C : σ → α → Prop} {s t t' : σ} {a : α}
    {before after : List α} (h : Along next C s (before ++ a :: after))
    (hrun : run next s before = some t) (hnext : next t a = some t') : C t a := by
  induction before generalizing s with
  | nil =>
      obtain rfl := Option.some.inj hrun
      exact (h t' hnext).1
  | cons b rest ih =>
      obtain ⟨u, hb, hrest⟩ := Option.bind_eq_some_iff.mp hrun
      exact ih (h u hb).2 hrest

theorem Throughout.of_run {next : σ → α → Option σ} {P : σ → Prop} {s t : σ}
    {before after : List α} (h : Throughout next P s (before ++ after))
    (hrun : run next s before = some t) : P t := by
  induction before generalizing s with
  | nil =>
      obtain rfl := Option.some.inj hrun
      exact h.head
  | cons b rest ih =>
      obtain ⟨u, hb, hrest⟩ := Option.bind_eq_some_iff.mp hrun
      exact ih (h.2 u hb) hrest

/-- If a step from a state with the property keeps it exactly when it meets the condition, the
    property holds throughout a run exactly when all of its steps meet the condition. -/
theorem throughout_iff_along {next : σ → α → Option σ} {P : σ → Prop} {C : σ → α → Prop}
    (hstep : ∀ s a s', P s → next s a = some s' → (P s' ↔ C s a)) {s : σ} (hs : P s)
    (labels : List α) : Throughout next P s labels ↔ Along next C s labels := by
  induction labels generalizing s with
  | nil => exact iff_of_true hs trivial
  | cons a rest ih =>
      refine ⟨?_, ?_⟩
      · rintro ⟨-, h⟩ s' hs'
        have hP := (h s' hs').head
        exact ⟨(hstep s a s' hs hs').mp hP, (ih hP).mp (h s' hs')⟩
      · intro h
        refine ⟨hs, fun s' hs' => ?_⟩
        obtain ⟨hC, hrest⟩ := h s' hs'
        exact (ih ((hstep s a s' hs hs').mpr hC)).mpr hrest

end Transitions
