/-
  OwAnalytics.Lib.History

  What has happened in a run.  An invariant may speak of the run so far and not only of
  the state it has led to: it holds of the empty run, each step carries it on, and what
  has happened stays so.
-/

import OwAnalytics.Lib.Transitions

namespace History

open Transitions

variable {σ α : Type*} {next : σ → α → Option σ} {s : σ}

/-- Some step of the run took its label in a state with `P`. -/
def Happened (next : σ → α → Option σ) (s : σ) (labels : List α) (P : σ → α → Prop) : Prop :=
  ∃ before a after t, labels = before ++ a :: after ∧ run next s before = some t ∧ P t a

/-- A run that goes on. -/
theorem run_append (labels rest : List α) :
    run next s (labels ++ rest) = (run next s labels).bind fun t => run next t rest := by
  induction labels generalizing s with
  | nil => rfl
  | cons a labels ih =>
    rw [List.cons_append, run, run, Option.bind_assoc]
    congr 1
    funext t
    exact ih

/-- What has happened stays so. -/
theorem Happened.append {labels : List α} {P : σ → α → Prop} (h : Happened next s labels P)
    (rest : List α) : Happened next s (labels ++ rest) P := by
  obtain ⟨before, a, after, t, rfl, hrun, hP⟩ := h
  exact ⟨before, a, after ++ rest, t, by rw [List.append_assoc, List.cons_append], hrun, hP⟩

/-- The step just taken has happened. -/
theorem happened_last {labels : List α} {P : σ → α → Prop} {t : σ} {a : α}
    (hrun : run next s labels = some t) (hP : P t a) : Happened next s (labels ++ [a]) P :=
  ⟨labels, a, [], t, rfl, hrun, hP⟩

/-- An invariant of the run and its state holds of every run, if it holds of the empty one and
    every step carries it on. -/
theorem invariant (inv : List α → σ → Prop) (hinit : inv [] s)
    (hstep : ∀ labels t a t', run next s labels = some t → inv labels t → next t a = some t' →
      inv (labels ++ [a]) t') {labels : List α} {t : σ} (h : run next s labels = some t) :
    inv labels t := by
  -- the last step first
  induction labels using List.reverseRecOn generalizing t with
  | nil =>
    obtain rfl := Option.some.inj h
    exact hinit
  | append_singleton labels a ih =>
    rw [run_append] at h
    obtain ⟨u, hu, hlast⟩ := Option.bind_eq_some_iff.mp h
    obtain ⟨t', ht', hnil⟩ := Option.bind_eq_some_iff.mp hlast
    obtain rfl := Option.some.inj hnil
    exact hstep labels u a t' hu (ih hu) ht'

end History
