/-
  OwAnalytics.Lib.Expiry

  Entries that expire.  Reports put a value under a key or take it away, and now and
  then a sweep removes the values that are too old.  Sweeps that come in the order of
  the clock never remove what a later one would keep, so after a sweep the contents
  are the last reports, less what is too old now.
-/

import Mathlib

namespace Expiry

variable {κ ν : Type*} [DecidableEq κ]

/-- A report about a key: its value, or that it has none. -/
abbrev Report (κ ν : Type*) := κ × Option ν

/-- What a table holds under each key. -/
abbrev Contents (κ ν : Type*) := κ → Option ν

/-- A message may carry no report. -/
def put (c : Contents κ ν) : Option (Report κ ν) → Contents κ ν
  | none => c
  | some r => Function.update c r.1 r.2

@[simp] theorem put_none (c : Contents κ ν) : put c none = c := rfl

theorem put_some_self (c : Contents κ ν) (k : κ) (v : Option ν) : put c (some (k, v)) k = v := by
  rw [put, Function.update_self]

theorem put_some_of_ne (c : Contents κ ν) {k k' : κ} (h : k' ≠ k) (v : Option ν) :
    put c (some (k, v)) k' = c k' := by
  rw [put, Function.update_of_ne h]

/-! ## The last report -/

/-- The contents without sweeps. -/
def latest (reports : List (Option (Report κ ν))) : Contents κ ν :=
  reports.foldl put fun _ => none

theorem latest_concat (reports : List (Option (Report κ ν))) (r : Option (Report κ ν)) :
    latest (reports ++ [r]) = put (latest reports) r := by
  rw [latest, List.foldl_append]
  rfl

/-- What a key has was reported. -/
theorem exists_report_of_latest {reports : List (Option (Report κ ν))} {k : κ} {v : ν}
    (h : latest reports k = some v) : some (k, some v) ∈ reports := by
  induction reports using List.reverseRecOn with
  | nil => cases h
  | append_singleton reports r ih =>
      rw [latest_concat] at h
      cases r with
      | none => exact List.mem_append_left _ (ih h)
      | some r =>
          obtain ⟨k', v'⟩ := r
          by_cases hk : k = k'
          · subst hk
            rw [put_some_self] at h
            rw [h]
            exact List.mem_append_right _ List.mem_cons_self
          · rw [put_some_of_ne _ hk] at h
            exact List.mem_append_left _ (ih h)

/-- The last report about a key. -/
def mostRecent (reports : List (Option (Report κ ν))) (k : κ) : Option (Option ν) :=
  ((reports.reverse.filterMap id).find? fun r => r.1 = k).map Prod.snd

/-- Without sweeps a key has what the last report about it said. -/
theorem latest_eq_mostRecent (reports : List (Option (Report κ ν))) (k : κ) :
    latest reports k = (mostRecent reports k).join := by
  induction reports using List.reverseRecOn with
  | nil => rfl
  | append_singleton reports r ih =>
      rw [latest_concat, mostRecent, List.reverse_append]
      cases r with
      | none => exact ih
      | some r =>
          -- a report about the key is the most recent; one about another key is passed over
          by_cases hk : r.1 = k
          · have hfirst : (([some r].reverse ++ reports.reverse).filterMap id).find?
                (fun r' => decide (r'.1 = k)) = some r := by
              simp [hk]
            rw [hfirst]
            subst hk
            exact put_some_self _ _ _
          · have hskip : (([some r].reverse ++ reports.reverse).filterMap id).find?
                (fun r' => decide (r'.1 = k))
                  = (reports.reverse.filterMap id).find? fun r' => decide (r'.1 = k) := by
              simp [hk]
            rw [hskip]
            exact (put_some_of_ne _ (Ne.symm hk) _).trans ih

/-! ## Sweeps -/

variable (stamp : ν → ℕ) (limit : ℕ)

/-- What is not too old at a time. -/
def sweep (now : ℕ) (c : Contents κ ν) : Contents κ ν :=
  fun k => (c k).filter fun v => now ≤ stamp v + limit

omit [DecidableEq κ] in
theorem sweep_eq_some_iff {now : ℕ} {c : Contents κ ν} {k : κ} {v : ν} :
    sweep stamp limit now c k = some v ↔ c k = some v ∧ now ≤ stamp v + limit := by
  rw [sweep, Option.filter_eq_some_iff, decide_eq_true_iff]

/-- A sweep adds nothing. -/
theorem put_eq_some_of_put_sweep {now : ℕ} {c : Contents κ ν} {r : Option (Report κ ν)} {k : κ}
    {v : ν} (h : put (sweep stamp limit now c) r k = some v) : put c r k = some v := by
  cases r with
  | none => exact ((sweep_eq_some_iff stamp limit).mp h).1
  | some r =>
      obtain ⟨k', v'⟩ := r
      by_cases hk : k = k'
      · subst hk
        rw [put_some_self] at h
        rw [put_some_self, h]
      · rw [put_some_of_ne _ hk] at h
        rw [put_some_of_ne _ hk]
        exact ((sweep_eq_some_iff stamp limit).mp h).1

/-- A sweep before a later one removes nothing the later one keeps. -/
theorem sweep_put_sweep {now now' : ℕ} (h : now' ≤ now) (c : Contents κ ν)
    (r : Option (Report κ ν)) :
    sweep stamp limit now (put (sweep stamp limit now' c) r) = sweep stamp limit now (put c r) := by
  have hkey : ∀ k, sweep stamp limit now (sweep stamp limit now' c) k
      = sweep stamp limit now c k := by
    intro k
    refine Option.ext fun v => ?_
    rw [sweep_eq_some_iff, sweep_eq_some_iff, sweep_eq_some_iff]
    refine ⟨fun hv => ⟨hv.1.1, hv.2⟩, fun hv => ⟨⟨hv.1, ?_⟩, hv.2⟩⟩
    omega
  funext k
  cases r with
  | none => exact hkey k
  | some r =>
      by_cases hk : k = r.1
      · subst hk
        rw [sweep, put_some_self, sweep, put_some_self]
      · rw [sweep, put_some_of_ne _ hk]
        exact (hkey k).trans (by rw [sweep, sweep, put_some_of_ne _ hk])

end Expiry
