/-
  OwAnalytics.Lib.Mutexes

  Mutexes and the threads that own them.  A table says which thread owns a mutex;
  it is consistent when it says what the threads hold at their places in the code,
  and locking a free mutex or unlocking one that is held keeps it so.  A set of
  threads is deadlocked when each of them waits for a mutex that another one owns.
-/

import Mathlib

namespace Mutexes

variable {T M : Type*}

/-- The table says what the threads hold. -/
def Consistent (owner : M → Option T) (held : T → Set M) : Prop :=
  ∀ m t, owner m = some t ↔ m ∈ held t

/-- Each thread of the set waits for a mutex that another thread of the set owns. -/
def Deadlocked (owner : M → Option T) (wants : T → Option M) (D : Set T) : Prop :=
  D.Nonempty ∧ ∀ t ∈ D, ∃ m t', wants t = some m ∧ owner m = some t' ∧ t' ∈ D ∧ t' ≠ t

namespace Consistent

variable {owner : M → Option T} {held : T → Set M} {m : M} {t t' : T}

/-- A mutex has one holder at most. -/
theorem holder_unique (h : Consistent owner held) (ht : m ∈ held t) (ht' : m ∈ held t') : t = t' :=
  Option.some.inj (((h m t).mpr ht).symm.trans ((h m t').mpr ht'))

/-- Every thread of a deadlocked set waits for a mutex that a thread of the set holds. -/
theorem next_of_deadlocked {wants : T → Option M} {D : Set T} (h : Consistent owner held)
    (hD : Deadlocked owner wants D) (ht : t ∈ D) :
    ∃ m t', wants t = some m ∧ m ∈ held t' ∧ t' ∈ D := by
  obtain ⟨m, t', hwants, howner, ht', -⟩ := hD.2 t ht
  exact ⟨m, t', hwants, (h m t').mp howner, ht'⟩

variable [DecidableEq T] [DecidableEq M]

/-- A thread locks a mutex that nobody owns. -/
theorem lock (h : Consistent owner held) (hfree : owner m = none) :
    Consistent (Function.update owner m (some t))
      (Function.update held t (insert m (held t))) := by
  intro m' t'
  have hnone : ∀ u, m ∉ held u := by
    intro u hu
    rw [← h m u, hfree] at hu
    cases hu
  by_cases hm : m' = m
  · subst hm
    by_cases ht : t' = t
    · subst ht
      simp
    · simp [ht, Ne.symm ht, hnone t']
  · rw [Function.update_of_ne hm, h m' t']
    by_cases ht : t' = t
    · subst ht
      simp [hm]
    · rw [Function.update_of_ne ht]

/-- A thread unlocks a mutex it holds. -/
theorem unlock (h : Consistent owner held) (hm : m ∈ held t) :
    Consistent (Function.update owner m none)
      (Function.update held t (held t \ {m})) := by
  intro m' t'
  by_cases hm' : m' = m
  · subst hm'
    by_cases ht : t' = t
    · subst ht
      simp
    · -- The mutex has one owner, so no other thread holds it.
      have hother : m' ∉ held t' := by
        intro hu
        have hsame := ((h m' t').mpr hu).symm.trans ((h m' t).mpr hm)
        exact ht (Option.some.inj hsame)
      simp [ht, hother]
  · rw [Function.update_of_ne hm', h m' t']
    by_cases ht : t' = t
    · subst ht
      simp [hm']
    · rw [Function.update_of_ne ht]

end Consistent

end Mutexes
