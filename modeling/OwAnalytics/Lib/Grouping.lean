/-
  OwAnalytics.Lib.Grouping

  Folding a list of keyed values into an ordered map that keeps one accumulator
  for each key.  The accumulator of a key is the fold of the values listed under
  it, in the order of the list and independent of everything listed under other
  keys.
-/

import Mathlib

namespace Grouping

variable {κ β γ δ : Type*} [DecidableEq κ]

/-- The values listed under `k`, in the order of the list. -/
def valuesAt (k : κ) (l : List (κ × β)) : List β :=
  l.filterMap fun kv => if kv.1 = k then some kv.2 else none

@[simp] theorem valuesAt_nil (k : κ) : valuesAt k ([] : List (κ × β)) = [] := rfl

theorem valuesAt_cons (k : κ) (kv : κ × β) (l : List (κ × β)) :
    valuesAt k (kv :: l) = if kv.1 = k then kv.2 :: valuesAt k l else valuesAt k l := by
  unfold valuesAt
  split_ifs with h <;> simp [h]

@[simp] theorem mem_valuesAt {k : κ} {v : β} {l : List (κ × β)} :
    v ∈ valuesAt k l ↔ (k, v) ∈ l := by
  unfold valuesAt
  rw [List.mem_filterMap]
  refine ⟨?_, ?_⟩
  · rintro ⟨⟨k', v'⟩, hmem, heq⟩
    split_ifs at heq with h
    obtain rfl := Option.some.inj heq
    exact h ▸ hmem
  · intro hmem
    exact ⟨(k, v), hmem, if_pos rfl⟩

theorem valuesAt_map (k : κ) (g : β → δ) (l : List (κ × β)) :
    valuesAt k (l.map fun kv => (kv.1, g kv.2)) = (valuesAt k l).map g := by
  induction l with
  | nil => rfl
  | cons kv l ih =>
      rw [List.map_cons, valuesAt_cons, valuesAt_cons, ih]
      split_ifs <;> rfl

section Accumulate

variable {cmp : κ → κ → Ordering} [Std.TransCmp cmp] [Std.LawfulEqCmp cmp]

/-- Fold one keyed value into the accumulator of its key, which starts as `d`. -/
def accumulate (f : γ → β → γ) (d : γ) (m : Std.ExtTreeMap κ γ cmp) (kv : κ × β) :
    Std.ExtTreeMap κ γ cmp :=
  m.alter kv.1 fun acc => some (f (acc.getD d) kv.2)

/-- One step changes the accumulator of its own key only. -/
theorem getElem?_accumulate (f : γ → β → γ) (d : γ) (m : Std.ExtTreeMap κ γ cmp) (kv : κ × β)
    (k : κ) :
    (accumulate f d m kv)[k]? = if kv.1 = k then some (f (m[k]?.getD d) kv.2) else m[k]? := by
  rw [accumulate, Std.ExtTreeMap.getElem?_alter]
  by_cases h : kv.1 = k
  · subst h
    rw [if_pos Std.ReflCmp.compare_self, if_pos rfl]
  · rw [if_neg (fun hcmp => h (Std.LawfulEqCmp.eq_of_compare hcmp)), if_neg h]

/-- The accumulator of a key after a whole list. -/
theorem getElem?_foldl_accumulate (f : γ → β → γ) (d : γ) (l : List (κ × β))
    (m : Std.ExtTreeMap κ γ cmp) (k : κ) :
    (l.foldl (accumulate f d) m)[k]?
      = if (valuesAt k l).isEmpty then m[k]?
        else some ((valuesAt k l).foldl f (m[k]?.getD d)) := by
  induction l generalizing m with
  | nil => rfl
  | cons kv l ih =>
      rw [List.foldl_cons, ih, getElem?_accumulate, valuesAt_cons]
      by_cases h : kv.1 = k
      · simp only [h, if_true, List.isEmpty_cons, Bool.false_eq_true, if_false,
          Option.getD_some, List.foldl_cons]
        split_ifs with hempty
        · rw [List.isEmpty_iff.mp hempty]
          rfl
        · rfl
      · rw [if_neg h, if_neg h]

/-- A fold that does not depend on the order of the values of a key does not depend on the
    order of the list. -/
theorem foldl_accumulate_perm {f : γ → β → γ} [RightCommutative f] (d : γ) {l l' : List (κ × β)}
    (h : l.Perm l') (m : Std.ExtTreeMap κ γ cmp) :
    l.foldl (accumulate f d) m = l'.foldl (accumulate f d) m := by
  apply Std.ExtTreeMap.ext_getElem?
  intro k
  have hvalues : (valuesAt k l).Perm (valuesAt k l') := h.filterMap _
  rw [getElem?_foldl_accumulate, getElem?_foldl_accumulate, hvalues.isEmpty_eq,
    hvalues.foldl_eq]

/-- Grouping by key: a key holds the list of its values, if it has any. -/
theorem getElem?_foldl_group (l : List (κ × β)) (k : κ) :
    (l.foldl (accumulate (fun acc v => acc ++ [v]) []) (∅ : Std.ExtTreeMap κ (List β) cmp))[k]?
      = if (valuesAt k l).isEmpty then none else some (valuesAt k l) := by
  rw [getElem?_foldl_accumulate, Std.ExtTreeMap.getElem?_empty]
  have hpush : ∀ (l acc : List β), l.foldl (fun acc v => acc ++ [v]) acc = acc ++ l := by
    intro l
    induction l with
    | nil => simp
    | cons v l ih => simp [ih]
  rw [hpush]
  rfl

end Accumulate
end Grouping
