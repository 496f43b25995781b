/-
  OwAnalytics.Lib.Throwing

  Computations on a state that may throw.  A throw ends the computation and keeps the
  state as it is at that moment, as an exception does in a language with mutable
  records.  Loops over lists, and the rules for what a computation keeps and ensures.
-/

import Mathlib

namespace Throwing

variable {σ α β : Type}

/-- A computation from a state: its result, `none` if it throws, and the state it leaves. -/
def Computation (σ α : Type) := σ → Option α × σ

instance instMonadComputation : Monad (Computation σ) where
  pure a := fun s => (some a, s)
  bind x f := fun s =>
    match x s with
    | (some a, s') => f a s'
    | (none, s') => (none, s')

namespace Computation

/-- The value, or a throw where there is none. -/
def ofOption (o : Option α) : Computation σ α := fun s => (o, s)

/-- The state. -/
def get : Computation σ σ := fun s => (some s, s)

/-- A change of the state. -/
def modify (f : σ → σ) : Computation σ Unit := fun s => (some (), f s)

/-- `try x catch (...) {}`, the state it leaves. -/
def attempt (x : Computation σ α) (s : σ) : σ := (x s).2

/-- `try x catch (...) {}` as a step of a computation. -/
def caught (x : Computation σ α) : Computation σ Unit := fun s => (some (), x.attempt s)

/-- A computation on a part of the state. -/
def within {τ : Type} (part : σ → τ) (put : σ → τ → σ) (x : Computation τ α) : Computation σ α :=
  fun s => ((x (part s)).1, put s (x (part s)).2)

/-- A computation for each element, up to the first that throws. -/
def forEach (xs : List α) (f : α → Computation σ Unit) : Computation σ Unit :=
  match xs with
  | [] => pure ()
  | x :: rest => do
      f x
      forEach rest f

/-- The results for the elements of a list, in order. -/
def mapEach (xs : List α) (f : α → Computation σ β) : Computation σ (List β) :=
  match xs with
  | [] => pure []
  | x :: rest => do
      let y ← f x
      let ys ← mapEach rest f
      return y :: ys

@[simp] theorem pure_apply (a : α) (s : σ) : (pure a : Computation σ α) s = (some a, s) := rfl

@[simp] theorem ofOption_apply (o : Option α) (s : σ) : (ofOption o : Computation σ α) s = (o, s) :=
  rfl

@[simp] theorem get_apply (s : σ) : (get : Computation σ σ) s = (some s, s) := rfl

@[simp] theorem modify_apply (f : σ → σ) (s : σ) : modify f s = (some (), f s) := rfl

theorem within_apply {τ : Type} {part : σ → τ} {put : σ → τ → σ} {x : Computation τ α} {s : σ}
    {result : Option α} {t : τ} (h : x (part s) = (result, t)) :
    within part put x s = (result, put s t) := by
  rw [within, h]

theorem bind_of_some {x : Computation σ α} {f : α → Computation σ β} {s s' : σ} {a : α}
    (h : x s = (some a, s')) : (x >>= f) s = f a s' := by
  show (match x s with | (some a, s') => f a s' | (none, s') => (none, s')) = f a s'
  rw [h]

theorem bind_of_none {x : Computation σ α} {f : α → Computation σ β} {s s' : σ}
    (h : x s = (none, s')) : (x >>= f) s = (none, s') := by
  show (match x s with | (some a, s') => f a s' | (none, s') => (none, s')) = (none, s')
  rw [h]

/-- A computation in two parts either throws in the first or goes through it. -/
theorem bind_cases (x : Computation σ α) (f : α → Computation σ β) (s : σ) :
    (∃ s', x s = (none, s') ∧ (x >>= f) s = (none, s')) ∨
      ∃ a s', x s = (some a, s') ∧ (x >>= f) s = f a s' := by
  cases h : x s with
  | mk result s' =>
      cases result with
      | none => exact .inl ⟨s', rfl, bind_of_none h⟩
      | some a => exact .inr ⟨a, s', rfl, bind_of_some h⟩

theorem forEach_map {γ : Type} (g : γ → α) (xs : List γ) (f : α → Computation σ Unit) :
    forEach (xs.map g) f = forEach xs fun x => f (g x) := by
  induction xs with
  | nil => rfl
  | cons x rest ih =>
      rw [List.map_cons, forEach, forEach, ih]

/-- A loop that has gone through goes on with what follows. -/
theorem forEach_append {xs : List α} {f : α → Computation σ Unit} {s s' : σ}
    (h : forEach xs f s = (some (), s')) (ys : List α) :
    forEach (xs ++ ys) f s = forEach ys f s' := by
  induction xs generalizing s with
  | nil =>
      obtain ⟨-, rfl⟩ := Prod.mk.inj h
      rfl
  | cons x rest ih =>
      rw [forEach] at h
      rcases bind_cases (f x) (fun _ => forEach rest f) s with ⟨t, hx, hbind⟩ | ⟨u, t, hx, hbind⟩
      · rw [hbind] at h
        cases h
      · rw [hbind] at h
        rw [List.cons_append, forEach, bind_of_some hx, ih h]

/-- A loop whose rounds are caught goes through, each round from the state the last one left. -/
theorem forEach_caught (xs : List α) (f : α → Computation σ β) (s : σ) :
    (forEach xs fun x => caught (f x)) s = (some (), xs.foldl (fun s x => (f x).attempt s) s) := by
  induction xs generalizing s with
  | nil => rfl
  | cons x rest ih =>
      rw [forEach, bind_of_some (show caught (f x) s = (some (), (f x).attempt s) from rfl), ih,
        List.foldl_cons]

/-! ## What a computation keeps -/

/-- The property holds after the computation, thrown or not, if it holds before. -/
def Keeps (P : σ → Prop) (x : Computation σ α) : Prop := ∀ s, P s → P (x s).2

theorem keeps_pure (P : σ → Prop) (a : α) : Keeps P (pure a) := fun _ h => h

theorem keeps_ofOption (P : σ → Prop) (o : Option α) : Keeps P (ofOption o) := fun _ h => h

theorem keeps_get (P : σ → Prop) : Keeps P get := fun _ h => h

theorem keeps_modify {P : σ → Prop} {f : σ → σ} (h : ∀ s, P s → P (f s)) : Keeps P (modify f) := h

theorem keeps_within {τ : Type} {P : σ → Prop} {part : σ → τ} {put : σ → τ → σ}
    {x : Computation τ α} (h : ∀ s t, P s → P (put s t)) : Keeps P (within part put x) :=
  fun s hs => h s _ hs

theorem keeps_bind {P : σ → Prop} {x : Computation σ α} {f : α → Computation σ β}
    (hx : Keeps P x) (hf : ∀ a, Keeps P (f a)) : Keeps P (x >>= f) := by
  intro s hs
  have hs' : P (x s).2 := hx s hs
  rcases bind_cases x f s with ⟨s', hxs, hbind⟩ | ⟨a, s', hxs, hbind⟩
  · rw [hbind]
    rwa [hxs] at hs'
  · rw [hbind]
    rw [hxs] at hs'
    exact hf a s' hs'

theorem keeps_forEach {P : σ → Prop} {xs : List α} {f : α → Computation σ Unit}
    (hf : ∀ x ∈ xs, Keeps P (f x)) : Keeps P (forEach xs f) := by
  induction xs with
  | nil => exact keeps_pure P ()
  | cons x rest ih =>
      exact keeps_bind (hf x List.mem_cons_self) fun _ =>
        ih fun y hy => hf y (List.mem_cons_of_mem _ hy)

theorem keeps_mapEach {P : σ → Prop} {xs : List α} {f : α → Computation σ β}
    (hf : ∀ x ∈ xs, Keeps P (f x)) : Keeps P (mapEach xs f) := by
  induction xs with
  | nil => exact keeps_pure P []
  | cons x rest ih =>
      refine keeps_bind (hf x List.mem_cons_self) fun y => keeps_bind ?_ fun ys => keeps_pure P _
      exact ih fun y hy => hf y (List.mem_cons_of_mem _ hy)

/-! ## What a computation returns -/

/-- What the computation returns, if it does not throw, is as said. -/
def Returns (Q : α → Prop) (x : Computation σ α) : Prop := ∀ s, ∀ a ∈ (x s).1, Q a

theorem returns_pure {Q : α → Prop} {a : α} (h : Q a) :
    Returns Q (pure a : Computation σ α) := by
  intro s b hb
  obtain rfl := Option.some.inj hb
  exact h

theorem returns_bind {Q : β → Prop} {x : Computation σ α} {f : α → Computation σ β}
    (hf : ∀ a, Returns Q (f a)) : Returns Q (x >>= f) := by
  intro s b hb
  rcases bind_cases x f s with ⟨s', -, hbind⟩ | ⟨a, s', -, hbind⟩
  · rw [hbind] at hb
    cases hb
  · rw [hbind] at hb
    exact hf a s' b hb

/-! ## What a computation that goes through ensures -/

/-- From a state as required, a computation that does not throw leaves a result and a state as
    said. -/
def Ensures (P : σ → Prop) (x : Computation σ α) (Q : α → σ → Prop) : Prop :=
  ∀ s a s', P s → x s = (some a, s') → Q a s'

theorem Keeps.ensures {P : σ → Prop} {x : Computation σ α} (h : Keeps P x) :
    Ensures P x fun _ => P := by
  intro s a s' hs hx
  have hs' : P (x s).2 := h s hs
  rwa [hx] at hs'

theorem Ensures.imp {P : σ → Prop} {x : Computation σ α} {Q R : α → σ → Prop}
    (h : Ensures P x Q) (hQR : ∀ a s, Q a s → R a s) : Ensures P x R :=
  fun s a s' hs hx => hQR a s' (h s a s' hs hx)

theorem Ensures.and {P : σ → Prop} {x : Computation σ α} {Q R : α → σ → Prop}
    (hQ : Ensures P x Q) (hR : Ensures P x R) : Ensures P x fun a s => Q a s ∧ R a s :=
  fun s a s' hs hx => ⟨hQ s a s' hs hx, hR s a s' hs hx⟩

theorem ensures_pure {P : σ → Prop} {a : α} {Q : α → σ → Prop} (h : ∀ s, P s → Q a s) :
    Ensures P (pure a) Q := by
  intro s b s' hs hx
  obtain ⟨ha, rfl⟩ := Prod.mk.inj hx
  obtain rfl := Option.some.inj ha
  exact h _ hs

theorem ensures_modify {P : σ → Prop} {f : σ → σ} {Q : Unit → σ → Prop}
    (h : ∀ s, P s → Q () (f s)) : Ensures P (modify f) Q := by
  intro s a s' hs hx
  obtain ⟨-, rfl⟩ := Prod.mk.inj hx
  exact h s hs

theorem ensures_bind {P : σ → Prop} {Q : α → σ → Prop} {R : β → σ → Prop}
    {x : Computation σ α} {f : α → Computation σ β} (hx : Ensures P x Q)
    (hf : ∀ a, Ensures (Q a) (f a) R) : Ensures P (x >>= f) R := by
  intro s b s' hs hb
  rcases bind_cases x f s with ⟨t, -, hbind⟩ | ⟨a, t, hxs, hbind⟩
  · rw [hbind] at hb
    cases hb
  · rw [hbind] at hb
    exact hf a t b s' (hx s a t hs hxs) hb

/-- What comes after a value that is there may use what the value is. -/
theorem ensures_ofOption_bind {P : σ → Prop} {R : β → σ → Prop} {o : Option α}
    {f : α → Computation σ β} (hf : ∀ a, o = some a → Ensures P (f a) R) :
    Ensures P (ofOption o >>= f) R := by
  cases o with
  | none =>
      intro s b s' _ hb
      rw [bind_of_none (ofOption_apply none s)] at hb
      cases hb
  | some a => exact hf a rfl

/-- The invariant of a loop tells of what the rounds up to now have added. -/
theorem ensures_forEach {P : List β → σ → Prop} {g : α → List β} {xs : List α}
    {f : α → Computation σ Unit}
    (hf : ∀ x ∈ xs, ∀ before, Ensures (P before) (f x) fun _ => P (before ++ g x))
    (before : List β) : Ensures (P before) (forEach xs f) fun _ => P (before ++ xs.flatMap g) := by
  induction xs generalizing before with
  | nil => exact ensures_pure fun s hs => by rwa [List.flatMap_nil, List.append_nil]
  | cons x rest ih =>
      refine ensures_bind (hf x List.mem_cons_self before) fun _ => ?_
      rw [List.flatMap_cons, ← List.append_assoc]
      exact ih (fun y hy => hf y (List.mem_cons_of_mem _ hy)) (before ++ g x)

/-- There is one result for each element. -/
theorem ensures_mapEach {P : σ → Prop} {xs : List α} {f : α → Computation σ β}
    (hf : ∀ x ∈ xs, Keeps P (f x)) :
    Ensures P (mapEach xs f) fun ys s => ys.length = xs.length ∧ P s := by
  induction xs with
  | nil => exact ensures_pure fun s hs => ⟨rfl, hs⟩
  | cons x rest ih =>
      refine ensures_bind (hf x List.mem_cons_self).ensures fun y => ?_
      refine ensures_bind (ih fun z hz => hf z (List.mem_cons_of_mem _ hz)) fun ys => ?_
      refine ensures_pure fun s hs => ⟨?_, hs.2⟩
      rw [List.length_cons, List.length_cons, hs.1]

/-! ## Two computations side by side

    From states in a relation, either both computations go through, and their results and
    states are as said, or both throw, in states related otherwise. -/

/-- Both go through, with `Q` of the results and the states, or both throw, with `T`. -/
def Related (R T : σ → σ → Prop) (Q : α → β → σ → σ → Prop) (x : Computation σ α)
    (y : Computation σ β) : Prop :=
  ∀ s t, R s t →
    (∃ a b s' t', x s = (some a, s') ∧ y t = (some b, t') ∧ Q a b s' t') ∨
      ∃ s' t', x s = (none, s') ∧ y t = (none, t') ∧ T s' t'

/-- The same result, in related states. -/
def Same (R : σ → σ → Prop) (a b : α) (s t : σ) : Prop := a = b ∧ R s t

variable {R T : σ → σ → Prop}

theorem related_pure {Q : α → β → σ → σ → Prop} {a : α} {b : β} (h : ∀ s t, R s t → Q a b s t) :
    Related R T Q (pure a) (pure b) := fun s t hR => .inl ⟨a, b, s, t, rfl, rfl, h s t hR⟩

theorem related_modify {S : σ → σ → Prop} {f g : σ → σ} (h : ∀ s t, R s t → S (f s) (g t)) :
    Related R T (Same S) (modify f) (modify g) :=
  fun s t hR => .inl ⟨(), (), f s, g t, rfl, rfl, rfl, h s t hR⟩

theorem related_get : Related R T (fun a b s t => (a = s ∧ b = t) ∧ R s t) get get :=
  fun s t hR => .inl ⟨s, t, s, t, rfl, rfl, ⟨rfl, rfl⟩, hR⟩

theorem related_weaken {Q Q' : α → β → σ → σ → Prop} {x : Computation σ α} {y : Computation σ β}
    (h : Related R T Q x y) (hQ : ∀ a b s t, Q a b s t → Q' a b s t) : Related R T Q' x y := by
  intro s t hR
  rcases h s t hR with ⟨a, b, s', t', hx, hy, h⟩ | hthrow
  · exact .inl ⟨a, b, s', t', hx, hy, hQ a b s' t' h⟩
  · exact .inr hthrow

theorem related_bind {γ δ : Type} {Q : α → β → σ → σ → Prop} {Q' : γ → δ → σ → σ → Prop}
    {x : Computation σ α} {y : Computation σ β} {f : α → Computation σ γ}
    {g : β → Computation σ δ} (hx : Related R T Q x y)
    (hf : ∀ a b, Related (Q a b) T Q' (f a) (g b)) : Related R T Q' (x >>= f) (y >>= g) := by
  intro s t hR
  rcases hx s t hR with ⟨a, b, s', t', hxs, hyt, hQ⟩ | ⟨s', t', hxs, hyt, hT⟩
  · rw [bind_of_some hxs, bind_of_some hyt]
    exact hf a b s' t' hQ
  · rw [bind_of_none hxs, bind_of_none hyt]
    exact .inr ⟨s', t', rfl, rfl, hT⟩

/-- After the same result, the same goes on. -/
theorem related_bind_same {γ δ : Type} {S : σ → σ → Prop} {Q : γ → δ → σ → σ → Prop}
    {x y : Computation σ α} {f : α → Computation σ γ} {g : α → Computation σ δ}
    (hx : Related R T (Same S) x y) (hf : ∀ a, Related S T Q (f a) (g a)) :
    Related R T Q (x >>= f) (y >>= g) := by
  refine related_bind hx fun a b => ?_
  rintro s t ⟨rfl, hR⟩
  exact hf a s t hR

theorem related_ofOption_bind {γ δ : Type} {Q : γ → δ → σ → σ → Prop} {o : Option α}
    {f : α → Computation σ γ} {g : α → Computation σ δ} (hT : ∀ s t, R s t → T s t)
    (hf : ∀ a, o = some a → Related R T Q (f a) (g a)) :
    Related R T Q (ofOption o >>= f) (ofOption o >>= g) := by
  cases o with
  | none => exact fun s t hR => .inr ⟨s, t, rfl, rfl, hT s t hR⟩
  | some a => exact hf a rfl

theorem related_forEach {xs : List α} {f : α → Computation σ Unit}
    (hf : ∀ x ∈ xs, Related R T (Same R) (f x) (f x)) :
    Related R T (Same R) (forEach xs f) (forEach xs f) := by
  induction xs with
  | nil => exact related_pure fun _ _ hR => ⟨rfl, hR⟩
  | cons x rest ih =>
      exact related_bind_same (hf x List.mem_cons_self) fun _ =>
        ih fun y hy => hf y (List.mem_cons_of_mem _ hy)

theorem related_mapEach {xs : List α} {f : α → Computation σ β}
    (hf : ∀ x ∈ xs, Related R T (Same R) (f x) (f x)) :
    Related R T (Same R) (mapEach xs f) (mapEach xs f) := by
  induction xs with
  | nil => exact related_pure fun _ _ hR => ⟨rfl, hR⟩
  | cons x rest ih =>
      refine related_bind_same (hf x List.mem_cons_self) fun y => ?_
      refine related_bind_same (ih fun y hy => hf y (List.mem_cons_of_mem _ hy)) fun ys => ?_
      exact related_pure fun _ _ hR => ⟨rfl, hR⟩

section Replace

variable {S : σ → σ → Prop} {before after : List α} {x x' : α}

/-- A loop in which one element is replaced; from there on the states are related otherwise. -/
theorem related_forEach_replace {f : α → Computation σ Unit}
    (hbefore : ∀ y ∈ before, Related R T (Same R) (f y) (f y))
    (hx : Related R T (Same S) (f x) (f x'))
    (hafter : ∀ y ∈ after, Related S T (Same S) (f y) (f y)) :
    Related R T (Same S) (forEach (before ++ x :: after) f)
      (forEach (before ++ x' :: after) f) := by
  induction before with
  | nil => exact related_bind_same hx fun _ => related_forEach hafter
  | cons y rest ih =>
      exact related_bind_same (hbefore y List.mem_cons_self) fun _ =>
        ih fun z hz => hbefore z (List.mem_cons_of_mem _ hz)

/-- The results are the same but for the one of the replaced element. -/
theorem related_mapEach_replace {f : α → Computation σ β} {P : β → β → Prop}
    (hbefore : ∀ y ∈ before, Related R T (Same R) (f y) (f y))
    (hx : Related R T (fun a b s t => P a b ∧ S s t) (f x) (f x'))
    (hafter : ∀ y ∈ after, Related S T (Same S) (f y) (f y)) :
    Related R T
      (fun as bs s t =>
        (∃ p a b q, as = p ++ a :: q ∧ bs = p ++ b :: q ∧ P a b) ∧ S s t)
      (mapEach (before ++ x :: after) f) (mapEach (before ++ x' :: after) f) := by
  induction before with
  | nil =>
      -- at the element that differs the states pass from `R` to `S`
      refine related_bind hx fun a b => ?_
      rintro s t ⟨hP, hS⟩
      refine related_bind_same (related_mapEach hafter) (fun q => ?_) s t hS
      exact related_pure fun _ _ hS => ⟨⟨[], a, b, q, rfl, rfl, hP⟩, hS⟩
  | cons y rest ih =>
      refine related_bind_same (hbefore y List.mem_cons_self) fun c => ?_
      refine related_bind (ih fun z hz => hbefore z (List.mem_cons_of_mem _ hz)) fun as bs => ?_
      refine related_pure fun s t h => ?_
      obtain ⟨⟨p, a, b, q, rfl, rfl, hP⟩, hS⟩ := h
      exact ⟨⟨c :: p, a, b, q, rfl, rfl, hP⟩, hS⟩

end Replace

end Computation

end Throwing
