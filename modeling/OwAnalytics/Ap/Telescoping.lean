/-
  OwAnalytics.Ap.Telescoping

  The differences of a station over a run without disconnection.  The data of each
  state message becomes the base of the next, stored or not, so that the differences
  add up to what the counters have grown by, from the latest restart on.
-/

import OwAnalytics.Ap.AssociationDeltas

namespace OwAnalytics.Ap

open Counters

variable {F : Type} [Double F]

/-! ## The data and the points of a run -/

namespace AP

/-- The data of the state messages of a run. -/
def datas (ap : AP F) : List (Delivery F) → List (DeviceTimePoint F)
  | [] => []
  | x :: rest =>
      match x.message with
      | .state state => ap.data x state :: (ap.deliver x).1.datas rest
      | _ => (ap.deliver x).1.datas rest

/-- The points that are computed in a run, stored or not. -/
def points (ap : AP F) : List (Delivery F) → List (DeviceTimePoint F)
  | [] => []
  | x :: rest => (ap.computed x).toList ++ (ap.deliver x).1.points rest

/-- The points of data that come one after the other. -/
def pointsFrom (base : DeviceTimePoint F) : List (DeviceTimePoint F) → List (DeviceTimePoint F)
  | [] => []
  | dtp :: rest => newPoint base dtp :: pointsFrom dtp rest

/-- A message that is neither a state message nor a disconnection leaves the base. -/
theorem deliver_keeps_base (ap : AP F) {x : Delivery F} (hstate : ¬ x.message.IsState)
    (hdis : x.message.disconnection? = none) :
    (ap.deliver x).1.base = ap.base ∧ (ap.deliver x).1.gotBase = ap.gotBase := by
  cases hx : x.message with
  | state d => exact absurd (by rw [hx]; trivial) hstate
  | connection d =>
      rw [hx] at hdis
      simp only [deliver, hx]
      obtain ⟨-, hgotBase, hbase⟩ := (ap.updateConnection_cases x.env d hdis).1
      exact ⟨hbase, hgotBase⟩
  | health d =>
      simp only [deliver, hx]
      obtain ⟨-, hgotBase, hbase⟩ := ap.updateHealth_same d
      exact ⟨hbase, hgotBase⟩

theorem deliver_state (ap : AP F) {x : Delivery F} {state : Document F}
    (hx : x.message = .state state) :
    (ap.deliver x).1.base = ap.data x state ∧ (ap.deliver x).1.gotBase = true := by
  rw [deliver, hx]
  exact ⟨rfl, rfl⟩

/-- Without a disconnection, the data of each message is the base of the next. -/
theorem points_eq {ap : AP F} {xs : List (Delivery F)} (hbase : ap.gotBase = true)
    (hxs : ∀ x ∈ xs, x.message.disconnection? = none) :
    ap.points xs = pointsFrom ap.base (ap.datas xs) := by
  induction xs generalizing ap with
  | nil => rfl
  | cons x rest ih =>
      have hrest : ∀ y ∈ rest, y.message.disconnection? = none :=
        fun y hy => hxs y (List.mem_cons_of_mem x hy)
      rw [points, datas]
      -- a state message is the base of the rest; the other messages leave the base
      cases hx : x.message with
      | state state =>
          obtain ⟨hnext, hgot⟩ := deliver_state ap hx
          rw [computed_of_state hx hbase, ih hgot hrest, hnext]
          rfl
      | connection d =>
          obtain ⟨hnext, hgot⟩ := deliver_keeps_base ap (by rw [hx]; exact id)
            (hxs x List.mem_cons_self)
          rw [ih (hgot.trans hbase) hrest, hnext]
          simp only [computed, hx]
          rfl
      | health d =>
          obtain ⟨hnext, hgot⟩ := deliver_keeps_base ap (by rw [hx]; exact id)
            (hxs x List.mem_cons_self)
          rw [ih (hgot.trans hbase) hrest, hnext]
          simp only [computed, hx]
          rfl

theorem datas_cons_state {ap : AP F} {x : Delivery F} {state : Document F}
    (hx : x.message = .state state) (rest : List (Delivery F)) :
    ap.datas (x :: rest) = ap.data x state :: (ap.deliver x).1.datas rest := by
  simp only [datas, hx]

theorem datas_append (ap : AP F) (xs ys : List (Delivery F)) :
    ap.datas (xs ++ ys) = ap.datas xs ++ (ap.after xs).datas ys := by
  induction xs generalizing ap with
  | nil => rfl
  | cons x rest ih =>
      rw [List.cons_append, datas, datas, ih]
      cases x.message <;> rfl

/-- After a run without disconnection, the base is the data of the latest state message. -/
theorem base_after {ap : AP F} {xs : List (Delivery F)} (hbase : ap.gotBase = true)
    (hxs : ∀ x ∈ xs, x.message.disconnection? = none) :
    (ap.after xs).base = (ap.datas xs).getLastD ap.base ∧ (ap.after xs).gotBase = true := by
  induction xs generalizing ap with
  | nil => exact ⟨rfl, hbase⟩
  | cons x rest ih =>
      have hrest : ∀ y ∈ rest, y.message.disconnection? = none :=
        fun y hy => hxs y (List.mem_cons_of_mem x hy)
      show ((ap.deliver x).1.after rest).base = _ ∧ ((ap.deliver x).1.after rest).gotBase = true
      -- a state message is the base of what follows
      by_cases hstate : x.message.IsState
      · obtain ⟨state, hx⟩ : ∃ state, x.message = .state state := by
          cases hx : x.message with
          | state state => exact ⟨state, rfl⟩
          | connection d => rw [hx] at hstate; exact hstate.elim
          | health d => rw [hx] at hstate; exact hstate.elim
        obtain ⟨hnext, hgot⟩ := deliver_state ap hx
        rw [datas_cons_state hx, List.getLastD_cons, ← hnext]
        exact ih hgot hrest
      · obtain ⟨hnext, hgot⟩ := deliver_keeps_base ap hstate (hxs x List.mem_cons_self)
        have hdatas : ap.datas (x :: rest) = (ap.deliver x).1.datas rest := by
          cases hx : x.message with
          | state state => rw [hx] at hstate; exact absurd trivial hstate
          | connection d => simp only [datas, hx]
          | health d => simp only [datas, hx]
        rw [hdatas, ← hnext]
        exact ih (hgot.trans hbase) hrest

end AP

/-! ## One station -/

/-- The association of a station that is reported in exactly one. -/
def DeviceTimePoint.association (p : DeviceTimePoint F) (station : Str) : UETimePoint F :=
  (p.entries station).headD {}

/-- The station is reported in exactly one association. -/
def DeviceTimePoint.ReportsOnce (p : DeviceTimePoint F) (station : Str) : Prop :=
  ∃ a, p.entries station = [a]

/-- The differences of a counter of the station over some points, added up. -/
def deltaSum (station : Str) (c : UECounter) (points : List (DeviceTimePoint F)) : ℕ :=
  (points.map fun p => (c.delta (p.association station)).toNat).sum

theorem deltaSum_cons (station : Str) (c : UECounter) (p : DeviceTimePoint F)
    (points : List (DeviceTimePoint F)) :
    deltaSum station c (p :: points) =
      (c.delta (p.association station)).toNat + deltaSum station c points :=
  List.sum_cons

/-- No counter of the station goes back from the one data to the other. -/
def CountsOn (station : Str) (d d' : DeviceTimePoint F) : Prop :=
  ∀ c : UECounter, c.value (d.association station) ≤ c.value (d'.association station)

/-- The difference of a station that both messages report once. -/
theorem delta_newPoint {base dtp : DeviceTimePoint F} {station : Str}
    (hbase : base.ReportsOnce station) (hdtp : dtp.ReportsOnce station) (c : UECounter) :
    c.delta ((newPoint base dtp).association station) =
      c.value (dtp.association station) -
        c.value (reference (dtp.association station) (some (base.association station))) := by
  obtain ⟨b, hb⟩ := hbase
  obtain ⟨a, ha⟩ := hdtp
  have hstation : a.station = station := by
    have hmem : a ∈ dtp.entries station := by
      rw [ha]
      exact List.mem_singleton_self a
    exact beq_iff_eq.mp (List.mem_filter.mp hmem).2
  have hfind : findUE a.station base.ssidData = some b := by
    rw [findUE_eq_head?, hstation, hb, List.head?_cons]
  rw [DeviceTimePoint.association, entries_newPoint, ha, DeviceTimePoint.association, ha,
    DeviceTimePoint.association, hb]
  show c.delta (ueRates _ (ueDeltas base.ssidData a)) = c.value a - c.value (reference a (some b))
  rw [c.delta_ueRates, hfind]

/-- The difference is the growth of the counter where no counter has gone back. -/
theorem delta_of_countsOn {base dtp : DeviceTimePoint F} {station : Str}
    (hbase : base.ReportsOnce station) (hdtp : dtp.ReportsOnce station)
    (h : CountsOn station base dtp) (c : UECounter) :
    (c.delta ((newPoint base dtp).association station)).toNat =
      (c.value (dtp.association station)).toNat - (c.value (base.association station)).toNat := by
  have hold : ¬ newConnection (base.association station) (dtp.association station) = true := by
    rw [newConnection_iff]
    rintro ⟨c', -, hback⟩
    exact UInt64.not_lt.mpr (h c') hback
  rw [delta_newPoint hbase hdtp, reference_of_not hold]
  exact UInt64.toNat_sub_of_le _ _ (h c)

/-- At a restart it is the counter itself. -/
theorem delta_of_newConnection {base dtp : DeviceTimePoint F} {station : Str}
    (hbase : base.ReportsOnce station) (hdtp : dtp.ReportsOnce station)
    (h : newConnection (base.association station) (dtp.association station) = true)
    (c : UECounter) :
    c.delta ((newPoint base dtp).association station) = c.value (dtp.association station) := by
  rw [delta_newPoint hbase hdtp, reference_of_newConnection h, c.value_empty, UInt64.sub_zero]

/-- The differences of data that never goes back add up to the growth of the counter. -/
theorem add_deltaSum_pointsFrom {base : DeviceTimePoint F} {datas : List (DeviceTimePoint F)}
    {station : Str} (hone : ∀ d ∈ base :: datas, d.ReportsOnce station)
    (h : List.IsChain (CountsOn station) (base :: datas)) (c : UECounter) :
    (c.value (base.association station)).toNat +
        deltaSum station c (AP.pointsFrom base datas) =
      (c.value ((datas.getLastD base).association station)).toNat := by
  -- the differences are the increments of the readings of the counter
  let reading : DeviceTimePoint F → ℕ := fun d => (c.value (d.association station)).toNat
  have hsum : deltaSum station c (AP.pointsFrom base datas) =
      (increments (reading base) (datas.map reading)).sum := by
    induction datas generalizing base with
    | nil => rfl
    | cons d rest ih =>
        obtain ⟨hstep, hrest⟩ := List.isChain_cons_cons.mp h
        have hone' : ∀ d' ∈ d :: rest, d'.ReportsOnce station :=
          fun d' hd' => hone d' (List.mem_cons_of_mem base hd')
        rw [AP.pointsFrom, deltaSum_cons, ih hone' hrest, List.map_cons, increments, List.sum_cons,
          delta_of_countsOn (hone base List.mem_cons_self) (hone' d List.mem_cons_self) hstep]
  have hchain : List.IsChain (· ≤ ·) (reading base :: datas.map reading) := by
    rw [← List.map_cons, List.isChain_map]
    exact h.imp fun _ _ hstep => UInt64.le_iff_toNat_le.mp (hstep c)
  rw [hsum]
  exact (add_sum_increments hchain).trans List.getLastD_map

/-! ## Runs -/

/-- What the latest state message of a run reports of a station. -/
def AP.reading (ap : AP F) (station : Str) (xs : List (Delivery F)) : UETimePoint F :=
  ((ap.datas xs).getLastD {}).association station

/-- The differences of a station over the messages `xs` that follow the state message `x`. -/
structure Telescopes (ap : AP F) (station : Str) (x : Delivery F) (xs : List (Delivery F)) :
    Prop where
  /-- If no counter goes back, they add up to what each counter has grown by. -/
  growth : List.IsChain (CountsOn station) (ap.datas (x :: xs)) → ∀ c : UECounter,
    (c.value (ap.reading station [x])).toNat +
        deltaSum station c ((ap.after [x]).points xs) =
      (c.value (ap.reading station (x :: xs))).toNat
  /-- From a message on at which a counter that `new_connection` looks at has gone back, they
      start again with the counter itself. -/
  restart : ∀ before y rest, xs = before ++ y :: rest → y.message.IsState →
    (∃ c : UECounter, c.Checked ∧
      c.value (ap.reading station (x :: before ++ [y])) <
        c.value (ap.reading station (x :: before))) →
    ∀ c : UECounter,
      deltaSum station c ((ap.after (x :: before)).points (y :: rest)) =
          (c.value (ap.reading station (x :: before ++ [y]))).toNat +
            deltaSum station c ((ap.after (x :: before ++ [y])).points rest) ∧
        (List.IsChain (CountsOn station) ((ap.after (x :: before)).datas (y :: rest)) →
          deltaSum station c ((ap.after (x :: before)).points (y :: rest)) =
            (c.value (ap.reading station (x :: xs))).toNat)

omit [Double F] in
theorem exists_of_isState {message : Message F} (h : message.IsState) :
    ∃ state, message = .state state := by
  cases message with
  | state state => exact ⟨state, rfl⟩
  | connection d => exact h.elim
  | health d => exact h.elim

/-- In a run that begins with a state message, the base is the data of the latest one. -/
theorem AP.getLastD_datas (ap : AP F) {x : Delivery F} (hx : x.message.IsState)
    {xs : List (Delivery F)} (hxs : ∀ y ∈ xs, y.message.disconnection? = none) :
    (ap.datas (x :: xs)).getLastD {} = (ap.after (x :: xs)).base ∧
      (ap.after (x :: xs)).gotBase = true := by
  obtain ⟨state, hstate⟩ := exists_of_isState hx
  obtain ⟨hbase, hgot⟩ := deliver_state ap hstate
  obtain ⟨hlast, hgot'⟩ := base_after hgot hxs
  rw [datas_cons_state hstate, List.getLastD_cons, ← hbase]
  exact ⟨hlast.symm, hgot'⟩

/-- The first message of a run, and the others. -/
theorem AP.datas_cons {ap : AP F} {x : Delivery F} (hx : x.message.IsState)
    (xs : List (Delivery F)) :
    ap.datas (x :: xs) = (ap.after [x]).base :: (ap.after [x]).datas xs := by
  obtain ⟨state, hstate⟩ := exists_of_isState hx
  rw [datas_cons_state hstate, ← (ap.deliver_state hstate).1]
  rfl

theorem AP.points_cons {ap : AP F} {x : Delivery F} (hx : x.message.IsState)
    (hbase : ap.gotBase = true) (xs : List (Delivery F)) :
    ap.points (x :: xs) = newPoint ap.base (ap.after [x]).base :: (ap.after [x]).points xs := by
  obtain ⟨state, hstate⟩ := exists_of_isState hx
  rw [points, computed_of_state hstate hbase, ← (ap.deliver_state hstate).1]
  rfl

theorem AP.after_append (ap : AP F) (xs ys : List (Delivery F)) :
    ap.after (xs ++ ys) = (ap.after xs).after ys :=
  List.foldl_append

theorem getLastD_append_cons {α : Type} (l rest : List α) (a d : α) :
    (l ++ a :: rest).getLastD d = rest.getLastD a := by
  induction l generalizing d with
  | nil => exact List.getLastD_cons
  | cons b l ih => rw [List.cons_append, List.getLastD_cons, ih]

/-- In a run without disconnection whose messages report the station once, its differences
    telescope. -/
theorem deltas_telescope (ap : AP F) (station : Str) (x : Delivery F) (xs : List (Delivery F))
    (hx : x.message.IsState) (hxs : ∀ y ∈ xs, y.message.disconnection? = none)
    (hone : ∀ d ∈ ap.datas (x :: xs), d.ReportsOnce station) : Telescopes ap station x xs := by
  refine ⟨?_, ?_⟩
  · intro hchain c
    have hnil : ∀ y ∈ ([] : List (Delivery F)), y.message.disconnection? = none := nofun
    obtain ⟨hfirst, hgot⟩ := AP.getLastD_datas ap hx hnil
    rw [AP.datas_cons hx] at hone hchain
    rw [AP.reading, AP.reading, hfirst, AP.datas_cons hx, List.getLastD_cons,
      AP.points_eq hgot hxs]
    exact add_deltaSum_pointsFrom hone hchain c
  · rintro before y rest rfl hy hback c
    have hbefore : ∀ z ∈ before, z.message.disconnection? = none :=
      fun z hz => hxs z (List.mem_append_left _ hz)
    have hupTo : ∀ z ∈ before ++ [y], z.message.disconnection? = none :=
      fun z hz => hxs z (List.append_cons .. ▸ List.mem_append_left rest hz)
    have hrest : ∀ z ∈ rest, z.message.disconnection? = none :=
      fun z hz => hxs z (List.mem_append_right _ (List.mem_cons_of_mem y hz))
    -- the data before the restart, the data at it and the data from it on
    obtain ⟨hprevious, hgot⟩ := AP.getLastD_datas ap hx hbefore
    have hat : (ap.datas (x :: before ++ [y])).getLastD {} =
        (ap.after (x :: before ++ [y])).base :=
      (AP.getLastD_datas ap hx hupTo).1
    have hgot' : (ap.after (x :: before ++ [y])).gotBase = true := (AP.getLastD_datas ap hx hupTo).2
    have hall : ap.datas (x :: (before ++ y :: rest)) =
        ap.datas (x :: before) ++ (ap.after (x :: before)).datas (y :: rest) :=
      ap.datas_append (x :: before) (y :: rest)
    have hfrom : (ap.after (x :: before)).datas (y :: rest) =
        (ap.after (x :: before ++ [y])).base :: (ap.after (x :: before ++ [y])).datas rest := by
      rw [AP.datas_cons hy, AP.after_append]
    have honeBase : (ap.after (x :: before)).base.ReportsOnce station := by
      refine hone _ ?_
      rw [hall, ← hprevious, AP.datas_cons hx, List.getLastD_cons]
      exact List.mem_append_left _ List.getLastD_mem_cons
    have honeFrom : ∀ d ∈ (ap.after (x :: before)).datas (y :: rest), d.ReportsOnce station :=
      fun d hd => hone d (hall ▸ List.mem_append_right _ hd)
    rw [AP.reading, AP.reading, hprevious, hat, ← newConnection_iff] at hback
    rw [hfrom] at honeFrom
    have hsum : deltaSum station c ((ap.after (x :: before)).points (y :: rest)) =
        (c.value ((ap.after (x :: before ++ [y])).base.association station)).toNat +
          deltaSum station c ((ap.after (x :: before ++ [y])).points rest) := by
      rw [AP.after_append] at honeFrom hback ⊢
      rw [AP.points_cons hy hgot, deltaSum_cons,
        delta_of_newConnection honeBase (honeFrom _ List.mem_cons_self) hback]
    refine ⟨?_, ?_⟩
    · rw [AP.reading, hat]
      exact hsum
    · intro hchain
      rw [hfrom] at hchain
      rw [hsum, AP.points_eq hgot' hrest, add_deltaSum_pointsFrom honeFrom hchain, AP.reading, hall,
        hfrom, getLastD_append_cons]

/-! ## A station that grows and restarts -/

/-- The bytes of one station grow twice, and start anew. -/
theorem deltas_telescope_restart :
    Telescopes (AP.create 0xa1 ['v'] ['b'] : AP ℚ) "aabbccddeeff".toList
      (ssidMessage 60 [("a", 100, 0)])
      [ssidMessage 120 [("a", 150, 0)], ssidMessage 180 [("a", 170, 0)],
        ssidMessage 240 [("a", 30, 0)]] := by
  refine deltas_telescope _ _ _ _ trivial ?_ ?_
  · intro y hy
    simp only [List.mem_cons, List.not_mem_nil, or_false] at hy
    rcases hy with rfl | rfl | rfl <;> rfl
  · have hone : ((AP.create 0xa1 ['v'] ['b'] : AP ℚ).datas
        [ssidMessage 60 [("a", 100, 0)], ssidMessage 120 [("a", 150, 0)],
          ssidMessage 180 [("a", 170, 0)], ssidMessage 240 [("a", 30, 0)]]).all (fun d =>
            (d.entries "aabbccddeeff".toList).length == 1) = true := by
      decide +kernel
    intro d hd
    exact List.length_eq_one_iff.mp (beq_iff_eq.mp (List.all_eq_true.mp hone d hd))

end OwAnalytics.Ap
