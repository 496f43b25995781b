/-
  OwAnalytics.Ap.AssociationCounts

  The numbers of associations of a device by band.  The counters go by the radio that an
  SSID refers to, the first one if it refers to none; the band that is stored is the one
  the SSID has of its own, or that of the radio, or 2.
-/

import OwAnalytics.Ap.DeviceIdentity
import OwAnalytics.Ap.RadioReferences

namespace OwAnalytics.Ap

open Throwing Document

variable {F : Type} [Double F]

/-! ## Bands -/

/-- The bands that associations are counted for. -/
inductive Band
  | two
  | five
  | six
deriving DecidableEq

namespace Band

/-- The number of a band in the time points. -/
def number : Band → UInt64
  | two => 2
  | five => 5
  | six => 6

/-- `associations_2g` and its siblings. -/
def counter (i : DeviceInfo F) : Band → UInt64
  | two => i.associations2g
  | five => i.associations5g
  | six => i.associations6g

theorem number_inj {b c : Band} (h : b.number = c.number) : b = c := by
  cases b <;> cases c <;> first | rfl | exact absurd h (by decide)

end Band

theorem exists_bandToInt (text : Str) : ∃ b : Band, bandToInt text = b.number := by
  unfold bandToInt
  split_ifs
  · exact ⟨.two, rfl⟩
  · exact ⟨.five, rfl⟩
  · exact ⟨.six, rfl⟩
  · exact ⟨.two, rfl⟩

/-- A radio has one of the bands. -/
theorem exists_band_of_radioTimePoint {radio : Document F} {rtp : RadioTimePoint F}
    {entry : UInt32 × UInt32} (h : radioTimePoint radio = some (rtp, entry)) :
    ∃ b : Band, rtp.band = b.number := by
  unfold radioTimePoint at h
  obtain ⟨channel, -, h⟩ := Option.bind_eq_some_iff.mp h
  cases hband : radio.array? "band" with
  | none =>
      simp only [hband, Option.bind_eq_bind, Option.bind_some, Option.bind_eq_some_iff,
        Option.some.injEq, Prod.mk.injEq] at h
      obtain ⟨_, -, _, -, _, -, _, -, _, -, _, -, _, -, rfl, -⟩ := h
      -- without a band in the element the channel decides, which never says 6
      dsimp only
      split_ifs
      · exact ⟨.two, rfl⟩
      · exact ⟨.five, rfl⟩
  | some bands =>
      cases bands with
      | nil =>
          simp only [hband] at h
          cases h
      | cons first rest =>
          simp only [hband, Option.bind_eq_bind, Option.bind_eq_some_iff, Option.map_eq_some_iff,
            Option.some.injEq, Prod.mk.injEq] at h
          obtain ⟨_, ⟨text, -, rfl⟩, _, -, _, -, _, -, _, -, _, -, _, -, _, -, rfl, -⟩ := h
          exact exists_bandToInt text

/-! ## What a message has to count -/

/-- An SSID of a message: the band it is stored with, the band its associations are counted for,
    if they are, and how many these are. -/
structure Tally where
  stored : UInt64
  counted : Option UInt64
  associations : ℕ

/-- `radio_map` of the message. -/
def radioMapOf (state : Document F) : RadioMap := (listed (radiosOf state)).filterMap mapEntry

/-- The band of a radio of the map. -/
def bandAt (radioMap : RadioMap) (location : UInt32) : Option UInt64 :=
  radioMap[location.toNat]?.map fun entry => entry.1.toUInt64

/-- The associations of an SSID of the state message. -/
def associationsOf (ssid : Document F) : List (Document F) := (ssid.array? "associations").getD []

/-- What `parseSSID` stores and counts of an SSID, up to where it throws. -/
def tally (env : Env F) (radioMap : RadioMap) (ssid : Document F) : Option Tally :=
  (ssidHead env radioMap ssid).map fun head =>
    { stored := head.1.band
      counted := bandAt radioMap head.2
      associations := (associationsOf ssid).length }

/-- The SSIDs of an interface, as `parseSSIDs` goes through them. -/
def ssidsOf (interface : Document F) : List (Document F) :=
  match interface.find? "ssids" with
  | some ssids => ssids.elements
  | none => []

/-- The interfaces of a state message. -/
def interfacesOf (state : Document F) : List (Document F) :=
  match subscript state "interfaces" with
  | some interfaces => interfaces.elements
  | none => []

/-- The SSIDs of the message in their order. -/
def tallies (env : Env F) (state : Document F) : List Tally :=
  (interfacesOf state).flatMap fun interface =>
    (ssidsOf interface).flatMap fun ssid => (tally env (radioMapOf state) ssid).toList

/-- The associations of the SSIDs for which the condition holds. -/
def total (q : Tally → Prop) [DecidablePred q] (ts : List Tally) : ℕ :=
  ((ts.filter q).map Tally.associations).sum

section Total

variable (q r : Tally → Prop) [DecidablePred q] [DecidablePred r]

theorem total_append (ts us : List Tally) : total q (ts ++ us) = total q ts + total q us := by
  rw [total, List.filter_append, List.map_append, List.sum_append]
  rfl

theorem total_singleton (t : Tally) : total q [t] = if q t then t.associations else 0 := by
  by_cases hq : q t <;> simp [total, hq]

/-- Those for which another condition holds, too, and the others. -/
theorem total_split (ts : List Tally) :
    total q ts = total (fun t => q t ∧ r t) ts + total (fun t => q t ∧ ¬ r t) ts := by
  induction ts with
  | nil => rfl
  | cons t rest ih =>
      rw [← List.singleton_append, total_append, total_append, total_append, ih,
        total_singleton, total_singleton, total_singleton]
      by_cases hq : q t <;> by_cases hr : r t <;> simp [hq, hr] <;> omega

end Total

/-! ## The bands of the SSIDs -/

theorem exists_band_of_bandAt {state : Document F} {location : UInt32} {band : UInt64}
    (h : bandAt (radioMapOf state) location = some band) : ∃ b : Band, band = b.number := by
  obtain ⟨entry, hentry, rfl⟩ := Option.map_eq_some_iff.mp h
  obtain ⟨radio, -, hradio⟩ := List.mem_filterMap.mp (List.mem_of_getElem? hentry)
  obtain ⟨⟨rtp, entry'⟩, hpoint, rfl⟩ := Option.map_eq_some_iff.mp hradio
  obtain ⟨b, hb⟩ := exists_band_of_radioTimePoint hpoint
  exact ⟨b, (entry_of_radioTimePoint hpoint).1.trans hb⟩

/-- The band of an SSID is its own, that of a radio, or 2. -/
theorem band_of_ssidHead {env : Env F} {radioMap : RadioMap} {ssid : Document F}
    {head : SSIDTimePoint F × UInt32} (h : ssidHead env radioMap ssid = some head) :
    (∃ text, head.1.band = bandToInt text) ∨
      bandAt radioMap head.2 = some head.1.band ∨ head.1.band = 2 := by
  cases hband : ssid.find? "band" with
  | some ownBand =>
      simp only [ssidHead, hband, Option.bind_eq_bind, Option.bind_eq_some_iff, Option.pure_def,
        Option.some.injEq] at h
      obtain ⟨text, -, _, -, _, rfl, _, -, _, -, _, -, rfl⟩ := h
      exact .inl ⟨text, rfl⟩
  | none =>
      cases hradio : ssid.find? "radio" with
      | none =>
          simp only [ssidHead, hband, hradio, Option.bind_eq_bind, Option.bind_some,
            Option.bind_eq_some_iff, Option.pure_def, Option.some.injEq] at h
          obtain ⟨_, -, _, -, _, -, rfl⟩ := h
          exact .inr (.inr rfl)
      | some radio =>
          simp only [ssidHead, hband, hradio, Option.bind_eq_bind, Option.bind_eq_some_iff,
            Option.pure_def] at h
          obtain ⟨ref, -, h⟩ := h
          split at h
          -- the radio that is referred to has an entry in `radio_map`
          · rename_i band channel hfound
            obtain ⟨location, rfl, hentry⟩ := Option.bind_eq_some_iff.mp hfound
            simp only [Option.bind_some, Option.bind_eq_some_iff, Option.some.injEq] at h
            obtain ⟨_, -, _, -, _, -, rfl⟩ := h
            refine .inr (.inl ?_)
            rw [bandAt, Option.getD_some, hentry]
            rfl
          -- it has none: the band stays the one it began with
          · simp only [Option.bind_some, Option.bind_eq_some_iff, Option.some.injEq] at h
            obtain ⟨_, -, _, -, _, -, rfl⟩ := h
            exact .inr (.inr rfl)

theorem exists_band_of_tally {env : Env F} {state ssid : Document F} {t : Tally}
    (h : tally env (radioMapOf state) ssid = some t) : ∃ b : Band, t.stored = b.number := by
  obtain ⟨head, hhead, rfl⟩ := Option.map_eq_some_iff.mp h
  rcases band_of_ssidHead hhead with ⟨text, htext⟩ | hat | htwo
  · obtain ⟨b, hb⟩ := exists_bandToInt text
    exact ⟨b, htext.trans hb⟩
  · exact exists_band_of_bandAt hat
  · exact ⟨.two, htwo⟩

/-! ## What the loops leave -/

/-- The SSIDs are stored for the ones, the associations counted for the others. -/
structure Tallied (stored counted : List Tally) (w : Work F) : Prop where
  ssids : w.point.ssidData.map (fun s => (s.band, s.associations.length)) =
    stored.map fun t => (t.stored, t.associations)
  counters : ∀ b : Band,
    b.counter w.info = UInt64.ofNat (total (fun t => t.counted = some b.number) counted)

theorem SameCounts.counter {i j : DeviceInfo F} (h : SameCounts i j) (b : Band) :
    b.counter i = b.counter j := by
  cases b with
  | two => exact h.two
  | five => exact h.five
  | six => exact h.six

theorem tallied_closed (stored counted : List Tally) :
    ClosedParts (Tallied (F := F) stored counted) where
  info := fun w i _ _ hcounts hw => ⟨hw.ssids, fun b => (hcounts.counter b).trans (hw.counters b)⟩
  point := fun w p _ hssids hw => ⟨by rw [hssids]; exact hw.ssids, hw.counters⟩

/-- The associations are counted for the band of the radio. -/
theorem counter_countAssociations (radioMap : RadioMap) (location : UInt32) (n : UInt64)
    (i : DeviceInfo F) (b : Band) :
    b.counter (countAssociations radioMap location n i) =
      b.counter i + if bandAt radioMap location = some b.number then n else 0 := by
  unfold countAssociations bandAt
  cases hentry : radioMap[location.toNat]? with
  | none =>
      dsimp only
      rw [Option.map_none, if_neg nofun, UInt64.add_zero]
  | some entry =>
      obtain ⟨band, channel⟩ := entry
      rw [Option.map_some]
      split_ifs with hsame
      · have hband : band = b.number.toUInt32 := by
          rw [← Option.some.inj hsame, UInt32.toUInt32_toUInt64]
        subst hband
        cases b <;> rfl
      · rw [UInt64.add_zero]
        -- one of the other counters is raised, or none
        split
        · rename_i hentry'
          obtain ⟨rfl, -⟩ := Prod.mk.inj (Option.some.inj hentry')
          cases b with
          | two => exact absurd rfl hsame
          | _ => rfl
        · rename_i hentry'
          obtain ⟨rfl, -⟩ := Prod.mk.inj (Option.some.inj hentry')
          cases b with
          | five => exact absurd rfl hsame
          | _ => rfl
        · rename_i hentry'
          obtain ⟨rfl, -⟩ := Prod.mk.inj (Option.some.inj hentry')
          cases b with
          | six => exact absurd rfl hsame
          | _ => rfl
        · rfl

section Loops

variable {stored counted : List Tally} {w : Work F} {t : Tally}

theorem Tallied.count (h : Tallied stored counted w) {radioMap : RadioMap} {location : UInt32}
    (ht : t.counted = bandAt radioMap location) :
    Tallied stored (counted ++ [t])
      { w with
        info := countAssociations radioMap location (UInt64.ofNat t.associations) w.info } where
  ssids := h.ssids
  counters b := by
    rw [counter_countAssociations, h.counters, total_append, total_singleton, ht, UInt64.ofNat_add]
    split_ifs <;> rfl

/-- An SSID without an array of associations counts none. -/
theorem Tallied.count_none (h : Tallied stored counted w) (ht : t.associations = 0) :
    Tallied stored (counted ++ [t]) w where
  ssids := h.ssids
  counters b := by rw [h.counters, total_append, total_singleton, ht, ite_self, Nat.add_zero]

theorem Tallied.store (h : Tallied stored counted w) {ssid : SSIDTimePoint F}
    (hband : ssid.band = t.stored) (hlength : ssid.associations.length = t.associations) :
    Tallied (stored ++ [t]) counted
      { w with point := { w.point with ssidData := w.point.ssidData ++ [ssid] } } where
  ssids := by
    rw [List.map_append, List.map_append, h.ssids, List.map_singleton, hband, hlength]
    rfl
  counters := h.counters

variable (env : Env F) (venueId : Str) (radioMap : RadioMap) (clients : InterfaceClientEntryMap)

theorem ensures_parseAssociations (head : SSIDTimePoint F) (location : UInt32) (ssid : Document F)
    (hcounted : t.counted = bandAt radioMap location)
    (hlength : (associationsOf ssid).length = t.associations) :
    Computation.Ensures (Tallied stored counted)
      (parseAssociations env venueId radioMap clients head location ssid)
      fun associations w => associations.length = t.associations ∧
        Tallied stored (counted ++ [t]) w := by
  unfold parseAssociations
  rw [associationsOf] at hlength
  cases hitems : ssid.array? "associations" with
  | none =>
      rw [hitems] at hlength
      exact Computation.ensures_pure fun w hw => ⟨hlength, hw.count_none hlength.symm⟩
  | some items =>
      rw [hitems, Option.getD_some] at hlength
      refine Computation.ensures_bind (Q := fun _ => Tallied stored (counted ++ [t]))
        (Computation.ensures_modify fun w hw => ?_) fun _ => ?_
      · rw [hlength]
        exact hw.count hcounted
      · refine Computation.ensures_bind (Computation.keeps_get _).ensures fun w => ?_
        -- the associations change neither the counters nor the SSIDs
        refine (Computation.ensures_mapEach fun association _ =>
          keeps_parseAssociation (fun w cache hw => ⟨hw.ssids, hw.counters⟩)
            (fun w history hw => ⟨hw.ssids, hw.counters⟩) env association _).imp ?_
        exact fun associations w hw => ⟨hw.1.trans hlength, hw.2⟩

/-- An SSID is stored and counted once. -/
theorem ensures_parseSSID (ssid : Document F) (before : List Tally) :
    Computation.Ensures (Tallied before before)
      (parseSSID env venueId radioMap clients ssid) fun _ =>
        Tallied (before ++ (tally env radioMap ssid).toList)
          (before ++ (tally env radioMap ssid).toList) := by
  refine Computation.ensures_ofOption_bind fun head hhead => ?_
  rw [tally, hhead]
  refine Computation.ensures_bind (ensures_parseAssociations env venueId radioMap clients head.1
    head.2 ssid (t := ⟨head.1.band, bandAt radioMap head.2, (associationsOf ssid).length⟩) rfl rfl)
    fun associations => ?_
  exact Computation.ensures_modify fun w hw => hw.2.store rfl hw.1

theorem ensures_parseInterface (interface : Document F) (before : List Tally) :
    Computation.Ensures (Tallied before before) (parseInterface env venueId radioMap interface)
      fun _ =>
        Tallied
          (before ++ (ssidsOf interface).flatMap fun ssid => (tally env radioMap ssid).toList)
          (before ++ (ssidsOf interface).flatMap fun ssid =>
            (tally env radioMap ssid).toList) := by
  refine Computation.ensures_bind
    (keeps_parseInterfaceCounters (tallied_closed before before) interface).ensures fun _ => ?_
  unfold parseSSIDs ssidsOf
  cases interface.find? "ssids" with
  | none =>
      rw [List.flatMap_nil, List.append_nil]
      exact (Computation.keeps_pure _ ()).ensures
  | some ssids =>
      exact Computation.ensures_forEach (P := fun ts w => Tallied ts ts w)
        (fun ssid _ => ensures_parseSSID env venueId radioMap (clients interface) ssid) before

end Loops

/-- The map holds the radios of the message. -/
theorem ensures_parseRadios (P : Work F → Prop) (state : Document F) :
    Computation.Ensures P (parseRadios state) fun radioMap _ => radioMap = radioMapOf state := by
  intro w radioMap w' _ hrun
  have hmap := congrArg (List.filterMap id) (parseRadios_eq_some hrun)
  rwa [List.filterMap_map, List.filterMap_map, Function.id_comp, Function.id_comp,
    List.filterMap_some] at hmap

theorem ensures_parseBody (env : Env F) (venueId : Str) (state : Document F) :
    Computation.Ensures (fun w => w.point.ssidData = []) (parseBody env venueId state) fun _ =>
      Tallied (tallies env state) (tallies env state) := by
  have hclosed : ClosedParts fun w : Work F => w.point.ssidData = [] :=
    { info := fun _ _ _ _ _ hw => hw
      point := fun _ _ _ hssids hw => hssids.trans hw }
  refine Computation.ensures_bind (keeps_parseUnit hclosed state).ensures fun _ => ?_
  refine Computation.ensures_bind (Q := fun _ w => w.point.ssidData = [])
    (Computation.ensures_modify fun _ hw => hw) fun _ => ?_
  refine Computation.ensures_bind ((ensures_parseRadios _ state).and
    (keeps_parseRadios hclosed state).ensures) fun radioMap => ?_
  rintro w u w' ⟨rfl, hw⟩ hrun
  -- no SSID is stored before this loop, so all the tallies are its own
  have hloop : Computation.Ensures (fun w : Work F => w.point.ssidData = [])
      (do
        let interfaces ← .ofOption (subscript state "interfaces")
        Parse.setInfo fun i =>
          { i with associations2g := 0, associations5g := 0, associations6g := 0 }
        .forEach interfaces.elements (parseInterface env venueId (radioMapOf state)))
      fun _ => Tallied (tallies env state) (tallies env state) := by
    refine Computation.ensures_ofOption_bind fun interfaces hinterfaces => ?_
    refine Computation.ensures_bind (Q := fun _ => Tallied [] [])
      (Computation.ensures_modify fun w hw => ?_) fun _ => ?_
    · exact ⟨by rw [hw]; rfl, fun b => by cases b <;> rfl⟩
    · rw [tallies, interfacesOf, hinterfaces]
      exact Computation.ensures_forEach (P := fun ts w => Tallied ts ts w)
        (fun interface _ => ensures_parseInterface env venueId (radioMapOf state) interface) []
  exact hloop w u w' hw hrun

/-! ## The stored point -/

/-- The associations of the SSIDs of a band. -/
def DeviceTimePoint.associationsIn (p : DeviceTimePoint F) (b : Band) : ℕ :=
  ((p.ssidData.filter fun ssid => ssid.band = b.number).map
    fun ssid => ssid.associations.length).sum

/-- Each counter of the device info is the number of associations of its band, and together they
    are all associations. -/
structure CountsMatch (p : DeviceTimePoint F) : Prop where
  bands : ∀ b : Band, (b.counter p.deviceInfo).toNat = p.associationsIn b
  all : p.deviceInfo.associations2g.toNat + p.deviceInfo.associations5g.toNat +
    p.deviceInfo.associations6g.toNat = (p.ssidData.map fun ssid => ssid.associations.length).sum

/-- For each band, the associations that are stored with it can be counted, and those that are
    counted for another radio are as many, modulo `2 ^ 64`, as those that are counted for it but
    stored with another band. -/
def Balanced (ts : List Tally) : Prop :=
  ∀ b : Band, total (fun t => t.stored = b.number) ts < 2 ^ 64 ∧
    total (fun t => t.stored = b.number ∧ ¬ t.counted = some b.number) ts ≡
      total (fun t => t.counted = some b.number ∧ ¬ t.stored = b.number) ts [MOD 2 ^ 64]

/-- A counter is right iff what it lacks and what it has in excess balance. -/
theorem counter_eq_iff (ts : List Tally) (b : Band) :
    total (fun t => t.counted = some b.number) ts % 2 ^ 64 =
        total (fun t => t.stored = b.number) ts ↔
      total (fun t => t.stored = b.number) ts < 2 ^ 64 ∧
        total (fun t => t.stored = b.number ∧ ¬ t.counted = some b.number) ts ≡
          total (fun t => t.counted = some b.number ∧ ¬ t.stored = b.number) ts [MOD 2 ^ 64] := by
  have hstored := total_split (fun t => t.stored = b.number) (fun t => t.counted = some b.number) ts
  have hcounted :=
    total_split (fun t => t.counted = some b.number) (fun t => t.stored = b.number) ts
  have hboth : total (fun t => t.counted = some b.number ∧ t.stored = b.number) ts =
      total (fun t => t.stored = b.number ∧ t.counted = some b.number) ts := by
    simp only [total, and_comm]
  rw [hboth] at hcounted
  rw [hstored, hcounted]
  -- what is stored and counted in one band is on both sides: the rest is to be compared
  generalize total (fun t => t.stored = b.number ∧ t.counted = some b.number) ts = both
  generalize total (fun t => t.stored = b.number ∧ ¬ t.counted = some b.number) ts = lacking
  generalize total (fun t => t.counted = some b.number ∧ ¬ t.stored = b.number) ts = excess
  refine ⟨fun h => ⟨h ▸ Nat.mod_lt _ (by decide), ?_⟩, ?_⟩
  · have hmod : both + lacking ≡ both + excess [MOD 2 ^ 64] := by
      rw [← h]
      exact Nat.mod_modEq _ _
    exact Nat.ModEq.add_left_cancel' both hmod
  · rintro ⟨hlt, hmod⟩
    rw [← Nat.mod_eq_of_lt hlt]
    exact (hmod.add_left both).symm

/-- Where every SSID has one of the bands, these have all associations between them. -/
theorem total_bands {ts : List Tally} (h : ∀ t ∈ ts, ∃ b : Band, t.stored = b.number) :
    total (fun t => t.stored = Band.two.number) ts +
        total (fun t => t.stored = Band.five.number) ts +
        total (fun t => t.stored = Band.six.number) ts =
      (ts.map Tally.associations).sum := by
  induction ts with
  | nil => rfl
  | cons t rest ih =>
      rw [List.forall_mem_cons] at h
      obtain ⟨⟨b, hb⟩, hrest⟩ := h
      -- a tally is in the band it is stored with, and in no other
      have hin : ∀ c : Band, total (fun t => t.stored = c.number) (t :: rest) =
          (if b = c then t.associations else 0) + total (fun t => t.stored = c.number) rest := by
        intro c
        have hiff : t.stored = c.number ↔ b = c := by
          rw [hb]
          exact ⟨Band.number_inj, congrArg Band.number⟩
        rw [← List.singleton_append, total_append, total_singleton]
        simp only [hiff]
      rw [hin, hin, hin, List.map_cons, List.sum_cons, ← ih hrest]
      cases b <;> simp <;> omega

theorem exists_band_of_mem_tallies {env : Env F} {state : Document F} {t : Tally}
    (h : t ∈ tallies env state) : ∃ b : Band, t.stored = b.number := by
  obtain ⟨interface, -, h⟩ := List.mem_flatMap.mp h
  obtain ⟨ssid, -, h⟩ := List.mem_flatMap.mp h
  exact exists_band_of_tally (Option.mem_toList.mp h)

/-- The data of a message that is read to its end. -/
theorem tallied_data {ap : AP F} {x : Delivery F} {state : Document F} (h : ap.Parses x state) :
    ∃ w : Work F, Tallied (tallies x.env state) (tallies x.env state) w ∧
      ap.data x state = { w.point with deviceInfo := w.info } := by
  obtain ⟨u, hu⟩ := Option.isSome_iff_exists.mp h
  have hparse : Computation.Ensures (fun w : Work F => w.point.ssidData = [])
      (parse x.env ap.venueId state) fun _ w' =>
        ∃ w : Work F, Tallied (tallies x.env state) (tallies x.env state) w ∧
          w'.point = { w.point with deviceInfo := w.info } :=
    Computation.ensures_bind (ensures_parseBody x.env ap.venueId state) fun _ =>
      Computation.ensures_modify fun w hw => ⟨w, hw, rfl⟩
  exact hparse (ap.begin x.cache) u _ rfl (Prod.ext hu rfl)

/-- The SSIDs of a point made of the data, in short. -/
theorem map_newPoint_ssidData (base dtp : DeviceTimePoint F) :
    (newPoint base dtp).ssidData.map (fun s => (s.band, s.associations.length)) =
      dtp.ssidData.map fun s => (s.band, s.associations.length) := by
  show (dtp.ssidData.map _).map _ = _
  rw [List.map_map]
  refine List.map_congr_left fun s _ => Prod.ext rfl ?_
  exact List.length_map _

theorem countsMatch_iff {ts : List Tally} {p : DeviceTimePoint F}
    (hssids : p.ssidData.map (fun s => (s.band, s.associations.length)) =
      ts.map fun t => (t.stored, t.associations))
    (hcounters : ∀ b : Band,
      b.counter p.deviceInfo = UInt64.ofNat (total (fun t => t.counted = some b.number) ts))
    (hbands : ∀ t ∈ ts, ∃ b : Band, t.stored = b.number) : CountsMatch p ↔ Balanced ts := by
  -- the SSIDs and the tallies have the same pairs, read once by band and once altogether
  have hin : ∀ b : Band, p.associationsIn b = total (fun t => t.stored = b.number) ts := by
    intro b
    have hpairs := congrArg
      (fun l => ((l.filter fun e : UInt64 × ℕ => e.1 = b.number).map Prod.snd).sum) hssids
    simp only [List.filter_map, List.map_map] at hpairs
    exact hpairs
  have hmod : ∀ b : Band, (b.counter p.deviceInfo).toNat =
      total (fun t => t.counted = some b.number) ts % 2 ^ 64 := fun b => by
    rw [hcounters, UInt64.toNat_ofNat']
  have hall : (p.ssidData.map fun s => s.associations.length).sum =
      (ts.map Tally.associations).sum := by
    have hpairs := congrArg (fun l => (l.map Prod.snd).sum) hssids
    simp only [List.map_map] at hpairs
    exact hpairs
  have hbalanced : Balanced ts ↔ ∀ b : Band, (b.counter p.deviceInfo).toNat = p.associationsIn b :=
    forall_congr' fun b => by rw [hmod, hin, counter_eq_iff]
  rw [hbalanced]
  refine ⟨CountsMatch.bands, fun h => ⟨h, ?_⟩⟩
  rw [hall, ← total_bands hbands, ← hin, ← hin, ← hin, ← h, ← h, ← h]
  rfl

/-- The counters of a stored point are the numbers of its associations by band iff what is counted
    for another band balances. -/
theorem counts_match_iff (ap : AP F) (x : Delivery F) (state : Document F) (p : DeviceTimePoint F)
    (hmessage : x.message = .state state) (hparses : ap.Parses x state)
    (hp : (ap.deliver x).2.timePoint = some p) :
    CountsMatch p ↔ Balanced (tallies x.env state) := by
  obtain rfl := AP.stored_eq hmessage hp
  obtain ⟨w, hw, hdata⟩ := tallied_data hparses
  refine countsMatch_iff ((map_newPoint_ssidData ap.base (ap.data x state)).trans ?_) ?_
    fun t ht => exists_band_of_mem_tallies ht
  · rw [hdata]
    exact hw.ssids
  · show ∀ b : Band, b.counter (ap.data x state).deviceInfo = _
    rw [hdata]
    exact hw.counters

/-- An SSID with one association on the second of two radios, at 5 GHz. -/
def onSecondRadio (first : Document ℚ) (localtime : UInt64) : Document ℚ :=
  .obj
    [("interfaces".toList, .arr [.obj [("ssids".toList, .arr [.obj
      [("associations".toList, .arr [.obj [("station".toList, .str "aabbccddeeff".toList)]]),
        ("band".toList, .str "5G".toList),
        ("radio".toList, .obj [("$ref".toList, .str "#/radios/1".toList)])]])]]),
    ("radios".toList, .arr [first,
      .obj [("band".toList, .arr [.str "5G".toList]), ("channel".toList, .unsigned 36)]]),
    ("unit".toList, .obj [("localtime".toList, .unsigned localtime)])]

/-- The access point after a state message whose interface names the second radio. -/
def onSecondRadioAfter (first : Document ℚ) : AP ℚ :=
  afterMessage (plainDelivery (.state (onSecondRadio first 60)))

/-- The first radio has no channel, and the association is counted for no band. -/
theorem association_not_counted :
    ¬ ∀ (ap : AP ℚ) (x : Delivery ℚ) (state : Document ℚ) (p : DeviceTimePoint ℚ),
      x.message = .state state → ap.Parses x state → (ap.deliver x).2.timePoint = some p →
        CountsMatch p := by
  intro h
  have hstored : (((onSecondRadioAfter (.obj [])).deliver
      (plainDelivery (.state (onSecondRadio (.obj []) 120)))).2.timePoint).map (fun p =>
        (p.deviceInfo.associations5g, p.associationsIn .five)) = some (0, 1) := by
    decide +kernel
  have hparses : ((onSecondRadioAfter (.obj [])).parsed plainEnv (fun _ => none)
      (onSecondRadio (.obj []) 120)).1.isSome = true := by
    decide +kernel
  obtain ⟨p, hp, hcounts⟩ := Option.map_eq_some_iff.mp hstored
  obtain ⟨hcounter, hin⟩ := Prod.mk.inj hcounts
  have hfive : p.deviceInfo.associations5g.toNat = p.associationsIn .five :=
    (h (onSecondRadioAfter (.obj [])) (plainDelivery (.state (onSecondRadio (.obj []) 120)))
      (onSecondRadio (.obj []) 120) p rfl hparses hp).bands .five
  rw [hcounter, hin] at hfive
  exact absurd hfive (by decide)

/-- The first radio has a channel, too. -/
def bothChannels : Document ℚ := .obj [("channel".toList, .unsigned 6)]

/-- With a channel on both radios it is counted for its own. -/
theorem counts_match_iff_bothChannels :
    ∃ p, ((onSecondRadioAfter bothChannels).deliver
        (plainDelivery (.state (onSecondRadio bothChannels 120)))).2.timePoint = some p ∧
      (CountsMatch p ↔ Balanced (tallies plainEnv (onSecondRadio bothChannels 120))) := by
  have hparses : ((onSecondRadioAfter bothChannels).parsed plainEnv (fun _ => none)
      (onSecondRadio bothChannels 120)).1.isSome = true := by
    decide +kernel
  obtain ⟨p, hp⟩ := (onSecondRadioAfter bothChannels).exists_timePoint
    (x := plainDelivery (.state (onSecondRadio bothChannels 120))) rfl ⟨rfl, rfl, rfl⟩
  exact ⟨p, hp, counts_match_iff (onSecondRadioAfter bothChannels)
    (plainDelivery (.state (onSecondRadio bothChannels 120))) (onSecondRadio bothChannels 120) p rfl
    hparses hp⟩

end OwAnalytics.Ap
