/-
  OwAnalytics.Ap.AssociationDeltas

  The differences of the associations.  `new_connection` looks at five of the seven
  counters that are subtracted, and `find_ue` looks for the station in all SSIDs of the
  base, whichever SSID the association is in: when the differences are bounded by the
  counters all the same, and when they compare an association with its own SSID.
-/

import OwAnalytics.Ap.Counters

namespace OwAnalytics.Ap

open Counters

variable {F : Type} [Double F]

/-! ## Counters that go back -/

/-- No difference of an association exceeds its counter, and once a counter has gone back from
    what it is compared with, all differences are the counters themselves. -/
def NeverWraps (base p : DeviceTimePoint F) : Prop :=
  ∀ ssid ∈ p.ssidData, ∀ a ∈ ssid.associations,
    (∀ c : UECounter, c.delta a ≤ c.value a) ∧
      ∀ existing, findUE a.station base.ssidData = some existing →
        (∃ c : UECounter, c.value a < c.value existing) → ∀ c : UECounter, c.delta a = c.value a

/-- Where the retries or the duration of an association have gone back, one of the counters that
    `new_connection` looks at has gone back too. -/
def RestartSeen (base dtp : DeviceTimePoint F) : Prop :=
  ∀ ssid ∈ dtp.ssidData, ∀ a ∈ ssid.associations, ∀ existing,
    findUE a.station base.ssidData = some existing →
      a.txRetries < existing.txRetries ∨ a.txDuration < existing.txDuration →
        newConnection existing a = true

theorem checked_or (c : UECounter) : c.Checked ∨ c = .txRetries ∨ c = .txDuration := by
  cases c <;> simp [UECounter.Checked]

/-- Of a connection that is not new, only the retries and the duration can have gone back. -/
theorem back_of_not_newConnection {existing a : UETimePoint F}
    (hold : ¬ newConnection existing a = true) {c : UECounter}
    (hback : c.value a < c.value existing) :
    a.txRetries < existing.txRetries ∨ a.txDuration < existing.txDuration := by
  rcases checked_or c with hc | rfl | rfl
  · exact absurd (newConnection_iff.mpr ⟨c, hc, hback⟩) hold
  · exact .inl hback
  · exact .inr hback

/-- The differences to a new connection or to one of which no counter has gone back. -/
theorem sub_reference_le {a : UETimePoint F} {o : Option (UETimePoint F)}
    (h : ∀ existing, o = some existing →
      a.txRetries < existing.txRetries ∨ a.txDuration < existing.txDuration →
        newConnection existing a = true) (c : UECounter) :
    c.value a - c.value (reference a o) ≤ c.value a := by
  rw [sub_le_iff]
  cases o with
  | none => exact UInt64.le_iff_toNat_le.mpr (by rw [reference, c.value_empty]; simp)
  | some existing =>
      by_cases hnew : newConnection existing a = true
      · rw [reference_of_newConnection hnew, c.value_empty]
        exact UInt64.le_iff_toNat_le.mpr (by simp)
      · rw [reference_of_not hnew, ← UInt64.not_lt]
        exact fun hback => hnew (h existing rfl (back_of_not_newConnection hnew hback))

/-- The differences never wrap iff every restart is seen. -/
theorem neverWraps_iff (base dtp : DeviceTimePoint F) :
    NeverWraps base (newPoint base dtp) ↔ RestartSeen base dtp := by
  refine ⟨?_, ?_⟩
  · intro h ssid hssid a ha existing hexisting hback
    by_contra hold
    have hbound := (h _ (mem_newPoint_ssidData.mpr ⟨ssid, hssid, rfl⟩) _
      (mem_ssidRates_associations.mpr ⟨a, ha, rfl⟩)).1
    -- a counter that has gone back unseen wraps
    have hle : ∀ c : UECounter, c.value existing ≤ c.value a := by
      intro c
      have hc := hbound c
      rw [c.delta_ueRates, c.value_ueRates, hexisting, reference_of_not hold] at hc
      exact sub_le_iff.mp hc
    rcases hback with hback | hback
    · exact absurd hback (UInt64.not_lt.mpr (hle .txRetries))
    · exact absurd hback (UInt64.not_lt.mpr (hle .txDuration))
  · intro h ssid hssid a ha
    obtain ⟨s, hs, rfl⟩ := mem_newPoint_ssidData.mp hssid
    obtain ⟨b, hb, rfl⟩ := mem_ssidRates_associations.mp ha
    refine ⟨?_, ?_⟩
    · intro c
      rw [c.delta_ueRates, c.value_ueRates]
      exact sub_reference_le (h s hs b hb) c
    · rintro existing hexisting ⟨c', hback⟩ c
      have hfind : findUE b.station base.ssidData = some existing := hexisting
      rw [c'.value_ueRates] at hback
      have hnew : newConnection existing b = true := by
        by_contra hold
        exact hold (h s hs b hb existing hfind (back_of_not_newConnection hold hback))
      rw [c.delta_ueRates, c.value_ueRates, hfind, reference_of_newConnection hnew, c.value_empty,
        UInt64.sub_zero]

/-! ## The SSID of an association -/

namespace SSIDTimePoint

/-- What tells the SSIDs of a device apart. -/
def identity (ssid : SSIDTimePoint F) : Str × Str × UInt64 := (ssid.bssid, ssid.ssid, ssid.band)

/-- The first association of a station. -/
def entry (ssid : SSIDTimePoint F) (station : Str) : Option (UETimePoint F) :=
  ssid.associations.find? fun association => association.station == station

end SSIDTimePoint

theorem findUE_eq_findSome? (station : Str) (tps : List (SSIDTimePoint F)) :
    findUE station tps = tps.findSome? fun ssid => ssid.entry station :=
  List.find?_flatMap ..

/-- The association of a station in the SSID of the same identity. -/
def likeUE (ssid : SSIDTimePoint F) (station : Str) (tps : List (SSIDTimePoint F)) :
    Option (UETimePoint F) :=
  findUE station (tps.filter fun tp => tp.identity = ssid.identity)

/-- In whatever order the SSIDs of the base and of the data stand, the differences of an
    association are those to the association of its station in the same SSID of the base. -/
def LikeWithLike (base dtp : DeviceTimePoint F) : Prop :=
  ∀ baseSsids dtpSsids, base.ssidData.Perm baseSsids → dtp.ssidData.Perm dtpSsids →
    ∀ ssid ∈ (newPoint { base with ssidData := baseSsids }
        { dtp with ssidData := dtpSsids }).ssidData,
      ∀ a ∈ ssid.associations, ∀ c : UECounter,
        c.delta a =
          c.value a - c.value (reference a (likeUE ssid a.station base.ssidData))

/-- Wherever in the base the station of an association occurs, it counts as in the SSID of the
    association: with the same counters, or for nothing. -/
def CountsAlike (base dtp : DeviceTimePoint F) : Prop :=
  ∀ ssid ∈ dtp.ssidData, ∀ a ∈ ssid.associations, ∀ b ∈ base.ssidData, ∀ ue,
    b.entry a.station = some ue → ∀ c : UECounter,
      c.value (reference a (some ue)) =
        c.value (reference a (likeUE ssid a.station base.ssidData))

/-- What an association is compared with does not depend on its differences. -/
theorem reference_ueRates (base : List (SSIDTimePoint F)) (lapse : UInt64) (a : UETimePoint F)
    (o : Option (UETimePoint F)) :
    reference (ueRates lapse (ueDeltas base a)) o = reference a o :=
  rfl

theorem likeUE_ssidRates (base : List (SSIDTimePoint F)) (lapse : UInt64) (ssid : SSIDTimePoint F)
    (station : Str) (tps : List (SSIDTimePoint F)) :
    likeUE (ssidRates base lapse ssid) station tps = likeUE ssid station tps :=
  rfl

/-- Associations are compared with their own SSID iff the others count the same. -/
theorem likeWithLike_iff (base dtp : DeviceTimePoint F) :
    LikeWithLike base dtp ↔ CountsAlike base dtp := by
  refine ⟨?_, ?_⟩
  · intro h ssid hssid a ha b hb ue hue c
    -- the SSIDs of the base in an order in which `b` is the first
    obtain ⟨before, after, hsplit⟩ := List.append_of_mem hb
    have hperm : base.ssidData.Perm (b :: (before ++ after)) := by
      rw [hsplit]
      exact List.perm_middle
    have hfirst : findUE a.station (b :: (before ++ after)) = some ue := by
      rw [findUE_eq_findSome?, List.findSome?_cons, hue]
    have hdelta := h _ _ hperm (List.Perm.refl _) _ (mem_newPoint_ssidData.mpr ⟨ssid, hssid, rfl⟩) _
      (mem_ssidRates_associations.mpr ⟨a, ha, rfl⟩) c
    rw [c.delta_ueRates, c.value_ueRates, reference_ueRates, likeUE_ssidRates, hfirst] at hdelta
    exact sub_right_inj.mp hdelta
  · intro h baseSsids dtpSsids hbase hdtp ssid hssid a ha c
    obtain ⟨s, hs, rfl⟩ := mem_newPoint_ssidData.mp hssid
    obtain ⟨b, hb, rfl⟩ := mem_ssidRates_associations.mp ha
    rw [c.delta_ueRates, c.value_ueRates, reference_ueRates, likeUE_ssidRates]
    congr 1
    show c.value (reference b (findUE b.station baseSsids)) =
      c.value (reference b (likeUE s b.station base.ssidData))
    cases hfind : findUE b.station baseSsids with
    | some ue =>
        rw [findUE_eq_findSome?] at hfind
        obtain ⟨tp, htp, hue⟩ := List.exists_of_findSome?_eq_some hfind
        exact h s (hdtp.mem_iff.mpr hs) b hb tp (hbase.mem_iff.mpr htp) ue hue c
    | none =>
        -- the station is in no SSID of the base
        rw [findUE_eq_findSome?, List.findSome?_eq_none_iff] at hfind
        have hlike : likeUE s b.station base.ssidData = none := by
          rw [likeUE, findUE_eq_findSome?, List.findSome?_eq_none_iff]
          exact fun tp htp => hfind tp (hbase.mem_iff.mp (List.mem_of_mem_filter htp))
        rw [hlike]

/-! ## Two messages -/

/-- A state message whose SSIDs have one association each, with these retries and bytes. -/
def ssidMessage (localtime : UInt64) (ssids : List (String × UInt64 × UInt64)) : Delivery ℚ :=
  plainDelivery (.state (.obj
    [("interfaces".toList, .arr [.obj [("ssids".toList, .arr (ssids.map fun s =>
      .obj
        [("associations".toList, .arr [.obj
          [("station".toList, .str "aabbccddeeff".toList),
            ("tx_bytes".toList, .unsigned s.2.1),
            ("tx_retries".toList, .unsigned s.2.2)]]),
          ("bssid".toList, .str s.1.toList)]))]]),
    ("unit".toList, .obj [("localtime".toList, .unsigned localtime)])]))

/-- An `AP` that has got the message as its first state message. -/
def afterMessage (x : Delivery ℚ) : AP ℚ :=
  (AP.create 0xa1 ['v'] ['b']).after (contactsAndState.take 2 ++ [x])

/-- Of an association with more bytes than before only the retries have restarted. -/
theorem retries_wrap :
    ¬ ∀ (ap : AP ℚ) (x : Delivery ℚ) (p : DeviceTimePoint ℚ),
      (ap.deliver x).2.timePoint = some p → NeverWraps ap.base p := by
  intro h
  -- the bytes go up from 100 to 200, the retries down from 7 to 2
  have hdeltas : (((afterMessage (ssidMessage 60 [("a", 100, 7)])).deliver
      (ssidMessage 120 [("a", 200, 2)])).2.timePoint).map (fun p =>
        p.ssidData.flatMap fun ssid => ssid.associations.map fun a =>
          (a.txRetriesDelta, a.txRetries)) = some [(0 - 5, 2)] := by
    decide +kernel
  obtain ⟨p, hp, hpairs⟩ := Option.map_eq_some_iff.mp hdeltas
  have hmem : ((0 - 5 : UInt64), (2 : UInt64)) ∈ p.ssidData.flatMap fun ssid =>
      ssid.associations.map fun a => (a.txRetriesDelta, a.txRetries) := by
    rw [hpairs]
    exact List.mem_singleton_self _
  obtain ⟨ssid, hssid, hmem⟩ := List.mem_flatMap.mp hmem
  obtain ⟨a, ha, hpair⟩ := List.mem_map.mp hmem
  obtain ⟨hdelta, hvalue⟩ := Prod.mk.inj hpair
  have hle : a.txRetriesDelta ≤ a.txRetries := (h _ _ p hp ssid hssid a ha).1 .txRetries
  rw [hdelta, hvalue] at hle
  exact absurd hle (by decide)

/-- The station is in two SSIDs, and the bytes of the second are compared with those of the
    first. -/
theorem second_ssid_compared_with_first :
    ¬ ∀ (ap : AP ℚ) (x : Delivery ℚ) (state : Document ℚ), x.message = .state state →
      LikeWithLike ap.base (ap.data x state) := by
  intro h
  have hlike := h (afterMessage (ssidMessage 60 [("a", 10, 0), ("b", 100, 0)]))
    (ssidMessage 120 [("a", 15, 0), ("b", 200, 0)]) _ rfl _ _ (List.Perm.refl _) (List.Perm.refl _)
  refine absurd (fun ssid hssid a ha => hlike ssid hssid a ha .txBytes) ?_
  decide +kernel

end OwAnalytics.Ap
