/-
  OwAnalytics.Storage.TimePointRoundTrip

  A time point that is stored and read again.  Every record reads what it writes, field
  by field; an association loses its `tidstats` and the bytes that are not marked as
  present, and its fingerprint is another text of the same JSON value.
-/

import OwAnalytics.Storage.JsonText
import OwAnalytics.Storage.TimePointJson

namespace OwAnalytics.Ap

open Boards Document

variable {F : Type} {L : JsonLibrary F}

/-! ## Rates and fingerprints -/

theorem UERate.toJson_obj (r : UERate) : ∃ members, (r.toJson : Document F) = .obj members :=
  ⟨_, rfl⟩

theorem UERate.ordered_toJson (r : UERate) : (r.toJson : Document F).Ordered :=
  Ordered.object (by simp)

theorem UERate.fromJson_toJson (hL : L.Inverts) (r₀ r : UERate) :
    UERate.fromJson L r₀ (L.reread r.toJson) = r := by
  obtain ⟨body, hbody⟩ : ∃ body, body = L.reread r.toJson := ⟨_, rfl⟩
  have h := JsonLibrary.find?_reread hbody (List.Subset.refl _) (by dsimp only [List.map]; decide)
  simp only [List.forall_mem_cons] at h
  obtain ⟨hbitrate, hmcs, hnss, hht, hsgi, hchwidth, -⟩ := h
  rw [← hbody, UERate.fromJson]
  simp only [inTurn, uint64FromJson_eq hL hbitrate, uint64FromJson_eq hL hmcs,
    uint64FromJson_eq hL hnss, boolFromJson_eq hL hht, boolFromJson_eq hL hsgi,
    uint64FromJson_eq hL hchwidth]

/-- A fingerprint is empty or the text of a JSON object. -/
def IsFingerprint (L : JsonLibrary F) (json : Str) : Prop :=
  json = [] ∨ ∃ members, L.parse json = some (.obj members)

/-- The JSON value of a fingerprint; the empty text is read as the empty object. -/
def fingerprintValue (L : JsonLibrary F) (json : Str) : Option (Document F) :=
  if json.isEmpty then some (.obj []) else L.parse json

/-- Fingerprints are equal as JSON values, whatever form their numbers have. -/
def SameFingerprint (L : JsonLibrary F) (json json' : Str) : Prop :=
  ∃ d d', fingerprintValue L json = some d ∧ L.parse json' = some d' ∧ L.reread d = L.reread d'

theorem Fingerprint.toJson_obj (L : JsonLibrary F) (json : Str) :
    ∃ members, Fingerprint.toJson L json = .obj members := by
  rw [Fingerprint.toJson]
  split
  · exact ⟨_, rfl⟩
  · split
    · exact ⟨_, rfl⟩
    · exact ⟨_, rfl⟩

theorem fingerprintValue_eq {json : Str} (h : IsFingerprint L json) :
    fingerprintValue L json = some (Fingerprint.toJson L json) := by
  rw [fingerprintValue, Fingerprint.toJson]
  by_cases hempty : json.isEmpty = true
  · rw [if_pos hempty, if_pos hempty]
    rfl
  · rw [if_neg hempty, if_neg hempty]
    rcases h with rfl | ⟨members, hparse⟩
    · exact absurd rfl hempty
    · rw [hparse]

theorem Fingerprint.ordered_toJson (hL : L.Inverts) (json : Str) :
    (Fingerprint.toJson L json).Ordered := by
  have hempty : (object [] : Document F).Ordered := Ordered.object (by simp)
  rw [Fingerprint.toJson]
  split
  · exact hempty
  · split
    · rename_i members hparse
      exact hL.parse_ordered hparse
    · exact hempty

theorem Fingerprint.fromJson_toJson (hL : L.Inverts) {json : Str} (h : IsFingerprint L json)
    (json₀ : Str) :
    SameFingerprint L json
      (Fingerprint.fromJson L json₀ (L.reread (Fingerprint.toJson L json))) := by
  have hordered := Fingerprint.ordered_toJson hL json
  have hagain : L.reread (L.reread (Fingerprint.toJson L json))
      = L.reread (Fingerprint.toJson L json) := hordered.reread_reread hL.reread_number
  have hparse : L.parse (Fingerprint.fromJson L json₀ (L.reread (Fingerprint.toJson L json)))
      = some (L.reread (L.reread (Fingerprint.toJson L json))) :=
    hL.parse_stringify (hordered.reread hL.ordered_number)
  refine ⟨_, _, fingerprintValue_eq h, hparse, ?_⟩
  rw [hagain, hagain]

/-! ## Associations -/

variable [Zero F]

/-- What is stored of an association. -/
def UETimePoint.stored (u : UETimePoint F) : UETimePoint F :=
  { u with
    txBytes := if u.txBytesPresent then u.txBytes else 0
    rxBytes := if u.rxBytesPresent then u.rxBytes else 0
    tidstats := [] }

/-- An association as it is but for its `tidstats`. -/
def UETimePoint.withoutTids (u : UETimePoint F) : UETimePoint F := { u with tidstats := [] }

theorem UETimePoint.ordered_toJson (hL : L.Inverts) (u : UETimePoint F) :
    (u.toJson L).Ordered :=
  Ordered.object_present (by simp [UERate.ordered_toJson, Fingerprint.ordered_toJson hL])

theorem UETimePoint.decode_toJson (hL : L.Inverts) (u : UETimePoint F) :
    UETimePoint.decode L (L.reread (u.toJson L)) {}
      = ({ u.stored with
          fingerprint :=
            Fingerprint.fromJson L [] (L.reread (Fingerprint.toJson L u.fingerprint)) },
        true) := by
  obtain ⟨body, hbody⟩ : ∃ body, body = L.reread (u.toJson L) := ⟨_, rfl⟩
  -- Each name is set once at most, so its value is found as it was written.
  have h := JsonLibrary.find?_reread_present hbody (by dsimp only [List.map]; decide)
  simp only [List.forall_mem_cons, Option.map_some] at h
  obtain ⟨hstation, hrssi, htxBytes, hrxBytes, htxDuration, hrxPackets, htxPackets, htxRetries,
    htxFailed, hconnected, hinactive, htxRate, hrxRate, hfingerprint, htxBytesBw, hrxBytesBw,
    htxPacketsBw, hrxPacketsBw, htxFailedPct, htxRetriesPct, htxDurationPct, htxBytesDelta,
    hrxBytesDelta, htxPacketsDelta, hrxPacketsDelta, htxFailedDelta, htxRetriesDelta,
    htxDurationDelta, -⟩ := h
  -- A byte counter that is not present is not written, and is read as zero.
  have hisSome : ∀ (present : Bool) (n : UInt64),
      (if present then some n else none).isSome = present := by
    intro present n
    cases present <;> rfl
  have hgetD : ∀ (present : Bool) (n : UInt64),
      (if present then some n else none).getD 0 = if present then n else 0 := by
    intro present n
    cases present <;> rfl
  rw [← hbody, UETimePoint.decode]
  simp only [inTurn, stringFromJson_eq hstation, int64FromJson_eq hL hrssi,
    counterFromJson_ite hL htxBytes, counterFromJson_ite hL hrxBytes,
    uint64FromJson_eq hL htxDuration, uint64FromJson_eq hL hrxPackets,
    uint64FromJson_eq hL htxPackets, uint64FromJson_eq hL htxRetries,
    uint64FromJson_eq hL htxFailed, uint64FromJson_eq hL hconnected,
    uint64FromJson_eq hL hinactive, objectFromJson_eq (UERate.toJson_obj _) htxRate,
    objectFromJson_eq (UERate.toJson_obj _) hrxRate,
    objectFromJson_eq (Fingerprint.toJson_obj L _) hfingerprint,
    doubleFromJson_eq hL htxBytesBw, doubleFromJson_eq hL hrxBytesBw,
    doubleFromJson_eq hL htxPacketsBw, doubleFromJson_eq hL hrxPacketsBw,
    doubleFromJson_eq hL htxFailedPct, doubleFromJson_eq hL htxRetriesPct,
    doubleFromJson_eq hL htxDurationPct, uint64FromJson_eq hL htxBytesDelta,
    uint64FromJson_eq hL hrxBytesDelta, uint64FromJson_eq hL htxPacketsDelta,
    uint64FromJson_eq hL hrxPacketsDelta, uint64FromJson_eq hL htxFailedDelta,
    uint64FromJson_eq hL htxRetriesDelta, uint64FromJson_eq hL htxDurationDelta,
    UERate.fromJson_toJson hL, hisSome, hgetD]
  rfl

theorem UETimePoint.fromJson_toJson (hL : L.Inverts) (u : UETimePoint F) :
    UETimePoint.fromJson L {} (L.reread (u.toJson L))
      = { u.stored with
          fingerprint := Fingerprint.fromJson L [] (L.reread (Fingerprint.toJson L u.fingerprint)) }
      := by
  rw [UETimePoint.fromJson, UETimePoint.decode_toJson hL]

/-! ## Access point, radios, device -/

theorem APTimePoint.toJson_obj (a : APTimePoint F) : ∃ members, a.toJson = .obj members := ⟨_, rfl⟩

theorem APTimePoint.ordered_toJson (a : APTimePoint F) : a.toJson.Ordered :=
  Ordered.object (by simp)

theorem APTimePoint.fromJson_toJson (hL : L.Inverts) (a₀ a : APTimePoint F) :
    APTimePoint.fromJson L a₀ (L.reread a.toJson) = a := by
  obtain ⟨body, hbody⟩ : ∃ body, body = L.reread a.toJson := ⟨_, rfl⟩
  -- the second `tx_packets` is the eleventh field
  have h := JsonLibrary.find?_reread_again (n := 10) hbody rfl (List.mem_of_getElem? (i := 7) rfl)
    (by dsimp only [List.eraseIdx, List.map]; decide)
  simp only [List.forall_mem_cons] at h
  obtain ⟨hcollisions, hmulticast, hrxBytes, hrxDropped, hrxErrors, hrxPackets, htxBytes,
    htxPackets, htxDropped, htxErrors, -, htxBytesBw, hrxBytesBw, hrxDroppedPct, htxDroppedPct,
    hrxPacketsBw, htxPacketsBw, hrxErrorsPct, htxErrorsPct, htxBytesDelta, hrxBytesDelta,
    hrxDroppedDelta, htxDroppedDelta, hrxPacketsDelta, htxPacketsDelta, hrxErrorsDelta,
    htxErrorsDelta, -⟩ := h
  rw [← hbody, APTimePoint.fromJson]
  simp only [inTurn, uint64FromJson_eq hL hcollisions, uint64FromJson_eq hL hmulticast,
    uint64FromJson_eq hL hrxBytes, uint64FromJson_eq hL hrxDropped,
    uint64FromJson_eq hL hrxErrors, uint64FromJson_eq hL hrxPackets,
    uint64FromJson_eq hL htxBytes, uint64FromJson_eq hL htxPackets,
    uint64FromJson_eq hL htxDropped, uint64FromJson_eq hL htxErrors,
    doubleFromJson_eq hL htxBytesBw, doubleFromJson_eq hL hrxBytesBw,
    doubleFromJson_eq hL hrxDroppedPct, doubleFromJson_eq hL htxDroppedPct,
    doubleFromJson_eq hL hrxPacketsBw, doubleFromJson_eq hL htxPacketsBw,
    doubleFromJson_eq hL hrxErrorsPct, doubleFromJson_eq hL htxErrorsPct,
    uint64FromJson_eq hL htxBytesDelta, uint64FromJson_eq hL hrxBytesDelta,
    uint64FromJson_eq hL hrxDroppedDelta, uint64FromJson_eq hL htxDroppedDelta,
    uint64FromJson_eq hL hrxPacketsDelta, uint64FromJson_eq hL htxPacketsDelta,
    uint64FromJson_eq hL hrxErrorsDelta, uint64FromJson_eq hL htxErrorsDelta]

theorem RadioTimePoint.toJson_obj (r : RadioTimePoint F) : ∃ members, r.toJson = .obj members :=
  ⟨_, rfl⟩

theorem RadioTimePoint.ordered_toJson (r : RadioTimePoint F) : r.toJson.Ordered := by
  have htemperature : (r.temperature.elim .null .float : Document F).Ordered := by
    cases r.temperature with
    | none => exact .null
    | some x => exact .float x
  exact Ordered.object (by simp [htemperature])

theorem RadioTimePoint.decode_toJson (hL : L.Inverts) (r₀ r : RadioTimePoint F) :
    RadioTimePoint.decode L (L.reread r.toJson) r₀ = (r, true) := by
  obtain ⟨body, hbody⟩ : ∃ body, body = L.reread r.toJson := ⟨_, rfl⟩
  have h := JsonLibrary.find?_reread hbody (List.Subset.refl _) (by dsimp only [List.map]; decide)
  simp only [List.forall_mem_cons] at h
  obtain ⟨hband, hchannelWidth, hactiveMs, hbusyMs, hreceiveMs, htransmitMs, htxPower, hchannel,
    htemperature, hnoise, hactivePct, hbusyPct, hreceivePct, htransmitPct, -⟩ := h
  rw [← hbody, RadioTimePoint.decode]
  simp only [inTurn, uint64FromJson_eq hL hband, uint64FromJson_eq hL hchannelWidth,
    uint64FromJson_eq hL hactiveMs, uint64FromJson_eq hL hbusyMs,
    uint64FromJson_eq hL hreceiveMs, uint64FromJson_eq hL htransmitMs,
    uint64FromJson_eq hL htxPower, uint64FromJson_eq hL hchannel,
    optionalDoubleFromJson_eq hL htemperature, int64FromJson_eq hL hnoise,
    doubleFromJson_eq hL hactivePct, doubleFromJson_eq hL hbusyPct,
    doubleFromJson_eq hL hreceivePct, doubleFromJson_eq hL htransmitPct]

theorem RadioTimePoint.fromJson_toJson (hL : L.Inverts) (r₀ r : RadioTimePoint F) :
    RadioTimePoint.fromJson L r₀ (L.reread r.toJson) = r := by
  rw [RadioTimePoint.fromJson, RadioTimePoint.decode_toJson hL]

theorem DeviceInfo.toJson_obj (i : DeviceInfo F) : ∃ members, i.toJson = .obj members := ⟨_, rfl⟩

theorem DeviceInfo.ordered_toJson (i : DeviceInfo F) : i.toJson.Ordered :=
  Ordered.object (by simp)

theorem DeviceInfo.fromJson_toJson (hL : L.Inverts) (i₀ i : DeviceInfo F) :
    DeviceInfo.fromJson L i₀ (L.reread i.toJson) = i := by
  obtain ⟨body, hbody⟩ : ∃ body, body = L.reread i.toJson := ⟨_, rfl⟩
  have h := JsonLibrary.find?_reread hbody (List.Subset.refl _) (by dsimp only [List.map]; decide)
  -- each member is found with the value it was written with
  simp only [List.forall_mem_cons] at h
  obtain ⟨hboardId, htype, hserialNumber, hdeviceType, hplatform, hlastContact, hlastPing,
    hlastState, hlastFirmware, hlastFirmwareUpdate, hlastConnection, hlastDisconnection, hpings,
    hstates, hconnected, hconnectionIp, hassociations2g, hassociations5g, hassociations6g, hhealth,
    hlastHealth, hlocale, huptime, hmemory, -⟩ := h
  rw [← hbody, DeviceInfo.fromJson]
  simp only [inTurn, stringFromJson_eq hboardId, stringFromJson_eq htype,
    stringFromJson_eq hserialNumber, stringFromJson_eq hdeviceType, stringFromJson_eq hplatform,
    uint64FromJson_eq hL hlastContact, uint64FromJson_eq hL hlastPing,
    uint64FromJson_eq hL hlastState, stringFromJson_eq hlastFirmware,
    uint64FromJson_eq hL hlastFirmwareUpdate, uint64FromJson_eq hL hlastConnection,
    uint64FromJson_eq hL hlastDisconnection, uint64FromJson_eq hL hpings,
    uint64FromJson_eq hL hstates, boolFromJson_eq hL hconnected, stringFromJson_eq hconnectionIp,
    uint64FromJson_eq hL hassociations2g, uint64FromJson_eq hL hassociations5g,
    uint64FromJson_eq hL hassociations6g, uint64FromJson_eq hL hhealth,
    uint64FromJson_eq hL hlastHealth, stringFromJson_eq hlocale, uint64FromJson_eq hL huptime,
    doubleFromJson_eq hL hmemory]

omit [Zero F] in
theorem DeviceResourceTimePoint.toJson_obj (r : DeviceResourceTimePoint) :
    ∃ members, (r.toJson : Document F) = .obj members := ⟨_, rfl⟩

omit [Zero F] in
theorem DeviceResourceTimePoint.ordered_toJson (r : DeviceResourceTimePoint) :
    (r.toJson : Document F).Ordered := by
  have hcounter : ∀ (o : Option UInt64), ∀ d ∈ (o.map .unsigned : Option (Document F)),
      d.Ordered := by
    intro o d hd
    obtain ⟨n, -, rfl⟩ := Option.map_eq_some_iff.mp hd
    exact .unsigned n
  refine Ordered.object_present ?_
  simp only [List.forall_mem_cons]
  exact ⟨hcounter _, hcounter _, hcounter _, hcounter _, by simp⟩

omit [Zero F] in
theorem DeviceResourceTimePoint.fromJson_toJson (hL : L.Inverts) (r₀ r : DeviceResourceTimePoint) :
    DeviceResourceTimePoint.fromJson L r₀ (L.reread r.toJson) = r := by
  obtain ⟨body, hbody⟩ : ∃ body, body = L.reread r.toJson := ⟨_, rfl⟩
  have h := JsonLibrary.find?_reread_present hbody (by dsimp only [List.map]; decide)
  simp only [List.forall_mem_cons] at h
  obtain ⟨hfree, htotal, hcached, hbuffered, -⟩ := h
  rw [← hbody, DeviceResourceTimePoint.fromJson]
  simp only [inTurn, counterFromJson_eq hL hfree, counterFromJson_eq hL htotal,
    counterFromJson_eq hL hcached, counterFromJson_eq hL hbuffered]

/-! ## SSIDs -/

theorem AveragePoint.toJson_obj (a : AveragePoint F) : ∃ members, a.toJson = .obj members :=
  ⟨_, rfl⟩

theorem AveragePoint.ordered_toJson (a : AveragePoint F) : a.toJson.Ordered :=
  Ordered.object (by simp)

theorem AveragePoint.fromJson_toJson (hL : L.Inverts) (a₀ a : AveragePoint F) :
    AveragePoint.fromJson L a₀ (L.reread a.toJson) = a := by
  obtain ⟨body, hbody⟩ : ∃ body, body = L.reread a.toJson := ⟨_, rfl⟩
  have h := JsonLibrary.find?_reread hbody (List.Subset.refl _) (by dsimp only [List.map]; decide)
  simp only [List.forall_mem_cons] at h
  obtain ⟨hmin, hmax, havg, -⟩ := h
  rw [← hbody, AveragePoint.fromJson]
  simp only [inTurn, doubleFromJson_eq hL hmin, doubleFromJson_eq hL hmax,
    doubleFromJson_eq hL havg]

theorem UETimePoint.toJson_obj (L : JsonLibrary F) (u : UETimePoint F) :
    ∃ members, u.toJson L = .obj members := ⟨_, rfl⟩

theorem SSIDTimePoint.toJson_obj (L : JsonLibrary F) (s : SSIDTimePoint F) :
    ∃ members, s.toJson L = .obj members := ⟨_, rfl⟩

theorem SSIDTimePoint.ordered_toJson (hL : L.Inverts) (s : SSIDTimePoint F) :
    (s.toJson L).Ordered := by
  have hassociations : (arr (s.associations.map (UETimePoint.toJson L))).Ordered := by
    refine .arr fun d hd => ?_
    obtain ⟨u, -, rfl⟩ := List.mem_map.mp hd
    exact u.ordered_toJson hL
  exact Ordered.object (by simp [hassociations, AveragePoint.ordered_toJson])

theorem foldl_associations (l : List (UETimePoint F)) (s : SSIDTimePoint F) :
    l.foldl (fun s newItem => { s with associations := s.associations ++ [newItem] }) s
      = { s with associations := s.associations ++ l } := by
  induction l generalizing s with
  | nil => rw [List.foldl_nil, List.append_nil]
  | cons u rest ih => rw [List.foldl_cons, ih, List.append_assoc, List.singleton_append]

/-- The associations that are found in an SSID that was written. -/
theorem SSIDTimePoint.find?_associations (s : SSIDTimePoint F) :
    (L.reread (s.toJson L)).find? "associations"
      = some (L.reread (.arr (s.associations.map (UETimePoint.toJson L)))) := by
  obtain ⟨body, hbody⟩ : ∃ body, body = L.reread (s.toJson L) := ⟨_, rfl⟩
  have h := JsonLibrary.find?_reread hbody (List.Subset.refl _) (by dsimp only [List.map]; decide)
  simp only [List.forall_mem_cons] at h
  obtain ⟨-, -, -, -, -, hassociations, -⟩ := h
  rw [← hbody, hassociations]

theorem SSIDTimePoint.decode_toJson (hL : L.Inverts) (s : SSIDTimePoint F) :
    SSIDTimePoint.decode L (L.reread (s.toJson L)) {}
      = ({ s with
          associations := s.associations.map fun u =>
            UETimePoint.fromJson L {} (L.reread (u.toJson L)) }, true) := by
  obtain ⟨body, hbody⟩ : ∃ body, body = L.reread (s.toJson L) := ⟨_, rfl⟩
  have h := JsonLibrary.find?_reread hbody (List.Subset.refl _) (by dsimp only [List.map]; decide)
  simp only [List.forall_mem_cons] at h
  obtain ⟨hbssid, hmode, hssid, hband, hchannel, hassociations, htxBytesBw, hrxBytesBw,
    htxPacketsBw, hrxPacketsBw, htxFailedPct, htxRetriesPct, htxDurationPct, -⟩ := h
  -- Anything but an object would be passed over in an array.
  have hobj : ∀ d ∈ s.associations.map (UETimePoint.toJson L), ∃ members, d = .obj members := by
    intro d hd
    obtain ⟨u, -, rfl⟩ := List.mem_map.mp hd
    exact u.toJson_obj L
  rw [← hbody, SSIDTimePoint.decode]
  simp only [inTurn, stringFromJson_eq hbssid, stringFromJson_eq hmode, stringFromJson_eq hssid,
    uint64FromJson_eq hL hband, uint64FromJson_eq hL hchannel,
    vectorFromJson_eq hassociations hobj, foldl_associations, List.map_map,
    objectFromJson_eq (AveragePoint.toJson_obj _) htxBytesBw,
    objectFromJson_eq (AveragePoint.toJson_obj _) hrxBytesBw,
    objectFromJson_eq (AveragePoint.toJson_obj _) htxPacketsBw,
    objectFromJson_eq (AveragePoint.toJson_obj _) hrxPacketsBw,
    objectFromJson_eq (AveragePoint.toJson_obj _) htxFailedPct,
    objectFromJson_eq (AveragePoint.toJson_obj _) htxRetriesPct,
    objectFromJson_eq (AveragePoint.toJson_obj _) htxDurationPct, AveragePoint.fromJson_toJson hL]
  rfl

theorem SSIDTimePoint.fromJson_toJson (hL : L.Inverts) (s : SSIDTimePoint F) :
    SSIDTimePoint.fromJson L {} (L.reread (s.toJson L))
      = { s with
          associations := s.associations.map fun u =>
            UETimePoint.fromJson L {} (L.reread (u.toJson L)) } := by
  rw [SSIDTimePoint.fromJson, SSIDTimePoint.decode_toJson hL]

end OwAnalytics.Ap

namespace OwAnalytics.TimePointDB

open Ap Boards

variable {F : Type} {L : JsonLibrary F} [Zero F]

/-! ## Time points -/

/-- An association comes back as `stored` says, with another text for its fingerprint. -/
structure AssociationBack (L : JsonLibrary F) (stored : UETimePoint F → UETimePoint F)
    (u v : UETimePoint F) : Prop where
  fields : v = { stored u with fingerprint := v.fingerprint }
  fingerprint : SameFingerprint L u.fingerprint v.fingerprint

/-- An SSID comes back with its associations in their order. -/
structure SSIDBack (L : JsonLibrary F) (stored : UETimePoint F → UETimePoint F)
    (s t : SSIDTimePoint F) : Prop where
  fields : t = { s with associations := t.associations }
  associations : List.Forall₂ (AssociationBack L stored) s.associations t.associations

/-- A time point comes back with its SSIDs in their order. -/
structure Back (L : JsonLibrary F) (stored : UETimePoint F → UETimePoint F)
    (p q : DeviceTimePoint F) : Prop where
  fields : q = { p with ssidData := q.ssidData }
  ssidData : List.Forall₂ (SSIDBack L stored) p.ssidData q.ssidData

/-- The fingerprints of a time point are empty or JSON objects. -/
def Fingerprints (L : JsonLibrary F) (p : DeviceTimePoint F) : Prop :=
  ∀ s ∈ p.ssidData, ∀ u ∈ s.associations, IsFingerprint L u.fingerprint

/-- What is read of what was written. -/
theorem fromRecord_toRecord (hL : L.Inverts) (p : DeviceTimePoint F) :
    fromRecord L (toRecord L p)
      = some
          { p with
            ssidData := p.ssidData.map fun s =>
              SSIDTimePoint.fromJson L {} (L.reread (s.toJson L)) } := by
  -- Both vectors are written as arrays of objects, each read back in its place.
  have hssids : ∀ d ∈ p.ssidData.map (SSIDTimePoint.toJson L),
      (∃ members, d = .obj members) ∧ d.Ordered := by
    intro d hd
    obtain ⟨s, -, rfl⟩ := List.mem_map.mp hd
    exact ⟨s.toJson_obj L, s.ordered_toJson hL⟩
  have hradios : ∀ d ∈ p.radioData.map RadioTimePoint.toJson,
      (∃ members, d = .obj members) ∧ d.Ordered := by
    intro d hd
    obtain ⟨r, -, rfl⟩ := List.mem_map.mp hd
    exact ⟨r.toJson_obj, r.ordered_toJson⟩
  have hradioData : p.radioData.map (fun r => RadioTimePoint.fromJson L {} (L.reread r.toJson))
      = p.radioData := by
    simp only [RadioTimePoint.fromJson_toJson hL, List.map_id']
  rw [fromRecord, toRecord]
  dsimp only
  rw [toObject_stringify hL p.apData.toJson_obj p.apData.ordered_toJson,
    toObject_stringify hL p.deviceInfo.toJson_obj p.deviceInfo.ordered_toJson,
    toObject_stringify hL p.resourceData.toJson_obj p.resourceData.ordered_toJson,
    toObjectArray_arrayToString hL (fun d hd => (hssids d hd).1) fun d hd => (hssids d hd).2,
    toObjectArray_arrayToString hL (fun d hd => (hradios d hd).1) fun d hd => (hradios d hd).2,
    APTimePoint.fromJson_toJson hL, DeviceInfo.fromJson_toJson hL,
    DeviceResourceTimePoint.fromJson_toJson hL]
  simp only [List.map_map, Function.comp_def, hradioData]
  rfl

theorem ssidBack (hL : L.Inverts) {s : SSIDTimePoint F}
    (h : ∀ u ∈ s.associations, IsFingerprint L u.fingerprint) :
    SSIDBack L UETimePoint.stored s (SSIDTimePoint.fromJson L {} (L.reread (s.toJson L))) := by
  rw [SSIDTimePoint.fromJson_toJson hL]
  refine ⟨rfl, ?_⟩
  dsimp only
  rw [List.forall₂_map_right_iff, List.forall₂_same]
  intro u hu
  rw [UETimePoint.fromJson_toJson hL]
  exact ⟨rfl, Fingerprint.fromJson_toJson hL (h u hu) []⟩

/-- A time point is read as it was stored. -/
theorem time_point_round_trip (hL : L.Inverts) (p : DeviceTimePoint F) (h : Fingerprints L p) :
    ∃ q, fromRecord L (toRecord L p) = some q ∧ Back L UETimePoint.stored p q := by
  refine ⟨_, fromRecord_toRecord hL p, rfl, ?_⟩
  dsimp only
  rw [List.forall₂_map_right_iff, List.forall₂_same]
  exact fun s hs => ssidBack hL (h s hs)

/-! ## Bytes that are not marked as present -/

/-- A time point of one association and of a radio without a temperature. -/
def onePoint (u : UETimePoint Int64) : DeviceTimePoint Int64 where
  ssidData := [{ associations := [u] }]
  radioData := [{ channel := 36 }]

/-- Bytes that are not marked as present come back as 0. -/
theorem absent_bytes_lost :
    ¬ ∀ p : DeviceTimePoint Int64, Fingerprints JsonText.library p →
      ∃ q, fromRecord JsonText.library (toRecord JsonText.library p) = some q ∧
        Back JsonText.library UETimePoint.withoutTids p q := by
  intro h
  have hfingerprints : Fingerprints JsonText.library (onePoint { txBytes := 5 }) := by
    intro s hs u hu
    rw [List.mem_singleton.mp hs, List.mem_singleton] at hu
    exact .inl (by rw [hu])
  obtain ⟨q, hread, hback⟩ := h _ hfingerprints
  rw [fromRecord_toRecord JsonText.inverts_library, Option.some.injEq] at hread
  subst hread
  cases hback.ssidData with
  | cons hssid _ =>
      have hassociations := hssid.associations
      dsimp only at hassociations
      rw [SSIDTimePoint.fromJson_toJson JsonText.inverts_library] at hassociations
      cases hassociations with
      | cons hassociation _ =>
          have hbytes : (UETimePoint.fromJson JsonText.library {} (JsonText.library.reread
              (UETimePoint.toJson JsonText.library { txBytes := 5 }))).txBytes = 5 :=
            congrArg UETimePoint.txBytes hassociation.fields
          rw [UETimePoint.fromJson_toJson JsonText.inverts_library] at hbytes
          -- 0 bytes were read, 5 were given
          exact absurd hbytes (by decide)

/-- An association with a fingerprint whose received bytes alone are present. -/
theorem time_point_round_trip_library :
    ∃ q, fromRecord JsonText.library (toRecord JsonText.library (onePoint
        { rxBytes := 7, rxBytesPresent := true,
          fingerprint := JsonText.print (.obj [("os".toList, .str "x".toList)]) })) = some q ∧
      Back JsonText.library UETimePoint.stored (onePoint
        { rxBytes := 7, rxBytesPresent := true,
          fingerprint := JsonText.print (.obj [("os".toList, .str "x".toList)]) }) q := by
  have hobject : (Document.obj [("os".toList, .str "x".toList)] : Document Int64).Ordered :=
    .obj (List.pairwise_singleton _ _) (by simp)
  refine time_point_round_trip JsonText.inverts_library _ fun s hs u hu => ?_
  rw [List.mem_singleton.mp hs, List.mem_singleton] at hu
  rw [hu]
  exact .inr ⟨_, (JsonText.parse_print hobject).trans (by rw [Document.reread])⟩

end OwAnalytics.TimePointDB
