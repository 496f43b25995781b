/-
  OwAnalytics.Mcp.Respelling

  The summaries see an association through the normal form of its station text
  only.  Other accepted spellings of the same addresses leave both summaries as
  they are, and so does leaving out the associations whose text is malformed.
-/

import OwAnalytics.Mcp.Bandwidth.OrderIndependence
import OwAnalytics.Mcp.MacGrammar
import OwAnalytics.Mcp.Rssi.Quality

namespace OwAnalytics.Mcp

variable {F : Type} [Zero F]

/-! ## What the bandwidth summary reads of a record -/

/-- The fields of an association the bandwidth summary reads. -/
def bandwidthAssoc (assoc : Ap.UETimePoint F) : AnalyticsObjects.UETimePoint where
  station := assoc.station
  txBytes := assoc.txBytes
  rxBytes := assoc.rxBytes
  txBytesPresent := assoc.txBytesPresent
  rxBytesPresent := assoc.rxBytesPresent

/-- The fields of an SSID the bandwidth summary reads. -/
def bandwidthSsid (ssid : Ap.SSIDTimePoint F) : AnalyticsObjects.SSIDTimePoint where
  bssid := ssid.bssid
  ssid := ssid.ssid
  band := ssid.band
  associations := ssid.associations.map bandwidthAssoc

/-- The fields of a record the bandwidth summary reads. -/
def bandwidthRecord (record : Ap.DeviceTimePoint F) : AnalyticsObjects.DeviceTimePoint where
  id := record.id
  boardId := record.boardId
  timestamp := record.timestamp
  ssidData := record.ssidData.map bandwidthSsid
  serialNumber := record.serialNumber

/-- The bandwidth summary of the records. -/
def bandwidthSummary (P : Platform) (records : List (Ap.DeviceTimePoint F)) (requested : Window) :
    AnalyticsObjects.McpDeviceBandwidthConsumptionSummary :=
  calculateBandwidthConsumptionSummary P (records.map bandwidthRecord) requested

/-- The readings of an association, in terms of the whole record. -/
theorem keyedReadings_map (records : List (Ap.DeviceTimePoint F)) :
    Bandwidth.keyedReadings (records.map bandwidthRecord)
      = records.flatMap fun record => record.ssidData.flatMap fun ssid =>
          ssid.associations.filterMap fun assoc =>
            (normalizeClientMac assoc.station).map fun mac =>
              (Bandwidth.streamKey (bandwidthSsid ssid) mac,
                Bandwidth.makeReading (bandwidthRecord record) (bandwidthAssoc assoc)) := by
  simp only [Bandwidth.keyedReadings, Bandwidth.keyed, List.flatMap_map, bandwidthRecord,
    bandwidthSsid, List.filterMap_map]
  rfl

/-! ## Other spellings -/

/-- Two accepted spellings of one address. -/
def SameAddress (s t : Str) : Prop :=
  ∃ digits digits' : Str, (∀ c ∈ digits, isHex c = true) ∧ Spells digits s ∧
    (∀ c ∈ digits', isHex c = true) ∧ Spells digits' t ∧
      digits.map lowerHex = digits'.map lowerHex

theorem SameAddress.normalizeClientMac_eq {s t : Str} (h : SameAddress s t) :
    normalizeClientMac s = normalizeClientMac t := by
  obtain ⟨digits, digits', hhex, hs, hhex', ht, hlower⟩ := h
  obtain ⟨mac, hmac⟩ : ∃ mac, JoinedBy ':' 6 2 (digits.map lowerHex) mac :=
    exists_joinedBy ':' (by simp [hs.length])
  rw [normalizeClientMac_eq_some_iff.mpr ⟨digits, hhex, hs, hmac⟩,
    normalizeClientMac_eq_some_iff.mpr ⟨digits', hhex', ht, hlower ▸ hmac⟩]

/-- The same association, its station perhaps in another spelling. -/
def RespelledAssoc (assoc assoc' : Ap.UETimePoint F) : Prop :=
  assoc' = { assoc with station := assoc'.station } ∧
    (assoc'.station = assoc.station ∨ SameAddress assoc.station assoc'.station)

/-- The SSID with its clients spelled otherwise. -/
def RespelledSsid (ssid ssid' : Ap.SSIDTimePoint F) : Prop :=
  ssid' = { ssid with associations := ssid'.associations } ∧
    List.Forall₂ RespelledAssoc ssid.associations ssid'.associations

/-- The record with its clients spelled otherwise. -/
def RespelledRecord (record record' : Ap.DeviceTimePoint F) : Prop :=
  record' = { record with ssidData := record'.ssidData } ∧
    List.Forall₂ RespelledSsid record.ssidData record'.ssidData

/-- The same records, any of their stations in another spelling. -/
def Respelled (records records' : List (Ap.DeviceTimePoint F)) : Prop :=
  List.Forall₂ RespelledRecord records records'

theorem RespelledAssoc.normalizeClientMac_eq {assoc assoc' : Ap.UETimePoint F}
    (h : RespelledAssoc assoc assoc') :
    normalizeClientMac assoc.station = normalizeClientMac assoc'.station := by
  rcases h.2 with heq | hsame
  · rw [heq]
  · exact hsame.normalizeClientMac_eq

/-- Lists related element by element, with equal values for related elements. -/
theorem flatMap_eq_of_forall₂ {α β : Type*} {R : α → α → Prop} {f g : α → List β} {l l' : List α}
    (h : List.Forall₂ R l l') (hfg : ∀ a b, R a b → f a = g b) :
    l.flatMap f = l'.flatMap g := by
  induction h with
  | nil => rfl
  | cons hab _ ih => rw [List.flatMap_cons, List.flatMap_cons, hfg _ _ hab, ih]

theorem filterMap_eq_of_forall₂ {α β : Type*} {R : α → α → Prop} {f g : α → Option β}
    {l l' : List α} (h : List.Forall₂ R l l') (hfg : ∀ a b, R a b → f a = g b) :
    l.filterMap f = l'.filterMap g := by
  induction h with
  | nil => rfl
  | cons hab _ ih => rw [List.filterMap_cons, List.filterMap_cons, hfg _ _ hab, ih]

theorem keyedReadings_respelled {records records' : List (Ap.DeviceTimePoint F)}
    (h : Respelled records records') :
    Bandwidth.keyedReadings (records.map bandwidthRecord)
      = Bandwidth.keyedReadings (records'.map bandwidthRecord) := by
  rw [keyedReadings_map, keyedReadings_map]
  refine flatMap_eq_of_forall₂ h fun record record' hrecord => ?_
  refine flatMap_eq_of_forall₂ hrecord.2 fun ssid ssid' hssid => ?_
  refine filterMap_eq_of_forall₂ hssid.2 fun assoc assoc' hassoc => ?_
  rw [hassoc.normalizeClientMac_eq, hrecord.1, hssid.1, hassoc.1]
  rfl

theorem samples_respelled {records records' : List (Ap.DeviceTimePoint F)}
    (h : Respelled records records') (requested : Window) :
    Rssi.samples records requested = Rssi.samples records' requested := by
  refine flatMap_eq_of_forall₂ h fun record record' hrecord => ?_
  have htime : record'.timestamp = record.timestamp := by rw [hrecord.1]
  unfold Rssi.recordSamples
  rw [htime]
  split_ifs
  · refine flatMap_eq_of_forall₂ hrecord.2 fun ssid ssid' hssid => ?_
    refine filterMap_eq_of_forall₂ hssid.2 fun assoc assoc' hassoc => ?_
    have hrssi : assoc'.rssi = assoc.rssi := by rw [hassoc.1]
    rw [Rssi.sampleOf, Rssi.sampleOf, hassoc.normalizeClientMac_eq, hrssi, htime]
  · rfl

/-! ## Malformed texts -/

/-- The record without the associations whose station text is not accepted. -/
def dropMalformed (record : Ap.DeviceTimePoint F) : Ap.DeviceTimePoint F :=
  { record with
    ssidData := record.ssidData.map fun ssid =>
      { ssid with
        associations := ssid.associations.filter fun assoc =>
          (normalizeClientMac assoc.station).isSome } }

/-- A value that needs the normal form is not made from a malformed text. -/
theorem filterMap_filter_isSome {β : Type*} (f : Ap.UETimePoint F → Option β)
    (hf : ∀ assoc, normalizeClientMac assoc.station = none → f assoc = none)
    (l : List (Ap.UETimePoint F)) :
    (l.filter fun assoc => (normalizeClientMac assoc.station).isSome).filterMap f
      = l.filterMap f := by
  induction l with
  | nil => rfl
  | cons assoc l ih =>
      cases hmac : normalizeClientMac assoc.station with
      | none =>
          rw [List.filter_cons_of_neg (by simp [hmac]), ih,
            List.filterMap_cons_none (hf assoc hmac)]
      | some mac =>
          rw [List.filter_cons_of_pos (by simp [hmac]), List.filterMap_cons,
            List.filterMap_cons, ih]

theorem keyedReadings_dropMalformed (records : List (Ap.DeviceTimePoint F)) :
    Bandwidth.keyedReadings ((records.map dropMalformed).map bandwidthRecord)
      = Bandwidth.keyedReadings (records.map bandwidthRecord) := by
  rw [keyedReadings_map, keyedReadings_map, List.flatMap_map]
  congr 1
  funext record
  show (List.map _ record.ssidData).flatMap _ = _
  rw [List.flatMap_map]
  congr 1
  funext ssid
  exact filterMap_filter_isSome _ (fun assoc hmac => by rw [hmac]; rfl) ssid.associations

theorem samples_dropMalformed (records : List (Ap.DeviceTimePoint F)) (requested : Window) :
    Rssi.samples (records.map dropMalformed) requested = Rssi.samples records requested := by
  rw [Rssi.samples, Rssi.samples, List.flatMap_map]
  congr 1
  funext record
  unfold Rssi.recordSamples
  show (if timestampInHalfOpenWindow record.timestamp requested then
    (List.map _ record.ssidData).flatMap _ else []) = _
  split_ifs
  · rw [List.flatMap_map]
    congr 1
    funext ssid
    refine filterMap_filter_isSome _ (fun assoc hmac => ?_) ssid.associations
    rw [Rssi.sampleOf, hmac]
    split_ifs <;> rfl
  · rfl

/-! ## Both summaries -/

/-- Records with the same readings and samples have the same summaries. -/
theorem summaries_congr (P : Platform) {records records' : List (Ap.DeviceTimePoint F)}
    (requested : Window)
    (hreadings : Bandwidth.keyedReadings (records.map bandwidthRecord)
      = Bandwidth.keyedReadings (records'.map bandwidthRecord))
    (hsamples : Rssi.samples records requested = Rssi.samples records' requested) :
    bandwidthSummary P records requested = bandwidthSummary P records' requested ∧
      calculateDeviceRssiQualitySummary P records requested
        = calculateDeviceRssiQualitySummary P records' requested := by
  refine ⟨?_, ?_⟩
  · have hsame : Bandwidth.SameReadings (records.map bandwidthRecord)
        (records'.map bandwidthRecord) := fun kv => by rw [hreadings]
    unfold bandwidthSummary calculateBandwidthConsumptionSummary
    rw [Bandwidth.totalsByMac_congr hsame requested]
  · unfold calculateDeviceRssiQualitySummary
    rw [Rssi.clientStatsByMac_congr (List.Perm.of_eq hsamples)]

/-- The language of `NormalizeClientMac`, its normal forms, and what both summaries make of
    the texts of the stations. -/
theorem mac_normalization (P : Platform) :
    (∀ s, (normalizeClientMac s).isSome = true ↔
      ∃ digits, (∀ c ∈ digits, isHex c = true) ∧ Spells digits s) ∧
    (∀ s mac, normalizeClientMac s = some mac →
      ∃ digits, (∀ c ∈ digits, isHex c = true) ∧ Spells digits s ∧
        JoinedBy ':' 6 2 (digits.map lowerHex) mac) ∧
    (∀ s mac, normalizeClientMac s = some mac → normalizeClientMac mac = some mac) ∧
    (∀ s t, (normalizeClientMac s).isSome = true → (normalizeClientMac t).isSome = true →
      (normalizeClientMac s = normalizeClientMac t ↔ hexDigits s = hexDigits t)) ∧
    (∀ (records records' : List (Ap.DeviceTimePoint F)) (requested : Window),
      Respelled records records' →
        bandwidthSummary P records requested = bandwidthSummary P records' requested ∧
        calculateDeviceRssiQualitySummary P records requested
          = calculateDeviceRssiQualitySummary P records' requested) ∧
    ∀ (records : List (Ap.DeviceTimePoint F)) (requested : Window),
      bandwidthSummary P (records.map dropMalformed) requested
        = bandwidthSummary P records requested ∧
      calculateDeviceRssiQualitySummary P (records.map dropMalformed) requested
        = calculateDeviceRssiQualitySummary P records requested := by
  refine ⟨?_, ?_, ?_, ?_, ?_, ?_⟩
  · intro s
    rw [Option.isSome_iff_exists]
    -- An accepted text spells its digits, and any spelling of twelve digits is accepted.
    refine ⟨?_, ?_⟩
    · rintro ⟨mac, hmac⟩
      obtain ⟨digits, hhex, hspells, -⟩ := normalizeClientMac_eq_some_iff.mp hmac
      exact ⟨digits, hhex, hspells⟩
    · rintro ⟨digits, hhex, hspells⟩
      obtain ⟨mac, hmac⟩ : ∃ mac, JoinedBy ':' 6 2 (digits.map lowerHex) mac :=
        exists_joinedBy ':' (by simp [hspells.length])
      exact ⟨mac, normalizeClientMac_eq_some_iff.mpr ⟨digits, hhex, hspells, hmac⟩⟩
  · exact fun s mac h => normalizeClientMac_eq_some_iff.mp h
  · exact fun s mac h => normalizeClientMac_idem h
  · exact fun s t hs ht => normalizeClientMac_eq_iff hs ht
  -- Both summaries depend on the stations through their normal forms only.
  · exact fun records records' requested h =>
      summaries_congr P requested (keyedReadings_respelled h) (samples_respelled h requested)
  · exact fun records requested =>
      summaries_congr P requested (keyedReadings_dropMalformed records)
        (samples_dropMalformed records requested)

end OwAnalytics.Mcp
