/-
  OwAnalytics.Mcp.Bandwidth.OrderIndependence

  The summary of a list of records depends on the set of keyed readings of the
  list only.  The ways in which the storage layer and the handler may present the
  same history differently (another order of the records, of the SSIDs of a
  record or of the associations of an SSID, and a record that is appended twice)
  keep that set.
-/

import OwAnalytics.Mcp.Bandwidth.Streams

namespace OwAnalytics.Mcp.Bandwidth

open AnalyticsObjects

/-! ## The same readings -/

/-- Two lists of records carry the same readings in the same streams. -/
def SameReadings (records records' : List DeviceTimePoint) : Prop :=
  ∀ kv, kv ∈ keyedReadings records ↔ kv ∈ keyedReadings records'

theorem SameReadings.refl (records : List DeviceTimePoint) : SameReadings records records :=
  fun _ => Iff.rfl

theorem SameReadings.trans {a b c : List DeviceTimePoint} (hab : SameReadings a b)
    (hbc : SameReadings b c) : SameReadings a c :=
  fun kv => (hab kv).trans (hbc kv)

/-- Lists with the same records have the same readings. -/
theorem SameReadings.of_mem_iff {records records' : List DeviceTimePoint}
    (h : ∀ record, record ∈ records ↔ record ∈ records') : SameReadings records records' := by
  intro kv
  simp only [keyedReadings, keyed, List.mem_flatMap, h]

/-- A record may be replaced by one with the same readings. -/
theorem SameReadings.replace {record record' : DeviceTimePoint}
    (h : SameReadings [record] [record']) (before after : List DeviceTimePoint) :
    SameReadings (before ++ record :: after) (before ++ record' :: after) := by
  intro kv
  have hkv := h kv
  simp only [keyedReadings, keyed, List.mem_flatMap, List.mem_append, List.mem_cons,
    List.not_mem_nil, or_false, exists_eq_left, or_and_right, exists_or] at hkv ⊢
  rw [hkv]

theorem totalsByMac_congr {records records' : List DeviceTimePoint}
    (h : SameReadings records records') (requested : Window) :
    totalsByMac records requested = totalsByMac records' requested := by
  rw [totalsByMac_eq, totalsByMac_eq, settledStreams_congr h requested requested]

/-! ## Rearranging a history -/

/-- The record with its SSIDs listed differently. -/
def withSsids (record : DeviceTimePoint) (ssids : List SSIDTimePoint) : DeviceTimePoint :=
  { record with ssidData := ssids }

/-- The SSID with its associations listed differently. -/
def withAssociations (ssid : SSIDTimePoint) (associations : List UETimePoint) : SSIDTimePoint :=
  { ssid with associations := associations }

/-- The second list of records is the first one, reordered at any of its three levels or
    with records that are present listed again, any number of times. -/
inductive Rearrangement : List DeviceTimePoint → List DeviceTimePoint → Prop
  | records {a b} (h : a.Perm b) : Rearrangement a b
  | ssids (before after : List DeviceTimePoint) (record : DeviceTimePoint)
      {ssids : List SSIDTimePoint} (h : record.ssidData.Perm ssids) :
      Rearrangement (before ++ record :: after) (before ++ withSsids record ssids :: after)
  | associations (before after : List DeviceTimePoint) (record : DeviceTimePoint)
      (ssidsBefore ssidsAfter : List SSIDTimePoint) (ssid : SSIDTimePoint)
      {associations : List UETimePoint} (h : ssid.associations.Perm associations) :
      Rearrangement
        (before ++ withSsids record (ssidsBefore ++ ssid :: ssidsAfter) :: after)
        (before ++ withSsids record
          (ssidsBefore ++ withAssociations ssid associations :: ssidsAfter) :: after)
  | duplicate {a : List DeviceTimePoint} {record} (h : record ∈ a) : Rearrangement a (record :: a)
  | trans {a b c} (hab : Rearrangement a b) (hbc : Rearrangement b c) : Rearrangement a c

theorem sameReadings_ssids (record : DeviceTimePoint) {ssids : List SSIDTimePoint}
    (h : record.ssidData.Perm ssids) : SameReadings [record] [withSsids record ssids] := by
  intro kv
  simp only [keyedReadings, keyed, List.flatMap_cons, List.flatMap_nil, List.append_nil,
    List.mem_flatMap]
  exact exists_congr fun ssid => and_congr h.mem_iff Iff.rfl

theorem sameReadings_associations (record : DeviceTimePoint)
    (ssidsBefore ssidsAfter : List SSIDTimePoint) (ssid : SSIDTimePoint)
    {associations : List UETimePoint} (h : ssid.associations.Perm associations) :
    SameReadings [withSsids record (ssidsBefore ++ ssid :: ssidsAfter)]
      [withSsids record (ssidsBefore ++ withAssociations ssid associations :: ssidsAfter)] := by
  intro kv
  have hmem : ∀ assoc, assoc ∈ ssid.associations ↔ assoc ∈ associations := fun _ => h.mem_iff
  simp only [keyedReadings, keyed, withSsids, List.flatMap_cons, List.flatMap_nil,
    List.append_nil, List.flatMap_append, List.mem_append, List.mem_filterMap, hmem,
    withAssociations]
  rfl

theorem Rearrangement.sameReadings {records records' : List DeviceTimePoint}
    (h : Rearrangement records records') : SameReadings records records' := by
  induction h with
  | records h => exact SameReadings.of_mem_iff fun _ => h.mem_iff
  | ssids before after record h => exact (sameReadings_ssids record h).replace before after
  | associations before after record ssidsBefore ssidsAfter ssid h =>
      exact (sameReadings_associations record ssidsBefore ssidsAfter ssid h).replace before after
  | duplicate h =>
      apply SameReadings.of_mem_iff
      intro record
      rw [List.mem_cons]
      refine ⟨?_, ?_⟩
      · exact .inr
      · rintro (rfl | hmem)
        · exact h
        · exact hmem
  | trans _ _ hab hbc => exact hab.trans hbc

/-- The whole summary is the same for every rearrangement of the records. -/
theorem summary_eq_of_rearrangement (P : Platform) {records records' : List DeviceTimePoint}
    (h : Rearrangement records records') (requested : Window) :
    calculateBandwidthConsumptionSummary P records requested
      = calculateBandwidthConsumptionSummary P records' requested := by
  rw [calculateBandwidthConsumptionSummary, calculateBandwidthConsumptionSummary,
    totalsByMac_congr h.sameReadings]

/-- The history of `cumulativeRecords` read backwards, with its boundary record twice. -/
theorem summary_eq_of_rearrangement_cumulative :
    calculateBandwidthConsumptionSummary Platform.posix cumulativeRecords oneWindow
      = calculateBandwidthConsumptionSummary Platform.posix
          (point 1000 [assoc "E25195ED0F28" (some 1000) (some 500)]
            :: cumulativeRecords.reverse) oneWindow := by
  have hperm : Rearrangement cumulativeRecords cumulativeRecords.reverse :=
    .records (List.reverse_perm _).symm
  have hmem : point 1000 [assoc "E25195ED0F28" (some 1000) (some 500)]
      ∈ cumulativeRecords.reverse := by
    rw [List.mem_reverse]
    exact List.mem_cons_self
  exact summary_eq_of_rearrangement Platform.posix (hperm.trans (.duplicate hmem)) oneWindow

end OwAnalytics.Mcp.Bandwidth
