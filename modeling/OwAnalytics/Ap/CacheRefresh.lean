/-
  OwAnalytics.Ap.CacheRefresh

  `WifiClientCache::onTimer` next to the association steps of `AP::UpdateStats`.  The
  refresh reads the pairs of the history table first and takes the lock afterwards,
  clears the cache and adds what it has read; an association step adds its station to
  the cache and creates the history record afterwards.  A station that is added
  before the replacement but whose record comes after the read is lost from the cache
  until the next refresh.
-/

import OwAnalytics.Ap.CacheLookup
import OwAnalytics.Lib.Transitions

namespace OwAnalytics.Ap

open Throwing Transitions
open Venue (hexDigit? stoull16)

/-! ## Adding stations -/

namespace WifiClientCache

theorem update_of_ne {cache : WifiClientCache} {venueId v : Str} (h : v ≠ venueId)
    (f : Cache → Cache) : cache.update venueId f v = cache v :=
  Function.update_of_ne h _ _

/-- The other venues are left alone. -/
theorem keeps_addSerialNumber {venueId v : Str} (h : v ≠ venueId) (s : Str) (c : Option Cache) :
    Computation.Keeps (fun cache => cache v = c) (addSerialNumber venueId s) := by
  have hupdate : ∀ (f : WifiClientCache → Cache → Cache) (cache : WifiClientCache),
      cache v = c → cache.update venueId (f cache) v = c :=
    fun f cache hc => (update_of_ne h _).trans hc
  unfold addSerialNumber
  refine Computation.keeps_bind (Computation.keeps_modify (hupdate _)) fun _ => ?_
  refine Computation.keeps_bind (Computation.keeps_ofOption _ _) fun sn => ?_
  refine Computation.keeps_bind (Computation.keeps_get _) fun cache => ?_
  split_ifs
  · exact Computation.keeps_pure _ _
  · refine Computation.keeps_bind (Computation.keeps_modify (hupdate _)) fun _ => ?_
    refine Computation.keeps_bind (Computation.keeps_ofOption _ _) fun rsn => ?_
    exact Computation.keeps_modify (hupdate _)

/-- Adding a station does not throw and adds its number for its venue. -/
theorem addSerialNumber_station (venueId : Str) (s : Station) (cache : WifiClientCache) :
    (addSerialNumber venueId s.val cache).1 = some () ∧
      ∀ v n, n ∈ (addSerialNumber venueId s.val cache).2.sns v ↔
        n ∈ cache.sns v ∨ venueId = v ∧ s.number = n := by
  obtain ⟨hthrows, hsns, -⟩ := addSerialNumber_spec venueId s.val cache
  have hsome : (addSerialNumber venueId s.val cache).1.isSome = true :=
    hthrows.mpr ⟨s.number, s.stoull16_val, .inr (stoull16_isSome s.property.reverse)⟩
  refine ⟨?_, ?_⟩
  · obtain ⟨u, hu⟩ := Option.isSome_iff_exists.mp hsome
    exact hu
  · intro v n
    by_cases hv : venueId = v
    · subst hv
      rw [hsns n, s.stoull16_val, Option.some.injEq]
      simp
    · have hkept : (addSerialNumber venueId s.val cache).2 v = cache v :=
        keeps_addSerialNumber (Ne.symm hv) s.val (cache v) cache rfl
      simp [sns, hkept, hv]

end WifiClientCache

/-! ## The two procedures -/

/-- A row of the history table, the columns the cache is filled from. -/
structure HistoryRow where
  stationId : Station
  venueId : Str
deriving DecidableEq

/-- What `onTimer` does under the lock. -/
def replaceCache (macs : List HistoryRow) : Computation WifiClientCache Unit := do
  .modify fun _ _ => none
  .forEach macs fun mac => WifiClientCache.addSerialNumber mac.venueId mac.stationId.val

theorem sns_forEach_addSerialNumber (macs : List HistoryRow) (cache : WifiClientCache) (v : Str)
    (n : UInt64) :
    n ∈ ((Computation.forEach macs fun mac =>
        WifiClientCache.addSerialNumber mac.venueId mac.stationId.val) cache).2.sns v ↔
      n ∈ cache.sns v ∨ ∃ mac ∈ macs, mac.venueId = v ∧ mac.stationId.number = n := by
  induction macs generalizing cache with
  | nil => simp [Computation.forEach]
  | cons mac rest ih =>
      obtain ⟨hsome, hsns⟩ :=
        WifiClientCache.addSerialNumber_station mac.venueId mac.stationId cache
      rw [Computation.forEach, Computation.bind_of_some (Prod.ext hsome rfl), ih, hsns]
      simp only [List.mem_cons, exists_eq_or_imp, or_assoc]

/-- The new cache holds what was read. -/
theorem sns_replaceCache (macs : List HistoryRow) (cache : WifiClientCache) (v : Str)
    (n : UInt64) :
    n ∈ (replaceCache macs cache).2.sns v ↔
      ∃ mac ∈ macs, mac.venueId = v ∧ mac.stationId.number = n := by
  rw [replaceCache, Computation.bind_of_some (Computation.modify_apply _ _),
    sns_forEach_addSerialNumber]
  simp [WifiClientCache.sns]

/-- The history table, the cache, the association steps that have added their station and not yet
    created their record, and what a running `onTimer` has read. -/
structure CacheState where
  rows : List HistoryRow
  cache : WifiClientCache
  inProgress : List HistoryRow := []
  wifiClients : Option (List HistoryRow) := none

/-- The steps of the refresh, and of those who change the table and the cache meanwhile. -/
inductive CacheLabel
  /-- `onTimer` calls `GetClientMacs`, which returns the distinct pairs in some order; a read that
      fails ends the refresh. -/
  | getClientMacs (macs : List HistoryRow)
  /-- `onTimer` replaces the cache. -/
  | replaceCache
  | addSerialNumber (row : HistoryRow)
  /-- `CreateRecord`, which may fail. -/
  | createRecord (row : HistoryRow) (ok : Bool)

/-- A step, if it is enabled. -/
def CacheState.step (s : CacheState) : CacheLabel → Option CacheState
  | .getClientMacs macs =>
    if s.wifiClients = none ∧ macs.Nodup ∧ macs ⊆ s.rows ∧ s.rows ⊆ macs then
      some { s with wifiClients := some macs }
    else none
  | .replaceCache =>
    match s.wifiClients with
    | some macs =>
      some { s with cache := (Ap.replaceCache macs s.cache).2, wifiClients := none }
    | none => none
  | .addSerialNumber row =>
    some
      { s with
        cache := (WifiClientCache.addSerialNumber row.venueId row.stationId.val s.cache).2
        inProgress := row :: s.inProgress }
  | .createRecord row ok =>
    if row ∈ s.inProgress then
      some
        { s with
          rows := if ok then s.rows ++ [row] else s.rows
          inProgress := s.inProgress.erase row }
    else none

/-! ## What the cache covers -/

/-- The station is found for its venue, alone and in the list of the venue. -/
def Found (cache : WifiClientCache) (row : HistoryRow) : Prop :=
  cache.numberExists row.venueId row.stationId.number = true ∧
    ∀ howMany : UInt64, (cache.sns row.venueId).length ≤ howMany.toNat →
      ∃ a, cache.findNumbers row.venueId [] 0 howMany = some a ∧ row.stationId.number ∈ a

/-- While no association step is in progress, every row of the history table is found. -/
def CoversHistory (s : CacheState) : Prop :=
  s.inProgress = [] → ∀ row ∈ s.rows, Found s.cache row

/-- The same holds once the steps in progress have come to their end, whatever becomes of their
    records. -/
def Settles (s : CacheState) : Prop :=
  ∀ labels t, (∀ a ∈ labels, ∃ row ok, a = CacheLabel.createRecord row ok) →
    run CacheState.step s labels = some t → CoversHistory t

/-- The cache is only replaced by a list with every row of the history table and every row that
    is in progress, up to the letter case of the station. -/
def ReadsAll (s : CacheState) : CacheLabel → Prop
  | .replaceCache => ∀ macs, s.wifiClients = some macs →
      ∀ row ∈ s.rows ++ s.inProgress, ∃ mac ∈ macs, mac.venueId = row.venueId ∧
        mac.stationId.number = row.stationId.number
  | _ => True

/-- The number of every row, stored or in progress, is cached. -/
def Cached (s : CacheState) : Prop :=
  ∀ row ∈ s.rows ++ s.inProgress, row.stationId.number ∈ s.cache.sns row.venueId

theorem found_iff {cache : WifiClientCache} {row : HistoryRow} :
    Found cache row ↔ row.stationId.number ∈ cache.sns row.venueId := by
  unfold Found
  rw [WifiClientCache.numberExists_iff, and_iff_left_iff_imp]
  intro hmem howMany hlen
  exact ⟨_, WifiClientCache.findNumbers_all cache row.venueId hlen, hmem⟩

/-- A step that ends keeps the cache and the rows, stored or in progress. -/
theorem cached_createRecord {s t : CacheState} {row : HistoryRow} {ok : Bool} (h : Cached s)
    (hstep : s.step (.createRecord row ok) = some t) : Cached t := by
  simp only [CacheState.step, Option.ite_none_right_eq_some, Option.some.injEq] at hstep
  obtain ⟨hmem, rfl⟩ := hstep
  intro x hx
  apply h
  rcases List.mem_append.mp hx with hx | hx
  · cases ok with
    | false => exact List.mem_append_left _ hx
    | true =>
        rcases List.mem_append.mp hx with hx | hx
        · exact List.mem_append_left _ hx
        · obtain rfl := List.mem_singleton.mp hx
          exact List.mem_append_right _ hmem
  · exact List.mem_append_right _ (List.mem_of_mem_erase hx)

/-- All steps in progress can end with their record. -/
theorem run_createRecords (rows inProgress : List HistoryRow) (cache : WifiClientCache)
    (wifiClients : Option (List HistoryRow)) :
    run CacheState.step { rows, cache, inProgress, wifiClients }
        (inProgress.map fun row => .createRecord row true)
      = some { rows := rows ++ inProgress, cache, inProgress := [], wifiClients } := by
  induction inProgress generalizing rows with
  | nil => rw [List.append_nil]; rfl
  | cons row rest ih =>
      have hstep : CacheState.step { rows, cache, inProgress := row :: rest, wifiClients }
          (.createRecord row true)
            = some { rows := rows ++ [row], cache, inProgress := rest, wifiClients } := by
        simp [CacheState.step]
      rw [List.map_cons, run_cons hstep, ih, List.append_assoc]
      rfl

theorem cached_createRecords {labels : List CacheLabel} {s t : CacheState} (h : Cached s)
    (hlabels : ∀ a ∈ labels, ∃ row ok, a = CacheLabel.createRecord row ok)
    (hrun : run CacheState.step s labels = some t) : Cached t := by
  induction labels generalizing s with
  | nil =>
      obtain rfl := Option.some.inj hrun
      exact h
  | cons a rest ih =>
      obtain ⟨u, hstep, hrest⟩ := Option.bind_eq_some_iff.mp hrun
      rw [List.forall_mem_cons] at hlabels
      obtain ⟨⟨row, ok, rfl⟩, hlabels⟩ := hlabels
      exact ih (cached_createRecord h hstep) hlabels hrest

/-- The table is covered in the end exactly when every row, stored or in progress, is cached. -/
theorem settles_iff (s : CacheState) : Settles s ↔ Cached s := by
  refine ⟨?_, ?_⟩
  · intro h row hrow
    have hrun := run_createRecords s.rows s.inProgress s.cache s.wifiClients
    have hcovers := h _ _ (by simp) hrun rfl row hrow
    exact found_iff.mp hcovers
  · intro h labels t hlabels hrun _ row hrow
    have ht := cached_createRecords h hlabels hrun
    exact found_iff.mpr (ht row (List.mem_append_left _ hrow))

theorem Settles.coversHistory {s : CacheState} (h : Settles s) : CoversHistory s :=
  h [] s (by simp) rfl

/-! ## Runs -/

/-- A step uncovers a row exactly when it replaces the cache by a list without it. -/
theorem cached_step {s s' : CacheState} {a : CacheLabel} (h : Cached s)
    (hstep : s.step a = some s') : Cached s' ↔ ReadsAll s a := by
  cases a with
  | getClientMacs macs =>
      simp only [CacheState.step, Option.ite_none_right_eq_some, Option.some.injEq] at hstep
      obtain ⟨-, rfl⟩ := hstep
      exact iff_of_true h trivial
  | replaceCache =>
      simp only [CacheState.step] at hstep
      cases hmacs : s.wifiClients with
      | none =>
          rw [hmacs] at hstep
          cases hstep
      | some macs =>
          rw [hmacs] at hstep
          obtain rfl := Option.some.inj hstep
          -- The list replaces all that was cached, so it has to hold every station itself.
          simp only [Cached, ReadsAll, sns_replaceCache, hmacs, Option.some.injEq,
            forall_eq']
  | addSerialNumber row =>
      obtain rfl := Option.some.inj hstep
      refine iff_of_true ?_ trivial
      have hsns := (WifiClientCache.addSerialNumber_station row.venueId row.stationId s.cache).2
      intro x hx
      rw [hsns]
      rcases List.mem_append.mp hx with hx | hx
      · exact .inl (h x (List.mem_append_left _ hx))
      · rcases List.mem_cons.mp hx with rfl | hx
        · exact .inr ⟨rfl, rfl⟩
        · exact .inl (h x (List.mem_append_right _ hx))
  | createRecord row ok => exact iff_of_true (cached_createRecord h hstep) trivial

/-- A run leaves every row of the history table found, whenever the steps in progress have come to
    their end, exactly when it starts so and every refresh has read all it replaces; then every
    row is found in each state of the run with no step in progress. -/
theorem covers_history_iff (start : CacheState) (labels : List CacheLabel) :
    (Throughout CacheState.step Settles start labels ↔
      Settles start ∧ Along CacheState.step ReadsAll start labels) ∧
    (Settles start → Along CacheState.step ReadsAll start labels →
      Throughout CacheState.step CoversHistory start labels) := by
  have hiff : Settles start → (Throughout CacheState.step Settles start labels ↔
      Along CacheState.step ReadsAll start labels) := by
    intro hstart
    refine throughout_iff_along (fun s a s' hs hstep => ?_) hstart labels
    rw [settles_iff] at hs ⊢
    exact cached_step hs hstep
  refine ⟨⟨?_, ?_⟩, ?_⟩
  · intro h
    exact ⟨h.head, (hiff h.head).mp h⟩
  · rintro ⟨hstart, halong⟩
    exact (hiff hstart).mpr halong
  · intro hstart halong
    exact ((hiff hstart).mpr halong).mono fun _ => Settles.coversHistory

/-! ## A lost station -/

/-- The first station of a venue. -/
def firstStation : HistoryRow where
  stationId := ⟨"aabbccddee01".toList, rfl, by simp [hexDigit?]⟩
  venueId := "v".toList

/-- The station is added between the read and the replacement, and its record created after it. -/
def addedInBetween : List CacheLabel :=
  [.getClientMacs [], .addSerialNumber firstStation, .replaceCache,
    .createRecord firstStation true]

/-- The record is stored, and the station is not in the cache. -/
theorem station_lost_by_refresh :
    ¬ ∀ labels : List CacheLabel, Throughout CacheState.step CoversHistory
      { rows := [], cache := fun _ => none } labels := by
  intro h
  have houtcome : (run CacheState.step { rows := [], cache := fun _ => none } addedInBetween).map
        (fun s => (s.rows, s.inProgress, s.cache.sns "v".toList))
      = some ([firstStation], [], []) := by
    decide +kernel
  obtain ⟨s, hrun, hs⟩ := Option.map_eq_some_iff.mp houtcome
  simp only [Prod.mk.injEq] at hs
  obtain ⟨hrows, hquiet, hcache⟩ := hs
  have hcovers : CoversHistory s := by
    have hall := h (addedInBetween ++ [])
    exact hall.of_run hrun
  have hfound := hcovers hquiet firstStation (by simp [hrows])
  rw [found_iff] at hfound
  have hvenue : firstStation.venueId = "v".toList := rfl
  rw [hvenue, hcache] at hfound
  cases hfound

end OwAnalytics.Ap
