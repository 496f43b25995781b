/-
  OwAnalytics.Ap.CacheExceptions

  What `WifiClientCache` is left with when the text of a station is not a number.  The
  text is read twice, forwards before the numbers of the venue are changed and
  backwards after that, so a text that is read forwards only leaves a number without
  its reversal.  A rebuild ends at the first station that throws, and the stations
  after it in the list are not cached.
-/

import OwAnalytics.Ap.CacheIndex

namespace OwAnalytics.Ap

open Throwing PairedIndex
open Venue (stoull16)

namespace WifiClientCache

/-! ## What an operation ought to leave -/

/-- In every venue `Reverse` takes the numbers to those read backwards one to one. -/
def Bijective (cache : WifiClientCache) : Prop :=
  ∀ v, Paired reverse (cache.sns v) (cache.reverseSns v)

/-- The operation completes with the lists in bijection, or throws and leaves the cache as it
    was. -/
def Safe (x : Computation WifiClientCache Unit) (cache : WifiClientCache) : Prop :=
  match x cache with
  | (some (), cache') => cache'.Bijective
  | (none, cache') => cache' = cache

/-- The text is a number, forwards and backwards. -/
def Readable (s : Str) : Prop := (stoull16 s).isSome = true ∧ (stoull16 s.reverse).isSome = true

/-- A rebuild caches every readable station of its list. -/
def KeepsStations (wifiClients : List (Str × Str)) (cache : WifiClientCache) : Prop :=
  ∀ mac ∈ wifiClients, Readable mac.1 → ∀ n, stoull16 mac.1 = some n →
    n ∈ (onTimer (some wifiClients) cache).2.sns mac.2

/-! ## When it does -/

/-- A text that is not a number finds the venue there; a new number is reversed as its text is,
    and no other number of the venue has that reversal. -/
def AddReads (cache : WifiClientCache) (venueId s : Str) : Prop :=
  match stoull16 s with
  | none => cache venueId ≠ none
  | some n =>
    n ∈ cache.sns venueId ∨
      stoull16 s.reverse = some (reverse n) ∧ reverse n ∉ cache.reverseSns venueId

/-- A number of the venue is reversed as its text is. -/
def DeleteReads (cache : WifiClientCache) (venueId s : Str) : Prop :=
  ∀ n, stoull16 s = some n → n ∈ cache.sns venueId → stoull16 s.reverse = some (reverse n)

/-- The list has the number for the venue. -/
def Gives (wifiClients : List (Str × Str)) (v : Str) (n : UInt64) : Prop :=
  ∃ mac ∈ wifiClients, mac.2 = v ∧ stoull16 mac.1 = some n

/-- After these the station throws. -/
def Stops (before : List (Str × Str)) (mac : Str × Str) : Prop :=
  match stoull16 mac.1 with
  | none => True
  | some n => ¬ Gives before mac.2 n ∧ stoull16 mac.1.reverse = none

/-- Where a station throws, the readable stations after it have the number of one before it, or
    its own, in their venue. -/
def RebuildReads (wifiClients : List (Str × Str)) : Prop :=
  ∀ before bad after, wifiClients = before ++ bad :: after → Stops before bad →
    ∀ mac ∈ after, Readable mac.1 → ∀ n, stoull16 mac.1 = some n →
      Gives (before ++ [bad]) mac.2 n

/-! ## One operation -/

variable {cache : WifiClientCache} {venueId s : Str}

theorem update_id_eq_self_iff : cache.update venueId id = cache ↔ cache venueId ≠ none := by
  refine ⟨?_, ?_⟩
  · intro heq hnone
    have hsome := congrFun heq venueId
    rw [update, Function.update_self, hnone] at hsome
    cases hsome
  · intro hsome
    obtain ⟨c, hc⟩ := Option.ne_none_iff_exists'.mp hsome
    exact update_self hc

/-- The bijection is kept if the operation keeps it for the venue it is for. -/
theorem bijective_update_iff (h : cache.Bijective) (f : Cache → Cache) :
    (cache.update venueId f).Bijective ↔
      Paired reverse ((cache.update venueId f).sns venueId)
        ((cache.update venueId f).reverseSns venueId) := by
  refine ⟨fun hall => hall venueId, fun hvenue v => ?_⟩
  by_cases hv : v = venueId
  · exact hv ▸ hvenue
  · rw [sns, reverseSns, update_of_ne hv]
    exact h v

theorem safe_addSerialNumber_iff (h : cache.Bijective) (venueId s : Str) :
    Safe (addSerialNumber venueId s) cache ↔ AddReads cache venueId s := by
  unfold Safe AddReads
  cases hs : stoull16 s with
  | none =>
      rw [addSerialNumber_unread hs]
      exact update_id_eq_self_iff
  | some n =>
      by_cases hmem : n ∈ cache.sns venueId
      · rw [addSerialNumber_cached hs hmem]
        exact iff_of_true h (.inl hmem)
      · rw [addSerialNumber_new hs hmem]
        simp only [hmem, false_or]
        cases hr : stoull16 s.reverse with
        | none =>
            -- the number is there without its reversal
            refine iff_of_false (fun heq => hmem ?_) (fun hr => nomatch hr.1)
            have hsns := congrArg (sns · venueId) heq
            simp only [sns_update] at hsns
            rw [← hsns, mem_insert]
            exact .inl rfl
        | some r =>
            rw [Option.some.injEq]
            refine (bijective_update_iff h _).trans ?_
            rw [sns_update, reverseSns_update]
            refine ((h venueId).insert_iff hmem).trans (and_congr_right ?_)
            rintro rfl
            exact Iff.rfl

theorem safe_deleteSerialNumber_iff (h : cache.Bijective) (venueId s : Str) :
    Safe (deleteSerialNumber venueId s) cache ↔ DeleteReads cache venueId s := by
  unfold Safe DeleteReads
  cases hs : stoull16 s with
  | none =>
      rw [deleteSerialNumber_unread hs]
      exact iff_of_true rfl (fun n hn => nomatch hn)
  | some n =>
      by_cases hmem : n ∈ cache.sns venueId
      · rw [deleteSerialNumber_cached hs hmem]
        simp only [Option.some.injEq, forall_eq', hmem, true_imp_iff]
        cases hr : stoull16 s.reverse with
        | none =>
            -- the reversal cannot be read, and one of the vectors has lost the number already
            refine iff_of_false (fun heq => ?_) (fun hr => nomatch hr)
            have hsns := congrArg (sns · venueId) heq
            simp only [sns_update] at hsns
            rw [← hsns] at hmem
            exact ((h venueId).keys.nodup.mem_erase_iff.mp hmem).1 rfl
        | some r =>
            rw [Option.some.injEq]
            refine (bijective_update_iff h _).trans ?_
            rw [sns_update, reverseSns_update]
            exact (h venueId).erase_iff hmem
      · rw [deleteSerialNumber_absent hs hmem]
        -- a number that is not cached leaves both vectors as they are
        refine iff_of_true h fun m hm hin => ?_
        obtain rfl := Option.some.inj hm
        exact absurd hin hmem

/-! ## A rebuild -/

/-- The numbers of every venue after a text, thrown or not. -/
theorem mem_sns_addSerialNumber (venueId s : Str) (cache : WifiClientCache) (v : Str) (n : UInt64) :
    n ∈ (addSerialNumber venueId s cache).2.sns v ↔
      n ∈ cache.sns v ∨ venueId = v ∧ stoull16 s = some n := by
  by_cases hv : venueId = v
  · subst hv
    rw [(addSerialNumber_spec venueId s cache).2.1 n]
    simp
  · have hkept : (addSerialNumber venueId s cache).2 v = cache v :=
      keeps_addSerialNumber (Ne.symm hv) s (cache v) cache rfl
    simp [sns, hkept, hv]

theorem gives_concat {before : List (Str × Str)} {mac : Str × Str} {v : Str} {n : UInt64} :
    Gives (before ++ [mac]) v n ↔ Gives before v n ∨ mac.2 = v ∧ stoull16 mac.1 = some n := by
  simp [Gives, or_and_right, exists_or]

theorem Gives.mono {before before' : List (Str × Str)} {v : Str} {n : UInt64}
    (h : Gives before v n) (hsub : before ⊆ before') : Gives before' v n := by
  obtain ⟨mac, hmac, hgives⟩ := h
  exact ⟨mac, hsub hmac, hgives⟩

theorem Stops.not_readable {before : List (Str × Str)} {mac : Str × Str} (h : Stops before mac) :
    ¬ Readable mac.1 := by
  rintro ⟨hforwards, hbackwards⟩
  unfold Stops at h
  cases hs : stoull16 mac.1 with
  | none =>
      rw [hs] at hforwards
      cases hforwards
  | some n =>
      rw [hs] at h
      rw [h.2] at hbackwards
      cases hbackwards

/-- The numbers are those of the stations before, in their venues. -/
def Holds (cache : WifiClientCache) (before : List (Str × Str)) : Prop :=
  ∀ v n, n ∈ cache.sns v ↔ Gives before v n

theorem Holds.addSerialNumber {before : List (Str × Str)} (h : cache.Holds before)
    (mac : Str × Str) :
    (WifiClientCache.addSerialNumber mac.2 mac.1 cache).2.Holds (before ++ [mac]) := by
  intro v n
  rw [mem_sns_addSerialNumber, h v n, gives_concat]

theorem addSerialNumber_eq_none_iff {before : List (Str × Str)} (h : cache.Holds before)
    (mac : Str × Str) :
    (WifiClientCache.addSerialNumber mac.2 mac.1 cache).1 = none ↔ Stops before mac := by
  rw [← Option.not_isSome_iff_eq_none, (addSerialNumber_spec mac.2 mac.1 cache).1]
  unfold Stops
  cases hs : stoull16 mac.1 with
  | none => simp
  | some n => simp [h mac.2 n]

theorem keeps_mem_sns (wifiClients : List (Str × Str)) (v : Str) (n : UInt64) :
    Computation.Keeps (fun cache => n ∈ sns cache v)
      (.forEach wifiClients fun mac => addSerialNumber mac.2 mac.1) :=
  Computation.keeps_forEach fun mac _ cache hmem =>
    (mem_sns_addSerialNumber mac.2 mac.1 cache v n).mpr (.inl hmem)

/-- `RebuildReads`, for the stations of a list that others have come before. -/
def ReadsAfter (earlier wifiClients : List (Str × Str)) : Prop :=
  ∀ before bad after, wifiClients = before ++ bad :: after → Stops (earlier ++ before) bad →
    ∀ mac ∈ after, Readable mac.1 → ∀ n, stoull16 mac.1 = some n →
      Gives (earlier ++ before ++ [bad]) mac.2 n

section Cons

variable {earlier rest : List (Str × Str)} {x : Str × Str}

/-- Behind the first station that throws, it says the same of all that follow. -/
theorem readsAfter_cons_of_stops (hstops : Stops earlier x) :
    ReadsAfter earlier (x :: rest) ↔
      ∀ mac ∈ rest, Readable mac.1 → ∀ n, stoull16 mac.1 = some n →
        Gives (earlier ++ [x]) mac.2 n := by
  refine ⟨?_, ?_⟩
  · intro hreads mac hmac hreadable n hn
    have hgiven := hreads [] x rest rfl (by rwa [List.append_nil]) mac hmac hreadable n hn
    rwa [List.append_nil] at hgiven
  · intro hgiven before bad after heq _ mac hmac hreadable n hn
    -- a station that throws later on has the first one before it
    cases before with
    | nil =>
        obtain ⟨rfl, rfl⟩ := List.cons.inj heq
        rw [List.append_nil]
        exact hgiven mac hmac hreadable n hn
    | cons y before =>
        obtain ⟨rfl, rfl⟩ := List.cons.inj heq
        have hmem : mac ∈ before ++ bad :: after :=
          List.mem_append_right _ (List.mem_cons_of_mem _ hmac)
        rw [List.append_cons earlier x before, List.append_assoc]
        exact (hgiven mac hmem hreadable n hn).mono (List.subset_append_left _ _)

theorem readsAfter_cons_of_not_stops (hgoes : ¬ Stops earlier x) :
    ReadsAfter earlier (x :: rest) ↔ ReadsAfter (earlier ++ [x]) rest := by
  refine ⟨?_, ?_⟩
  · intro hreads before bad after heq hstops
    rw [← List.append_cons earlier x before] at hstops ⊢
    exact hreads (x :: before) bad after (by rw [heq]; rfl) hstops
  · intro hreads before bad after heq hstops
    cases before with
    | nil =>
        obtain ⟨rfl, -⟩ := List.cons.inj heq
        rw [List.append_nil] at hstops
        exact absurd hstops hgoes
    | cons y before =>
        obtain ⟨rfl, hrest⟩ := List.cons.inj heq
        rw [List.append_cons earlier x before] at hstops ⊢
        exact hreads before bad after hrest hstops

end Cons

/-- Stations that are added after others: all readable ones are cached in the end iff those behind
    one that throws have been given before. -/
theorem forEach_keeps_iff (wifiClients earlier : List (Str × Str)) {cache : WifiClientCache}
    (h : cache.Holds earlier) :
    (∀ mac ∈ wifiClients, Readable mac.1 → ∀ n, stoull16 mac.1 = some n →
        n ∈ ((Computation.forEach wifiClients fun mac => addSerialNumber mac.2 mac.1)
          cache).2.sns mac.2) ↔
      ReadsAfter earlier wifiClients := by
  induction wifiClients generalizing earlier cache with
  | nil =>
      refine iff_of_true (fun mac hmac => absurd hmac List.not_mem_nil) ?_
      rintro before bad after heq
      cases before <;> cases heq
  | cons x rest ih =>
      have hnext := h.addSerialNumber x
      have hiff := addSerialNumber_eq_none_iff h x
      rw [Computation.forEach]
      rcases Computation.bind_cases (addSerialNumber x.2 x.1)
          (fun _ => .forEach rest fun mac => addSerialNumber mac.2 mac.1) cache with
        ⟨cache', hx, hbind⟩ | ⟨u, cache', hx, hbind⟩
      · -- The loop ends here, and the station that throws is not a readable one.
        have hstops : Stops earlier x := hiff.mp (by rw [hx])
        rw [hx] at hnext
        simp only [hbind, hnext _ _]
        rw [readsAfter_cons_of_stops hstops, List.forall_mem_cons,
          and_iff_right fun hreadable => absurd hreadable hstops.not_readable]
      · -- The station is cached for good, and the loop goes on.
        have hgoes : ¬ Stops earlier x := by
          rw [← hiff, hx]
          exact Option.some_ne_none u
        rw [hx] at hnext
        simp only [hbind]
        have hkept : ∀ n, stoull16 x.1 = some n →
            n ∈ ((Computation.forEach rest fun mac => addSerialNumber mac.2 mac.1)
              cache').2.sns x.2 := fun n hn =>
          keeps_mem_sns rest x.2 n cache' ((hnext _ _).mpr (gives_concat.mpr (.inr ⟨rfl, hn⟩)))
        rw [readsAfter_cons_of_not_stops hgoes, List.forall_mem_cons, and_iff_right fun _ => hkept]
        exact ih (earlier ++ [x]) hnext

theorem keepsStations_iff (wifiClients : List (Str × Str)) (cache : WifiClientCache) :
    KeepsStations wifiClients cache ↔ RebuildReads wifiClients := by
  have hempty : Holds (fun _ => none) [] := by
    intro v n
    simp [sns, Gives]
  unfold KeepsStations
  rw [onTimer, Computation.bind_of_some (Computation.modify_apply _ _)]
  exact forEach_keeps_iff wifiClients [] hempty

/-- When a station is added to or deleted from a cache with its lists in bijection, these stay so
    or the cache is left as it was, and when a rebuild caches all readable stations. -/
theorem exceptions_keep_iff (cache : WifiClientCache) (h : cache.Bijective) (venueId s : Str)
    (wifiClients : List (Str × Str)) :
    (Safe (addSerialNumber venueId s) cache ↔ AddReads cache venueId s) ∧
      (Safe (deleteSerialNumber venueId s) cache ↔ DeleteReads cache venueId s) ∧
      (KeepsStations wifiClients cache ↔ RebuildReads wifiClients) :=
  ⟨safe_addSerialNumber_iff h venueId s, safe_deleteSerialNumber_iff h venueId s,
    keepsStations_iff wifiClients cache⟩

theorem bijective_empty : Bijective fun _ => none := fun _ => paired_nil

/-- An operation that completes safely leaves the lists in bijection. -/
theorem Safe.bijective {x : Computation WifiClientCache Unit} {cache : WifiClientCache}
    (h : Safe x cache) (hcompletes : (x cache).1 = some ()) : (x cache).2.Bijective := by
  have hx : x cache = (some (), (x cache).2) := Prod.ext hcompletes rfl
  rw [Safe, hx] at h
  exact h

/-- The cache with one station of a venue. -/
def cachedStation : WifiClientCache := (addSerialNumber ['v'] "aabbccddee01".toList fun _ => none).2

theorem bijective_cachedStation : cachedStation.Bijective := by
  have hread : stoull16 "aabbccddee01".toList = some 0xaabbccddee01 := by decide +kernel
  have hsafe := (safe_addSerialNumber_iff bijective_empty ['v'] "aabbccddee01".toList).mpr
    (by rw [AddReads, hread]; exact .inr ⟨by decide +kernel, by decide +kernel⟩)
  exact hsafe.bijective (by decide +kernel)

/-- With a station cached, another one is added and the cached one is deleted; but a rebuild does
    not cache the station that comes behind one that is not a number. -/
theorem exceptions_keep_cachedStation :
    Safe (addSerialNumber ['v'] "aabbccddee02".toList) cachedStation ∧
      Safe (deleteSerialNumber ['v'] "aabbccddee01".toList) cachedStation ∧
      ¬ KeepsStations [([], ['v']), ("aabbccddee01".toList, ['v'])] cachedStation := by
  have hkeep := exceptions_keep_iff cachedStation bijective_cachedStation ['v']
  have hadded : stoull16 "aabbccddee02".toList = some 0xaabbccddee02 := by decide +kernel
  have hcached : stoull16 "aabbccddee01".toList = some 0xaabbccddee01 := by decide +kernel
  refine ⟨(hkeep "aabbccddee02".toList []).1.mpr ?_, (hkeep "aabbccddee01".toList []).2.1.mpr ?_,
    fun hkeeps => ?_⟩
  · rw [AddReads, hadded]
    exact .inr ⟨by decide +kernel, by decide +kernel⟩
  · intro n hn _
    obtain rfl := Option.some.inj (hcached.symm.trans hn)
    decide +kernel
  · -- the station that throws comes first, and does not give the number of the other
    have hreads := (hkeep [] [([], ['v']), ("aabbccddee01".toList, ['v'])]).2.2.mp hkeeps
    obtain ⟨mac, hmac, -, hn⟩ := hreads [] ([], ['v']) [("aabbccddee01".toList, ['v'])] rfl
      trivial _ List.mem_cons_self ⟨by decide +kernel, by decide +kernel⟩ _ hcached
    rw [List.nil_append, List.mem_singleton] at hmac
    rw [hmac] at hn
    exact absurd hn (by decide +kernel)

/-! ## A station with a last character that is not a digit -/

/-- The number is inserted, and the text throws when it is read backwards. -/
theorem number_without_reversal :
    ¬ ∀ (cache : WifiClientCache) (venueId s : Str) (wifiClients : List (Str × Str)),
      cache.Bijective →
        Safe (addSerialNumber venueId s) cache ∧ Safe (deleteSerialNumber venueId s) cache ∧
          KeepsStations wifiClients cache := by
  intro h
  have hsafe := (h (fun _ => none) ['v'] "aabbccddee0z".toList [] bijective_empty).1
  have hthrows : (addSerialNumber ['v'] "aabbccddee0z".toList fun _ => none).1 = none := by
    decide +kernel
  have hleft : (addSerialNumber ['v'] "aabbccddee0z".toList fun _ => none).2.sns ['v'] =
      [0xaabbccddee0] := by
    decide +kernel
  rw [Safe, Prod.ext hthrows rfl] at hsafe
  rw [show (addSerialNumber ['v'] "aabbccddee0z".toList fun _ => none).2 = fun _ => none from hsafe]
    at hleft
  cases hleft

end WifiClientCache

end OwAnalytics.Ap
