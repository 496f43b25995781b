/-
  OwAnalytics.Ap.CacheIndex

  The two lists `WifiClientCache` keeps for a venue: the numbers of its stations, and
  the numbers read backwards for the lookups by the end of a station.  The second is
  filled from the text of a station and searched by numbers that `Reverse` turns
  round, and for stations of twelve digits the two agree.
-/

import OwAnalytics.Ap.CacheRefresh
import OwAnalytics.Lib.PairedIndex

namespace OwAnalytics.Ap

open Throwing PairedIndex
open Venue (hexDigit? hexPrefix stoull16)

/-! ## The operations -/

namespace WifiClientCache

/-- `DeleteSerialNumber`; a text that does not begin with a number throws, and so does the text
    of a cached number that does not begin with one when it is read backwards. -/
def deleteSerialNumber (venueId s : Str) : Computation WifiClientCache Unit := do
  let sn ← .ofOption (stoull16 s)
  let cache ← .get
  match cache venueId with
  | none => pure ()
  | some c =>
    if sn ∈ c.sns then
      .modify fun cache => cache.update venueId fun c => { c with sns := c.sns.erase sn }
      let rsn ← .ofOption (stoull16 s.reverse)
      .modify fun cache => cache.update venueId fun c =>
        { c with reverseSns := c.reverseSns.erase rsn }
    else pure ()

/-- `onTimer`, with the stations and venues that `GetClientMacs` returns unless it fails. -/
def onTimer : Option (List (Str × Str)) → Computation WifiClientCache Unit
  | none => pure ()
  | some wifiClients => do
    .modify fun _ _ => none
    .forEach wifiClients fun mac => addSerialNumber mac.2 mac.1

variable {cache : WifiClientCache} {venueId s : Str} {n : UInt64}

theorem update_self {c : Cache} (h : cache venueId = some c) : cache.update venueId id = cache := by
  rw [update, h]
  exact Function.update_eq_self_iff.mpr h.symm

theorem update_update (f g : Cache → Cache) :
    (cache.update venueId f).update venueId g = cache.update venueId fun c => g (f c) := by
  simp [update]

theorem exists_of_mem_sns (h : n ∈ cache.sns venueId) :
    ∃ c, cache venueId = some c ∧ n ∈ c.sns := by
  rw [sns] at h
  cases hcache : cache venueId with
  | none =>
      rw [hcache] at h
      cases h
  | some c =>
      rw [hcache] at h
      exact ⟨c, rfl, h⟩

/-! What `AddSerialNumber` does, case by case. -/

/-- Before the text is read, the venue gets its lists. -/
theorem addSerialNumber_unread (h : stoull16 s = none) :
    addSerialNumber venueId s cache = (none, cache.update venueId id) := by
  rw [addSerialNumber, Computation.bind_of_some (Computation.modify_apply _ _),
    Computation.bind_of_none (by rw [Computation.ofOption_apply, h])]

theorem addSerialNumber_cached (h : stoull16 s = some n) (hmem : n ∈ cache.sns venueId) :
    addSerialNumber venueId s cache = (some (), cache) := by
  obtain ⟨c, hc, hn⟩ := exists_of_mem_sns hmem
  have hin : n ∈ ((cache venueId).getD {}).sns := hmem
  rw [addSerialNumber, Computation.bind_of_some (Computation.modify_apply _ _), update_self hc,
    Computation.bind_of_some (by rw [Computation.ofOption_apply, h]),
    Computation.bind_of_some (Computation.get_apply _), if_pos hin, Computation.pure_apply]

/-- A new number is inserted before its text is read backwards. -/
theorem addSerialNumber_new (h : stoull16 s = some n) (hnew : n ∉ cache.sns venueId) :
    addSerialNumber venueId s cache =
      match stoull16 s.reverse with
      | none => (none, cache.update venueId fun c => { c with sns := insert n c.sns })
      | some r =>
        (some (), cache.update venueId fun c =>
          { c with sns := insert n c.sns, reverseSns := insert r c.reverseSns }) := by
  have hout : n ∉ ((cache.update venueId id venueId).getD {}).sns := by
    simpa [sns] using hnew
  rw [addSerialNumber, Computation.bind_of_some (Computation.modify_apply _ _),
    Computation.bind_of_some (by rw [Computation.ofOption_apply, h]),
    Computation.bind_of_some (Computation.get_apply _), if_neg hout,
    Computation.bind_of_some (Computation.modify_apply _ _), update_update]
  cases hr : stoull16 s.reverse with
  | none => rw [Computation.bind_of_none (Computation.ofOption_apply _ _)]; rfl
  | some r =>
      rw [Computation.bind_of_some (Computation.ofOption_apply _ _), Computation.modify_apply,
        update_update]
      rfl

/-! What `DeleteSerialNumber` does, case by case. -/

theorem deleteSerialNumber_unread (h : stoull16 s = none) :
    deleteSerialNumber venueId s cache = (none, cache) := by
  rw [deleteSerialNumber, Computation.bind_of_none (by rw [Computation.ofOption_apply, h])]

theorem deleteSerialNumber_absent (h : stoull16 s = some n) (habsent : n ∉ cache.sns venueId) :
    deleteSerialNumber venueId s cache = (some (), cache) := by
  rw [deleteSerialNumber, Computation.bind_of_some (by rw [Computation.ofOption_apply, h]),
    Computation.bind_of_some (Computation.get_apply _)]
  cases hc : cache venueId with
  | none => rfl
  | some c =>
      have hout : n ∉ c.sns := by
        rwa [sns, hc] at habsent
      simp only [if_neg hout, Computation.pure_apply]

/-- A cached number is erased before its text is read backwards. -/
theorem deleteSerialNumber_cached (h : stoull16 s = some n) (hmem : n ∈ cache.sns venueId) :
    deleteSerialNumber venueId s cache =
      match stoull16 s.reverse with
      | none => (none, cache.update venueId fun c => { c with sns := c.sns.erase n })
      | some r =>
        (some (), cache.update venueId fun c =>
          { c with sns := c.sns.erase n, reverseSns := c.reverseSns.erase r }) := by
  obtain ⟨c, hc, hn⟩ := exists_of_mem_sns hmem
  rw [deleteSerialNumber, Computation.bind_of_some (by rw [Computation.ofOption_apply, h]),
    Computation.bind_of_some (Computation.get_apply _)]
  simp only [hc, if_pos hn]
  rw [Computation.bind_of_some (Computation.modify_apply _ _)]
  cases hr : stoull16 s.reverse with
  | none => rw [Computation.bind_of_none (Computation.ofOption_apply _ _)]
  | some r =>
      rw [Computation.bind_of_some (Computation.ofOption_apply _ _), Computation.modify_apply,
        update_update]

/-- The other venues are left alone. -/
theorem keeps_deleteSerialNumber {v : Str} (h : v ≠ venueId) (s : Str) (c : Option Cache) :
    Computation.Keeps (fun cache => cache v = c) (deleteSerialNumber venueId s) := by
  intro cache hcache
  cases hs : stoull16 s with
  | none => rwa [deleteSerialNumber_unread hs]
  | some n =>
      by_cases hmem : n ∈ cache.sns venueId
      · rw [deleteSerialNumber_cached hs hmem]
        have hother : ∀ f, cache.update venueId f v = c := fun f => (update_of_ne h f).trans hcache
        split <;> simp only [hother]
      · rwa [deleteSerialNumber_absent hs hmem]

theorem onTimer_rows (macs : List HistoryRow) :
    onTimer (some (macs.map fun mac => (mac.stationId.val, mac.venueId))) = replaceCache macs := by
  rw [onTimer, Computation.forEach_map]
  rfl

end WifiClientCache

/-! ## Reading backwards -/

theorem hexPrefix_append {s t : Str} (h : ∀ c ∈ s, (hexDigit? c).isSome = true) :
    hexPrefix (s ++ t) = hexPrefix s ++ hexPrefix t := by
  induction s with
  | nil => rfl
  | cons c rest ih =>
      rw [List.forall_mem_cons] at h
      obtain ⟨v, hv⟩ := Option.isSome_iff_exists.mp h.1
      rw [List.cons_append, hexPrefix, hexPrefix, hv, ih h.2, List.cons_append]

theorem hexPrefix_reverse {s : Str} (h : ∀ c ∈ s, (hexDigit? c).isSome = true) :
    hexPrefix s.reverse = (hexPrefix s).reverse := by
  induction s with
  | nil => rfl
  | cons c rest ih =>
      rw [List.forall_mem_cons] at h
      obtain ⟨v, hv⟩ := Option.isSome_iff_exists.mp h.1
      have hlast : hexPrefix [c] = [v] := by
        rw [hexPrefix, hv]
        rfl
      rw [List.reverse_cons, hexPrefix_append fun x hx => h.2 x (List.mem_reverse.mp hx), ih h.2,
        hlast, hexPrefix, hv, List.reverse_cons]

/-- The loop of `Reverse` puts the digits it takes from the number, last one first, after those it
    has. -/
theorem toNat_reverseLoop {us vs : List Nat} (hus : ∀ u ∈ us, u < 16) (hvs : ∀ v ∈ vs, v < 16)
    (hlength : us.length + vs.length ≤ 16) {res n : UInt64} (hres : res.toNat = hexValue us)
    (hn : n.toNat = hexValue vs) :
    (reverseLoop vs.length res n).toNat = hexValue (us ++ vs.reverse) := by
  induction vs using List.reverseRecOn generalizing us res n with
  | nil => rw [List.reverse_nil, List.append_nil, ← hres]; rfl
  | append_singleton vs v ih =>
      rw [List.forall_mem_append, List.forall_mem_singleton] at hvs
      rw [hexValue_concat] at hn
      rw [List.length_append, List.length_singleton] at hlength ⊢
      have hv := hvs.2
      have hrest : (n >>> 4).toNat = hexValue vs := by
        rw [toNat_shiftRight_four]
        omega
      have hdigit : (n &&& 0xf).toNat = v := by
        rw [UInt64.toNat_and, show (0xf : UInt64).toNat = 2 ^ 4 - 1 from rfl,
          Nat.and_two_pow_sub_one_eq_mod]
        omega
      -- there is room for one more digit
      have hroom : 16 * hexValue us + v < 2 ^ 64 := by
        have hlt := hexValue_lt hus
        have hle : 16 ^ us.length ≤ 16 ^ 15 := Nat.pow_le_pow_right (by decide) (by omega)
        omega
      have hshift : (res <<< 4).toNat = 16 * hexValue us := by
        rw [UInt64.toNat_shiftLeft, show (4 : UInt64).toNat % 64 = 4 from rfl,
          Nat.shiftLeft_eq, hres, Nat.mod_eq_of_lt (by omega)]
        omega
      have hnext : ((res <<< 4) + (n &&& 0xf)).toNat = hexValue (us ++ [v]) := by
        rw [UInt64.toNat_add, hshift, hdigit, Nat.mod_eq_of_lt (by omega), hexValue_concat]
      have hus' : ∀ u ∈ us ++ [v], u < 16 := by
        rw [List.forall_mem_append, List.forall_mem_singleton]
        exact ⟨hus, hv⟩
      rw [reverseLoop, ih hus' hvs.1 (by rw [List.length_append, List.length_singleton]; omega)
        hnext hrest, List.reverse_append, List.reverse_singleton, List.append_assoc]

theorem hexValue_append (us vs : List Nat) :
    hexValue (us ++ vs) = 16 ^ vs.length * hexValue us + hexValue vs := by
  induction vs using List.reverseRecOn with
  | nil => simp [hexValue]
  | append_singleton vs v ih =>
      rw [← List.append_assoc, hexValue_concat, ih, hexValue_concat, List.length_append,
        List.length_singleton, Nat.pow_succ]
      ring

theorem hexValue_zeros (k : Nat) : hexValue (List.replicate k 0) = 0 := by
  induction k with
  | zero => rfl
  | succ k ih => rw [List.replicate_succ', hexValue_concat, ih]

theorem hexValue_zeros_append (k : Nat) (vs : List Nat) :
    hexValue (List.replicate k 0 ++ vs) = hexValue vs := by
  rw [hexValue_append, hexValue_zeros, Nat.mul_zero, Nat.zero_add]

/-- `Reverse` turns round the last twelve digits of a number. -/
theorem reverse_eq {us vs : List Nat} (hus : ∀ u ∈ us, u < 16) (hvs : ∀ v ∈ vs, v < 16)
    (hlength : us.length = 4 ∧ vs.length = 12) {n : UInt64} (hn : n.toNat = hexValue (us ++ vs)) :
    reverse n = UInt64.ofNat (hexValue vs.reverse) := by
  have hloop : (reverseLoop (us ++ vs).length 0 n).toNat = hexValue ([] ++ (us ++ vs).reverse) := by
    refine toNat_reverseLoop (by simp) ?_ (by simp [hlength]) rfl hn
    rw [List.forall_mem_append]
    exact ⟨hus, hvs⟩
  have hfirst := hexValue_lt fun u hu => hus u (List.mem_reverse.mp hu)
  have hlast := toNat_ofNat_hexValue (fun v hv => hvs v (List.mem_reverse.mp hv))
    (List.length_reverse.trans hlength.2)
  rw [List.length_reverse, hlength.1] at hfirst
  -- the first digits come out behind the others, and the shift drops them
  rw [List.nil_append, List.reverse_append, hexValue_append, List.length_reverse, hlength.1,
    List.length_append, hlength.1, hlength.2] at hloop
  rw [← UInt64.toNat_inj, reverse, UInt64.toNat_shiftRight, hloop,
    show (16 : UInt64).toNat % 64 = 16 from rfl, Nat.shiftRight_eq_div_pow, hlast]
  omega

/-- `Reverse` turns round twelve digits. -/
theorem reverse_hexValue {vs : List Nat} (h : ∀ v ∈ vs, v < 16) (hlength : vs.length = 12) :
    reverse (UInt64.ofNat (hexValue vs)) = UInt64.ofNat (hexValue vs.reverse) := by
  have hzeros : ∀ u ∈ List.replicate 4 0, u < 16 := by decide
  refine reverse_eq hzeros h ⟨List.length_replicate, hlength⟩ ?_
  rw [hexValue_zeros_append, toNat_ofNat_hexValue h hlength]

namespace Station

/-- The station read from its end to its beginning. -/
def backwards (s : Station) : Station := ⟨s.val.reverse, s.property.reverse⟩

@[simp] theorem backwards_backwards (s : Station) : s.backwards.backwards = s :=
  Subtype.ext (List.reverse_reverse s.val)

theorem number_eq (s : Station) : s.number = UInt64.ofNat (hexValue (hexPrefix s.val)) :=
  Option.some.inj (s.stoull16_val.symm.trans (stoull16_station s.property).2)

/-- `Reverse` and the text read backwards agree. -/
theorem number_backwards (s : Station) : s.backwards.number = reverse s.number := by
  have hlength : (hexPrefix s.val).length = 12 :=
    (length_hexPrefix s.property.2).trans s.property.1
  have hdigits : hexPrefix s.backwards.val = (hexPrefix s.val).reverse :=
    hexPrefix_reverse s.property.2
  rw [number_eq, number_eq, hdigits, reverse_hexValue (hexPrefix_lt s.val) hlength]

theorem stoull16_reverse (s : Station) : stoull16 s.val.reverse = some (reverse s.number) :=
  s.number_backwards ▸ s.backwards.stoull16_val

theorem reverse_reverse_number (s : Station) : reverse (reverse s.number) = s.number := by
  rw [← s.number_backwards, ← s.backwards.number_backwards, backwards_backwards]

end Station

/-! ## The index of a venue -/

/-- The operations of the cache, with the stations they are given. -/
inductive CacheOperation
  | addSerialNumber (venueId : Str) (s : Station)
  | deleteSerialNumber (venueId : Str) (s : Station)
  | onTimer (wifiClients : Option (List HistoryRow))

namespace CacheOperation

/-- The operation on the cache. -/
def run : CacheOperation → Computation WifiClientCache Unit
  | .addSerialNumber venueId s => WifiClientCache.addSerialNumber venueId s.val
  | .deleteSerialNumber venueId s => WifiClientCache.deleteSerialNumber venueId s.val
  | .onTimer wifiClients =>
    WifiClientCache.onTimer (wifiClients.map fun macs =>
      macs.map fun mac => (mac.stationId.val, mac.venueId))

/-- The operation adds the number to the venue. -/
def Adds : CacheOperation → Str × UInt64 → Prop
  | .addSerialNumber venueId s, (v, n) => venueId = v ∧ s.number = n
  | .deleteSerialNumber _ _, _ => False
  | .onTimer wifiClients, (v, n) =>
    ∃ macs, wifiClients = some macs ∧ ∃ mac ∈ macs, mac.venueId = v ∧ mac.stationId.number = n

/-- The operation deletes the number from the venue; a rebuild deletes all that was there. -/
def Deletes : CacheOperation → Str × UInt64 → Prop
  | .addSerialNumber _ _, _ => False
  | .deleteSerialNumber venueId s, (v, n) => venueId = v ∧ s.number = n
  | .onTimer wifiClients, _ => wifiClients ≠ none

end CacheOperation

/-- The numbers of every venue are those of stations, and listed with their reversals. -/
structure WifiClientCache.Indexed (cache : WifiClientCache) : Prop where
  paired : ∀ v, Paired reverse (cache.sns v) (cache.reverseSns v)
  station : ∀ v, ∀ n ∈ cache.sns v, ∃ s : Station, s.number = n

namespace WifiClientCache

theorem Indexed.reverse_reverse {cache : WifiClientCache} (h : cache.Indexed) {v : Str} {n : UInt64}
    (hn : n ∈ cache.sns v) : reverse (reverse n) = n := by
  obtain ⟨s, rfl⟩ := h.station v n hn
  exact s.reverse_reverse_number

theorem indexed_empty : Indexed fun _ => none where
  paired := fun _ => paired_nil
  station := fun _ _ hn => absurd hn (List.not_mem_nil)

/-- What is done to one venue leaves the index of the others. -/
theorem Indexed.of_venue {cache cache' : WifiClientCache} (h : cache.Indexed) {venueId : Str}
    (hother : ∀ v, v ≠ venueId → cache' v = cache v)
    (hpaired : Paired reverse (cache'.sns venueId) (cache'.reverseSns venueId))
    (hstation : ∀ n ∈ cache'.sns venueId, ∃ s : Station, s.number = n) : cache'.Indexed where
  paired := by
    intro v
    by_cases hv : v = venueId
    · exact hv ▸ hpaired
    · rw [sns, reverseSns, hother v hv]
      exact h.paired v
  station := by
    intro v
    by_cases hv : v = venueId
    · exact hv ▸ hstation
    · rw [sns, hother v hv]
      exact h.station v

theorem indexed_addSerialNumber (venueId : Str) (s : Station) :
    Computation.Keeps Indexed (addSerialNumber venueId s.val) := by
  intro cache h
  have hother : ∀ v, v ≠ venueId → (addSerialNumber venueId s.val cache).2 v = cache v :=
    fun v hv => keeps_addSerialNumber hv s.val (cache v) cache rfl
  have hsns := (addSerialNumber_station venueId s cache).2 venueId
  refine h.of_venue hother ?_ fun n hn => ?_
  · by_cases hmem : s.number ∈ cache.sns venueId
    · rw [addSerialNumber_cached s.stoull16_val hmem]
      exact h.paired venueId
    · -- the reversal is new, or its number would be there already
      have hnew : reverse s.number ∉ cache.reverseSns venueId := by
        intro hr
        obtain ⟨n, hn, heq⟩ := (h.paired venueId).mem_images_iff.mp hr
        rw [← s.reverse_reverse_number, ← heq, h.reverse_reverse hn] at hmem
        exact hmem hn
      rw [addSerialNumber_new s.stoull16_val hmem, s.stoull16_reverse, sns_update,
        reverseSns_update]
      exact ((h.paired venueId).insert_iff hmem).mpr ⟨rfl, hnew⟩
  · rcases (hsns n).mp hn with hn | ⟨-, rfl⟩
    · exact h.station venueId n hn
    · exact ⟨s, rfl⟩

/-- Deleting a station does not throw and deletes its number from its venue. -/
theorem deleteSerialNumber_station (venueId : Str) (s : Station) {cache : WifiClientCache}
    (h : cache.Indexed) :
    (deleteSerialNumber venueId s.val cache).1 = some () ∧
      (∀ v n, n ∈ (deleteSerialNumber venueId s.val cache).2.sns v ↔
        n ∈ cache.sns v ∧ ¬ (venueId = v ∧ s.number = n)) ∧
      (deleteSerialNumber venueId s.val cache).2.Indexed := by
  by_cases hmem : s.number ∈ cache.sns venueId
  · have hcached := deleteSerialNumber_cached s.stoull16_val hmem
    rw [s.stoull16_reverse] at hcached
    have hother : ∀ v, v ≠ venueId → (deleteSerialNumber venueId s.val cache).2 v = cache v :=
      fun v hv => keeps_deleteSerialNumber hv s.val (cache v) cache rfl
    -- both vectors lose the entry at one place, so they stay paired
    have hpaired := ((h.paired venueId).erase_iff hmem).mpr rfl
    have hsns : (deleteSerialNumber venueId s.val cache).2.sns venueId =
        (cache.sns venueId).erase s.number := by
      rw [hcached, sns_update]
      rfl
    have herased : ∀ n, n ∈ (cache.sns venueId).erase s.number ↔
        n ≠ s.number ∧ n ∈ cache.sns venueId :=
      fun n => (h.paired venueId).keys.nodup.mem_erase_iff
    refine ⟨by rw [hcached], fun v n => ?_, h.of_venue hother ?_ fun n hn => ?_⟩
    · by_cases hv : v = venueId
      · subst hv
        rw [hsns, herased]
        simp [and_comm, eq_comm]
      · rw [sns, hother v hv]
        simp [sns, Ne.symm hv]
    · rw [hcached, sns_update, reverseSns_update]
      exact hpaired
    · rw [hsns, herased] at hn
      exact h.station venueId n hn.2
  · rw [deleteSerialNumber_absent s.stoull16_val hmem]
    refine ⟨rfl, fun v n => ?_, h⟩
    rw [iff_self_and]
    rintro hn ⟨rfl, rfl⟩
    exact hmem hn

theorem indexed_replaceCache (macs : List HistoryRow) (cache : WifiClientCache) :
    (replaceCache macs cache).1 = some () ∧ (replaceCache macs cache).2.Indexed := by
  rw [replaceCache, Computation.bind_of_some (Computation.modify_apply _ _)]
  refine ⟨?_, ?_⟩
  · generalize (fun _ => none : WifiClientCache) = start
    induction macs generalizing start with
    | nil => rfl
    | cons mac rest ih =>
        have hsome := (addSerialNumber_station mac.venueId mac.stationId start).1
        rw [Computation.forEach, Computation.bind_of_some (Prod.ext hsome rfl), ih]
  · exact Computation.keeps_forEach (fun mac _ => indexed_addSerialNumber _ _) _ indexed_empty

/-- An operation goes through, and keeps the index; its numbers are added and deleted. -/
theorem indexed_run (op : CacheOperation) {cache : WifiClientCache} (h : cache.Indexed) :
    (op.run cache).1 = some () ∧ (op.run cache).2.Indexed ∧
      ∀ v n, n ∈ (op.run cache).2.sns v ↔
        op.Adds (v, n) ∨ n ∈ cache.sns v ∧ ¬ op.Deletes (v, n) := by
  cases op with
  | addSerialNumber venueId s =>
      obtain ⟨hsome, hsns⟩ := addSerialNumber_station venueId s cache
      refine ⟨hsome, indexed_addSerialNumber venueId s cache h, fun v n => (hsns v n).trans ?_⟩
      simp [CacheOperation.Adds, CacheOperation.Deletes, or_comm]
  | deleteSerialNumber venueId s =>
      obtain ⟨hsome, hsns, hindexed⟩ := deleteSerialNumber_station venueId s h
      refine ⟨hsome, hindexed, fun v n => (hsns v n).trans ?_⟩
      simp [CacheOperation.Adds, CacheOperation.Deletes]
  | onTimer wifiClients =>
      cases wifiClients with
      | none =>
          refine ⟨rfl, h, fun v n => ?_⟩
          simp [CacheOperation.run, CacheOperation.Adds, CacheOperation.Deletes, onTimer]
      | some macs =>
          -- the rows could be read: the cache is made of them alone
          have hrun : (CacheOperation.onTimer (some macs)).run = replaceCache macs :=
            onTimer_rows macs
          obtain ⟨hsome, hindexed⟩ := indexed_replaceCache macs cache
          rw [hrun]
          refine ⟨hsome, hindexed, fun v n => (sns_replaceCache macs cache v n).trans ?_⟩
          simp [CacheOperation.Adds, CacheOperation.Deletes]

/-- No operation of a run throws, and the numbers of a venue are those added and not since
    deleted. -/
theorem indexed_forEach (ops : List CacheOperation) :
    ∃ cache, Computation.forEach ops CacheOperation.run (fun _ => none) = (some (), cache) ∧
      cache.Indexed ∧
      ∀ v n, n ∈ cache.sns v ↔
        AddedSince CacheOperation.Adds CacheOperation.Deletes ops (v, n) := by
  induction ops using List.reverseRecOn with
  | nil =>
      refine ⟨_, rfl, indexed_empty, fun v n => iff_of_false List.not_mem_nil ?_⟩
      exact not_addedSince_nil
  | append_singleton ops op ih =>
      obtain ⟨cache, hrun, hindexed, hsns⟩ := ih
      obtain ⟨hsome, hindexed', hsns'⟩ := indexed_run op hindexed
      refine ⟨(op.run cache).2, ?_, hindexed', fun v n => ?_⟩
      · rw [Computation.forEach_append hrun, Computation.forEach,
          Computation.bind_of_some (Prod.ext hsome rfl)]
        rfl
      · rw [hsns', hsns, addedSince_concat_iff]

end WifiClientCache

/-- After every run of the operations, none of which throws, the numbers of a venue are ascending,
    their reversals are ascending and just those of the numbers, and the numbers are those added
    to the venue and not since deleted; an operation leaves the venues it is not for alone. -/
theorem cache_kept (ops : List CacheOperation) :
    ∃ cache : WifiClientCache,
      Computation.forEach ops CacheOperation.run (fun _ => none) = (some (), cache) ∧
      (∀ v, Ascending (cache.sns v) ∧ Ascending (cache.reverseSns v) ∧
        (∀ m, m ∈ cache.reverseSns v ↔ ∃ n ∈ cache.sns v, reverse n = m) ∧
        ∀ n, n ∈ cache.sns v ↔
          AddedSince CacheOperation.Adds CacheOperation.Deletes ops (v, n)) ∧
      ∀ (venueId v : Str) (s : Station), v ≠ venueId →
        ((CacheOperation.addSerialNumber venueId s).run cache).2 v = cache v ∧
          ((CacheOperation.deleteSerialNumber venueId s).run cache).2 v = cache v := by
  obtain ⟨cache, hrun, hindexed, hsns⟩ := WifiClientCache.indexed_forEach ops
  refine ⟨cache, hrun, fun v => ?_, fun venueId v s hv => ⟨?_, ?_⟩⟩
  · have hpaired := hindexed.paired v
    exact ⟨hpaired.keys, hpaired.images, fun m => hpaired.mem_images_iff, hsns v⟩
  · exact WifiClientCache.keeps_addSerialNumber hv s.val (cache v) cache rfl
  · exact WifiClientCache.keeps_deleteSerialNumber hv s.val (cache v) cache rfl

end OwAnalytics.Ap
