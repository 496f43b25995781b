/-
  OwAnalytics.Ap.Cache

  `WifiClientCache`: for each venue the numbers of the stations seen there, and the
  numbers their texts give when read backwards, in order.
-/

import OwAnalytics.Lib.Throwing
import OwAnalytics.Objects
import OwAnalytics.Venue.Messages

namespace OwAnalytics.Ap

open Throwing
open Venue (stoull16)

/-- `WifiClientCache::Cache`. -/
structure Cache where
  sns : List UInt64 := []
  reverseSns : List UInt64 := []
deriving DecidableEq

/-- `Cache_`. -/
abbrev WifiClientCache := Str → Option Cache

namespace WifiClientCache

/-- The entry of a venue is changed, and made if there is none. -/
def update (cache : WifiClientCache) (venueId : Str) (f : Cache → Cache) : WifiClientCache :=
  Function.update cache venueId (some (f ((cache venueId).getD {})))

/-- The insertion at `std::lower_bound`. -/
def insert (n : UInt64) (ns : List UInt64) : List UInt64 := ns.orderedInsert (· ≤ ·) n

/-- `AddSerialNumber`; a text that does not begin with a number throws, and so does one that is
    new and does not begin with a number when it is read backwards. -/
def addSerialNumber (venueId s : Str) : Computation WifiClientCache Unit := do
  .modify fun cache => cache.update venueId id
  let sn ← .ofOption (stoull16 s)
  let cache ← .get
  if sn ∈ ((cache venueId).getD {}).sns then pure ()
  else
    .modify fun cache => cache.update venueId fun c => { c with sns := insert sn c.sns }
    let rsn ← .ofOption (stoull16 s.reverse)
    .modify fun cache => cache.update venueId fun c =>
      { c with reverseSns := insert rsn c.reverseSns }

/-! ## The numbers of a venue -/

/-- `Sns_` of a venue, empty if it is not cached. -/
def sns (cache : WifiClientCache) (venueId : Str) : List UInt64 := ((cache venueId).getD {}).sns

/-- `Reverse_Sns_` of a venue, empty if it is not cached. -/
def reverseSns (cache : WifiClientCache) (venueId : Str) : List UInt64 :=
  ((cache venueId).getD {}).reverseSns

@[simp] theorem sns_update (cache : WifiClientCache) (venueId : Str) (f : Cache → Cache) :
    (cache.update venueId f).sns venueId = (f ((cache venueId).getD {})).sns := by
  simp [sns, update]

@[simp] theorem reverseSns_update (cache : WifiClientCache) (venueId : Str) (f : Cache → Cache) :
    (cache.update venueId f).reverseSns venueId = (f ((cache venueId).getD {})).reverseSns := by
  simp [reverseSns, update]

@[simp] theorem getD_update (cache : WifiClientCache) (venueId : Str) (f : Cache → Cache) :
    ((cache.update venueId f) venueId).getD {} = f ((cache venueId).getD {}) := by
  simp [update]

@[simp] theorem mem_insert {m n : UInt64} {ns : List UInt64} :
    m ∈ insert n ns ↔ m = n ∨ m ∈ ns :=
  List.mem_orderedInsert _

/-- When a text is added without a throw, and what is in the cache afterwards, thrown or not. -/
theorem addSerialNumber_spec (venueId s : Str) (cache : WifiClientCache) :
    ((addSerialNumber venueId s cache).1.isSome = true ↔
      ∃ n, stoull16 s = some n ∧
        (n ∈ cache.sns venueId ∨ (stoull16 s.reverse).isSome = true)) ∧
      (∀ n, n ∈ (addSerialNumber venueId s cache).2.sns venueId ↔
        n ∈ cache.sns venueId ∨ stoull16 s = some n) ∧
      ∀ n, n ∈ (addSerialNumber venueId s cache).2.reverseSns venueId ↔
        n ∈ cache.reverseSns venueId ∨
          ∃ m, stoull16 s = some m ∧ m ∉ cache.sns venueId ∧ stoull16 s.reverse = some n := by
  unfold addSerialNumber
  rw [Computation.bind_of_some (Computation.modify_apply _ _)]
  cases hs : stoull16 s with
  | none =>
      rw [Computation.bind_of_none (Computation.ofOption_apply _ _)]
      simp [sns, reverseSns]
  | some m =>
      rw [Computation.bind_of_some (Computation.ofOption_apply _ _),
        Computation.bind_of_some (Computation.get_apply _)]
      by_cases hm : m ∈ cache.sns venueId
      · -- The text is not read backwards.
        have hin : m ∈ ((cache.update venueId id venueId).getD {}).sns := by
          simpa [sns] using hm
        rw [if_pos hin]
        refine ⟨?_, fun n => ?_, fun n => ?_⟩
        · simp [hm]
        · have hsame : m = n → n ∈ cache.sns venueId := fun heq => heq ▸ hm
          simpa [sns] using hsame
        · simp [hm, reverseSns]
      · have hout : m ∉ ((cache.update venueId id venueId).getD {}).sns := by
          simpa [sns] using hm
        -- The number goes in before the text is read backwards.
        rw [if_neg hout, Computation.bind_of_some (Computation.modify_apply _ _)]
        cases hr : stoull16 s.reverse with
        | none =>
            rw [Computation.bind_of_none (Computation.ofOption_apply _ _)]
            refine ⟨?_, fun n => ?_, fun n => ?_⟩
            · simp [hm]
            · simp [sns, eq_comm, or_comm]
            · simp [reverseSns]
        | some r =>
            rw [Computation.bind_of_some (Computation.ofOption_apply _ _)]
            refine ⟨?_, fun n => ?_, fun n => ?_⟩
            · simp
            · simp [sns, eq_comm, or_comm]
            · simp [hm, reverseSns, eq_comm, or_comm]

end WifiClientCache

end OwAnalytics.Ap
