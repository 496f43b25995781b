/-
  OwAnalytics.Auth.ApiKeys

  Which API keys `IsValidApiKey` takes from its cache.  The test of a cached key
  stands the wrong way round: an expired key is accepted and an unexpired one is
  thrown away and fetched again, so a look into the cache is right only when it
  finds nothing.
-/

import OwAnalytics.Auth.Client

namespace OwAnalytics.Auth

open Transitions

variable {F U ι : Type}

/-! ## A look into the cache -/

/-- A key accepted without the service is not past its `expiresOn`, and a cached key that is not
    past it is accepted and stays cached. -/
def RightLookup (s : State F U ι) : Label F U ι → Prop
  | .begin _ .isValidApiKey token out now =>
    (∀ out' caches, cached .isValidApiKey s.caches token out now = (some (true, out'), caches) →
      ∃ entry, s.caches.apiKeyCache[token]? = some entry ∧ now ≤ entry.expiresOn) ∧
    ∀ entry, s.caches.apiKeyCache[token]? = some entry → now ≤ entry.expiresOn →
      ∃ out', cached .isValidApiKey s.caches token out now = (some (true, out'), s.caches)
  | _ => True

/-- A call of `IsValidApiKey` does not find its key. -/
def FindsNothing (s : State F U ι) : Label F U ι → Prop
  | .begin _ .isValidApiKey token _ _ => s.caches.apiKeyCache[token]? = none
  | _ => True

theorem isValidApiKeyCached_none {caches : Caches U} {token : Str}
    (h : caches.apiKeyCache[token]? = none) (out : Out U) (now : UInt64) :
    isValidApiKeyCached caches token out now = (none, caches) := by
  unfold isValidApiKeyCached
  rw [h]

/-- What is made of a cached key: past its time it is accepted, before it is dropped. -/
theorem isValidApiKeyCached_some {caches : Caches U} {token : Str} {entry : ApiKeyCacheEntry U}
    (h : caches.apiKeyCache[token]? = some entry) (out : Out U) (now : UInt64) :
    isValidApiKeyCached caches token out now
      = if entry.expiresOn < now then
          (some (true, { out with expired := false, uInfo := entry.userInfo }), caches)
        else (none, { caches with apiKeyCache := caches.apiKeyCache.erase token }) := by
  unfold isValidApiKeyCached
  rw [h]

theorem rightLookup_iff (s : State F U ι) (a : Label F U ι) :
    RightLookup s a ↔ FindsNothing s a := by
  match a with
  | .begin c .isValidApiKey token out now =>
    simp only [RightLookup, FindsNothing, cached]
    cases hget : s.caches.apiKeyCache[token]? with
    | none =>
        rw [isValidApiKeyCached_none hget]
        refine iff_of_true ⟨?_, ?_⟩ rfl
        · rintro out' caches heq
          cases heq
        · rintro entry hentry
          cases hentry
    | some entry =>
        rw [isValidApiKeyCached_some hget]
        refine iff_of_false ?_ nofun
        rintro ⟨haccepted, hkept⟩
        by_cases hpast : entry.expiresOn < now
        · -- accepted although it has expired
          rw [if_pos hpast] at haccepted
          obtain ⟨entry', hentry, hle⟩ := haccepted _ _ rfl
          obtain rfl := Option.some.inj hentry
          exact absurd hpast (UInt64.not_lt.mpr hle)
        · -- not accepted although it has not
          obtain ⟨out', heq⟩ := hkept entry rfl (UInt64.not_lt.mp hpast)
          rw [if_neg hpast] at heq
          cases heq
  | .begin c .isAuthorized token out now => exact Iff.rfl
  | .respond c response => exact Iff.rfl
  | .finish c now => exact Iff.rfl
  | .removedCachedToken token revoked => exact Iff.rfl
  | .evict kind token => exact Iff.rfl
  | .stop => exact Iff.rfl

/-- In a run of calls, answers, removals and evictions, every look into the cache of API keys is
    right exactly when none of them finds its key. -/
theorem rightLookups_iff [DecidableEq ι] (r : Reader F U) (start : State F U ι)
    (labels : List (Label F U ι)) :
    Along (State.step r) RightLookup start labels ↔
      Along (State.step r) FindsNothing start labels :=
  along_congr rightLookup_iff start labels

/-! ## An expired key -/

/-- A library that converts unsigned integers, and no user record. -/
def numbersOnly : Reader Unit Unit where
  poco :=
    { text := fun _ => none
      uint64 := fun
        | .unsigned n => some n
        | _ => none }
  userInfo u _ := u

/-- The caller's variables before a call. -/
def noOne : Out Unit where
  uInfo := { userinfo := () }

/-- The service vouches for a key that expires at 100. -/
def validUntil100 : Response Unit :=
  .answered 200 (some (.obj
    [("expiresOn".toList, .unsigned 100), ("tokenInfo".toList, .obj []),
      ("userInfo".toList, .obj [])]))

/-- No call, and nothing cached. -/
def idle : State Unit Unit ℕ where
  phase _ := .idle

/-- The key is fetched at 50. -/
def fetchedAt50 : List (Label Unit Unit ℕ) :=
  [.begin 0 .isValidApiKey "key".toList noOne 50, .respond 0 validUntil100, .finish 0 50]

/-- It is looked up at 200. -/
def lookupAt200 : Label Unit Unit ℕ := .begin 1 .isValidApiKey "key".toList noOne 200

/-- At 200 the key is accepted from the cache. -/
theorem expired_key_accepted :
    ¬ ∀ (start : State Unit Unit ℕ) (labels : List (Label Unit Unit ℕ)),
      Along (State.step numbersOnly) RightLookup start labels := by
  intro h
  have houtcome : (run (State.step numbersOnly) idle fetchedAt50).map (fun s =>
        (s.caches.apiKeyCache["key".toList]?, (s.step numbersOnly lookupAt200).isSome))
      = some (some { userInfo := noOne.uInfo, expiresOn := 100 }, true) := by
    decide +kernel
  obtain ⟨s, hrun, hs⟩ := Option.map_eq_some_iff.mp houtcome
  obtain ⟨hcached, henabled⟩ := Prod.mk.inj hs
  obtain ⟨s', hnext⟩ := Option.isSome_iff_exists.mp henabled
  have hlookup : RightLookup s lookupAt200 :=
    (h idle (fetchedAt50 ++ [lookupAt200])).of_run hrun hnext
  have hnothing : s.caches.apiKeyCache["key".toList]? = none := (rightLookup_iff s _).mp hlookup
  rw [hcached] at hnothing
  cases hnothing

end OwAnalytics.Auth
