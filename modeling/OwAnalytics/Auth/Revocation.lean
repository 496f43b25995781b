/-
  OwAnalytics.Auth.Revocation

  What a removal from the caches is worth.  A call that the service has answered
  before a token was revoked stores that answer whenever it comes to it, also after
  the removal, and the token is accepted from the cache again.  Runs in which no call
  does so are exactly the runs in which a removal is final.
-/

import OwAnalytics.Auth.ApiKeys

namespace OwAnalytics.Auth

open Transitions

variable {F U ι : Type}

/-! ## What the caches hold for a token -/

/-- No token that was removed as revoked is accepted from a cache, at any time. -/
def RevocationFinal (s : State F U ι) : Prop :=
  ∀ token ∈ s.revoked, ∀ kind out now out' caches,
    cached kind s.caches token out now ≠ (some (true, out'), caches)

/-- The largest time of all, which no clock is past. -/
def never : UInt64 := UInt64.ofNat (2 ^ 64 - 1)

theorem le_never (n : UInt64) : n ≤ never := by
  have hn := n.toNat_lt
  have hnever : never.toNat = 2 ^ 64 - 1 := by decide
  rw [UInt64.le_iff_toNat_le, hnever]
  omega

/-- Nothing is cached for the token that is accepted at some time; a key that never expires is
    not accepted. -/
structure Clear (caches : Caches U) (token : Str) : Prop where
  cache : caches.cache[token]? = none
  apiKeyCache : ∀ entry, caches.apiKeyCache[token]? = some entry → entry.expiresOn = never

theorem clear_iff {caches : Caches U} {token : Str} :
    Clear caches token ↔ ∀ kind out now out' caches',
      cached kind caches token out now ≠ (some (true, out'), caches') := by
  refine ⟨?_, ?_⟩
  · rintro ⟨hcache, hapi⟩ kind out now out' caches' heq
    cases kind with
    | isAuthorized =>
        simp only [cached, isAuthorizedCached, hcache] at heq
        cases heq
    | isValidApiKey =>
        cases hget : caches.apiKeyCache[token]? with
        | none =>
            simp only [cached, isValidApiKeyCached_none hget] at heq
            cases heq
        | some entry =>
            have hle : ¬ entry.expiresOn < now := by
              rw [hapi entry hget]
              exact UInt64.not_lt.mpr (le_never now)
            simp only [cached, isValidApiKeyCached_some hget, if_neg hle] at heq
            cases heq
  · intro h
    refine ⟨?_, ?_⟩
    · -- a cached token is accepted at time 0 at the latest
      cases hget : caches.cache[token]? with
      | none => rfl
      | some user =>
          have hfresh : isTokenExpired user.webtoken 0 = false := by
            simp [isTokenExpired]
          refine absurd ?_ (h .isAuthorized { uInfo := user } 0 { uInfo := user } caches)
          simp [cached, isAuthorizedCached, hget, hfresh]
    · intro entry hget
      by_contra hne
      have hlt : entry.expiresOn < never := UInt64.lt_of_le_of_ne (le_never _) hne
      refine absurd ?_ (h .isValidApiKey { uInfo := entry.userInfo } never
        { uInfo := entry.userInfo } caches)
      simp only [cached, isValidApiKeyCached_some hget, if_pos hlt]

theorem revocationFinal_iff {s : State F U ι} :
    RevocationFinal s ↔ ∀ token ∈ s.revoked, Clear s.caches token :=
  forall_congr' fun _ => imp_congr_right fun _ => clear_iff.symm

/-! ## What a step does to the caches -/

/-- Every entry of the first caches is one of the second. -/
structure Shrinks (caches' caches : Caches U) : Prop where
  cache : ∀ t : Str, caches.cache[t]? = none → caches'.cache[t]? = none
  apiKeyCache : ∀ (t : Str) (entry : ApiKeyCacheEntry U), caches'.apiKeyCache[t]? = some entry →
    caches.apiKeyCache[t]? = some entry

theorem Shrinks.clear {caches' caches : Caches U} (h : Shrinks caches' caches) {token : Str}
    (hc : Clear caches token) : Clear caches' token :=
  ⟨h.cache token hc.cache, fun entry he => hc.apiKeyCache entry (h.apiKeyCache token entry he)⟩

theorem Shrinks.refl (caches : Caches U) : Shrinks caches caches :=
  ⟨fun _ h => h, fun _ _ h => h⟩

theorem shrinks_eraseCache (caches : Caches U) (token : Str) :
    Shrinks { caches with cache := caches.cache.erase token } caches := by
  refine ⟨?_, fun _ _ h => h⟩
  intro t h
  rw [Std.ExtTreeMap.getElem?_erase, h, ite_self]

theorem shrinks_eraseApiKey (caches : Caches U) (token : Str) :
    Shrinks { caches with apiKeyCache := caches.apiKeyCache.erase token } caches := by
  refine ⟨fun _ h => h, ?_⟩
  intro t entry h
  rw [Std.ExtTreeMap.getElem?_erase] at h
  split_ifs at h
  exact h

/-- A look into a cache adds nothing to it. -/
theorem shrinks_cached (kind : Kind) (caches : Caches U) (token : Str) (out : Out U)
    (now : UInt64) : Shrinks (cached kind caches token out now).2 caches := by
  cases kind with
  | isAuthorized =>
      unfold cached isAuthorizedCached
      cases caches.cache[token]? with
      | none => exact Shrinks.refl caches
      | some user =>
          simp only
          split_ifs
          · exact shrinks_eraseCache caches token
          · exact Shrinks.refl caches
  | isValidApiKey =>
      unfold cached
      cases hget : caches.apiKeyCache[token]? with
      | none =>
          rw [isValidApiKeyCached_none hget]
          exact Shrinks.refl caches
      | some entry =>
          rw [isValidApiKeyCached_some hget]
          split_ifs
          · exact Shrinks.refl caches
          · exact shrinks_eraseApiKey caches token

/-- A step that only takes entries away keeps what the caches are clear of. -/
theorem clear_of_shrinks {revoked : List Str} {caches caches' : Caches U}
    (h : ∀ token ∈ revoked, Clear caches token) (hshrinks : Shrinks caches' caches) :
    ∀ token ∈ revoked, Clear caches' token :=
  fun token htoken => hshrinks.clear (h token htoken)

theorem shrinks_evict (kind : Kind) (caches : Caches U) (token : Str) :
    Shrinks (evict kind caches token) caches := by
  cases kind with
  | isAuthorized => exact shrinks_eraseCache caches token
  | isValidApiKey => exact shrinks_eraseApiKey caches token

theorem clear_removedCachedToken (caches : Caches U) (token : Str) :
    Clear (removedCachedToken caches token) token := by
  refine ⟨?_, ?_⟩
  · rw [removedCachedToken, Std.ExtTreeMap.getElem?_erase, if_pos Std.ReflCmp.compare_self]
  · intro entry h
    rw [removedCachedToken, Std.ExtTreeMap.getElem?_erase, if_pos Std.ReflCmp.compare_self] at h
    cases h

theorem shrinks_removedCachedToken (caches : Caches U) (token : Str) :
    Shrinks (removedCachedToken caches token) caches :=
  ⟨(shrinks_eraseCache caches token).cache, (shrinks_eraseApiKey caches token).apiKeyCache⟩

/-! ## What a call stores -/

variable (r : Reader F U)

/-- The answer is one a call puts into its cache, to be accepted from there: the service vouches
    for the token and it has not expired, or for the key and it has a time to expire at. -/
def Stores (kind : Kind) (out : Out U) (now : UInt64) (response : Response F) : Prop :=
  ∃ d, response = .answered 200 (some d) ∧ response.vouches kind = true ∧
    match kind with
    | .isAuthorized => isTokenExpired (out.uInfo.fromJson r d).webtoken now = false
    | .isValidApiKey => ∃ expiresOn,
        (d.find? "expiresOn").bind r.poco.toUInt64 = some expiresOn ∧ expiresOn ≠ never

theorem not_stores_of_not_vouches {kind : Kind} {out : Out U} {now : UInt64}
    {response : Response F} (h : response.vouches kind = false) :
    ¬ Stores r kind out now response := by
  rintro ⟨d, -, hvouches, -⟩
  rw [h] at hvouches
  cases hvouches

/-- An answer about a token leaves the cache alone or enters it. -/
theorem retrieveTokenInformation_cases (caches : Caches U) (token : Str) (out : Out U)
    (now : UInt64) (response : Response F) :
    ((retrieveTokenInformation r caches token out now response).2.2 = caches ∧
      ¬ Stores r .isAuthorized out now response) ∨
    ∃ user, (retrieveTokenInformation r caches token out now response).2.2
        = { caches with cache := caches.cache.insert token user } ∧
      Stores r .isAuthorized out now response := by
  rcases response with _ | ⟨status, response⟩
  · exact .inl ⟨rfl, not_stores_of_not_vouches r rfl⟩
  · unfold retrieveTokenInformation
    simp only
    split_ifs with htimeout hok
    · subst htimeout
      exact .inl ⟨rfl, not_stores_of_not_vouches r rfl⟩
    · subst hok
      cases response with
      | none => exact .inl ⟨rfl, not_stores_of_not_vouches r rfl⟩
      | some d =>
          by_cases hhas : (d.contains "tokenInfo" && d.contains "userInfo") = true
          -- With both objects the cache is entered, unless the token of the answer has expired.
          · simp only [hhas, if_true]
            cases hexp : isTokenExpired (out.uInfo.fromJson r d).webtoken now with
            | true =>
                refine .inl ⟨rfl, ?_⟩
                rintro ⟨d', heq, -, hfresh⟩
                cases heq
                exact Bool.false_ne_true (hfresh.symm.trans hexp)
            | false => exact .inr ⟨_, rfl, d, rfl, by simp [Response.vouches, hhas], hexp⟩
          · simp only [hhas]
            exact .inl ⟨rfl, not_stores_of_not_vouches r (by simp [Response.vouches, hhas])⟩
    -- Any other status leaves the cache as it is, and vouches for nothing.
    · refine .inl ⟨rfl, not_stores_of_not_vouches r ?_⟩
      unfold Response.vouches
      split
      · rename_i heq
        cases heq
        exact absurd rfl hok
      · rfl

/-- An answer about a key leaves the cache alone or enters it with its time to expire. -/
theorem retrieveApiKeyInformation_cases (caches : Caches U) (token : Str) (out : Out U)
    (now : UInt64) (response : Response F) :
    ((retrieveApiKeyInformation r caches token out response).2.2 = caches ∧
      ¬ Stores r .isValidApiKey out now response) ∨
    ∃ entry, (retrieveApiKeyInformation r caches token out response).2.2
        = { caches with apiKeyCache := caches.apiKeyCache.insert token entry } ∧
      (Stores r .isValidApiKey out now response ↔ entry.expiresOn ≠ never) := by
  rcases response with _ | ⟨status, response⟩
  · exact .inl ⟨rfl, not_stores_of_not_vouches r rfl⟩
  · unfold retrieveApiKeyInformation
    simp only
    split_ifs with htimeout hok
    · subst htimeout
      exact .inl ⟨rfl, not_stores_of_not_vouches r rfl⟩
    · subst hok
      cases response with
      | none => exact .inl ⟨rfl, not_stores_of_not_vouches r rfl⟩
      | some d =>
          by_cases hhas :
              (d.contains "tokenInfo" && d.contains "userInfo" && d.contains "expiresOn") = true
          · simp only [hhas, if_true]
            cases hexp : (d.find? "expiresOn").bind r.poco.toUInt64 with
            | none =>
                -- No time to expire can be read, so nothing is stored.
                refine .inl ⟨rfl, ?_⟩
                rintro ⟨d', heq, -, expiresOn, hsome, -⟩
                cases heq
                rw [hexp] at hsome
                cases hsome
            | some expiresOn =>
                -- The entry is made whatever its time, and counts unless that is `never`.
                refine .inr ⟨_, rfl, ?_, ?_⟩
                · rintro ⟨d', heq, -, n, hsome, hne⟩
                  cases heq
                  obtain rfl := Option.some.inj (hexp.symm.trans hsome)
                  exact hne
                · exact fun hne =>
                    ⟨d, rfl, by simpa [Response.vouches] using hhas, expiresOn, hexp, hne⟩
          · simp only [hhas]
            refine .inl ⟨rfl, not_stores_of_not_vouches r ?_⟩
            simpa [Response.vouches] using hhas
    · refine .inl ⟨rfl, not_stores_of_not_vouches r ?_⟩
      unfold Response.vouches
      split
      · rename_i heq
        cases heq
        exact absurd rfl hok
      · rfl

/-- What a processed answer leaves of the entries for a token. -/
theorem clear_retrieve (kind : Kind) {caches : Caches U} {t : Str} (hclear : Clear caches t)
    (token : Str) (out : Out U) (now : UInt64) (response : Response F) :
    Clear (retrieve r kind caches token out now response).2.2 t ↔
      (t = token → ¬ Stores r kind out now response) := by
  cases kind with
  | isAuthorized =>
      rcases retrieveTokenInformation_cases r caches token out now response with
        ⟨heq, hnot⟩ | ⟨user, heq, hstores⟩
      · rw [retrieve, heq]
        exact iff_of_true hclear fun _ => hnot
      · rw [retrieve, heq]
        refine ⟨?_, ?_⟩
        -- The entry for the token itself is the one just made.
        · rintro ⟨hcache, -⟩ rfl
          rw [Std.ExtTreeMap.getElem?_insert_self] at hcache
          cases hcache
        -- An entry for another token hides nothing of this one.
        · intro hne
          refine ⟨?_, hclear.apiKeyCache⟩
          have hother : ¬ compare token t = .eq := fun hcmp =>
            hne (Std.LawfulEqCmp.eq_of_compare hcmp).symm hstores
          rw [Std.ExtTreeMap.getElem?_insert, if_neg hother]
          exact hclear.cache
  | isValidApiKey =>
      rcases retrieveApiKeyInformation_cases r caches token out now response with
        ⟨heq, hnot⟩ | ⟨entry, heq, hstores⟩
      · rw [retrieve, heq]
        exact iff_of_true hclear fun _ => hnot
      · rw [retrieve, heq, hstores, not_not]
        refine ⟨?_, ?_⟩
        -- An entry for the token leaves it clear only if its time is `never`.
        · rintro ⟨-, hapi⟩ rfl
          exact hapi entry Std.ExtTreeMap.getElem?_insert_self
        · intro hnever
          refine ⟨hclear.cache, ?_⟩
          intro entry' hget
          rw [Std.ExtTreeMap.getElem?_insert] at hget
          split_ifs at hget with hcmp
          · obtain rfl := Option.some.inj hget
            exact hnever (Std.LawfulEqCmp.eq_of_compare hcmp).symm
          · exact hclear.apiKeyCache entry' hget

/-- No call stores the answer for a token that was removed as revoked since the service gave it. -/
def StoresUnrevoked (s : State F U ι) : Label F U ι → Prop
  | .finish c now => ∀ kind token out response,
      s.phase c = .responded kind token out response → token ∈ s.revoked →
        ¬ Stores r kind out now response
  | _ => True

variable [DecidableEq ι]

theorem shrinks_begin (s : State F U ι) (c : ι) (kind : Kind) (token : Str) (out : Out U)
    (now : UInt64) : Shrinks (s.begin c kind token out now).caches s.caches ∧
      (s.begin c kind token out now).revoked = s.revoked := by
  have hshrinks := shrinks_cached kind s.caches token out now
  unfold State.begin
  split
  · rename_i heq
    rw [heq] at hshrinks
    exact ⟨hshrinks, rfl⟩
  · rename_i heq
    rw [heq] at hshrinks
    exact ⟨hshrinks, rfl⟩

/-- A step breaks the finality of removals exactly when it stores an overtaken answer. -/
theorem revocationFinal_step {s s' : State F U ι} {a : Label F U ι} (h : RevocationFinal s)
    (hstep : s.step r a = some s') : RevocationFinal s' ↔ StoresUnrevoked r s a := by
  rw [revocationFinal_iff] at h ⊢
  match a with
  | .begin c kind token out now =>
    -- Looking in the cache may drop an expired entry, and adds none.
    refine iff_of_true ?_ trivial
    obtain ⟨hshrinks, hrevoked⟩ := shrinks_begin s c kind token out now
    have hbegin : s' = s.begin c kind token out now := by
      simp only [State.step] at hstep
      split at hstep
      · exact (Option.some.inj hstep).symm
      · exact (Option.some.inj hstep).symm
      · cases hstep
    subst hbegin
    rw [hrevoked]
    exact clear_of_shrinks h hshrinks
  | .respond c response =>
    refine iff_of_true ?_ trivial
    simp only [State.step] at hstep
    split at hstep
    · split_ifs at hstep
      obtain rfl := Option.some.inj hstep
      exact h
    · cases hstep
  | .finish c now =>
    simp only [State.step] at hstep
    split at hstep
    · rename_i kind token out response hphase
      obtain rfl := Option.some.inj hstep
      -- The only step that stores: a token is clear after it unless the answer is about that token.
      refine ⟨?_, ?_⟩
      · rintro hfinal kind' token' out' response' hphase' htoken
        cases hphase.symm.trans hphase'
        exact (clear_retrieve r kind (h token htoken) token out now response).mp
          (hfinal token htoken) rfl
      · intro hstores t ht
        refine (clear_retrieve r kind (h t ht) token out now response).mpr ?_
        rintro rfl
        exact hstores kind t out response hphase ht
    · cases hstep
  | .removedCachedToken token revoked =>
    obtain rfl := Option.some.inj hstep
    refine iff_of_true ?_ trivial
    have hold := clear_of_shrinks h (shrinks_removedCachedToken s.caches token)
    cases revoked with
    | false => exact hold
    | true =>
        -- The token just revoked has been taken from both caches; the others are as before.
        intro t ht
        rcases List.mem_cons.mp ht with rfl | ht
        · exact clear_removedCachedToken s.caches t
        · exact hold t ht
  | .evict kind token =>
    have hall := clear_of_shrinks h (shrinks_evict kind s.caches token)
    obtain rfl := Option.some.inj hstep
    exact iff_of_true hall trivial
  | .stop =>
    have hshrinks : Shrinks { s.caches with cache := ∅ } s.caches :=
      ⟨fun _ _ => Std.ExtTreeMap.getElem?_empty, fun _ _ he => he⟩
    have hall := clear_of_shrinks h hshrinks
    obtain rfl := Option.some.inj hstep
    exact iff_of_true hall trivial

/-- In a run of calls, answers, removals, evictions and restarts, no revoked token is ever accepted
    from a cache exactly when no call stores an answer the removal has overtaken. -/
theorem revocation_final_iff (caches : Caches U) (phase : ι → Phase F U)
    (labels : List (Label F U ι)) :
    Throughout (State.step r) RevocationFinal { caches, phase } labels ↔
      Along (State.step r) (StoresUnrevoked r) { caches, phase } labels :=
  throughout_iff_along (fun _ _ _ h hstep => revocationFinal_step r h hstep)
    (fun _ htoken => absurd htoken List.not_mem_nil) labels

/-! ## An overtaken answer -/

/-- The service vouches for a token that lives for 1000 seconds. -/
def livesFor1000 : Response Unit :=
  .answered 200 (some (.obj
    [("tokenInfo".toList, .obj [("expires_in".toList, .unsigned 1000)]),
      ("userInfo".toList, .obj [])]))

/-- The token is removed as revoked between the answer of the service and the end of the call. -/
def overtaken : List (Label Unit Unit ℕ) :=
  [.begin 0 .isAuthorized "token".toList noOne 50, .respond 0 livesFor1000,
    .removedCachedToken "token".toList true, .finish 0 50]

/-- The token is then accepted from the cache. -/
theorem revoked_token_accepted :
    ¬ ∀ labels : List (Label Unit Unit ℕ),
      Throughout (State.step numbersOnly) RevocationFinal idle labels := by
  intro h
  have houtcome : (run (State.step numbersOnly) idle overtaken).map (fun s =>
        (s.caches.cache["token".toList]?.isSome, s.revoked))
      = some (true, ["token".toList]) := by
    decide +kernel
  obtain ⟨s, hrun, hs⟩ := Option.map_eq_some_iff.mp houtcome
  obtain ⟨hcached, hrevoked⟩ := Prod.mk.inj hs
  have hfinal : RevocationFinal s := by
    have hall := h (overtaken ++ [])
    exact hall.of_run hrun
  have hclear := (revocationFinal_iff.mp hfinal "token".toList (by simp [hrevoked])).cache
  rw [hclear] at hcached
  cases hcached

end OwAnalytics.Auth
