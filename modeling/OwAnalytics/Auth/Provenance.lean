/-
  OwAnalytics.Auth.Provenance

  Where the user information comes from that `AuthClient` hands out: each entry of its
  caches and each accepted call goes back to an answer in which the security service
  vouched for the same token or key, and says what that answer says.
-/

import OwAnalytics.Auth.Client

namespace OwAnalytics.Auth

variable {F U : Type}

/-- The user information that is cached for a token or a key. -/
def entry (kind : Kind) (caches : Caches U) (token : Str) : Option (UserInfoAndPolicy U) :=
  match kind with
  | .isAuthorized => caches.cache[token]?
  | .isValidApiKey => caches.apiKeyCache[token]?.map (·.userInfo)

/-- In this answer the service vouches for what was asked, and tells this about the user. -/
def Tells (r : Reader F U) (kind : Kind) (fresh : UserInfoAndPolicy U) (response : Response F)
    (user : UserInfoAndPolicy U) : Prop :=
  ∃ d, response = .answered 200 (some d) ∧ response.vouches kind = true ∧
    user = fresh.fromJson r d

/-- No entries but those there were. -/
def Within (caches' caches : Caches U) : Prop :=
  ∀ kind token user, entry kind caches' token = some user → entry kind caches token = some user

theorem Within.refl (caches : Caches U) : Within caches caches := fun _ _ _ h => h

theorem within_eraseCache (caches : Caches U) (token : Str) :
    Within { caches with cache := caches.cache.erase token } caches := by
  intro kind t user h
  cases kind with
  | isAuthorized =>
    rw [entry, Std.ExtTreeMap.getElem?_erase] at h
    split_ifs at h
    exact h
  | isValidApiKey => exact h

theorem within_eraseApiKey (caches : Caches U) (token : Str) :
    Within { caches with apiKeyCache := caches.apiKeyCache.erase token } caches := by
  intro kind t user h
  cases kind with
  | isAuthorized => exact h
  | isValidApiKey =>
    rw [entry, Std.ExtTreeMap.getElem?_erase] at h
    split_ifs at h
    · cases h
    · exact h

theorem within_evict (kind : Kind) (caches : Caches U) (token : Str) :
    Within (evict kind caches token) caches := by
  cases kind with
  | isAuthorized => exact within_eraseCache caches token
  | isValidApiKey => exact within_eraseApiKey caches token

theorem within_removedCachedToken (caches : Caches U) (token : Str) :
    Within (removedCachedToken caches token) caches := by
  intro kind t user h
  cases kind with
  | isAuthorized => exact within_eraseCache caches token .isAuthorized t user h
  | isValidApiKey => exact within_eraseApiKey caches token .isValidApiKey t user h

theorem within_stop (caches : Caches U) : Within { caches with cache := ∅ } caches := by
  intro kind t user h
  cases kind with
  | isAuthorized =>
    rw [entry, Std.ExtTreeMap.getElem?_empty] at h
    cases h
  | isValidApiKey => exact h

/-! ## One call -/

/-- A look into a cache adds nothing, and accepts with what is cached for the token. -/
theorem cached_spec (kind : Kind) (caches : Caches U) (token : Str) (out : Out U) (now : UInt64) :
    Within (cached kind caches token out now).2 caches ∧
      ∀ out', (cached kind caches token out now).1 = some (true, out') →
        entry kind caches token = some out'.uInfo := by
  cases kind with
  | isAuthorized =>
    simp only [cached, isAuthorizedCached, entry]
    cases hcached : caches.cache[token]? with
    | none => exact ⟨Within.refl caches, fun _ h => by cases h⟩
    | some user =>
      dsimp only
      by_cases hexpired : isTokenExpired user.webtoken now = true
      · rw [if_pos hexpired]
        exact ⟨within_eraseCache caches token, fun _ h => by cases h⟩
      · rw [if_neg hexpired]
        refine ⟨Within.refl caches, fun out' h => ?_⟩
        obtain ⟨-, rfl⟩ := Prod.mk.inj (Option.some.inj h)
        rfl
  | isValidApiKey =>
    simp only [cached, isValidApiKeyCached, entry]
    cases hcached : caches.apiKeyCache[token]? with
    | none => exact ⟨Within.refl caches, fun _ h => by cases h⟩
    | some user =>
      dsimp only
      -- the test for the expiry is the wrong way round, but what is told is the entry
      by_cases hexpired : user.expiresOn < now
      · rw [if_pos hexpired]
        refine ⟨Within.refl caches, fun out' h => ?_⟩
        obtain ⟨-, rfl⟩ := Prod.mk.inj (Option.some.inj h)
        rfl
      · rw [if_neg hexpired]
        exact ⟨within_eraseApiKey caches token, fun _ h => by cases h⟩

/-- What a processed answer leaves: the new entry is the one for the token, and it and an accepted
    call say what the answer says. -/
structure Processed (r : Reader F U) (kind : Kind) (caches : Caches U) (token : Str) (out : Out U)
    (response : Response F) (after : Bool × Out U × Caches U) : Prop where
  accepted : after.1 = true → Tells r kind out.uInfo response after.2.1.uInfo
  entries : ∀ k t user, entry k after.2.2 t = some user →
    entry k caches t = some user ∨
      (k = kind ∧ t = token ∧ Tells r kind out.uInfo response user)

/-- A refusal that leaves the caches alone. -/
theorem processed_refused {r : Reader F U} {kind : Kind} {caches : Caches U} {token : Str}
    {out out' : Out U} {response : Response F} :
    Processed r kind caches token out response (false, out', caches) :=
  ⟨fun h => Bool.noConfusion h, fun _ _ _ h => .inl h⟩

theorem entry_insertCache {caches : Caches U} {token t : Str} {user user' : UserInfoAndPolicy U}
    {k : Kind}
    (h : entry k { caches with cache := caches.cache.insert token user } t = some user') :
    entry k caches t = some user' ∨ (k = .isAuthorized ∧ t = token ∧ user' = user) := by
  cases k with
  | isAuthorized =>
    rw [entry, Std.ExtTreeMap.getElem?_insert] at h
    split_ifs at h with hcompare
    · exact .inr ⟨rfl, (Std.LawfulEqCmp.eq_of_compare hcompare).symm, (Option.some.inj h).symm⟩
    · exact .inl h
  | isValidApiKey => exact .inl h

theorem entry_insertApiKey {caches : Caches U} {token t : Str} {e : ApiKeyCacheEntry U}
    {user' : UserInfoAndPolicy U} {k : Kind}
    (h : entry k { caches with apiKeyCache := caches.apiKeyCache.insert token e } t = some user') :
    entry k caches t = some user' ∨ (k = .isValidApiKey ∧ t = token ∧ user' = e.userInfo) := by
  cases k with
  | isAuthorized => exact .inl h
  | isValidApiKey =>
    rw [entry, Std.ExtTreeMap.getElem?_insert] at h
    split_ifs at h with hcompare
    · exact .inr ⟨rfl, (Std.LawfulEqCmp.eq_of_compare hcompare).symm, (Option.some.inj h).symm⟩
    · exact .inl h

theorem processed_retrieveTokenInformation (r : Reader F U) (caches : Caches U) (token : Str)
    (out : Out U) (now : UInt64) (response : Response F) :
    Processed r .isAuthorized caches token out response
      (retrieveTokenInformation r caches token out now response) := by
  rcases response with _ | ⟨status, response⟩
  · exact processed_refused
  unfold retrieveTokenInformation
  dsimp only
  by_cases htimeout : status = 504
  · rw [if_pos htimeout]
    exact processed_refused
  rw [if_neg htimeout]
  by_cases hok : status = 200
  · subst hok
    rw [if_pos rfl]
    cases response with
    | none => exact processed_refused
    | some d =>
      dsimp only
      by_cases hmembers : (d.contains "tokenInfo" && d.contains "userInfo") = true
      · rw [if_pos hmembers]
        by_cases hexpired : isTokenExpired (out.uInfo.fromJson r d).webtoken now = true
        · rw [if_pos hexpired]
          exact processed_refused
        · rw [if_neg hexpired]
          -- the one branch that accepts, and enters the cache
          have htells : Tells r .isAuthorized out.uInfo (.answered 200 (some d))
              (out.uInfo.fromJson r d) :=
            ⟨d, rfl, by simp only [Response.vouches, hmembers, Bool.true_and, beq_self_eq_true,
              Bool.true_or], rfl⟩
          refine ⟨fun _ => htells, fun k t user h => ?_⟩
          rcases entry_insertCache h with hold | ⟨hkind, htoken, huser⟩
          · exact .inl hold
          · exact .inr ⟨hkind, htoken, huser ▸ htells⟩
      · rw [if_neg hmembers]
        exact processed_refused
  · rw [if_neg hok]
    exact processed_refused

theorem processed_retrieveApiKeyInformation (r : Reader F U) (caches : Caches U) (token : Str)
    (out : Out U) (response : Response F) :
    Processed r .isValidApiKey caches token out response
      (retrieveApiKeyInformation r caches token out response) := by
  rcases response with _ | ⟨status, response⟩
  · exact processed_refused
  unfold retrieveApiKeyInformation
  dsimp only
  by_cases htimeout : status = 504
  · rw [if_pos htimeout]
    exact processed_refused
  rw [if_neg htimeout]
  by_cases hok : status = 200
  · subst hok
    rw [if_pos rfl]
    cases response with
    | none => exact processed_refused
    | some d =>
      dsimp only
      by_cases hmembers :
          (d.contains "tokenInfo" && d.contains "userInfo" && d.contains "expiresOn") = true
      · rw [if_pos hmembers]
        cases hexpires : (d.find? "expiresOn").bind r.poco.toUInt64 with
        | none => exact processed_refused
        | some expiresOn =>
          -- the one branch that stores and tells: here the answer vouches for the key
          have htells : Tells r .isValidApiKey out.uInfo (.answered 200 (some d))
              (out.uInfo.fromJson r d) := by
            refine ⟨d, rfl, ?_, rfl⟩
            rw [Bool.and_eq_true] at hmembers
            simp only [Response.vouches, hmembers.1, hmembers.2, Bool.or_true, Bool.and_self]
          refine ⟨fun _ => htells, fun k t user h => ?_⟩
          rcases entry_insertApiKey h with hold | ⟨hkind, htoken, huser⟩
          · exact .inl hold
          · exact .inr ⟨hkind, htoken, huser ▸ htells⟩
      · rw [if_neg hmembers]
        exact processed_refused
  · rw [if_neg hok]
    exact processed_refused

theorem processed_retrieve (r : Reader F U) (kind : Kind) (caches : Caches U) (token : Str)
    (out : Out U) (now : UInt64) (response : Response F) :
    Processed r kind caches token out response
      (retrieve r kind caches token out now response) := by
  cases kind with
  | isAuthorized => exact processed_retrieveTokenInformation r caches token out now response
  | isValidApiKey => exact processed_retrieveApiKeyInformation r caches token out response

end OwAnalytics.Auth
