/-
  OwAnalytics.Auth.Client

  `AuthClient` (`framework/AuthClient.cpp`, `AuthClient.h`): two caches of what the
  security service has answered, one for tokens and one for API keys.  A call looks
  into its cache first; if that does not settle it, it sends a request to the service
  and puts a positive answer into the cache.  Nothing holds a lock over both halves,
  so the halves of other calls, removals and evictions may come in between.
-/

import OwAnalytics.Boards.Handler
import OwAnalytics.Lib.Transitions

namespace OwAnalytics.Auth

open Boards (Poco Decoder inTurn stringFromJson uint64FromJson boolFromJson)

/-! ## What the service tells -/

/-- `SecurityObjects::WebToken`, the fields `from_json` sets. -/
structure WebToken where
  accessToken : Str := []
  refreshToken : Str := []
  tokenType : Str := []
  expiresIn : UInt64 := 0
  idleTimeout : UInt64 := 0
  created : UInt64 := 0
  username : Str := []
  userMustChangePassword : Bool := false
  lastRefresh : UInt64 := 0
deriving DecidableEq

/-- `SecurityObjects::UserInfoAndPolicy` over a type of user records. -/
structure UserInfoAndPolicy (U : Type) where
  webtoken : WebToken := {}
  userinfo : U
deriving DecidableEq

/-- `ApiKeyCacheEntry`. -/
structure ApiKeyCacheEntry (U : Type) where
  userInfo : UserInfoAndPolicy U
  expiresOn : UInt64
deriving DecidableEq

/-- How values are converted, and `UserInfo::from_json`, which lets no exception out. -/
structure Reader (F U : Type) where
  poco : Poco F
  userInfo : U → Document F → U

variable {F U : Type}

/-- `WebToken::from_json`; a field that throws ends it. -/
def WebToken.fromJson (p : Poco F) (t : WebToken) (d : Document F) : WebToken :=
  (inTurn
    [stringFromJson p d "access_token" fun t accessToken => { t with accessToken },
      stringFromJson p d "refresh_token" fun t refreshToken => { t with refreshToken },
      stringFromJson p d "token_type" fun t tokenType => { t with tokenType },
      uint64FromJson p d "expires_in" fun t expiresIn => { t with expiresIn },
      uint64FromJson p d "idle_timeout" fun t idleTimeout => { t with idleTimeout },
      uint64FromJson p d "created" fun t created => { t with created },
      stringFromJson p d "username" fun t username => { t with username },
      boolFromJson p d "userMustChangePassword" fun t userMustChangePassword =>
        { t with userMustChangePassword },
      uint64FromJson p d "lastRefresh" fun t lastRefresh => { t with lastRefresh }] t).1

/-- `UserInfoAndPolicy::from_json`; a member that is no object is left alone. -/
def UserInfoAndPolicy.fromJson (r : Reader F U) (u : UserInfoAndPolicy U) (d : Document F) :
    UserInfoAndPolicy U where
  webtoken :=
    match d.find? "tokenInfo" with
    | some (.obj fields) => u.webtoken.fromJson r.poco (.obj fields)
    | _ => u.webtoken
  userinfo :=
    match d.find? "userInfo" with
    | some (.obj fields) => r.userInfo u.userinfo (.obj fields)
    | _ => u.userinfo

/-- `IsTokenExpired`. -/
def isTokenExpired (t : WebToken) (now : UInt64) : Bool := t.expiresIn + t.created < now

/-- What `OpenAPIRequestGet::Do` comes back with: an exception it does not catch, or a status
    and the response object, which is null unless the status is `HTTP_OK`. -/
inductive Response (F : Type)
  | threw
  | answered (status : Nat) (response : Option (Document F))

/-! ## The client -/

/-- `Cache_` and `ApiKeyCache_`. -/
structure Caches (U : Type) where
  cache : Std.ExtTreeMap Str (UserInfoAndPolicy U) compare := ∅
  apiKeyCache : Std.ExtTreeMap Str (ApiKeyCacheEntry U) compare := ∅

/-- The caller's variables a call writes to. -/
structure Out (U : Type) where
  uInfo : UserInfoAndPolicy U
  expired : Bool := false
  contacted : Bool := false

section Client

variable (r : Reader F U)

/-- `RetrieveTokenInformation`, with the answer of the security service. -/
def retrieveTokenInformation (caches : Caches U) (sessionToken : Str) (out : Out U)
    (now : UInt64) : Response F → Bool × Out U × Caches U
  | .threw => (false, { out with expired := false }, caches)
  | .answered status response =>
    if status = 504 then (false, { out with contacted := false }, caches)
    else
      let out := { out with contacted := true }
      if status = 200 then
        match response with
        | none => (false, { out with expired := false }, caches)
        | some d =>
          if d.contains "tokenInfo" && d.contains "userInfo" then
            let out := { out with uInfo := out.uInfo.fromJson r d }
            if isTokenExpired out.uInfo.webtoken now then
              (false, { out with expired := true }, caches)
            else
              (true, { out with expired := false },
                { caches with cache := caches.cache.insert sessionToken out.uInfo })
          else (false, out, caches)
      else (false, { out with expired := false }, caches)

/-- The first half of `IsAuthorized`: what the call returns when its token is cached. -/
def isAuthorizedCached (caches : Caches U) (sessionToken : Str) (out : Out U) (now : UInt64) :
    Option (Bool × Out U) × Caches U :=
  match caches.cache[sessionToken]? with
  | some user =>
    if isTokenExpired user.webtoken now then
      (some (false, { out with expired := true }),
        { caches with cache := caches.cache.erase sessionToken })
    else (some (true, { out with expired := false, uInfo := user }), caches)
  | none => (none, caches)

/-- `RetrieveApiKeyInformation`, with the answer of the security service. -/
def retrieveApiKeyInformation (caches : Caches U) (sessionToken : Str) (out : Out U) :
    Response F → Bool × Out U × Caches U
  | .threw => (false, { out with expired := false }, caches)
  | .answered status response =>
    if status = 504 then (false, { out with contacted := false }, caches)
    else
      let out := { out with contacted := true }
      if status = 200 then
        match response with
        | none => (false, { out with expired := false }, caches)
        | some d =>
          if d.contains "tokenInfo" && d.contains "userInfo" && d.contains "expiresOn" then
            let out := { out with uInfo := out.uInfo.fromJson r d, expired := false }
            match (d.find? "expiresOn").bind r.poco.toUInt64 with
            | some expiresOn =>
              (true, out,
                { caches with
                  apiKeyCache :=
                    caches.apiKeyCache.insert sessionToken { userInfo := out.uInfo, expiresOn } })
            | none => (false, out, caches)
          else (false, out, caches)
      else (false, { out with expired := false }, caches)

/-- The first half of `IsValidApiKey`: what the call returns when its key is cached. -/
def isValidApiKeyCached (caches : Caches U) (sessionToken : Str) (out : Out U) (now : UInt64) :
    Option (Bool × Out U) × Caches U :=
  match caches.apiKeyCache[sessionToken]? with
  | some user =>
    if user.expiresOn < now then
      (some (true, { out with expired := false, uInfo := user.userInfo }), caches)
    else (none, { caches with apiKeyCache := caches.apiKeyCache.erase sessionToken })
  | none => (none, caches)

end Client

/-- `RemovedCachedToken`. -/
def removedCachedToken (caches : Caches U) (token : Str) : Caches U where
  cache := caches.cache.erase token
  apiKeyCache := caches.apiKeyCache.erase token

/-! ## Calls in flight -/

/-- Which of the two functions is called. -/
inductive Kind
  | isAuthorized
  | isValidApiKey
deriving DecidableEq

/-- The look into the cache of the call, and its answer if the entry is still valid. -/
def cached (kind : Kind) (caches : Caches U) (token : Str) (out : Out U) (now : UInt64) :
    Option (Bool × Out U) × Caches U :=
  match kind with
  | .isAuthorized => isAuthorizedCached caches token out now
  | .isValidApiKey => isValidApiKeyCached caches token out now

/-- What the call makes of the answer of the security service. -/
def retrieve (r : Reader F U) (kind : Kind) (caches : Caches U) (token : Str) (out : Out U)
    (now : UInt64) (response : Response F) : Bool × Out U × Caches U :=
  match kind with
  | .isAuthorized => retrieveTokenInformation r caches token out now response
  | .isValidApiKey => retrieveApiKeyInformation r caches token out response

/-- A whole call, with nothing of the others in between; the clock is read in each half. -/
def call (r : Reader F U) (kind : Kind) (caches : Caches U) (token : Str) (out : Out U)
    (now later : UInt64) (response : Response F) : Bool × Out U × Caches U :=
  match cached kind caches token out now with
  | (some (result, out), caches) => (result, out, caches)
  | (none, caches) => retrieve r kind caches token out later response

/-- Where a call is. -/
inductive Phase (F U : Type)
  | idle
  /-- Its request is on the way. -/
  | requested (kind : Kind) (token : Str) (out : Out U)
  /-- The service has answered, and the answer is not processed yet. -/
  | responded (kind : Kind) (token : Str) (out : Out U) (response : Response F)
  | returned (result : Bool) (out : Out U)

/-- The caches, the calls in flight and the tokens that were removed from the caches because the
    service has revoked them. -/
structure State (F U ι : Type) where
  caches : Caches U := {}
  phase : ι → Phase F U
  revoked : List Str := []

/-- The service vouches for a token or a key. -/
def Response.vouches (kind : Kind) : Response F → Bool
  | .answered 200 (some d) =>
    d.contains "tokenInfo" && d.contains "userInfo" &&
      (kind == .isAuthorized || d.contains "expiresOn")
  | _ => false

/-- The steps of the calls, of the service, and of the bus. -/
inductive Label (F U ι : Type)
  /-- A call begins with the look into its cache. -/
  | begin (c : ι) (kind : Kind) (token : Str) (out : Out U) (now : UInt64)
  /-- The service answers the request of a call. -/
  | respond (c : ι) (response : Response F)
  /-- A call processes the answer and returns. -/
  | finish (c : ι) (now : UInt64)
  /-- A remove-token message is processed, for a token the service has revoked or for another. -/
  | removedCachedToken (token : Str) (revoked : Bool)
  /-- A cache drops an entry, for its age or for want of room. -/
  | evict (kind : Kind) (token : Str)
  /-- `Stop`. -/
  | stop

variable {ι : Type} [DecidableEq ι]

/-- An entry is evicted from the cache of the calls of this kind. -/
def evict (kind : Kind) (caches : Caches U) (token : Str) : Caches U :=
  match kind with
  | .isAuthorized => { caches with cache := caches.cache.erase token }
  | .isValidApiKey => { caches with apiKeyCache := caches.apiKeyCache.erase token }

/-- A call begins: it returns at once, or sends its request. -/
def State.begin (s : State F U ι) (c : ι) (kind : Kind) (token : Str) (out : Out U)
    (now : UInt64) : State F U ι :=
  match cached kind s.caches token out now with
  | (some (result, out), caches) =>
    { s with caches, phase := Function.update s.phase c (.returned result out) }
  | (none, caches) =>
    { s with caches, phase := Function.update s.phase c (.requested kind token out) }

/-- The service never vouches for a token it has revoked. -/
def State.step (r : Reader F U) (s : State F U ι) : Label F U ι → Option (State F U ι)
  | .begin c kind token out now =>
    match s.phase c with
    | .idle | .returned _ _ => some (s.begin c kind token out now)
    | _ => none
  | .respond c response =>
    match s.phase c with
    | .requested kind token out =>
      if response.vouches kind ∧ token ∈ s.revoked then none
      else some
        { s with phase := Function.update s.phase c (.responded kind token out response) }
    | _ => none
  | .finish c now =>
    match s.phase c with
    | .responded kind token out response =>
      let (result, out, caches) := retrieve r kind s.caches token out now response
      some { s with caches, phase := Function.update s.phase c (.returned result out) }
    | _ => none
  | .removedCachedToken token revoked =>
    some
      { s with
        caches := removedCachedToken s.caches token
        revoked := if revoked then token :: s.revoked else s.revoked }
  | .evict kind token => some { s with caches := evict kind s.caches token }
  | .stop => some { s with caches := { s.caches with cache := ∅ } }

/-- The steps of a call with nothing in between end as the whole call does. -/
theorem run_call (r : Reader F U) {s : State F U ι} {c : ι} (hidle : s.phase c = .idle)
    (kind : Kind) (token : Str) (out : Out U) (now later : UInt64) {response : Response F}
    (hservice : token ∉ s.revoked) :
    ∃ labels s', Transitions.run (State.step r) s labels = some s' ∧
      s'.phase c = .returned (call r kind s.caches token out now later response).1
        (call r kind s.caches token out now later response).2.1 ∧
      s'.caches = (call r kind s.caches token out now later response).2.2 := by
  have hbegin : s.step r (.begin c kind token out now) = some (s.begin c kind token out now) := by
    simp only [State.step, hidle]
  cases hcached : cached kind s.caches token out now with
  | mk answer caches =>
      have hcall : call r kind s.caches token out now later response
          = match (answer, caches) with
            | (some (result, out), caches) => (result, out, caches)
            | (none, caches) => retrieve r kind caches token out later response := by
        rw [call, hcached]
      cases answer with
      | some answer =>
          refine ⟨[.begin c kind token out now], s.begin c kind token out now, ?_, ?_, ?_⟩
          · rw [Transitions.run, hbegin]
            rfl
          · rw [hcall, State.begin, hcached]
            exact Function.update_self _ _ _
          · rw [hcall, State.begin, hcached]
      | none =>
          -- the request, its answer and what is made of it
          let sent : State F U ι :=
            { s with caches, phase := Function.update s.phase c (.requested kind token out) }
          let told : State F U ι :=
            { sent with phase := Function.update sent.phase c (.responded kind token out response) }
          have hsent : s.begin c kind token out now = sent := by
            rw [State.begin, hcached]
          have hrespond : sent.step r (.respond c response) = some told := by
            simp only [State.step, sent, told, Function.update_self, hservice, and_false, if_false]
          let done : State F U ι :=
            { told with
              caches := (retrieve r kind caches token out later response).2.2
              phase := Function.update told.phase c
                (.returned (retrieve r kind caches token out later response).1
                  (retrieve r kind caches token out later response).2.1) }
          have hfinish : told.step r (.finish c later) = some done := by
            simp only [State.step, sent, told, done, Function.update_self]
          refine ⟨[.begin c kind token out now, .respond c response, .finish c later], done,
            ?_, ?_, ?_⟩
          · rw [Transitions.run_cons hbegin, hsent, Transitions.run_cons hrespond,
              Transitions.run_cons hfinish]
            rfl
          · rw [hcall]
            exact Function.update_self _ _ _
          · rw [hcall]

end OwAnalytics.Auth
