/-
  OwAnalytics.Rest.Gate

  `RESTAPIHandler::handleRequest` (`framework/RESTAPI_Handler.h`) up to the call of
  `DoGet` and its kin, for the requests of all connections of both servers at once.  A
  request is checked in steps, and waits for the security service in between; the
  caches of `AuthClient` are shared.  The handlers of the devices are not checked here
  and look at the bearer token first (`AuthenticateBearerToken`).
-/

import OwAnalytics.Auth.Provenance
import OwAnalytics.Lib.History
import OwAnalytics.Rest.QueryBlock
import OwAnalytics.Rest.Routers

namespace OwAnalytics.Rest

open Auth (Kind Out Phase Reader UserInfoAndPolicy)
open Mcp (extractBearerToken unauthorizedMessage)

variable {F U ι : Type}

/-! ## Requests and replies -/

/-- What is read of a request. -/
structure Request where
  /-- It came to the internal server. -/
  internal : Bool := false
  method : Str := "GET".toList
  path : Str
  parameters : Parameters := []
  /-- `X-INTERNAL-NAME`. -/
  internalName : Option Str := none
  /-- `X-API-KEY`. -/
  apiKey : Option Str := none
  /-- `Authorization`. -/
  authorization : Option Str := none
  /-- A body that is not empty, of a content type with `application/json`. -/
  body : Option Str := none

/-- `RESTAPI::Errors::msg`. -/
structure Msg where
  errNum : UInt64
  errTxt : Str
deriving DecidableEq

namespace Errors

/-- `RESTAPI::Errors::INVALID_TOKEN`. -/
def invalidToken : Msg := ⟨8, "Invalid token.".toList⟩

/-- `RESTAPI::Errors::EXPIRED_TOKEN`. -/
def expiredToken : Msg := ⟨9, "Expired token.".toList⟩

/-- `RESTAPI::Errors::SECURITY_SERVICE_UNREACHABLE`. -/
def securityServiceUnreachable : Msg :=
  ⟨13, "Security service is unreachable, try again later.".toList⟩

/-- `RESTAPI::Errors::InternalError`. -/
def internalError : Msg := ⟨1002, "Internal error. Please try later.".toList⟩

/-- `RESTAPI::Errors::UnsupportedHTTPMethod`. -/
def unsupportedHTTPMethod : Msg := ⟨1004, "Unsupported HTTP Method".toList⟩

end Errors

/-- An answer without the handler. -/
inductive Reply
  /-- `ProcessOptions`. -/
  | options
  | badRequest (e : Msg)
  | unauthorized (e : Msg)
  /-- `SendError`. -/
  | sendError (e : Mcp.Error)
deriving DecidableEq

/-- For whom a handler works: `UserInfo_`, or the name of another service. -/
inductive Caller (U : Type)
  | internal (name : Str)
  | user (userInfo : UserInfoAndPolicy U)
  | anonymous

/-- The rest of the service, of which the checks depend. -/
structure Service (F U : Type) where
  reader : Reader F U
  /-- The parser of the bodies. -/
  parse : Str → Option (Document F)
  /-- The token of a header, from `OAuth20Credentials`, which throws if there is none. -/
  bearerToken : Str → Option Str
  /-- `MyHash_`. -/
  myHash : Str
  /-- `UserInfo` as it is made. -/
  noUser : U

/-- `UserInfo_` and the variables of `handleRequest`, as they are made. -/
def Service.fresh (v : Service F U) : Out U := { uInfo := { userinfo := v.noUser } }

/-- What `extract<Poco::JSON::Object::Ptr>` takes. -/
def isObject : Document F → Bool
  | .obj _ => true
  | _ => false

/-- What a request shows to be let in. -/
inductive Credential
  | internal (allowed : Bool) (name : Str)
  | call (kind : Kind) (token : Str)

/-- The branches of `IsAuthorized`. -/
def credential (v : Service F U) (req : Request) : Credential :=
  match req.internal, req.internalName, req.apiKey with
  | true, some name, apiKey => .internal (apiKey == some v.myHash) name
  | false, _, some key => .call .isValidApiKey key
  | _, _, _ => .call .isAuthorized ((req.authorization.bind v.bearerToken).getD [])

/-! ## The steps of the requests -/

/-- Where a connection is. -/
inductive Connection (U : Type)
  | free
  /-- Its request waits for the security service. -/
  | authorizing (h : Handler) (req : Request) (kind : Kind) (token : Str)
  /-- `DoGet` and its kin run. -/
  | working (h : Handler) (req : Request) (who : Caller U)
  | answered (reply : Reply)
  /-- An exception went past `handleRequest`. -/
  | escaped (e : Exception)

/-- The client of the security service, and the connections. -/
structure State (F U ι : Type) where
  auth : Auth.State F U ι
  connection : ι → Connection U

/-- The steps of the connections, and of the clients of the security service. -/
inductive Label (F U ι : Type)
  /-- A request arrives, and is checked up to the security service. -/
  | arrive (c : ι) (req : Request) (now : UInt64)
  /-- A step of `AuthClient`, of the service or of another thread. -/
  | auth (a : Auth.Label F U ι)
  /-- The call of a connection has returned, and its request goes on. -/
  | proceed (c : ι)
  /-- The handler has answered. -/
  | finish (c : ι)

variable [DecidableEq ι]

namespace State

variable (v : Service F U) (s : State F U ι) (c : ι)

/-- A connection goes on. -/
def put (k : Connection U) : State F U ι :=
  { s with connection := Function.update s.connection c k }

/-- `ParseParameters`, with what comes after it. -/
def withParameters (req : Request) (k : State F U ι) : State F U ι :=
  match initQueryBlock req.parameters with
  | .ok _ => k
  | .error .poco => s.put c (.answered (.badRequest Errors.internalError))
  | .error e => s.put c (.escaped e)

/-- A call of the client of the security service begins. -/
def call (h : Handler) (req : Request) (kind : Kind) (token : Str) (now : UInt64) :
    State F U ι :=
  { s.put c (.authorizing h req kind token) with
    auth := s.auth.begin c kind token v.fresh now }

/-- The checks of a request whose method the handler has. -/
def authorize (h : Handler) (req : Request) (now : UInt64) : State F U ι :=
  if h.alwaysAuthorize then
    match credential v req with
    | .internal true name => s.withParameters c req (s.put c (.working h req (.internal name)))
    | .internal false _ => s.put c (.answered (.unauthorized Errors.invalidToken))
    | .call kind token => s.call v c h req kind token now
  else
    s.withParameters c req <|
      if h.authenticates then
        match extractBearerToken req.authorization with
        | .error e => s.put c (.answered (.sendError e))
        | .ok token => s.call v c h req .isAuthorized token now
      else s.put c (.working h req .anonymous)

/-- The class that gets the request. -/
def handler (req : Request) : Handler :=
  (router req.path (if req.internal then intHandlers else extHandlers) fun _ => none).1

/-- `handleRequest` up to the security service; no class has a limit of its rate. -/
def arrive (req : Request) (now : UInt64) : State F U ι :=
  -- a body that is no object throws, and the exception is answered
  if (req.body.any fun text => !(v.parse text).any isObject) = true then
    s.put c (.answered (.badRequest Errors.internalError))
  else if req.method = "OPTIONS".toList then s.put c (.answered .options)
  else if req.method ∉ (handler req).methods then
    s.put c (.answered (.badRequest Errors.unsupportedHTTPMethod))
  else s.authorize v c (handler req) req now

/-- What a request gets that is not let in. -/
def refusal (h : Handler) (out : Out U) : Reply :=
  if h.authenticates then
    .sendError (Mcp.setError .unauthorized "unauthorized" unauthorizedMessage)
  else if out.expired then .unauthorized Errors.expiredToken
  else if out.contacted then .unauthorized Errors.invalidToken
  else .unauthorized Errors.securityServiceUnreachable

/-- What comes after the security service. -/
def proceed (h : Handler) (req : Request) (result : Bool) (out : Out U) : State F U ι :=
  if result = false then s.put c (.answered (refusal h out))
  else if h.alwaysAuthorize then
    s.withParameters c req (s.put c (.working h req (.user out.uInfo)))
  else s.put c (.working h req (.user out.uInfo))

/-- A step, if it is enabled. -/
def step : Label F U ι → Option (State F U ι)
  | .arrive c req now =>
    match s.connection c with
    | .authorizing .. | .working .. => none
    | _ => some (s.arrive v c req now)
  | .auth (.begin ..) => none
  | .auth a => (s.auth.step v.reader a).map fun auth => { s with auth }
  | .proceed c =>
    match s.connection c, s.auth.phase c with
    | .authorizing h req _ _, .returned result out => some (s.proceed c h req result out)
    | _, _ => none
  | .finish c =>
    match s.connection c with
    | .working .. => some (s.put c .free)
    | _ => none

end State

/-! ## What the checks establish -/

section Inv

variable (v : Service F U)

/-- The token or key of the request. -/
def Presents (h : Handler) (req : Request) (kind : Kind) (token : Str) : Prop :=
  if h.alwaysAuthorize then credential v req = .call kind token
  else h.authenticates = true ∧ kind = .isAuthorized ∧
    extractBearerToken req.authorization = .ok token

/-- The request has reached a handler that its path and its method belong to. -/
def Routed (h : Handler) (req : Request) : Prop :=
  h = State.handler req ∧ req.method ∈ h.methods ∧ req.method ≠ "OPTIONS".toList

/-- Who may be worked for, where `told` is what the security service has told of a token. -/
def Entitled (told : Kind → Str → UserInfoAndPolicy U → Prop) (h : Handler) (req : Request) :
    Caller U → Prop
  | .internal name =>
    h.alwaysAuthorize = true ∧ req.internal = true ∧ req.internalName = some name ∧
      req.apiKey = some v.myHash
  | .user userInfo => ∃ kind token, Presents v h req kind token ∧ told kind token userInfo
  | .anonymous => h = .webSocketServer ∧ req.internal = false

/-- What a call that is not over is about, and what it may end with. -/
def CallInv (told : Kind → Str → UserInfoAndPolicy U → Prop) : Phase F U → Prop
  | .requested _ _ out => out.uInfo = v.fresh.uInfo
  | .responded kind token out response =>
    out.uInfo = v.fresh.uInfo ∧
      ∀ user, Auth.Tells v.reader kind v.fresh.uInfo response user → told kind token user
  | _ => True

/-- The call of a connection is the one its request has to wait for. -/
def Awaits (told : Kind → Str → UserInfoAndPolicy U → Prop) (kind : Kind) (token : Str) :
    Phase F U → Prop
  | .requested kind' token' _ => kind' = kind ∧ token' = token
  | .responded kind' token' _ _ => kind' = kind ∧ token' = token
  | .returned result out => result = true → told kind token out.uInfo
  | .idle => True

/-- What holds of a connection, with where its call of `AuthClient` stands. -/
def ConnectionInv (told : Kind → Str → UserInfoAndPolicy U → Prop) (phase : Phase F U) :
    Connection U → Prop
  | .authorizing h req kind token =>
    Routed h req ∧ Presents v h req kind token ∧ Awaits told kind token phase
  | .working h req who => Routed h req ∧ Entitled v told h req who
  | _ => True

/-- All that is cached, in flight and let in goes back to what has been told. -/
structure Inv (told : Kind → Str → UserInfoAndPolicy U → Prop) (s : State F U ι) : Prop where
  entries : ∀ kind token user, Auth.entry kind s.auth.caches token = some user →
    told kind token user
  calls : ∀ c, CallInv v told (s.auth.phase c)
  connections : ∀ c, ConnectionInv v told (s.auth.phase c) (s.connection c)

variable {v} {told told' : Kind → Str → UserInfoAndPolicy U → Prop}

omit [DecidableEq ι] in
/-- More may be told. -/
theorem Inv.mono {s : State F U ι} (h : Inv v told s)
    (hmono : ∀ kind token user, told kind token user → told' kind token user) :
    Inv v told' s where
  entries kind token user hentry := hmono _ _ _ (h.entries kind token user hentry)
  calls c := by
    have hcall := h.calls c
    cases hphase : s.auth.phase c with
    | idle => trivial
    | requested kind token out =>
      rw [hphase] at hcall
      exact hcall
    | responded kind token out response =>
      rw [hphase] at hcall
      exact ⟨hcall.1, fun user htells => hmono _ _ _ (hcall.2 user htells)⟩
    | returned result out => trivial
  connections c := by
    have hconnection := h.connections c
    cases hc : s.connection c with
    | authorizing h' req kind token =>
      rw [hc] at hconnection
      obtain ⟨hrouted, hpresents, hawaits⟩ := hconnection
      refine ⟨hrouted, hpresents, ?_⟩
      cases hphase : s.auth.phase c with
      | idle => trivial
      | requested kind' token' out =>
        rw [hphase] at hawaits
        exact hawaits
      | responded kind' token' out response =>
        rw [hphase] at hawaits
        exact hawaits
      | returned result out =>
        rw [hphase] at hawaits
        exact fun hresult => hmono _ _ _ (hawaits hresult)
    | working h' req who =>
      rw [hc] at hconnection
      obtain ⟨hrouted, hentitled⟩ := hconnection
      refine ⟨hrouted, ?_⟩
      cases who with
      | internal name => exact hentitled
      | user userInfo =>
        obtain ⟨kind, token, hpresents, htold⟩ := hentitled
        exact ⟨kind, token, hpresents, hmono _ _ _ htold⟩
      | anonymous => exact hentitled
    | free => trivial
    | answered reply => trivial
    | escaped e => trivial

/-! ## One step -/

variable {s : State F U ι} {c : ι}

/-- A connection moves on, and the client of the security service stays. -/
theorem Inv.put (h : Inv v told s) {k : Connection U}
    (hk : ConnectionInv v told (s.auth.phase c) k) : Inv v told (s.put c k) where
  entries := h.entries
  calls := h.calls
  connections c' := by
    show ConnectionInv v told (s.auth.phase c') (Function.update s.connection c k c')
    by_cases hc : c' = c
    · subst hc
      rw [Function.update_self]
      exact hk
    · rw [Function.update_of_ne hc]
      exact h.connections c'

theorem Inv.withParameters (h : Inv v told s) {req : Request} {k : State F U ι}
    (hk : Inv v told k) : Inv v told (s.withParameters c req k) := by
  unfold State.withParameters
  split
  · exact hk
  · exact h.put trivial
  · exact h.put trivial

/-- A call ends at once with what is cached, or sends its request. -/
theorem Inv.call (h : Inv v told s) {hd : Handler} {req : Request} {kind : Kind} {token : Str}
    (hrouted : Routed hd req) (hpresents : Presents v hd req kind token) (now : UInt64) :
    Inv v told (s.call v c hd req kind token now) := by
  obtain ⟨hwithin, haccepts⟩ := Auth.cached_spec kind s.auth.caches token v.fresh now
  -- the phase of the connection, and the caches
  have hbegin : ∃ phase, (s.call v c hd req kind token now).auth.phase =
        Function.update s.auth.phase c phase ∧
      (s.call v c hd req kind token now).auth.caches =
        (Auth.cached kind s.auth.caches token v.fresh now).2 ∧
      CallInv v told phase ∧ Awaits told kind token phase := by
    show ∃ phase, (s.auth.begin c kind token v.fresh now).phase = _ ∧
      (s.auth.begin c kind token v.fresh now).caches = _ ∧ _
    unfold Auth.State.begin
    rcases hcached : Auth.cached kind s.auth.caches token v.fresh now with
      ⟨_ | ⟨result, out⟩, caches⟩
    · exact ⟨.requested kind token v.fresh, rfl, rfl, rfl, rfl, rfl⟩
    · refine ⟨.returned result out, rfl, rfl, trivial, fun hresult => ?_⟩
      refine h.entries kind token _ (haccepts out ?_)
      rw [hcached, ← hresult]
  obtain ⟨phase, hphase, hcaches, hcall, hawaits⟩ := hbegin
  refine ⟨?_, fun c' => ?_, fun c' => ?_⟩
  · rw [hcaches]
    exact fun k t user hentry => h.entries k t user (hwithin k t user hentry)
  · rw [hphase]
    by_cases hc : c' = c
    · rw [hc, Function.update_self]
      exact hcall
    · rw [Function.update_of_ne hc]
      exact h.calls c'
  · rw [hphase]
    show ConnectionInv v told _
      (Function.update s.connection c (.authorizing hd req kind token) c')
    by_cases hc : c' = c
    · rw [hc, Function.update_self, Function.update_self]
      exact ⟨hrouted, hpresents, hawaits⟩
    · rw [Function.update_of_ne hc, Function.update_of_ne hc]
      exact h.connections c'

omit [DecidableEq ι] in
/-- A class that is neither checked nor checks itself is that of the web sockets. -/
theorem webSocketServer_of_unchecked {req : Request} {hd : Handler} (hrouted : Routed hd req)
    (halways : ¬ hd.alwaysAuthorize = true) (hself : ¬ hd.authenticates = true) :
    hd = .webSocketServer ∧ req.internal = false := by
  have hsocket : hd = .webSocketServer := by
    cases hd <;> first | rfl | exact absurd rfl halways | exact absurd rfl hself
  refine ⟨hsocket, ?_⟩
  obtain ⟨hhandler, -, -⟩ := hrouted
  by_contra hinternal
  have hmem := router_mem req.path intHandlers fun _ => none
  rw [hsocket, State.handler, if_pos (Bool.not_eq_false _ ▸ hinternal)] at hhandler
  rw [← hhandler] at hmem
  exact absurd hmem (by decide)

theorem Inv.authorize (h : Inv v told s) {hd : Handler} {req : Request}
    (hrouted : Routed hd req) (now : UInt64) : Inv v told (s.authorize v c hd req now) := by
  unfold State.authorize
  -- a handler that authorizes asks with a credential, the others ask themselves or not at all
  by_cases halways : hd.alwaysAuthorize = true
  · rw [if_pos halways]
    cases hcredential : credential v req with
    | internal allowed name =>
      cases allowed with
      | false => exact h.put trivial
      | true =>
        refine h.withParameters (h.put ⟨hrouted, halways, ?_⟩)
        unfold credential at hcredential
        split at hcredential
        · rename_i hinternal hname
          obtain ⟨hkey, rfl⟩ := Credential.internal.inj hcredential
          exact ⟨hinternal, hname, beq_iff_eq.mp hkey⟩
        · cases hcredential
        · cases hcredential
    | call kind token =>
      refine h.call hrouted ?_ now
      rw [Presents, if_pos halways]
      exact hcredential
  · rw [if_neg halways]
    refine h.withParameters ?_
    by_cases hself : hd.authenticates = true
    · rw [if_pos hself]
      cases hextract : extractBearerToken req.authorization with
      | error e => exact h.put trivial
      | ok token =>
        refine h.call hrouted ?_ now
        rw [Presents, if_neg halways]
        exact ⟨hself, rfl, hextract⟩
    · rw [if_neg hself]
      exact h.put ⟨hrouted, webSocketServer_of_unchecked hrouted halways hself⟩

theorem Inv.arrive (h : Inv v told s) (req : Request) (now : UInt64) :
    Inv v told (s.arrive v c req now) := by
  unfold State.arrive
  split
  · exact h.put trivial
  · split
    · exact h.put trivial
    · rename_i hoptions
      split
      · exact h.put trivial
      · rename_i hmethod
        exact h.authorize ⟨rfl, not_not.mp hmethod, hoptions⟩ now

theorem Inv.proceed (h : Inv v told s) {hd : Handler} {req : Request} {kind : Kind} {token : Str}
    {result : Bool} {out : Out U} (hc : s.connection c = .authorizing hd req kind token)
    (hphase : s.auth.phase c = .returned result out) :
    Inv v told (s.proceed c hd req result out) := by
  have hconnection := h.connections c
  rw [hc, hphase] at hconnection
  obtain ⟨hrouted, hpresents, hawaits⟩ := hconnection
  unfold State.proceed
  cases result with
  | false => exact h.put trivial
  | true =>
    rw [if_neg (by decide)]
    have hworking : Inv v told (s.put c (.working hd req (.user out.uInfo))) :=
      h.put ⟨hrouted, kind, token, hpresents, hawaits rfl⟩
    split
    · exact h.withParameters hworking
    · exact hworking

omit [DecidableEq ι] in
/-- Entries are dropped, and no call moves. -/
theorem Inv.caches (h : Inv v told s) {auth' : Auth.State F U ι}
    (hwithin : Auth.Within auth'.caches s.auth.caches) (hphase : auth'.phase = s.auth.phase) :
    Inv v told { s with auth := auth' } where
  entries kind token user hentry := h.entries kind token user (hwithin kind token user hentry)
  calls c := by
    show CallInv v told (auth'.phase c)
    rw [hphase]
    exact h.calls c
  connections c := by
    show ConnectionInv v told (auth'.phase c) (s.connection c)
    rw [hphase]
    exact h.connections c

/-- One call moves on to a phase in which what it awaited is still awaited. -/
theorem Inv.phase (h : Inv v told s) {c : ι} (phase : Phase F U) (hcall : CallInv v told phase)
    (hawaits : ∀ kind token, Awaits told kind token (s.auth.phase c) →
      Awaits told kind token phase) :
    Inv v told { s with
      auth := { s.auth with phase := Function.update s.auth.phase c phase } } where
  entries := h.entries
  calls c' := by
    show CallInv v told (Function.update s.auth.phase c phase c')
    by_cases hc : c' = c
    · rw [hc, Function.update_self]
      exact hcall
    · rw [Function.update_of_ne hc]
      exact h.calls c'
  connections c' := by
    show ConnectionInv v told (Function.update s.auth.phase c phase c') (s.connection c')
    have hconnection := h.connections c'
    -- only the connection of this call looks at its phase
    by_cases hc : c' = c
    · subst hc
      rw [Function.update_self]
      cases hk : s.connection c' with
      | authorizing hd req kind token =>
        rw [hk] at hconnection
        exact ⟨hconnection.1, hconnection.2.1, hawaits kind token hconnection.2.2⟩
      | working hd req who =>
        rw [hk] at hconnection
        exact hconnection
      | free => trivial
      | answered reply => trivial
      | escaped e => trivial
    · rw [Function.update_of_ne hc]
      exact hconnection

/-- A step of the client keeps the invariant, if what the service tells with it has been told. -/
theorem Inv.auth (h : Inv v told s) {a : Auth.Label F U ι} {auth' : Auth.State F U ι}
    (hbegin : ∀ c kind token out now, a ≠ .begin c kind token out now)
    (hstep : s.auth.step v.reader a = some auth')
    (htold : ∀ c response, a = .respond c response → ∀ kind token out,
      s.auth.phase c = .requested kind token out → ∀ user,
        Auth.Tells v.reader kind v.fresh.uInfo response user → told kind token user) :
    Inv v told { s with auth := auth' } := by
  cases a with
  | begin c kind token out now => exact absurd rfl (hbegin c kind token out now)
  | respond c response =>
    simp only [Auth.State.step] at hstep
    split at hstep
    · rename_i kind token out hphase
      split_ifs at hstep
      obtain rfl := Option.some.inj hstep
      have hcall := h.calls c
      rw [hphase] at hcall
      refine h.phase _ ⟨hcall, htold c response rfl kind token out hphase⟩
        fun kind' token' hawaits => ?_
      rw [hphase] at hawaits
      exact hawaits
    · cases hstep
  | finish c now =>
    simp only [Auth.State.step] at hstep
    split at hstep
    · rename_i kind token out response hphase
      obtain rfl := Option.some.inj hstep
      have hcall := h.calls c
      rw [hphase] at hcall
      obtain ⟨hfresh, htells⟩ := hcall
      obtain ⟨haccepted, hentries⟩ :=
        Auth.processed_retrieve v.reader kind s.auth.caches token out now response
      rw [hfresh] at haccepted
      simp only [hfresh] at hentries
      have hmoved := h.phase (c := c) (.returned
        (Auth.retrieve v.reader kind s.auth.caches token out now response).1
        (Auth.retrieve v.reader kind s.auth.caches token out now response).2.1) trivial ?_
      · refine ⟨fun k t user hentry => ?_, hmoved.calls, hmoved.connections⟩
        -- the one new entry says what has just been told
        rcases hentries k t user hentry with hold | ⟨rfl, rfl, hnew⟩
        · exact h.entries k t user hold
        · exact htells user hnew
      · intro kind' token' hawaits hresult
        rw [hphase] at hawaits
        obtain ⟨rfl, rfl⟩ := hawaits
        exact htells _ (haccepted hresult)
    · cases hstep
  | removedCachedToken token revoked =>
    obtain rfl := Option.some.inj hstep
    exact h.caches (Auth.within_removedCachedToken _ _) rfl
  | evict kind token =>
    obtain rfl := Option.some.inj hstep
    exact h.caches (Auth.within_evict _ _ _) rfl
  | stop =>
    obtain rfl := Option.some.inj hstep
    exact h.caches (Auth.within_stop _) rfl

theorem Inv.step (h : Inv v told s) {a : Label F U ι} {s' : State F U ι}
    (hstep : s.step v a = some s')
    (htold : ∀ c response, a = .auth (.respond c response) → ∀ kind token out,
      s.auth.phase c = .requested kind token out → ∀ user,
        Auth.Tells v.reader kind v.fresh.uInfo response user → told kind token user) :
    Inv v told s' := by
  cases a with
  | arrive c req now =>
    simp only [State.step] at hstep
    split at hstep
    · cases hstep
    · cases hstep
    · obtain rfl := Option.some.inj hstep
      exact h.arrive req now
  | auth a =>
    -- calls begin with a connection, never by themselves
    by_cases hbegin : ∃ c kind token out now, a = .begin c kind token out now
    · obtain ⟨c, kind, token, out, now, rfl⟩ := hbegin
      cases hstep
    · have hauth :
          (s.auth.step v.reader a).map (fun auth => { s with auth := auth }) = some s' := by
        cases a with
        | begin c kind token out now => exact absurd ⟨c, kind, token, out, now, rfl⟩ hbegin
        | _ => exact hstep
      obtain ⟨auth', hauth', rfl⟩ := Option.map_eq_some_iff.mp hauth
      exact h.auth (fun c kind token out now heq => hbegin ⟨c, kind, token, out, now, heq⟩) hauth'
        fun c response heq => htold c response (heq ▸ rfl)
  | proceed c =>
    simp only [State.step] at hstep
    split at hstep
    · rename_i hconnection hphase
      obtain rfl := Option.some.inj hstep
      exact h.proceed hconnection hphase
    · cases hstep
  | finish c =>
    simp only [State.step] at hstep
    split at hstep
    · obtain rfl := Option.some.inj hstep
      exact h.put trivial
    · cases hstep

end Inv

/-! ## A run -/

open History Transitions

/-- Nothing is cached, and no request has come. -/
def State.start : State F U ι where
  auth := { phase := fun _ => .idle }
  connection _ := .free

/-- In the run the security service has vouched for the token, and has told this with it. -/
def Told (v : Service F U) (labels : List (Label F U ι)) (kind : Kind) (token : Str)
    (user : UserInfoAndPolicy U) : Prop :=
  Happened (State.step v) .start labels fun s a => ∃ c out response,
    a = .auth (.respond c response) ∧ s.auth.phase c = .requested kind token out ∧
      Auth.Tells v.reader kind v.fresh.uInfo response user

omit [DecidableEq ι] in
theorem inv_start (v : Service F U) (told : Kind → Str → UserInfoAndPolicy U → Prop) :
    Inv v told (State.start : State F U ι) where
  entries kind token user hentry := by
    cases kind with
    | isAuthorized =>
      rw [Auth.entry, State.start, Std.ExtTreeMap.getElem?_empty] at hentry
      cases hentry
    | isValidApiKey =>
      rw [Auth.entry, State.start, Std.ExtTreeMap.getElem?_empty] at hentry
      cases hentry
  calls _ := trivial
  connections _ := trivial

theorem inv_run (v : Service F U) {labels : List (Label F U ι)} {s : State F U ι}
    (hrun : run (State.step v) .start labels = some s) : Inv v (Told v labels) s := by
  refine History.invariant (fun labels s => Inv v (Told v labels) s) (inv_start v _) ?_ hrun
  intro labels t a t' hrun h hstep
  have hmore : Inv v (Told v (labels ++ [a])) t := h.mono fun _ _ _ htold => htold.append [a]
  refine hmore.step hstep ?_
  rintro c response rfl kind token out hphase user htells
  exact happened_last hrun ⟨c, out, response, rfl, hphase, htells⟩

/-- Whatever the order of the requests of all connections, of the answers of the security service,
    of removals and evictions: a handler works for a user only if the request is one of its class
    and shows a token or a key for which the security service has vouched, and then for the user
    the service has named with it and for no other; for another service only with the key of this
    one, on the internal server; and for nobody only if it is the handler of web sockets. -/
theorem works_for_entitled (v : Service F U) {labels : List (Label F U ι)} {s : State F U ι}
    (hrun : run (State.step v) .start labels = some s) {c : ι} {h : Handler} {req : Request}
    {who : Caller U} (hworking : s.connection c = .working h req who) :
    Routed h req ∧ Entitled v (Told v labels) h req who := by
  have hconnection := (inv_run v hrun).connections c
  rw [hworking] at hconnection
  exact hconnection

/-! ## Two requests with one token -/

/-- A security service that reads numbers only. -/
def numbersService : Service Unit Unit where
  reader :=
    { poco :=
        { text := fun _ => none
          uint64 := fun
            | .unsigned n => some n
            | _ => none }
      userInfo := fun u _ => u }
  parse _ := none
  bearerToken header := some (header.drop 7)
  myHash := "hash".toList
  noUser := ()

/-- A request for the list of the boards. -/
def boardsRequest : Request where
  path := "/api/v1/boards".toList
  authorization := some "Bearer token".toList

/-- The second request is let in with what is cached. -/
def twoRequests : List (Label Unit Unit ℕ) :=
  [.arrive 0 boardsRequest 50,
    .auth (.respond 0 (.answered 200 (some (.obj
      [("tokenInfo".toList, .obj [("expires_in".toList, .unsigned 1000)]),
        ("userInfo".toList, .obj [])])))),
    .auth (.finish 0 50), .proceed 0, .arrive 1 boardsRequest 60, .proceed 1]

/-- The user a connection works for, if it works for one. -/
def workingFor : Connection Unit → Option (UserInfoAndPolicy Unit)
  | .working .boardList _ (.user userInfo) => some userInfo
  | _ => none

theorem works_for_entitled_twoRequests : ∃ s req userInfo,
    run (State.step numbersService) .start twoRequests = some s ∧
      s.connection 1 = .working .boardList req (.user userInfo) ∧
      userInfo.webtoken.expiresIn = 1000 ∧
      Entitled numbersService (Told numbersService twoRequests) .boardList req
        (.user userInfo) := by
  have hworks : (run (State.step numbersService) .start twoRequests).map
      (fun s => workingFor (s.connection 1)) =
        some (some { webtoken := { expiresIn := 1000 }, userinfo := () }) := by
    decide +kernel
  obtain ⟨s, hrun, hs⟩ := Option.map_eq_some_iff.mp hworks
  unfold workingFor at hs
  split at hs
  · rename_i req userInfo hconnection
    obtain rfl := Option.some.inj hs
    exact ⟨s, req, _, hrun, hconnection, rfl,
      (works_for_entitled numbersService hrun hconnection).2⟩
  · cases hs

end OwAnalytics.Rest
