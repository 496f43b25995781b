/-
  OwAnalytics.Services.InternalCalls

  Calls to other services (`framework/OpenAPIRequests.cpp`).  Without the token of a user
  a call shows the key that the service it goes to has announced.  The registry decides
  where it goes: to the first service of the type that the caller has heard of, which
  lets it in, and to nobody else.  Where the environment names a fake service instead,
  the registry is not asked.
-/

import OwAnalytics.Rest.Gate
import OwAnalytics.Services.Membership

namespace OwAnalytics.Services

open Heartbeat

variable {F : Type}

/-! ## Services to call -/

/-- The environment, as `Poco::Environment::get` reads it. -/
abbrev Environment := Str → Option Str

/-- `Poco::toUpper`. -/
def toUpper (s : Str) : Str := s.map Char.toUpper

/-- `EnvName`: the variable with the address of a fake service of the type. -/
def fakeServiceVariable (type : Str) : Str :=
  ("FAKE_EXTERNAL_SERVICE_".toList ++ toUpper type).map fun c => if c = '-' then '_' else c

/-- The fake service of the type, if fake services are on and this one has an address. -/
def fakeService (env : Environment) (type : Str) : Option MicroServiceMeta :=
  if (env "CI_FAKE_EXTERNAL_SERVICES".toList).getD [] = "1".toList then
    let overrideUrl := (env (fakeServiceVariable type)).getD []
    if !overrideUrl.isEmpty then
      some
        { id := 0
          type
          privateEndPoint := overrideUrl
          publicEndPoint := overrideUrl
          accessKey := "ci-fake-key".toList
          version := "ci-fake".toList
          lastUpdate := 0 }
    else none
  else none

/-- `MicroServiceGetServices` of a type. -/
def microServiceGetServices (env : Environment) (m : MicroService) (type : Str) :
    List MicroServiceMeta :=
  match fakeService env type with
  | some service => [service]
  | none => getServices m type

/-! ## Calls -/

/-- `OpenAPIRequestGet` and its kin, as they are made. -/
structure OpenAPIRequest (F : Type) where
  type : Str
  endPoint : Str
  queryData : List (Str × Str) := []
  /-- Of `OpenAPIRequestPut` and `OpenAPIRequestPost`. -/
  body : Option (Document F) := none

/-- A request as it is sent to a private endpoint. -/
structure Sent where
  privateEndPoint : Str
  method : Str
  path : Str
  queryParameters : List (Str × Str)
  /-- `X-API-KEY`. -/
  apiKey : Option Str
  /-- `X-INTERNAL-NAME`. -/
  internalName : Option Str
  authorization : Option Str
  body : Option Str

/-- What comes back: the status, and the text after the headers. -/
structure Response where
  status : ℕ
  text : Str

/-- The class of a call. -/
inductive Verb
  | get
  | put
  | post
  | delete

namespace Verb

/-- The name of a method of HTTP. -/
def method : Verb → Str
  | get => "GET".toList
  | put => "PUT".toList
  | post => "POST".toList
  | delete => "DELETE".toList

/-- Whether an answer of this status is parsed; two of the classes parse in both branches. -/
def parses : Verb → ℕ → Bool
  | get, status => status == 200
  | put, _ => true
  | post, _ => true
  | delete, _ => false

end Verb

namespace OpenAPIRequest

/-- `HTTP_GATEWAY_TIMEOUT`. -/
def gatewayTimeout : ℕ := 504

section Calls

variable (L : JsonLibrary F)
  /- `MicroServicePublicEndPoint()`. -/
  (publicEndPoint : Str)
  (env : Environment)
  /- The session with the other service; `none` for an exception. -/
  (send : Sent → Option Response)

/-- The request to a service. -/
def requestTo (verb : Verb) (call : OpenAPIRequest F) (bearerToken : Str)
    (svc : MicroServiceMeta) : Sent where
  privateEndPoint := svc.privateEndPoint
  method := verb.method
  path := call.endPoint
  queryParameters := call.queryData
  apiKey := if bearerToken.isEmpty then some svc.accessKey else none
  internalName := if bearerToken.isEmpty then some publicEndPoint else none
  authorization := if bearerToken.isEmpty then none else some ("Bearer ".toList ++ bearerToken)
  body := call.body.map L.stringify

/-- What is sent: the loop over the services returns in its first round. -/
def sent? (verb : Verb) (m : MicroService) (call : OpenAPIRequest F) (bearerToken : Str) :
    Option Sent :=
  (microServiceGetServices env m call.type).head?.map
    (call.requestTo L publicEndPoint verb bearerToken)

/-- `Do`: the status, and the object that is set. -/
def call (verb : Verb) (m : MicroService) (call : OpenAPIRequest F) (bearerToken : Str) :
    ℕ × Option (Document F) :=
  match (call.sent? L publicEndPoint env verb m bearerToken).bind send with
  | none => (gatewayTimeout, none)
  | some response =>
    if verb.parses response.status then
      match L.parse response.text with
      | some (.obj members) => (response.status, some (.obj members))
      | _ => (gatewayTimeout, none)
    else (response.status, none)

/-- `OpenAPIRequestGet::Do`. -/
def get := call L publicEndPoint env send .get

/-- `OpenAPIRequestPut::Do`. -/
def put := call L publicEndPoint env send .put

/-- `OpenAPIRequestPost::Do`. -/
def post := call L publicEndPoint env send .post

/-- `OpenAPIRequestDelete::Do`. -/
def delete := call L publicEndPoint env send .delete

end Calls

end OpenAPIRequest

/-- What the internal server of the service finds in the request. -/
def Sent.arrives (sent : Sent) : Rest.Request where
  internal := true
  method := sent.method
  path := sent.path
  parameters := sent.queryParameters
  internalName := sent.internalName
  apiKey := sent.apiKey
  authorization := sent.authorization
  body := sent.body

/-! ## The gate of the other service -/

section Gate

variable {U ι : Type} [DecidableEq ι] {L : JsonLibrary F} {publicEndPoint : Str}

/-- The body of a call is an object. -/
def OpenAPIRequest.BodyIsObject (call : OpenAPIRequest F) : Prop :=
  ∀ d ∈ call.body, d.Ordered ∧ Rest.isObject d = true

theorem isObject_reread {d : Document F} (h : Rest.isObject d = true) :
    Rest.isObject (L.reread d) = true := by
  unfold Rest.isObject at h
  split at h
  · rw [JsonLibrary.reread, Document.reread]
    rfl
  · cases h

/-- A request with the key of the service is let in. -/
theorem arrive_of_key (hL : L.Inverts) {v : Rest.Service F U} (hv : v.parse = L.parse)
    {call : OpenAPIRequest F} (hbody : call.BodyIsObject) {svc : MicroServiceMeta}
    (hkey : svc.accessKey = v.myHash) {verb : Verb} {req : Rest.Request}
    (hreq : req = (call.requestTo L publicEndPoint verb [] svc).arrives)
    (hclass : (Rest.State.handler req).alwaysAuthorize = true)
    (hmethod : req.method ∈ (Rest.State.handler req).methods) (s : Rest.State F U ι) (k : ι)
    (now : UInt64) :
    s.arrive v k req now =
      s.withParameters k req
        (s.put k (.working (Rest.State.handler req) req (.internal publicEndPoint))) := by
  -- the body, if there is one, parses to an object, so it is not refused
  have hparses : ¬ (req.body.any fun text => !(v.parse text).any Rest.isObject) = true := by
    rw [hreq]
    show ¬ ((call.body.map L.stringify).any _) = true
    cases hcall : call.body with
    | none => simp
    | some d =>
      obtain ⟨hordered, hobject⟩ := hbody d hcall
      simp [hv, hL.parse_stringify hordered, isObject_reread hobject]
  have hoptions : req.method ≠ "OPTIONS".toList := by
    rw [hreq]
    show verb.method ≠ _
    cases verb <;> decide
  -- the key that was sent is the one this service expects
  have hcredential : Rest.credential v req = .internal true publicEndPoint := by
    rw [hreq]
    show Rest.Credential.internal (some svc.accessKey == some v.myHash) publicEndPoint = _
    rw [hkey, beq_self_eq_true]
  rw [Rest.State.arrive, if_neg hparses, if_neg hoptions, if_neg (not_not.mpr hmethod),
    Rest.State.authorize, if_pos hclass, hcredential]

end Gate

/-! ## Calls in a system of services -/

namespace Daemons

variable {S U ι : Type} [DecidableEq S] [DecidableEq ι] {L : JsonLibrary F}
  {identity : S → Identity} {ID_ : UInt64}

/-- A call goes to the fake service of its type, if there is one.  Else, while the services keep
    their times, a call of the observer without a token goes to the endpoint of another service of
    the type it is for, with the key of that service and the name of the observer, and is let in by
    the handlers of a service that has this key; a call with a token shows no key; a call is sent
    if a service of the type runs whose join has come; and if all of them have left, and their last
    messages have come, the call times out. -/
theorem calls_reach_peers (hL : L.Inverts)
    (hinj : Function.Injective fun s => (identity s).myPrivateEndPoint) {period delay : ℕ}
    (hlimit : period + delay ≤ 120) {c : Daemons S} (h : OnTime L identity ID_ period delay c)
    (publicEndPoint : Str) (env : Environment) (verb : Verb) (call : OpenAPIRequest F)
    (hbody : call.BodyIsObject) :
    (∀ service, fakeService env call.type = some service → ∀ token,
      call.sent? L publicEndPoint env verb c.registry token =
        some (call.requestTo L publicEndPoint verb token service)) ∧
    (fakeService env call.type = none →
      (∀ sent, call.sent? L publicEndPoint env verb c.registry [] = some sent →
        ∃ s, ¬ IsOwn identity ID_ s ∧
          toLower (identity s).daemonAppName = toLower call.type ∧
          sent.privateEndPoint = (identity s).myPrivateEndPoint ∧
          sent.apiKey = some (identity s).myHash ∧
          ∀ v : Rest.Service F U, v.parse = L.parse → v.myHash = (identity s).myHash →
            (Rest.State.handler sent.arrives).alwaysAuthorize = true →
            sent.arrives.method ∈ (Rest.State.handler sent.arrives).methods →
            ∀ (st : Rest.State F U ι) (k : ι) (now : UInt64),
              st.arrive v k sent.arrives now =
                st.withParameters k sent.arrives
                  (st.put k (.working (Rest.State.handler sent.arrives) sent.arrives
                    (.internal publicEndPoint)))) ∧
      (∀ token ≠ [], ∀ sent, call.sent? L publicEndPoint env verb c.registry token = some sent →
        sent.apiKey = none ∧ sent.internalName = none) ∧
      (∀ s last token, ¬ IsOwn identity ID_ s →
        toLower (identity s).daemonAppName = toLower call.type → c.threads s = .here last →
        (∀ e ∈ c.bus, e.2 ≠ (identity s).makeSystemEventMessage L EVENT_JOIN) →
        (call.sent? L publicEndPoint env verb c.registry token).isSome = true) ∧
      ((∀ s, ¬ IsOwn identity ID_ s → toLower (identity s).daemonAppName = toLower call.type →
          c.threads s = .away ∧
            ∀ e ∈ c.bus, ∀ type, e.2 ≠ (identity s).makeSystemEventMessage L type) →
        ∀ send token, call.call L publicEndPoint env send verb c.registry token =
          (OpenAPIRequest.gatewayTimeout, none))) := by
  refine ⟨fun service hfake token => ?_, fun hnone => ?_⟩
  · rw [OpenAPIRequest.sent?, microServiceGetServices, hfake]
    rfl
  have hservices : microServiceGetServices env c.registry call.type =
      getServices c.registry call.type := by
    rw [microServiceGetServices, hnone]
  have hentry : ∀ info ∈ getServices c.registry call.type, ∃ s r, ¬ IsOwn identity ID_ s ∧
      info = (identity s).toMeta (UInt64.ofNat r) ∧
        toLower (identity s).daemonAppName = toLower call.type ∧
          contents c.registry (identity s).myPrivateEndPoint = some info := by
    intro info hinfo
    obtain ⟨htype, k, hk⟩ := mem_getServices_iff.mp hinfo
    obtain ⟨s, r, hown, rfl, rfl, -⟩ := exists_member_of_entry hL hinj hlimit h hk
    exact ⟨s, r, hown, rfl, htype, hk⟩
  simp only [OpenAPIRequest.call, OpenAPIRequest.sent?, hservices]
  refine ⟨fun sent hsent => ?_, fun token htoken sent hsent => ?_,
    fun s last token hown htype hs hjoin => ?_, fun haway send token => ?_⟩
  · obtain ⟨svc, hsvc, rfl⟩ := Option.map_eq_some_iff.mp hsent
    obtain ⟨s, r, hown, rfl, htype, -⟩ := hentry svc (List.mem_of_mem_head? hsvc)
    refine ⟨s, hown, htype, rfl, rfl, fun v hv hkey hclass hmethod st k now => ?_⟩
    exact arrive_of_key hL hv hbody hkey.symm rfl hclass hmethod st k now
  · obtain ⟨svc, -, rfl⟩ := Option.map_eq_some_iff.mp hsent
    have hnonempty : ¬ token.isEmpty = true := by simpa using htoken
    exact ⟨if_neg hnonempty, if_neg hnonempty⟩
  · obtain ⟨r, hr, -, -⟩ := entry_of_here hL hinj hlimit h hown hs hjoin
    have hmem : (identity s).toMeta (UInt64.ofNat r) ∈ getServices c.registry call.type :=
      mem_getServices_iff.mpr ⟨htype, _, hr⟩
    rw [Option.isSome_map, List.isSome_head?]
    exact List.ne_nil_of_mem hmem
  · -- nobody of the type is in the registry
    have hnobody : getServices c.registry call.type = [] := by
      apply List.eq_nil_iff_forall_not_mem.mpr
      intro info hinfo
      obtain ⟨s, r, hown, -, htype, hat⟩ := hentry info hinfo
      obtain ⟨hs, hleft⟩ := haway s hown htype
      rw [no_entry_of_away hL hinj hlimit h hs hleft] at hat
      cases hat
    rw [hnobody]
    rfl

/-- The call of the coordinator for the devices of a venue. -/
def venueCall : OpenAPIRequest Int64 where
  type := "owprov".toList
  endPoint := "/api/v1/venue/v".toList
  queryData := [("getDevices".toList, "true".toList)]

/-- An environment in which the provisioning service is a fake one. -/
def fakeProv : Environment := fun name =>
  if name = "CI_FAKE_EXTERNAL_SERVICES".toList then some "1".toList
  else if name = "FAKE_EXTERNAL_SERVICE_OWPROV".toList then some "http://fake".toList
  else none

/-- The call goes to the other service with its key, and to the fake one with the fake key. -/
theorem calls_reach_peers_of_join : ∃ c : Daemons Bool,
    OnTime JsonText.library twoServices 1 10 110 c ∧
      (∃ sent, venueCall.sent? JsonText.library ['a'] (fun _ => none) .get c.registry [] =
          some sent ∧ sent.apiKey = some ['h']) ∧
      ∃ sent, venueCall.sent? JsonText.library ['a'] fakeProv .get c.registry [] = some sent ∧
        sent.privateEndPoint = "http://fake".toList ∧ sent.apiKey = some "ci-fake-key".toList := by
  obtain ⟨c, h, hs, hbus⟩ := onTime_join
  have hbody : venueCall.BodyIsObject := fun _ hd => absurd hd (by simp [venueCall])
  obtain ⟨-, hregistry⟩ := calls_reach_peers (U := Unit) (ι := Unit) JsonText.inverts_library
    twoServices_injective (by decide) h ['a'] (fun _ => none) .get venueCall hbody
  obtain ⟨hreach, -, hsent, -⟩ := hregistry rfl
  obtain ⟨hfake, -⟩ := calls_reach_peers (U := Unit) (ι := Unit) JsonText.inverts_library
    twoServices_injective (by decide) h ['a'] fakeProv .get venueCall hbody
  obtain ⟨sent, hsent⟩ := Option.isSome_iff_exists.mp
    (hsent true 0 [] (by decide) (by decide) hs (by simp [hbus]))
  obtain ⟨s, -, -, -, hkey, -⟩ := hreach sent hsent
  refine ⟨c, h, ⟨sent, hsent, hkey.trans ?_⟩, _, hfake _ rfl [], rfl, rfl⟩
  cases s <;> rfl

end Daemons

end OwAnalytics.Services
