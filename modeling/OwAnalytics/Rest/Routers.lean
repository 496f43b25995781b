/-
  OwAnalytics.Rest.Routers

  Which handler a request goes to (`RESTAPI/RESTAPI_routers.cpp`, `RESTAPI_Router` of
  `framework/RESTAPI_Handler.h`): the classes are tried in turn, and the first of which
  an end point fits the path is taken.  The end points of any two classes have no path
  in common, so the turn does not matter.
-/

import OwAnalytics.Rest.Bindings

namespace OwAnalytics.Rest

/-- The classes of the handlers. -/
inductive Handler
  | systemCommand
  | systemConfiguration
  | boardDevices
  | boardTimepoint
  | board
  | boardList
  | wificlienthistory
  | deviceMemorySummary
  | deviceBandwidthConsumption
  | deviceRadioTemperatureSummary
  | deviceRssiSummary
  | deviceAvailabilitySummary
  | webSocketServer
  | unknownRequest
deriving DecidableEq

namespace Handler

/-- `PathName`. -/
def pathName : Handler → List Str
  | systemCommand => ["/api/v1/system".toList]
  | systemConfiguration => ["/api/v1/systemConfiguration".toList]
  | boardDevices => ["/api/v1/board/\x7bid\x7d/devices".toList]
  | boardTimepoint => ["/api/v1/board/\x7bid\x7d/timepoints".toList]
  | board => ["/api/v1/board/\x7bid\x7d".toList]
  | boardList => ["/api/v1/boards".toList]
  | wificlienthistory =>
    ["/api/v1/wifiClientHistory/\x7bclient\x7d".toList, "/api/v1/wifiClientHistory".toList]
  | deviceMemorySummary => ["/api/v1/devices/\x7brouterId\x7d/memory-summary".toList]
  | deviceBandwidthConsumption =>
    ["/api/v1/devices/\x7brouterId\x7d/wifi-clients/usage-summary".toList]
  | deviceRadioTemperatureSummary =>
    ["/api/v1/devices/\x7brouterId\x7d/radio-temperature-summary".toList]
  | deviceRssiSummary => ["/api/v1/devices/\x7brouterId\x7d/wifi-clients/rssi-summary".toList]
  | deviceAvailabilitySummary => ["/api/v1/devices/\x7brouterId\x7d/availability-summary".toList]
  | webSocketServer => ["/api/v1/ws".toList]
  | unknownRequest => []

/-- `Methods_`. -/
def methods : Handler → List Str
  | systemCommand => ["POST".toList, "GET".toList, "OPTIONS".toList]
  | systemConfiguration => ["PUT".toList, "GET".toList, "DELETE".toList, "OPTIONS".toList]
  | board => ["GET".toList, "POST".toList, "PUT".toList, "DELETE".toList, "OPTIONS".toList]
  | boardTimepoint | wificlienthistory => ["GET".toList, "DELETE".toList, "OPTIONS".toList]
  | unknownRequest => []
  | _ => ["GET".toList, "OPTIONS".toList]

/-- The handlers that check the bearer token themselves. -/
def authenticates : Handler → Bool
  | deviceMemorySummary | deviceBandwidthConsumption | deviceRadioTemperatureSummary
  | deviceRssiSummary | deviceAvailabilitySummary => true
  | _ => false

/-- `AlwaysAuthorize_`. -/
def alwaysAuthorize : Handler → Bool
  | webSocketServer => false
  | h => !h.authenticates

end Handler

/-- The classes of `RESTAPI_IntRouter`. -/
def intHandlers : List Handler :=
  [.systemCommand, .systemConfiguration, .boardDevices, .boardTimepoint, .board, .boardList,
    .wificlienthistory, .deviceMemorySummary, .deviceBandwidthConsumption,
    .deviceRadioTemperatureSummary, .deviceRssiSummary, .deviceAvailabilitySummary]

/-- The classes of `RESTAPI_ExtRouter`. -/
def extHandlers : List Handler := intHandlers ++ [.webSocketServer]

/-- `RESTAPI_Router`; a class that does not fit leaves its bindings to the next. -/
def router (path : Str) : List Handler → BindingMap → Handler × BindingMap
  | [], bindings => (.unknownRequest, bindings)
  | h :: rest, _ =>
    match parseBindings path h.pathName with
    | (true, bindings) => (h, bindings)
    | (false, bindings) => router path rest bindings

/-! ## One class for each path -/

/-- Some path may be an instance of both end points. -/
def overlaps (endPoint endPoint' : Str) : Bool :=
  (tokens endPoint '/').length == (tokens endPoint' '/').length &&
    ((tokens endPoint '/').zip (tokens endPoint' '/')).all fun s =>
      isParameter s.1 || isParameter s.2 || s.1 == s.2

/-- Segments that both fit agree where neither is a parameter. -/
theorem all_of_fits {items items₁ items₂ : List Str} (h₁ : items.length = items₁.length)
    (h₂ : items.length = items₂.length)
    (hfit₁ : ∀ s ∈ items.zip items₁, isParameter s.2 = false → s.1 = s.2)
    (hfit₂ : ∀ s ∈ items.zip items₂, isParameter s.2 = false → s.1 = s.2) :
    (items₁.zip items₂).all (fun s => isParameter s.1 || isParameter s.2 || s.1 == s.2) = true := by
  induction items generalizing items₁ items₂ with
  | nil =>
    rw [List.eq_nil_of_length_eq_zero h₁.symm, List.zip_nil_left]
    rfl
  | cons item items ih =>
    obtain ⟨item₁, rest₁, rfl⟩ := List.exists_cons_of_length_eq_add_one h₁.symm
    obtain ⟨item₂, rest₂, rfl⟩ := List.exists_cons_of_length_eq_add_one h₂.symm
    rw [List.zip_cons_cons, List.forall_mem_cons] at hfit₁ hfit₂
    rw [List.zip_cons_cons, List.all_cons, Bool.and_eq_true]
    refine ⟨?_, ih (Nat.succ.inj h₁) (Nat.succ.inj h₂) hfit₁.2 hfit₂.2⟩
    -- two literals of one place both equal the item of the path
    cases hp₁ : isParameter item₁ with
    | true => rfl
    | false =>
      cases hp₂ : isParameter item₂ with
      | true => rfl
      | false =>
        obtain rfl : item = item₁ := hfit₁.1 hp₁
        obtain rfl : item = item₂ := hfit₂.1 hp₂
        simp only [Bool.false_or, beq_self_eq_true]

theorem overlaps_of_instanceOf {path endPoint endPoint' : Str} (h : InstanceOf path endPoint)
    (h' : InstanceOf path endPoint') : overlaps endPoint endPoint' = true := by
  obtain ⟨hlength, hfit⟩ := h
  obtain ⟨hlength', hfit'⟩ := h'
  rw [overlaps, Bool.and_eq_true, beq_iff_eq]
  exact ⟨hlength.symm.trans hlength', all_of_fits hlength hlength' hfit hfit'⟩

/-- The path belongs to the class. -/
def Serves (h : Handler) (path : Str) : Prop := ∃ endPoint ∈ h.pathName, InstanceOf path endPoint

theorem apart :
    ∀ h ∈ extHandlers, ∀ h' ∈ extHandlers, h ≠ h' → ∀ e ∈ h.pathName, ∀ e' ∈ h'.pathName,
      overlaps e e' = false := by
  decide +kernel

theorem eq_of_serves {h h' : Handler} {path : Str} (hmem : h ∈ extHandlers)
    (hmem' : h' ∈ extHandlers) (hserves : Serves h path) (hserves' : Serves h' path) : h = h' := by
  obtain ⟨e, he, hinstance⟩ := hserves
  obtain ⟨e', he', hinstance'⟩ := hserves'
  by_contra hne
  have hfalse := apart h hmem h' hmem' hne e he e' he'
  rw [overlaps_of_instanceOf hinstance hinstance'] at hfalse
  cases hfalse

theorem parseBindings_iff_serves {h : Handler} {path : Str} :
    (parseBindings path h.pathName).1 = true ↔ Serves h path := by
  rw [parseBindings, matchEndPoints_eq]
  exact firstMatch_isSome_iff

/-- The router takes the class the path belongs to, with the bindings of that class. -/
theorem router_of_serves {h : Handler} {path : Str} {handlers : List Handler}
    (hsub : ∀ h ∈ handlers, h ∈ extHandlers) (hmem : h ∈ handlers) (hserves : Serves h path)
    (bindings : BindingMap) :
    router path handlers bindings = (h, (parseBindings path h.pathName).2) := by
  induction handlers generalizing bindings with
  | nil => exact absurd hmem List.not_mem_nil
  | cons h' rest ih =>
    rw [List.forall_mem_cons] at hsub
    rw [router]
    cases hparse : parseBindings path h'.pathName with
    | mk found bindings' =>
      cases found with
      | true =>
        have hserves' := parseBindings_iff_serves.mp (congrArg Prod.fst hparse)
        -- no other handler serves the path, so the first that is found is the handler
        obtain rfl := eq_of_serves (List.forall_mem_cons.mpr hsub h hmem) hsub.1 hserves hserves'
        rw [hparse]
      | false =>
        have hnot : ¬ Serves h' path := by
          rw [← parseBindings_iff_serves, hparse]
          exact Bool.false_ne_true
        have hne : h ≠ h' := fun heq => hnot (heq ▸ hserves)
        exact ih hsub.2 ((List.mem_cons.mp hmem).resolve_left hne) bindings'

theorem router_of_not_serves {path : Str} {handlers : List Handler}
    (hnone : ∀ h ∈ handlers, ¬ Serves h path) (bindings : BindingMap) :
    (router path handlers bindings).1 = .unknownRequest := by
  induction handlers generalizing bindings with
  | nil => rfl
  | cons h rest ih =>
    rw [List.forall_mem_cons] at hnone
    rw [router]
    cases hparse : parseBindings path h.pathName with
    | mk found bindings' =>
      cases found with
      | true => exact absurd (parseBindings_iff_serves.mp (congrArg Prod.fst hparse)) hnone.1
      | false => exact ih hnone.2 bindings'

/-- The router knows no other classes. -/
theorem router_mem (path : Str) (handlers : List Handler) (bindings : BindingMap) :
    (router path handlers bindings).1 ∈ handlers ∨
      (router path handlers bindings).1 = .unknownRequest := by
  induction handlers generalizing bindings with
  | nil => exact .inr rfl
  | cons h rest ih =>
    rw [router]
    split
    · exact .inl List.mem_cons_self
    · rename_i bindings' _
      exact (ih bindings').imp_left (List.mem_cons_of_mem h)

/-- A server with some of the classes, in any order, takes a request to the class its path belongs
    to and to no other, and binds the parameters of its end points. -/
theorem routed_iff {handlers : List Handler} (hsub : handlers ⊆ extHandlers) (path : Str)
    (bindings : BindingMap) :
    (∀ h ∈ handlers, (router path handlers bindings).1 = h ↔ Serves h path) ∧
      ((router path handlers bindings).1 = .unknownRequest ↔ ∀ h ∈ handlers, ¬ Serves h path) ∧
      ∀ h ∈ handlers, Serves h path →
        (router path handlers bindings).2 = (parseBindings path h.pathName).2 := by
  have hfound : ∀ h ∈ handlers, Serves h path →
      router path handlers bindings = (h, (parseBindings path h.pathName).2) :=
    fun h hmem hserves => router_of_serves (fun _ hx => hsub hx) hmem hserves bindings
  have hnone : (∀ h ∈ handlers, ¬ Serves h path) →
      (router path handlers bindings).1 = .unknownRequest :=
    fun hnone => router_of_not_serves hnone bindings
  have hknown : ∀ h ∈ handlers, h ≠ .unknownRequest := by
    rintro h hmem rfl
    exact absurd (hsub hmem) (by decide)
  refine ⟨fun h hmem => ⟨fun heq => ?_, fun hserves => ?_⟩, ⟨fun heq h hmem hserves => ?_, hnone⟩,
    fun h hmem hserves => ?_⟩
  · by_contra hnot
    -- if any handler serves the path it is the one that is found
    by_cases hany : ∃ h' ∈ handlers, Serves h' path
    · obtain ⟨h', hmem', hserves'⟩ := hany
      rw [hfound h' hmem' hserves'] at heq
      exact hnot (heq ▸ hserves')
    · rw [hnone fun h' hmem' hserves' => hany ⟨h', hmem', hserves'⟩] at heq
      exact hknown h hmem heq.symm
  · rw [hfound h hmem hserves]
  · rw [hfound h hmem hserves] at heq
    exact hknown h hmem heq
  · rw [hfound h hmem hserves]

theorem routed_iff_intHandlers :
    (router "/api/v1/board/devices/devices".toList intHandlers fun _ => none).1 = .boardDevices :=
  ((routed_iff (List.subset_append_left _ _) _ _).1 .boardDevices (by decide)).mpr
    (parseBindings_iff_serves.mp (by decide +kernel))

end OwAnalytics.Rest
