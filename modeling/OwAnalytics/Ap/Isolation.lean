/-
  OwAnalytics.Ap.Isolation

  A state message in which one association is replaced by another value.  Where the
  block goes through both, or throws at both, what is recorded for all other
  associations is the same; where it throws at one, what comes after it in the message
  is lost, and so are the entries of its SSID.
-/

import OwAnalytics.Ap.Apart
import OwAnalytics.Ap.FailedParse

namespace OwAnalytics.Ap

open Throwing Document
open Venue (stoull16)

variable {F : Type} [Double F]

/-! ## Messages with a replaced association -/

section Documents

omit [Double F]

/-- The associations of an SSID of the message. -/
def associationsOfSSID (ssid : Document F) : List (Document F) :=
  (ssid.array? "associations").getD []

/-- The associations of all SSIDs of an interface. -/
def associationsOfInterface (interface : Document F) : List (Document F) :=
  ((interface.find? "ssids").map fun ssids => ssids.elements.flatMap associationsOfSSID).getD []

/-- The associations of a state message. -/
def associations (state : Document F) : List (Document F) :=
  ((state.find? "interfaces").map fun interfaces =>
    interfaces.elements.flatMap associationsOfInterface).getD []

/-- The documents have the same members, but for one, in which they are related. -/
def AtMember (field : String) (R : Document F → Document F → Prop) (d d' : Document F) : Prop :=
  (∀ other, other ≠ field → d.find? other = d'.find? other) ∧
    ∃ x x', d.find? field = some x ∧ d'.find? field = some x' ∧ R x x'

/-- The documents have the same elements, but for one, in which they are related. -/
def AtElement (R : Document F → Document F → Prop) (d d' : Document F) : Prop :=
  ∃ before x x' after, d.elements = before ++ x :: after ∧ d'.elements = before ++ x' :: after ∧
    R x x'

/-- One element of an array is replaced. -/
def AtItem (a v d d' : Document F) : Prop :=
  ∃ before after, d = .arr (before ++ a :: after) ∧ d' = .arr (before ++ v :: after)

/-- The second message is the first with the association `a` replaced by `v`. -/
def Replaces (a v : Document F) : Document F → Document F → Prop :=
  AtMember "interfaces" (AtElement (AtMember "ssids" (AtElement
    (AtMember "associations" (AtItem a v)))))

theorem AtMember.symm {field : String} {R R' : Document F → Document F → Prop} {d d' : Document F}
    (h : AtMember field R d d') (hR : ∀ x x', R x x' → R' x' x) : AtMember field R' d' d := by
  obtain ⟨hother, x, x', hx, hx', hxx'⟩ := h
  exact ⟨fun other hne => (hother other hne).symm, x', x, hx', hx, hR x x' hxx'⟩

theorem AtMember.left {field : String} {R R' : Document F → Document F → Prop} {d d' : Document F}
    (h : AtMember field R d d') (hR : ∀ x x', R x x' → R' x x) : AtMember field R' d d := by
  obtain ⟨-, x, x', hx, -, hxx'⟩ := h
  exact ⟨fun _ _ => rfl, x, x, hx, hx, hR x x' hxx'⟩

theorem AtElement.symm {R R' : Document F → Document F → Prop} {d d' : Document F}
    (h : AtElement R d d') (hR : ∀ x x', R x x' → R' x' x) : AtElement R' d' d := by
  obtain ⟨before, x, x', after, hx, hx', hxx'⟩ := h
  exact ⟨before, x', x, after, hx', hx, hR x x' hxx'⟩

theorem AtElement.left {R R' : Document F → Document F → Prop} {d d' : Document F}
    (h : AtElement R d d') (hR : ∀ x x', R x x' → R' x x) : AtElement R' d d := by
  obtain ⟨before, x, x', after, hx, -, hxx'⟩ := h
  exact ⟨before, x, x, after, hx, hx, hR x x' hxx'⟩

theorem replaces_symm {a v state state' : Document F} (h : Replaces a v state state') :
    Replaces v a state' state := by
  refine h.symm fun _ _ h => h.symm fun _ _ h => h.symm fun _ _ h => h.symm fun _ _ h =>
    h.symm fun _ _ h => ?_
  obtain ⟨before, after, rfl, rfl⟩ := h
  exact ⟨before, after, rfl, rfl⟩

theorem replaces_left {a v state state' : Document F} (h : Replaces a v state state') :
    Replaces a a state state := by
  refine h.left fun _ _ h => h.left fun _ _ h => h.left fun _ _ h => h.left fun _ _ h =>
    h.left fun _ _ h => ?_
  obtain ⟨before, after, rfl, -⟩ := h
  exact ⟨before, after, rfl, rfl⟩

theorem associationsOfInterface_eq {interface ssids : Document F} {items : List (Document F)}
    (hfind : interface.find? "ssids" = some ssids) (helements : ssids.elements = items) :
    associationsOfInterface interface = items.flatMap associationsOfSSID := by
  rw [associationsOfInterface, hfind, Option.map_some, Option.getD_some, helements]

theorem associations_eq {state interfaces : Document F} {items : List (Document F)}
    (hfind : state.find? "interfaces" = some interfaces) (helements : interfaces.elements = items) :
    associations state = items.flatMap associationsOfInterface := by
  rw [associations, hfind, Option.map_some, Option.getD_some, helements]

/-- What holds of all elements common to two lists of lists, one of which is replaced. -/
theorem common_flatMap {α β : Type} {f : α → List β} {P : β → Prop} {before after : List α}
    {x x' : α}
    (h : ∀ d ∈ (before ++ x :: after).flatMap f, d ∈ (before ++ x' :: after).flatMap f → P d) :
    (∀ y ∈ before, ∀ d ∈ f y, P d) ∧ (∀ d ∈ f x, d ∈ f x' → P d) ∧
      ∀ y ∈ after, ∀ d ∈ f y, P d := by
  have hmem : ∀ {z y : α} {d : β}, y ∈ before ++ z :: after → d ∈ f y →
      d ∈ (before ++ z :: after).flatMap f := fun hy hd => List.mem_flatMap.mpr ⟨_, hy, hd⟩
  refine ⟨fun y hy d hd => ?_, fun d hd hd' => ?_, fun y hy d hd => ?_⟩
  · exact h d (hmem (List.mem_append_left _ hy) hd) (hmem (List.mem_append_left _ hy) hd)
  · exact h d (hmem (by simp) hd) (hmem (by simp) hd')
  · have hin : ∀ z : α, y ∈ before ++ z :: after := fun z =>
      List.mem_append_right _ (List.mem_cons_of_mem z hy)
    exact h d (hmem (hin x) hd) (hmem (hin x') hd)

/-- What is in a list of lists is in one of the replaced list or in the others. -/
theorem mem_flatMap_replace {α β : Type} {f : α → List β} {before after : List α} {x x' : α}
    {a d : β} (hx : d ∈ f x → d = a ∨ d ∈ f x') (hd : d ∈ (before ++ x :: after).flatMap f) :
    d = a ∨ d ∈ (before ++ x' :: after).flatMap f := by
  rw [List.flatMap_append, List.flatMap_cons, List.mem_append, List.mem_append] at hd ⊢
  rcases hd with hd | hd | hd
  · exact .inr (.inl hd)
  · exact (hx hd).imp_right fun hd => .inr (.inl hd)
  · exact .inr (.inr (.inr hd))

theorem mem_associationsOfSSID {a v ssid ssid' d : Document F}
    (h : AtMember "associations" (AtItem a v) ssid ssid') (hd : d ∈ associationsOfSSID ssid) :
    d = a ∨ d ∈ associationsOfSSID ssid' := by
  obtain ⟨-, _, _, hfind, hfind', before, after, rfl, rfl⟩ := h
  rw [associationsOfSSID, array?, hfind] at hd
  rw [associationsOfSSID, array?, hfind']
  have hd : d ∈ before ++ a :: after := hd
  show d = a ∨ d ∈ before ++ v :: after
  simp only [List.mem_append, List.mem_cons] at hd ⊢
  rcases hd with hd | hd | hd
  · exact .inr (.inl hd)
  · exact .inl hd
  · exact .inr (.inr (.inr hd))

/-- An association of a message is the replaced one, or one of the second message too. -/
theorem mem_associations {a v state state' d : Document F} (h : Replaces a v state state')
    (hd : d ∈ associations state) : d = a ∨ d ∈ associations state' := by
  obtain ⟨-, interfaces, interfaces', hfind, hfind', before, i, i', after, hi, hi', h⟩ := h
  rw [associations_eq hfind hi] at hd
  rw [associations_eq hfind' hi']
  refine mem_flatMap_replace (fun hd => ?_) hd
  obtain ⟨-, ssids, ssids', hfind, hfind', before, s, s', after, hs, hs', h⟩ := h
  rw [associationsOfInterface_eq hfind hs] at hd
  rw [associationsOfInterface_eq hfind' hs']
  exact mem_flatMap_replace (mem_associationsOfSSID h) hd

theorem array?_of_find? {d d' : Document F} {field : String} (h : d.find? field = d'.find? field) :
    d.array? field = d'.array? field := by
  rw [array?, array?, h]

end Documents

section Run

variable {env : Env F} {venueId : Str} {known : List UInt64} {a v : Document F}
  {R : Work F → Work F → Prop}

/-! ## The other associations -/

section Steady

variable (hR : Steady env venueId known a v R)

include hR

theorem related_setInfo (f : DeviceInfo F → DeviceInfo F) :
    Computation.Related R (Apart venueId known a v (SameSSIDs a v)) (Computation.Same R)
      (Parse.setInfo f) (Parse.setInfo f) :=
  Computation.related_modify (hR.info f)

theorem related_parseCounters (counters : Document F) :
    Computation.Related R (Apart venueId known a v (SameSSIDs a v)) (Computation.Same R)
      (parseCounters counters) (parseCounters counters) := by
  have hcounter : ∀ field set,
      Computation.Related R (Apart venueId known a v (SameSSIDs a v)) (Computation.Same R)
        (parseCounter counters field set) (parseCounter counters field set) := fun field set =>
    Computation.related_ofOption_bind hR.apart fun n _ =>
      Computation.related_modify (hR.apData fun apData => set apData n)
  unfold parseCounters
  iterate 9 refine Computation.related_bind_same (hcounter _ _) fun _ => ?_
  exact hcounter _ _

theorem related_parseInterfaceCounters (interface : Document F) :
    Computation.Related R (Apart venueId known a v (SameSSIDs a v)) (Computation.Same R)
      (parseInterfaceCounters interface) (parseInterfaceCounters interface) := by
  unfold parseInterfaceCounters
  split
  · exact related_parseCounters hR _
  · exact Computation.related_pure fun _ _ h => ⟨rfl, h⟩

/-- The data of the radios, which the rows are made with, is the same on both. -/
theorem Steady.radioData {w w' : Work F} (h : R w w') :
    w'.point.radioData = w.point.radioData := by
  rw [(hR.apart w w' h).point]

theorem related_parseSSID {radioMap : RadioMap} {clients : InterfaceClientEntryMap}
    {ssid : Document F} (hssid : ∀ d ∈ associationsOfSSID ssid, HarmlessAssociation known a v d) :
    Computation.Related R (Apart venueId known a v (SameSSIDs a v)) (Computation.Same R)
      (parseSSID env venueId radioMap clients ssid)
      (parseSSID env venueId radioMap clients ssid) := by
  refine Computation.related_ofOption_bind hR.apart fun head _ => ?_
  refine Computation.related_bind_same ?_ fun associations =>
    Computation.related_modify (hR.push _)
  unfold parseAssociations
  split
  · exact Computation.related_pure fun _ _ h => ⟨rfl, h⟩
  · rename_i items hitems
    refine Computation.related_bind_same (related_setInfo hR _) fun _ => ?_
    refine Computation.related_bind Computation.related_get fun w w' => ?_
    rintro s t ⟨⟨rfl, rfl⟩, h⟩
    rw [hR.radioData h]
    refine Computation.related_mapEach (fun d hd => ?_) w w' h
    exact hR.association d _ (hssid d (by rw [associationsOfSSID, hitems]; exact hd)) rfl

theorem related_parseInterface {radioMap : RadioMap} {interface : Document F}
    (hinterface : ∀ d ∈ associationsOfInterface interface, HarmlessAssociation known a v d) :
    Computation.Related R (Apart venueId known a v (SameSSIDs a v)) (Computation.Same R)
      (parseInterface env venueId radioMap interface)
      (parseInterface env venueId radioMap interface) := by
  refine Computation.related_bind_same (related_parseInterfaceCounters hR interface) fun _ => ?_
  unfold parseSSIDs
  split
  · rename_i ssids hssids
    refine Computation.related_forEach fun ssid hssid =>
      related_parseSSID hR fun d hd => hinterface d ?_
    rw [associationsOfInterface, hssids]
    exact List.mem_flatMap.mpr ⟨ssid, hssid, hd⟩
  · exact Computation.related_pure fun _ _ h => ⟨rfl, h⟩

end Steady

/-! ## Before and after the replaced association -/

/-- Before its turn, the cache has the numbers known before, and numbers of harmless texts that
    were read backwards too. -/
structure Turn (venueId : Str) (known : List UInt64) (own : List Str) (c : WifiClientCache) :
    Prop where
  knows : ∀ n ∈ known, n ∈ c.sns venueId
  readable : ∀ n ∈ c.sns venueId, n ∈ known ∨
    ∃ s, Harmless known own s ∧ stoull16 s = some n ∧ (stoull16 s.reverse).isSome = true

/-- Whether a text of the two is added is the same then as at the start of the message. -/
theorem accepted_of_turn {own : List Str} {c : WifiClientCache} {t : Str}
    (h : Turn venueId known own c) (ht : t ∈ own) :
    Accepted (c.sns venueId) t ↔ Accepted known t := by
  refine exists_congr fun n => and_congr_right fun hn => ?_
  refine ⟨?_, ?_⟩
  · rintro (hin | hreadable)
    · rcases h.readable n hin with hin | ⟨s, hs, hsn, hreadable⟩
      · exact .inl hin
      · rcases hs t ht n hn hsn with hin | hsame
        · exact .inl hin
        · exact .inr (hsame ▸ hreadable)
    · exact .inr hreadable
  · exact Or.imp_left (h.knows n)

theorem wellRead_of_turn {c : WifiClientCache} {d : Document F}
    (h : Turn venueId known (ownTexts a v) c) (hd : ∀ t, stationId d = some t → t ∈ ownTexts a v) :
    WellRead env (c.sns venueId) d ↔ WellRead env known d := by
  have hstation : (∃ t, stationId d = some t ∧ Accepted (c.sns venueId) t) ↔
      ∃ t, stationId d = some t ∧ Accepted known t :=
    exists_congr fun t => and_congr_right fun ht => accepted_of_turn h (hd t ht)
  exact ⟨fun h => ⟨h.uePoint, h.historyFields, hstation.mp h.station, h.rest⟩,
    fun h => ⟨h.uePoint, h.historyFields, hstation.mpr h.station, h.rest⟩⟩

/-- One work, before the turn of the replaced association. -/
def Start (venueId : Str) (known : List UInt64) (a v : Document F) (w w' : Work F) : Prop :=
  w = w' ∧ Turn venueId known (ownTexts a v) w.cache

/-- Works apart after both associations have been read. -/
def Past (env : Env F) (venueId : Str) (known : List UInt64) (a v : Document F)
    (S : List (SSIDTimePoint F) → List (SSIDTimePoint F) → Prop) (w w' : Work F) : Prop :=
  (WellRead env known a ∧ WellRead env known v) ∧ Apart venueId known a v S w w'

theorem accepted_ownTexts (h : WellRead env known a ∧ WellRead env known v) :
    ∀ t ∈ ownTexts a v, Accepted known t := by
  have hstation : ∀ {d : Document F}, WellRead env known d → ∀ t ∈ (stationId d).toList,
      Accepted known t := by
    intro d hd t ht
    obtain ⟨t', ht', haccepted⟩ := hd.station
    rw [Option.mem_toList, ht'] at ht
    rwa [← Option.some.inj ht]
  exact fun t ht => (List.mem_append.mp ht).elim (hstation h.1 t) (hstation h.2 t)

theorem start_apart {w w' : Work F} (h : Start venueId known a v w w') :
    Apart venueId known a v (SameSSIDs a v) w w' := by
  obtain ⟨rfl, hturn⟩ := h
  exact apart_refl hturn.knows

theorem steady_start : Steady env venueId known a v (Start venueId known a v) := by
  refine ⟨fun _ _ => start_apart, ?_, ?_, ?_, fun d ctx hd hctx => ?_⟩
  · rintro f w _ ⟨rfl, hturn⟩
    exact ⟨rfl, hturn⟩
  · rintro f w _ ⟨rfl, hturn⟩
    exact ⟨rfl, hturn⟩
  · rintro s w _ ⟨rfl, hturn⟩
    exact ⟨rfl, hturn⟩
  · rintro w _ ⟨rfl, hturn⟩
    obtain ⟨hread, -, hleft⟩ := parseAssociation_spec env d ctx w
    rw [hctx] at hread hleft
    have hknown : ∀ n ∈ known, n ∈ (parseAssociation env d ctx w).2.cache.sns venueId :=
      fun n hn => hleft.cache.sns n (hturn.knows n hn)
    cases hstep : parseAssociation env d ctx w with
    | mk result w' =>
    rw [hstep] at hread hleft hknown
    cases result with
    | none => exact .inr ⟨w', w', rfl, rfl, apart_refl hknown⟩
    | some tp =>
        refine .inl ⟨tp, tp, w', w', rfl, rfl, rfl, rfl, hknown, fun n hn => ?_⟩
        -- A number that is new is that of the association's text, which was read backwards.
        obtain ⟨t, ht, m, hm, hadded⟩ := (hread.mp rfl).station
        rcases hleft.cache.new n hn with hin | ⟨t', ht', htn⟩
        · exact hturn.readable n hin
        · rw [ht] at ht'
          obtain rfl := Option.some.inj (Option.mem_toList.mp ht')
          rw [htn] at hm
          obtain rfl := Option.some.inj hm
          rcases hadded with hin | hreadable
          · exact hturn.readable n hin
          · exact .inr ⟨t, hd t ht, htn, hreadable⟩

theorem steady_past {S : List (SSIDTimePoint F) → List (SSIDTimePoint F) → Prop}
    (hS : ∀ xs ys, S xs ys → SameSSIDs a v xs ys)
    (happend : ∀ xs ys s, S xs ys → S (xs ++ [s]) (ys ++ [s])) :
    Steady env venueId known a v (Past env venueId known a v S) := by
  have hsteady : WellRead env known a ∧ WellRead env known v →
      Steady env venueId known a v (Apart venueId known a v S) := fun h =>
    steady_apart hS happend (accepted_ownTexts h)
  refine ⟨fun w w' h => h.2.sameSSIDs hS, fun f w w' h => ⟨h.1, (hsteady h.1).info f w w' h.2⟩,
    fun f w w' h => ⟨h.1, (hsteady h.1).apData f w w' h.2⟩,
    fun s w w' h => ⟨h.1, (hsteady h.1).push s w w' h.2⟩, fun d ctx hd hctx w w' h => ?_⟩
  refine Computation.related_weaken ((hsteady h.1).association d ctx hd hctx) ?_ w w' h.2
  exact fun _ _ _ _ hsame => ⟨hsame.1, h.1, hsame.2⟩

theorem steady_past_ssids :
    Steady env venueId known a v (Past env venueId known a v (SameSSIDs a v)) :=
  steady_past (fun _ _ h => h) fun _ _ s h => sameSSIDs_append h s

/-- The replaced association and its replacement, if neither or both throw. -/
theorem related_replaced {ctx : SSIDContext F} (hctx : ctx.venueId = venueId)
    (hfate : WellRead env known a ↔ WellRead env known v) :
    Computation.Related (Start venueId known a v) (Apart venueId known a v (SameSSIDs a v))
      (fun tp tp' w w' => (EntryOf a tp ∧ EntryOf v tp') ∧ Past env venueId known a v Eq w w')
      (parseAssociation env a ctx) (parseAssociation env v ctx) := by
  rintro w _ ⟨rfl, hturn⟩
  obtain ⟨hread, hentry, hleft⟩ := parseAssociation_spec env a ctx w
  obtain ⟨hread', hentry', hleft'⟩ := parseAssociation_spec env v ctx w
  rw [hctx, wellRead_of_turn hturn fun t ht =>
    List.mem_append_left _ (Option.mem_toList.mpr ht)] at hread
  rw [hctx, wellRead_of_turn hturn fun t ht =>
    List.mem_append_right _ (Option.mem_toList.mpr ht)] at hread'
  rw [hctx] at hleft hleft'
  have hapart := apart_of_left hturn.knows hleft hleft'
  cases hstep : parseAssociation env a ctx w with
  | mk result w₁ =>
  cases hstep' : parseAssociation env v ctx w with
  | mk result' w₂ =>
  rw [hstep] at hread hentry hapart
  rw [hstep'] at hread' hentry' hapart
  -- Both go through or both throw; a throw leaves what was entered in the cache.
  by_cases hwell : WellRead env known a
  · obtain ⟨tp, htp⟩ := Option.isSome_iff_exists.mp (hread.mpr hwell)
    obtain ⟨tp', htp'⟩ := Option.isSome_iff_exists.mp (hread'.mpr (hfate.mp hwell))
    exact .inl ⟨tp, tp', w₁, w₂, by rw [← htp], by rw [← htp'],
      ⟨hentry tp htp, hentry' tp' htp'⟩, ⟨hwell, hfate.mp hwell⟩, hapart⟩
  · have hnone : result = none := by
      simpa using fun hsome => hwell (hread.mp hsome)
    have hnone' : result' = none := by
      simpa using fun hsome => hwell (hfate.mpr (hread'.mp hsome))
    exact .inr ⟨w₁, w₂, by rw [← hnone], by rw [← hnone'], hapart.sameSSIDs fun _ _ h => .inl h⟩

/-! ## The message -/

omit [Double F] in
theorem getJSON_congr {α : Type} {get : Document F → Option α} {field : String}
    {d d' : Document F} (h : d.find? field = d'.find? field) (default : α) :
    getJSON get field d default = getJSON get field d' default := by
  rw [getJSON, getJSON, h]

theorem ssidHead_congr {radioMap : RadioMap} {ssid ssid' : Document F}
    (h : ∀ other, other ≠ "associations" → ssid.find? other = ssid'.find? other) :
    ssidHead env radioMap ssid = ssidHead env radioMap ssid' := by
  unfold ssidHead
  rw [h "band" (by decide), h "radio" (by decide), getJSON_congr (h "bssid" (by decide)),
    getJSON_congr (h "mode" (by decide)), getJSON_congr (h "ssid" (by decide))]

/-- The SSID with the replaced association. -/
theorem related_parseSSID_replaced {radioMap : RadioMap} {clients : InterfaceClientEntryMap}
    {ssid ssid' : Document F} (hssid : AtMember "associations" (AtItem a v) ssid ssid')
    (hfate : WellRead env known a ↔ WellRead env known v)
    (hharmless : ∀ d ∈ associationsOfSSID ssid, d ∈ associationsOfSSID ssid' →
      HarmlessAssociation known a v d) :
    Computation.Related (Start venueId known a v) (Apart venueId known a v (SameSSIDs a v))
      (Computation.Same (Past env venueId known a v (SameSSIDs a v)))
      (parseSSID env venueId radioMap clients ssid)
      (parseSSID env venueId radioMap clients ssid') := by
  obtain ⟨hother, _, _, hfind, hfind', before, after, rfl, rfl⟩ := hssid
  have hitems : ssid.array? "associations" = some (before ++ a :: after) := by
    rw [array?, hfind]
  have hitems' : ssid'.array? "associations" = some (before ++ v :: after) := by
    rw [array?, hfind']
  have hcommon : ∀ d ∈ before ++ after, HarmlessAssociation known a v d := by
    intro d hd
    refine hharmless d ?_ ?_
    · rw [associationsOfSSID, hitems]
      simpa using (List.mem_append.mp hd).imp_right .inr
    · rw [associationsOfSSID, hitems']
      simpa using (List.mem_append.mp hd).imp_right .inr
  have hlength : (before ++ v :: after).length = (before ++ a :: after).length := by simp
  have hstart : Steady env venueId known a v (Start venueId known a v) := steady_start
  have hpast : Steady env venueId known a v (Past env venueId known a v Eq) :=
    steady_past (fun _ _ h => .inl h) fun _ _ s h => congrArg (· ++ [s]) h
  unfold parseSSID parseAssociations
  rw [ssidHead_congr hother, hitems, hitems']
  dsimp only
  rw [hlength]
  refine Computation.related_ofOption_bind hstart.apart fun head _ => ?_
  refine Computation.related_bind (Q := fun tps tps' w w' =>
      (∃ p tp tp' q, tps = p ++ tp :: q ∧ tps' = p ++ tp' :: q ∧ EntryOf a tp ∧ EntryOf v tp') ∧
        Past env venueId known a v Eq w w') ?_ fun tps tps' => ?_
  · refine Computation.related_bind_same (related_setInfo hstart _) fun _ => ?_
    refine Computation.related_bind Computation.related_get fun w w' => ?_
    rintro s t ⟨⟨rfl, rfl⟩, h⟩
    rw [hstart.radioData h]
    -- One work up to the replaced association, works apart from there on.
    refine Computation.related_mapEach_replace (S := Past env venueId known a v Eq) (fun d hd => ?_)
      (related_replaced (by rfl) hfate) (fun d hd => ?_) w w' h
    · exact hstart.association d _ (hcommon d (List.mem_append_left _ hd)) rfl
    · exact hpast.association d _ (hcommon d (List.mem_append_right _ hd)) rfl
  · -- The SSID is pushed with the entries of all its associations, and only if all are read.
    refine Computation.related_modify
      (S := Past env venueId known a v (SameSSIDs a v)) fun w w' h => ⟨h.2.1, ?_⟩
    obtain ⟨⟨p, tp, tp', q, rfl, rfl, htp, htp'⟩, -, h⟩ := h
    refine ⟨h.info, ?_, .inr ⟨w.point.ssidData, { head.1 with associations := p ++ tp :: q },
      { head.1 with associations := p ++ tp' :: q }, [], rfl, ?_, rfl, ?_⟩, h.history, h.cache⟩
    · dsimp only
      rw [h.point]
    · dsimp only
      rw [← h.ssidData]
    · exact ⟨p, [tp], [tp'], q, by simp, by simp, by simp, by simp,
        fun x hx => List.mem_singleton.mp hx ▸ htp, fun x hx => List.mem_singleton.mp hx ▸ htp'⟩

/-- The interface with the SSID with the replaced association. -/
theorem related_parseInterface_replaced {radioMap : RadioMap} {interface interface' : Document F}
    (hinterface : AtMember "ssids" (AtElement (AtMember "associations" (AtItem a v))) interface
      interface')
    (hfate : WellRead env known a ↔ WellRead env known v)
    (hharmless : ∀ d ∈ associationsOfInterface interface,
      d ∈ associationsOfInterface interface' → HarmlessAssociation known a v d) :
    Computation.Related (Start venueId known a v) (Apart venueId known a v (SameSSIDs a v))
      (Computation.Same (Past env venueId known a v (SameSSIDs a v)))
      (parseInterface env venueId radioMap interface)
      (parseInterface env venueId radioMap interface') := by
  obtain ⟨hother, ssids, ssids', hssids, hssids', before, ssid, ssid', after, helements, helements',
    hssid⟩ := hinterface
  have hcounters :
      parseInterfaceCounters interface' = parseInterfaceCounters (F := F) interface := by
    rw [parseInterfaceCounters, parseInterfaceCounters, hother "counters" (by decide)]
  have hclients : clients interface' = clients interface := by
    rw [clients, clients, array?_of_find? (hother "clients" (by decide))]
  rw [associationsOfInterface_eq hssids helements, associationsOfInterface_eq hssids' helements']
    at hharmless
  -- The SSIDs before, the one with the association, and the SSIDs after it.
  obtain ⟨hbefore, hown, hafter⟩ := common_flatMap hharmless
  have hstart : Steady env venueId known a v (Start venueId known a v) := steady_start
  unfold parseInterface
  rw [hcounters]
  refine Computation.related_bind_same (related_parseInterfaceCounters hstart interface)
    fun _ => ?_
  unfold parseSSIDs
  rw [hssids, hssids', hclients]
  dsimp only
  rw [helements, helements']
  refine Computation.related_forEach_replace (fun s hs => ?_) ?_ fun s hs => ?_
  · exact related_parseSSID hstart (hbefore s hs)
  · exact related_parseSSID_replaced hssid hfate hown
  · exact related_parseSSID steady_past_ssids (hafter s hs)

/-- A part of the block that leaves the cache alone, before the turn of the association. -/
theorem related_of_keeps_cache {α : Type} {x : Parse F α}
    (h : ∀ c, Computation.Keeps (fun w : Work F => w.cache = c) x) :
    Computation.Related (Start venueId known a v) (Apart venueId known a v (SameSSIDs a v))
      (Computation.Same (Start venueId known a v)) x x := by
  rintro w _ ⟨rfl, hturn⟩
  have hcache : (x w).2.cache = w.cache := h w.cache w rfl
  cases hstep : x w with
  | mk result w' =>
  rw [hstep] at hcache
  have hturn' : Turn venueId known (ownTexts a v) w'.cache := hcache ▸ hturn
  cases result with
  | none => exact .inr ⟨w', w', rfl, rfl, apart_refl hturn'.knows⟩
  | some b => exact .inl ⟨b, b, w', w', rfl, rfl, rfl, rfl, hturn'⟩

theorem closed_cache (c : WifiClientCache) : Closed fun w : Work F => w.cache = c :=
  ⟨fun _ _ _ h => h, fun _ _ _ h => h⟩

omit [Double F] in
theorem subscript_of_find? {d x : Document F} {field : String} (h : d.find? field = some x) :
    subscript d field = some x := by
  cases d with
  | obj fields => rw [subscript, h]; rfl
  | _ => cases h

/-- The message with the replaced association. -/
theorem related_parseBody_replaced {state state' : Document F}
    (hreplaces : Replaces a v state state')
    (hfate : WellRead env known a ↔ WellRead env known v)
    (hharmless : ∀ d ∈ associations state, d ∈ associations state' →
      HarmlessAssociation known a v d) :
    Computation.Related (Start venueId known a v) (Apart venueId known a v (SameSSIDs a v))
      (Computation.Same (Past env venueId known a v (SameSSIDs a v)))
      (parseBody env venueId state) (parseBody env venueId state') := by
  obtain ⟨hother, interfaces, interfaces', hfind, hfind', before, interface, interface', after,
    helements, helements', hinterface⟩ := hreplaces
  have hunit : parseUnit state' = parseUnit (F := F) state := by
    rw [parseUnit, parseUnit, hother "unit" (by decide)]
  have hradios : parseRadios state' = parseRadios (F := F) state := by
    rw [parseRadios, parseRadios, array?_of_find? (hother "radios" (by decide))]
  rw [associations_eq hfind helements, associations_eq hfind' helements'] at hharmless
  obtain ⟨hbefore, hown, hafter⟩ := common_flatMap hharmless
  -- Up to the interfaces the two messages are the same, and the cache is left alone.
  have hkeeps : ∀ {α : Type} {x : Parse F α},
      (∀ P : Work F → Prop, Closed P → Computation.Keeps P x) →
      Computation.Related (Start venueId known a v) (Apart venueId known a v (SameSSIDs a v))
        (Computation.Same (Start venueId known a v)) x x := fun h =>
    related_of_keeps_cache fun c => h _ (closed_cache c)
  have hstart : Steady env venueId known a v (Start venueId known a v) := steady_start
  unfold parseBody
  rw [hunit, hradios, subscript_of_find? hfind, subscript_of_find? hfind']
  refine Computation.related_bind_same
    (hkeeps fun P hP => keeps_parseUnit hP.device.parts state) fun _ => ?_
  refine Computation.related_bind_same
    (hkeeps fun P hP => Computation.keeps_modify fun w => hP.point w _ rfl) fun _ => ?_
  refine Computation.related_bind_same (hkeeps fun P hP => keeps_parseRadios hP.device.parts state)
    fun radioMap => ?_
  refine Computation.related_bind (Q := fun i i' w w' => (i = interfaces ∧ i' = interfaces') ∧
    Start venueId known a v w w') (fun w w' h => .inl ⟨_, _, w, w', rfl, rfl, ⟨rfl, rfl⟩, h⟩) ?_
  rintro _ _ w w' ⟨⟨rfl, rfl⟩, h⟩
  refine Computation.related_bind_same (related_setInfo hstart _) (fun _ => ?_) w w' h
  rw [helements, helements']
  refine Computation.related_forEach_replace (fun i hi => ?_) ?_ fun i hi => ?_
  · exact related_parseInterface hstart (hbefore i hi)
  · exact related_parseInterface_replaced hinterface hfate hown
  · exact related_parseInterface steady_past_ssids (hafter i hi)

/-! ## What is recorded -/

/-- Something throws for both associations, or nothing does for either. -/
def SameFate (env : Env F) (known : List UInt64) (a v : Document F) : Prop :=
  WellRead env known a ↔ WellRead env known v

/-- The other associations of the two messages are harmless. -/
def OthersHarmless (known : List UInt64) (a v state state' : Document F) : Prop :=
  ∀ d ∈ associations state, d ∈ associations state' → HarmlessAssociation known a v d

/-- The two messages, read by one `AP`: to the end of both, with both associations well read,
    or neither to its end. -/
theorem parsed_replaced {cache : WifiClientCache} {ap : AP F} {state state' : Document F}
    (hreplaces : Replaces a v state state')
    (hfate : SameFate env (cache.sns ap.venueId) a v)
    (hharmless : OthersHarmless (cache.sns ap.venueId) a v state state') :
    (((ap.parsed env cache state).1.isSome = true ∧ (ap.parsed env cache state').1.isSome = true ∧
          WellRead env (cache.sns ap.venueId) a ∧ WellRead env (cache.sns ap.venueId) v) ∨
        ((ap.parsed env cache state).1 = none ∧ (ap.parsed env cache state').1 = none)) ∧
      Apart ap.venueId (cache.sns ap.venueId) a v (SameSSIDs a v) (ap.parsed env cache state).2
        (ap.parsed env cache state').2 := by
  -- The block is related throughout; the final assignment copies one field into another.
  have hparse : Computation.Related (Start ap.venueId (cache.sns ap.venueId) a v)
      (Apart ap.venueId (cache.sns ap.venueId) a v (SameSSIDs a v))
      (Computation.Same (Past env ap.venueId (cache.sns ap.venueId) a v (SameSSIDs a v)))
      (parse env ap.venueId state) (parse env ap.venueId state') := by
    refine Computation.related_bind_same (related_parseBody_replaced hreplaces hfate hharmless)
      fun _ => Computation.related_modify fun w w' h => ⟨h.1, ?_⟩
    refine ⟨h.2.info, ?_, h.2.ssidData, h.2.history, h.2.cache⟩
    rw [h.2.point, h.2.info]
  have hstart : Start ap.venueId (cache.sns ap.venueId) a v (ap.begin cache) (ap.begin cache) :=
    ⟨rfl, fun _ hn => hn, fun _ hn => .inl hn⟩
  unfold AP.parsed
  rcases hparse _ _ hstart with ⟨_, _, w, w', hw, hw', -, hwell, hapart⟩ | ⟨w, w', hw, hw', hapart⟩
  · rw [hw, hw']
    exact ⟨.inl ⟨rfl, rfl, hwell⟩, hapart⟩
  · rw [hw, hw']
    exact ⟨.inr ⟨rfl, rfl⟩, hapart⟩

/-- What an SSID has besides its associations and their averages is the same. -/
structure SameHead (s s' : SSIDTimePoint F) : Prop where
  bssid : s'.bssid = s.bssid
  mode : s'.mode = s.mode
  ssid : s'.ssid = s.ssid
  band : s'.band = s.band
  channel : s'.channel = s.channel

/-- The stored SSIDs are the same, but for the entries of the two associations in one of them, and
    the averages of that one. -/
def SameStoredSSIDs (a v : Document F) (ssids ssids' : List (SSIDTimePoint F)) : Prop :=
  ssids = ssids' ∨ ∃ before s s' after, ssids = before ++ s :: after ∧
    ssids' = before ++ s' :: after ∧ SameHead s s' ∧
    SameBut (EntryOf a) (EntryOf v) s.associations s'.associations

/-- Both messages store a point, or none; the points are the same but for their SSIDs, and those
    as said. -/
def SamePoints (a v : Document F) : Option (DeviceTimePoint F) → Option (DeviceTimePoint F) → Prop
  | none, none => True
  | some p, some p' =>
      p' = { p with ssidData := p'.ssidData } ∧ SameStoredSSIDs a v p.ssidData p'.ssidData
  | _, _ => False

theorem sameStoredSSIDs_rates {ssids ssids' : List (SSIDTimePoint F)}
    (h : SameSSIDs a v ssids ssids') (base : List (SSIDTimePoint F)) (timeLapse : UInt64) :
    SameStoredSSIDs a v (ssids.map (ssidRates base timeLapse))
      (ssids'.map (ssidRates base timeLapse)) := by
  rcases h with rfl | ⟨before, s, s', after, rfl, rfl, hs, hassociations⟩
  · exact .inl rfl
  · refine .inr ⟨before.map (ssidRates base timeLapse), ssidRates base timeLapse s,
      ssidRates base timeLapse s', after.map (ssidRates base timeLapse), by simp, by simp, ?_, ?_⟩
    · rw [hs]
      exact ⟨rfl, rfl, rfl, rfl, rfl⟩
    · exact sameBut_map hassociations (fun _ h => h) fun _ h => h

theorem samePoints_toStore {ap : AP F} {p p' : DeviceTimePoint F}
    (h : p' = { p with ssidData := p'.ssidData }) (hssids : SameSSIDs a v p.ssidData p'.ssidData) :
    SamePoints a v (ap.toStore env p) (ap.toStore env p') := by
  by_cases hgot : ap.gotBase ∧ ap.gotConnection ∧ ap.gotHealth
  · rw [AP.toStore, AP.toStore, if_pos hgot, if_pos hgot]
    refine ⟨?_, ?_⟩
    · rw [h]
      rfl
    · rw [h]
      exact sameStoredSSIDs_rates hssids _ _
  · rw [AP.toStore, AP.toStore, if_neg hgot, if_neg hgot]
    trivial

/-- What two messages leave is the same but for what is recorded for the two associations: the
    rows of the client history, the numbers of the client cache, the point that is stored, and
    the `AP`, whose base has the entries too. -/
structure Isolated (a v : Document F) (r r' : AP F × Stored F × Work F) : Prop where
  history : SameBut (RowOf a) (RowOf v) r.2.2.history r'.2.2.history
  sns : ∀ n, (∀ t ∈ ownTexts a v, stoull16 t ≠ some n) →
    (n ∈ r.2.2.cache.sns r.1.venueId ↔ n ∈ r'.2.2.cache.sns r.1.venueId)
  reverseSns : ∀ n, (∀ t ∈ ownTexts a v, stoull16 t.reverse ≠ some n) →
    (n ∈ r.2.2.cache.reverseSns r.1.venueId ↔ n ∈ r'.2.2.cache.reverseSns r.1.venueId)
  stored : SamePoints a v r.2.1.timePoint r'.2.1.timePoint
  ap : r'.1 = { r.1 with base := { r.1.base with ssidData := r'.1.base.ssidData } }
  base : SameSSIDs a v r.1.base.ssidData r'.1.base.ssidData

theorem isolated_of_apart {cache : WifiClientCache} {ap : AP F} {state state' : Document F}
    (h : Apart ap.venueId known a v (SameSSIDs a v) (ap.parsed env cache state).2
      (ap.parsed env cache state').2) :
    Isolated a v (ap.updateStats env cache state) (ap.updateStats env cache state') := by
  refine ⟨?_, ?_, ?_, ?_, ?_, ?_⟩
  · exact h.history
  · exact h.cache.sns
  · exact h.cache.reverseSns
  · exact samePoints_toStore h.point h.ssidData
  · simp only [AP.updateStats]
    rw [h.info, ← h.point]
  · exact h.ssidData

/-! ## Messages that are read to their end -/

omit [Double F] in
theorem harmlessAssociation_mono {a' v' d : Document F} (h : HarmlessAssociation known a v d)
    (hsub : ∀ t ∈ ownTexts a' v', t ∈ ownTexts a v) : HarmlessAssociation known a' v' d :=
  fun s hs t ht => h s hs t (hsub t ht)

omit [Double F] in
theorem harmlessAssociation_self (a : Document F) : HarmlessAssociation known a a a := by
  intro s hs t ht n _ _
  have ht : t ∈ (stationId a).toList ++ (stationId a).toList := ht
  rw [List.mem_append, or_self, hs] at ht
  exact .inr (by rw [List.mem_singleton.mp ht])

omit [Double F] in
theorem othersHarmless_symm {state state' : Document F}
    (h : OthersHarmless known a v state state') : OthersHarmless known v a state' state :=
  fun d hd hd' => harmlessAssociation_mono (h d hd' hd) fun _ ht =>
    List.mem_append.mpr (List.mem_append.mp ht).symm

/-- Nothing throws for the replaced association of a message that is read to its end. -/
theorem wellRead_of_parses {cache : WifiClientCache} {ap : AP F} {state state' : Document F}
    (hreplaces : Replaces a v state state')
    (hharmless : OthersHarmless (cache.sns ap.venueId) a v state state')
    (hparses : (ap.parsed env cache state).1.isSome = true) :
    WellRead env (cache.sns ap.venueId) a := by
  -- The message beside itself, with the association replaced by itself.
  have hself : OthersHarmless (cache.sns ap.venueId) a a state state := by
    intro d hd _
    -- An association of this message alone is the replaced one.
    rcases mem_associations hreplaces hd with rfl | hd'
    · exact harmlessAssociation_self d
    · refine harmlessAssociation_mono (hharmless d hd hd') fun t ht => ?_
      exact List.mem_append_left _ ((List.mem_append.mp ht).elim id id)
  obtain ⟨⟨-, -, hwell, -⟩ | ⟨hthrows, -⟩, -⟩ :=
    parsed_replaced (replaces_left hreplaces) Iff.rfl hself
  · exact hwell
  · simp [hthrows] at hparses

/-- The device info of the data tells whether the message was read to its end. -/
theorem parses_of_isolated {cache : WifiClientCache} {ap : AP F} {state state' : Document F}
    (hserial : ap.info.serialNumber ≠ [])
    (h : Isolated a v (ap.updateStats env cache state) (ap.updateStats env cache state')) :
    (ap.parsed env cache state').1.isSome = (ap.parsed env cache state).1.isSome := by
  have hdevice : (ap.parsed env cache state').2.point.deviceInfo =
      (ap.parsed env cache state).2.point.deviceInfo :=
    congrArg (fun ap => ap.base.deviceInfo) h.ap
  have hnumber := congrArg DeviceInfo.serialNumber hdevice
  rw [(ap.parsed_serialNumber env cache state).2, (ap.parsed_serialNumber env cache state').2]
    at hnumber
  by_cases hread : (ap.parsed env cache state).1.isSome = true <;>
    by_cases hread' : (ap.parsed env cache state').1.isSome = true
  · rw [hread, hread']
  · rw [if_pos hread, if_neg hread'] at hnumber
    exact absurd hnumber.symm hserial
  · rw [if_neg hread, if_pos hread'] at hnumber
    exact absurd hnumber hserial
  · rw [Bool.eq_false_iff.mpr hread, Bool.eq_false_iff.mpr hread']

/-- Where both associations are read or neither, what is recorded for the rest of the message is
    the same; where one of the two messages is read to its end, only there. -/
theorem isolated_of_sameFate (env : Env F) (cache : WifiClientCache) (ap : AP F)
    {state state' : Document F} (hreplaces : Replaces a v state state')
    (hharmless : OthersHarmless (cache.sns ap.venueId) a v state state') :
    (SameFate env (cache.sns ap.venueId) a v →
        Isolated a v (ap.updateStats env cache state) (ap.updateStats env cache state')) ∧
      (ap.info.serialNumber ≠ [] →
        ((ap.parsed env cache state).1.isSome = true ∨
          (ap.parsed env cache state').1.isSome = true) →
        Isolated a v (ap.updateStats env cache state) (ap.updateStats env cache state') →
        SameFate env (cache.sns ap.venueId) a v) := by
  refine ⟨?_, ?_⟩
  · intro hfate
    exact isolated_of_apart (parsed_replaced hreplaces hfate hharmless).2
  · intro hserial hparses hisolated
    -- if one of the messages parses both do, so the value is well read in each
    have hsame := parses_of_isolated hserial hisolated
    have hparses₁ : (ap.parsed env cache state).1.isSome = true :=
      hparses.elim id fun h => hsame ▸ h
    have hparses₂ : (ap.parsed env cache state').1.isSome = true := hsame.trans hparses₁
    exact iff_of_true (wellRead_of_parses hreplaces hharmless hparses₁)
      (wellRead_of_parses (replaces_symm hreplaces) (othersHarmless_symm hharmless) hparses₂)

end Run

/-! ## A message with three associations -/

/-- An association with a station of this text alone. -/
def stationOf (text : String) : Document ℚ := .obj [("station".toList, .str text.toList)]

/-- A state message with these associations, in one SSID of one interface. -/
def messageOf (items : List (Document ℚ)) : Document ℚ :=
  .obj [("interfaces".toList, .arr [.obj [("ssids".toList,
    .arr [.obj [("associations".toList, .arr items)]])]])]

theorem atMember_single {field : String} {R : Document ℚ → Document ℚ → Prop}
    {x x' : Document ℚ} (h : R x x') :
    AtMember field R (.obj [(field.toList, x)]) (.obj [(field.toList, x')]) := by
  refine ⟨fun other hne => ?_, x, x', by simp [find?], by simp [find?], h⟩
  have hbeq : (other.toList == field.toList) = false :=
    beq_false_of_ne fun heq => hne (String.toList_injective heq)
  simp [find?, List.lookup_cons, hbeq]

theorem replaces_messageOf (a v : Document ℚ) (before after : List (Document ℚ)) :
    Replaces a v (messageOf (before ++ a :: after)) (messageOf (before ++ v :: after)) := by
  refine atMember_single ⟨[], _, _, [], rfl, rfl, ?_⟩
  refine atMember_single ⟨[], _, _, [], rfl, rfl, ?_⟩
  exact atMember_single ⟨before, after, rfl, rfl⟩

theorem sameBut_length {α : Type} {P P' : α → Prop} {xs ys : List α} (h : SameBut P P' xs ys) :
    xs.length ≤ ys.length + 1 := by
  obtain ⟨before, own, own', after, rfl, rfl, hown, -⟩ := h
  simp only [List.length_append]
  omega

/-- With an empty station in the first association, the rows of the other two are lost. -/
theorem empty_station_loses_others :
    Replaces (stationOf "a1") (stationOf "")
        (messageOf [stationOf "a1", stationOf "b2", stationOf "c3"])
        (messageOf [stationOf "", stationOf "b2", stationOf "c3"]) ∧
      ¬ Isolated (stationOf "a1") (stationOf "")
        (online.updateStats plainEnv (fun _ => none)
          (messageOf [stationOf "a1", stationOf "b2", stationOf "c3"]))
        (online.updateStats plainEnv (fun _ => none)
          (messageOf [stationOf "", stationOf "b2", stationOf "c3"])) := by
  refine ⟨replaces_messageOf _ _ [] _, fun h => ?_⟩
  have hrows : (online.updateStats plainEnv (fun _ => none)
      (messageOf [stationOf "a1", stationOf "b2", stationOf "c3"])).2.2.history.length = 3 := by
    decide +kernel
  have hnone : (online.updateStats plainEnv (fun _ => none)
      (messageOf [stationOf "", stationOf "b2", stationOf "c3"])).2.2.history.length = 0 := by
    decide +kernel
  have hlength := sameBut_length h.history
  omega

/-- With another station in the first association, those of the other two stay. -/
theorem isolated_of_sameFate_another_station :
    Isolated (stationOf "a1") (stationOf "d4")
        (online.updateStats plainEnv (fun _ => none)
          (messageOf [stationOf "a1", stationOf "b2", stationOf "c3"]))
        (online.updateStats plainEnv (fun _ => none)
          (messageOf [stationOf "d4", stationOf "b2", stationOf "c3"])) ∧
      SameFate plainEnv [] (stationOf "a1") (stationOf "d4") := by
  have hread : ∀ text ∈ ["a1", "d4"], WellRead plainEnv [] (stationOf text) := by
    intro text htext
    simp only [List.mem_cons, List.not_mem_nil, or_false] at htext
    rcases htext with rfl | rfl
    · exact ⟨by rfl, by rfl,
        ⟨"a1".toList, by rfl, 0xa1, by decide +kernel, .inr (by decide +kernel)⟩, by rfl⟩
    · exact ⟨by rfl, by rfl,
        ⟨"d4".toList, by rfl, 0xd4, by decide +kernel, .inr (by decide +kernel)⟩, by rfl⟩
  -- the two numbers are those of no other station of the message
  have hharmless : OthersHarmless [] (stationOf "a1") (stationOf "d4")
      (messageOf [stationOf "a1", stationOf "b2", stationOf "c3"])
      (messageOf [stationOf "d4", stationOf "b2", stationOf "c3"]) := by
    have htexts : ∀ s ∈ ["a1".toList, "b2".toList, "c3".toList],
        ∀ t ∈ ["a1".toList, "d4".toList], stoull16 t = stoull16 s →
          stoull16 s.reverse = stoull16 t.reverse := by
      decide +kernel
    intro d hd _ s hs t ht n htn hsn
    have hd : d ∈ [stationOf "a1", stationOf "b2", stationOf "c3"] := hd
    have hmem : s ∈ ["a1".toList, "b2".toList, "c3".toList] := by
      simp only [List.mem_cons, List.not_mem_nil, or_false] at hd
      rcases hd with rfl | rfl | rfl <;> obtain rfl := Option.some.inj hs <;> decide
    exact .inr (htexts s hmem t ht (htn.trans hsn.symm))
  have hmain := isolated_of_sameFate plainEnv (fun _ => none) online
    (replaces_messageOf (stationOf "a1") (stationOf "d4") [] [stationOf "b2", stationOf "c3"])
    hharmless
  have hisolated := hmain.1 (iff_of_true (hread "a1" (by decide)) (hread "d4" (by decide)))
  exact ⟨hisolated, hmain.2 (by decide) (.inl (by decide +kernel)) hisolated⟩

end OwAnalytics.Ap
