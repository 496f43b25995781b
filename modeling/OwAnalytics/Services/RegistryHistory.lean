/-
  OwAnalytics.Services.RegistryHistory

  What the registry holds, told by the messages.  After a message that can be read it
  holds the services whose last announcement was a join or a keep-alive of the last two
  minutes.  A message that cannot be read throws and changes nothing.  That may be a
  message that parses, with a value that does not convert: the sweep is left out, and
  services that are long gone stay.
-/

import OwAnalytics.Lib.Expiry
import OwAnalytics.Services.Registry

namespace OwAnalytics.Services

open Boards (Poco)
open Expiry (Contents Report latest mostRecent put sweep)
open Throwing

variable {F : Type} (p : Poco F) (ID_ : UInt64)

/-! ## The messages -/

/-- A message of the bus, with the clock when it is received and when the services are swept. -/
structure Delivery (F : Type) where
  payload : Option (Document F)
  received : UInt64
  now : UInt64

/-- The clock does not run backwards. -/
structure InOrder (ms : List (Delivery F)) : Prop where
  within : ∀ m ∈ ms, m.received ≤ m.now
  between : ms.Pairwise fun m m' => m.now ≤ m'.received

/-- `BusMessageReceived`, for a message that is delivered. -/
def receive (m : Delivery F) : Computation MicroService Unit :=
  busMessageReceived p ID_ m.payload m.received m.now

/-- The registry after the messages; the handler lets no exception out. -/
def receiveAll (ms : List (Delivery F)) : MicroService :=
  ms.foldl (fun s m => (receive p ID_ m).attempt s) {}

theorem receiveAll_concat (ms : List (Delivery F)) (m : Delivery F) :
    receiveAll p ID_ (ms ++ [m]) = (receive p ID_ m (receiveAll p ID_ ms)).2 := by
  rw [receiveAll, List.foldl_append]
  rfl

/-- The value of a field, as a text. -/
def textOf (d : Document F) (field : String) : Option Str := (d.find? field).bind p.toString

/-- The service a join or a keep-alive tells of. -/
def info? (d : Document F) (id received : UInt64) : Option MicroServiceMeta := do
  let type ← textOf p d "type"
  let privateEndPoint ← textOf p d "privateEndPoint"
  let publicEndPoint ← textOf p d "publicEndPoint"
  let accessKey ← textOf p d "key"
  let version ← textOf p d "version"
  return { id, type := toLower type, privateEndPoint, publicEndPoint, accessKey, version,
           lastUpdate := received }

/-- The fields of an announcement, beside the id and the event. -/
abbrev HasFields (d : Document F) : Prop :=
  d.contains "type" ∧ d.contains "publicEndPoint" ∧ d.contains "privateEndPoint" ∧
    d.contains "version" ∧ d.contains "key"

/-- What another service announces about its private endpoint: that it is there, or that it
    leaves. -/
def announced (d : Document F) (received : UInt64) : Option (Report Str MicroServiceMeta) := do
  let id ← (d.find? "id").bind p.toUInt64
  let event ← textOf p d "event"
  if id ≠ ID_ ∧ (event = EVENT_JOIN ∨ event = EVENT_KEEP_ALIVE ∨ event = EVENT_LEAVE) ∧
      HasFields d then
    let privateEndPoint ← textOf p d "privateEndPoint"
    if event = EVENT_LEAVE then return (privateEndPoint, none)
    else
      let info ← info? p d id received
      return (privateEndPoint, some info)
  else none

/-- The values an event is handled with convert. -/
def Reads (d : Document F) (received : UInt64) : Prop :=
  ∃ id event, (d.find? "id").bind p.toUInt64 = some id ∧ textOf p d "event" = some event ∧
    (id ≠ ID_ → (event = EVENT_JOIN ∨ event = EVENT_KEEP_ALIVE ∨ event = EVENT_LEAVE) →
      HasFields d → textOf p d "privateEndPoint" ≠ none ∧
        (event ≠ EVENT_LEAVE → info? p d id received ≠ none)) ∧
    (id ≠ ID_ → event = EVENT_REMOVE_TOKEN → d.contains "token" → textOf p d "token" ≠ none)

/-- The payload is an object, and the values in it that are used convert. -/
def Readable (m : Delivery F) : Prop :=
  match m.payload with
  | some (.obj fields) =>
    (Document.obj fields).contains "id" → (Document.obj fields).contains "event" →
      Reads p ID_ (.obj fields) m.received
  | _ => False

/-- The announcement a message is, if it is one: a join, a keep-alive or a leave of another
    service, with all fields. -/
def announcement? (m : Delivery F) : Option (Report Str MicroServiceMeta) :=
  match m.payload with
  | some (.obj fields) => announced p ID_ (.obj fields) m.received
  | _ => none

/-! ## One message -/

/-- The registry as a function of the private end point. -/
def contents (s : MicroService) : Contents Str MicroServiceMeta := fun k => s.services[k]?

theorem contents_insert (s : MicroService) (k : Str) (info : MicroServiceMeta) :
    contents { s with services := s.services.insert k info }
      = put (contents s) (some (k, some info)) := by
  funext k'
  by_cases hk : k' = k
  · subst hk
    rw [Expiry.put_some_self]
    exact Std.ExtTreeMap.getElem?_insert_self
  · rw [Expiry.put_some_of_ne _ hk]
    unfold contents
    rw [Std.ExtTreeMap.getElem?_insert,
      if_neg (mt Std.LawfulEqCmp.compare_eq_iff_eq.mp (Ne.symm hk))]

theorem contents_erase (s : MicroService) (k : Str) :
    contents { s with services := s.services.erase k } = put (contents s) (some (k, none)) := by
  funext k'
  by_cases hk : k' = k
  · subst hk
    rw [Expiry.put_some_self]
    exact Std.ExtTreeMap.getElem?_erase_self
  · rw [Expiry.put_some_of_ne _ hk]
    unfold contents
    rw [Std.ExtTreeMap.getElem?_erase,
      if_neg (mt Std.LawfulEqCmp.compare_eq_iff_eq.mp (Ne.symm hk))]

/-- A step that reads a value and goes on with it. -/
theorem ofOption_bind {α β : Type} (o : Option α) (g : α → Computation MicroService β)
    (s : MicroService) :
    (Computation.ofOption o >>= g) s = match o with | none => (none, s) | some a => g a s := by
  cases o with
  | none => exact Computation.bind_of_none rfl
  | some a => exact Computation.bind_of_some rfl

theorem text_eq (d : Document F) (field : String) :
    (text p d field : Computation MicroService Str) = .ofOption (textOf p d field) := by
  unfold text textOf get
  cases d.find? field with
  | none => rfl
  | some v => rfl

theorem id_eq (d : Document F) : p.toUInt64 (get d "id") = (d.find? "id").bind p.toUInt64 := by
  unfold get
  cases d.find? "id" with
  | none => rfl
  | some v => rfl

theorem serviceInfo_apply (d : Document F) (id received : UInt64) (s : MicroService) :
    serviceInfo p d id received s = (info? p d id received, s) := by
  unfold serviceInfo info?
  simp only [text_eq, ofOption_bind]
  cases textOf p d "type" with
  | none => rfl
  | some type =>
  cases textOf p d "privateEndPoint" with
  | none => rfl
  | some privateEndPoint =>
  cases textOf p d "publicEndPoint" with
  | none => rfl
  | some publicEndPoint =>
  cases textOf p d "key" with
  | none => rfl
  | some accessKey =>
  cases textOf p d "version" with
  | none => rfl
  | some version => rfl

theorem ne_removeToken {event : Str}
    (h : event = EVENT_JOIN ∨ event = EVENT_KEEP_ALIVE ∨ event = EVENT_LEAVE) :
    event ≠ EVENT_REMOVE_TOKEN := by
  rcases h with rfl | rfl | rfl
  · decide
  · decide
  · decide

/-- An event that can be read is an announcement that is put down, or no announcement; one that
    cannot throws, and is none. -/
def Handled (d : Document F) (received : UInt64) (s : MicroService) : Prop :=
  (handleEvent p ID_ d received s = (none, s) ∧ announced p ID_ d received = none ∧
    ¬ Reads p ID_ d received) ∨
  ∃ s', handleEvent p ID_ d received s = (some (), s') ∧
    contents s' = put (contents s) (announced p ID_ d received) ∧ Reads p ID_ d received

section Handled

variable {d : Document F} {id received : UInt64} {event : Str} {s : MicroService}

theorem reads_iff (hid : (d.find? "id").bind p.toUInt64 = some id)
    (hevent : textOf p d "event" = some event) :
    Reads p ID_ d received ↔
      (id ≠ ID_ → (event = EVENT_JOIN ∨ event = EVENT_KEEP_ALIVE ∨ event = EVENT_LEAVE) →
        HasFields d → textOf p d "privateEndPoint" ≠ none ∧
          (event ≠ EVENT_LEAVE → info? p d id received ≠ none)) ∧
      (id ≠ ID_ → event = EVENT_REMOVE_TOKEN → d.contains "token" →
        textOf p d "token" ≠ none) := by
  simp [Reads, hid, hevent]

/-- An announcement needs the private endpoint, and one that is no leave all of its fields. -/
theorem handled_of_service (hid : (d.find? "id").bind p.toUInt64 = some id)
    (hevent : textOf p d "event" = some event) (hother : id ≠ ID_)
    (hkind : event = EVENT_JOIN ∨ event = EVENT_KEEP_ALIVE ∨ event = EVENT_LEAVE)
    (hfields : HasFields d) : Handled p ID_ d received s := by
  have hnotoken := ne_removeToken hkind
  unfold Handled
  rw [reads_iff p ID_ hid hevent, and_iff_left fun _ h => absurd h hnotoken, imp_iff_right hother,
    imp_iff_right hkind, imp_iff_right hfields]
  unfold handleEvent announced
  rw [id_eq, ofOption_bind, hid]
  simp only [text_eq, ofOption_bind, hevent, Option.bind_eq_bind, Option.bind_some]
  rw [if_pos hother, if_pos hkind, if_pos hfields, if_pos ⟨hother, hkind, hfields⟩, ofOption_bind]
  cases textOf p d "privateEndPoint" with
  | none => exact .inl ⟨rfl, rfl, fun h => h.1 rfl⟩
  | some privateEndPoint =>
  simp only [Option.bind_some]
  by_cases hleave : event = EVENT_LEAVE
  · rw [if_pos hleave, if_pos hleave]
    exact .inr ⟨_, rfl, contents_erase s privateEndPoint, Option.some_ne_none _,
      fun h => absurd hleave h⟩
  · rw [if_neg hleave, if_neg hleave]
    have hinfo := serviceInfo_apply p d id received s
    cases hresult : info? p d id received with
    | none =>
        rw [hresult] at hinfo
        exact .inl ⟨Computation.bind_of_none hinfo, rfl, fun h => h.2 hleave rfl⟩
    | some info =>
        rw [hresult] at hinfo
        exact .inr ⟨_, Computation.bind_of_some hinfo, contents_insert s privateEndPoint info,
          Option.some_ne_none _, fun _ => Option.some_ne_none _⟩

/-- Whatever else the event is, the services stay as they are. -/
theorem handled_of_other (hid : (d.find? "id").bind p.toUInt64 = some id)
    (hevent : textOf p d "event" = some event)
    (hnone : ¬ (id ≠ ID_ ∧
      (event = EVENT_JOIN ∨ event = EVENT_KEEP_ALIVE ∨ event = EVENT_LEAVE) ∧ HasFields d)) :
    Handled p ID_ d received s := by
  have hservice : id ≠ ID_ →
      (event = EVENT_JOIN ∨ event = EVENT_KEEP_ALIVE ∨ event = EVENT_LEAVE) → HasFields d →
      textOf p d "privateEndPoint" ≠ none ∧
        (event ≠ EVENT_LEAVE → info? p d id received ≠ none) :=
    fun hother hkind hfields => absurd ⟨hother, hkind, hfields⟩ hnone
  unfold Handled
  rw [reads_iff p ID_ hid hevent, and_iff_right hservice]
  unfold handleEvent announced
  rw [id_eq, ofOption_bind, hid]
  simp only [text_eq, ofOption_bind, hevent, Option.bind_eq_bind, Option.bind_some]
  rw [if_neg hnone]
  by_cases hother : id ≠ ID_
  · rw [if_pos hother]
    by_cases hkind : event = EVENT_JOIN ∨ event = EVENT_KEEP_ALIVE ∨ event = EVENT_LEAVE
    · have hfields : ¬ HasFields d := fun h => hnone ⟨hother, hkind, h⟩
      have hnotoken := ne_removeToken hkind
      rw [if_pos hkind, if_neg hfields]
      exact .inr ⟨s, rfl, rfl, fun _ h => absurd h hnotoken⟩
    · rw [if_neg hkind]
      by_cases hremove : event = EVENT_REMOVE_TOKEN
      · rw [if_pos hremove]
        by_cases htoken : d.contains "token" = true
        · rw [if_pos htoken, ofOption_bind]
          cases textOf p d "token" with
          | none => exact .inl ⟨rfl, rfl, fun h => h hother hremove htoken rfl⟩
          | some token => exact .inr ⟨_, rfl, rfl, fun _ _ _ => Option.some_ne_none _⟩
        · rw [if_neg htoken]
          exact .inr ⟨s, rfl, rfl, fun _ _ h => absurd h htoken⟩
      · rw [if_neg hremove]
        exact .inr ⟨s, rfl, rfl, fun _ h => absurd h hremove⟩
  · rw [if_neg hother]
    exact .inr ⟨s, rfl, rfl, fun h => absurd h hother⟩

end Handled

theorem handleEvent_spec (d : Document F) (received : UInt64) (s : MicroService) :
    Handled p ID_ d received s := by
  cases hid : (d.find? "id").bind p.toUInt64 with
  | none =>
      refine .inl ⟨?_, ?_, ?_⟩
      · rw [handleEvent, id_eq, ofOption_bind, hid]
      · rw [announced, hid]
        rfl
      · simp [Reads, hid]
  | some id =>
  cases hevent : textOf p d "event" with
  | none =>
      refine .inl ⟨?_, ?_, ?_⟩
      · rw [handleEvent, id_eq, ofOption_bind, hid]
        simp only [text_eq, ofOption_bind, hevent]
      · rw [announced, hid, hevent]
        rfl
      · simp [Reads, hevent]
  | some event =>
  by_cases hservice : id ≠ ID_ ∧
      (event = EVENT_JOIN ∨ event = EVENT_KEEP_ALIVE ∨ event = EVENT_LEAVE) ∧ HasFields d
  · exact handled_of_service p ID_ hid hevent hservice.1 hservice.2.1 hservice.2.2
  · exact handled_of_other p ID_ hid hevent hservice

theorem announced_of_missing (d : Document F) (received : UInt64)
    (h : ¬ (d.contains "id" = true ∧ d.contains "event" = true)) :
    announced p ID_ d received = none := by
  have hmissing : d.find? "id" = none ∨ d.find? "event" = none := by
    by_contra hboth
    simp only [not_or] at hboth
    refine h ⟨?_, ?_⟩
    · exact Option.isSome_iff_ne_none.mpr hboth.1
    · exact Option.isSome_iff_ne_none.mpr hboth.2
  unfold announced
  rcases hmissing with hid | hevent
  · rw [hid]
    rfl
  · have hnone : textOf p d "event" = none := by rw [textOf, hevent]; rfl
    rw [hnone]
    cases (d.find? "id").bind p.toUInt64 with
    | none => rfl
    | some id => rfl

/-- The services of the last two minutes. -/
def fresh (now : UInt64) (c : Contents Str MicroServiceMeta) : Contents Str MicroServiceMeta :=
  fun k => (c k).filter fun info => now - info.lastUpdate ≤ 120

/-- A message that cannot be read throws, is no announcement and changes nothing; of one that can
    be read the announcement is put down, and the services are swept. -/
theorem receive_spec (m : Delivery F) (s : MicroService) :
    (receive p ID_ m s = (none, s) ∧ announcement? p ID_ m = none ∧ ¬ Readable p ID_ m) ∨
    ∃ s', receive p ID_ m s = (some (), s') ∧
      contents s' = fresh m.now (put (contents s) (announcement? p ID_ m)) ∧
      Readable p ID_ m := by
  unfold receive busMessageReceived announcement? Readable
  match m.payload with
  | none | some .null | some (.bool _) | some (.unsigned _) | some (.integer _) | some (.float _)
  | some (.str _) | some (.arr _) => exact .inl ⟨rfl, rfl, id⟩
  | some (.obj fields) =>
    simp only
    have hsweep : ∀ t : MicroService, contents { t with
        services := sweepLoop m.now t.services.toList t.services } = fresh m.now (contents t) :=
      fun t => funext fun k => getElem?_sweep m.now t.services k
    -- a message without the two members reports nothing, and the sweep runs all the same
    by_cases hboth : (Document.obj fields).contains "id" = true ∧
        (Document.obj fields).contains "event" = true
    · rw [if_pos hboth]
      rcases handleEvent_spec p ID_ (.obj fields) m.received s with
        ⟨hthrow, hnone, hreads⟩ | ⟨t, ht, hput, hreads⟩
      · exact .inl ⟨Computation.bind_of_none hthrow, hnone, fun h => hreads (h hboth.1 hboth.2)⟩
      · exact .inr ⟨_, Computation.bind_of_some ht, (hsweep t).trans (congrArg _ hput),
          fun _ _ => hreads⟩
    · rw [if_neg hboth, announced_of_missing p ID_ _ _ hboth]
      exact .inr ⟨_, Computation.bind_of_some rfl, hsweep s, fun hid hevent =>
        absurd ⟨hid, hevent⟩ hboth⟩

/-! ## All messages -/

/-- What the messages report of their services, one after the other. -/
def reports (ms : List (Delivery F)) : List (Option (Report Str MicroServiceMeta)) :=
  ms.map (announcement? p ID_)

theorem reports_concat (ms : List (Delivery F)) (m : Delivery F) :
    reports p ID_ (ms ++ [m]) = reports p ID_ ms ++ [announcement? p ID_ m] := by
  rw [reports, List.map_append]
  rfl

theorem char_toLower_toLower (c : Char) : c.toLower.toLower = c.toLower := by
  unfold Char.toLower
  split
  next h =>
    -- A capital is moved behind the capitals.
    have hA : 'A'.val = 65 := rfl
    have hZ : 'Z'.val = 90 := rfl
    rw [hA, hZ] at h
    rw [dif_neg]
    simp only [hA, hZ, ge_iff_le, UInt32.le_iff_toNat_le, not_and, not_le, UInt32.toNat_add] at *
    simp at *
    omega
  next h => rfl

theorem toLower_toLower (s : Str) : toLower (toLower s) = toLower s := by
  simp only [toLower, List.map_map]
  refine List.map_congr_left fun c _ => ?_
  exact char_toLower_toLower c

/-- The time of a service told of is the message's, and its type is in lower case. -/
theorem of_info? {d : Document F} {id received : UInt64} {info : MicroServiceMeta}
    (h : info? p d id received = some info) :
    info.lastUpdate = received ∧ toLower info.type = info.type := by
  unfold info? at h
  obtain ⟨type, -, h⟩ := Option.bind_eq_some_iff.mp h
  obtain ⟨privateEndPoint, -, h⟩ := Option.bind_eq_some_iff.mp h
  obtain ⟨publicEndPoint, -, h⟩ := Option.bind_eq_some_iff.mp h
  obtain ⟨accessKey, -, h⟩ := Option.bind_eq_some_iff.mp h
  obtain ⟨version, -, h⟩ := Option.bind_eq_some_iff.mp h
  cases h
  exact ⟨rfl, toLower_toLower type⟩

theorem announcement_info {m : Delivery F} {k : Str} {info : MicroServiceMeta}
    (h : announcement? p ID_ m = some (k, some info)) :
    info.lastUpdate = m.received ∧ toLower info.type = info.type := by
  unfold announcement? announced at h
  split at h
  · obtain ⟨id, -, h⟩ := Option.bind_eq_some_iff.mp h
    obtain ⟨event, -, h⟩ := Option.bind_eq_some_iff.mp h
    split at h
    · obtain ⟨privateEndPoint, -, h⟩ := Option.bind_eq_some_iff.mp h
      split at h
      · cases h
      · obtain ⟨info', hinfo, h⟩ := Option.bind_eq_some_iff.mp h
        cases h
        exact of_info? p hinfo
    · cases h
  · cases h

/-- A service that was announced, and when. -/
theorem exists_delivery_of_latest {ms : List (Delivery F)} {k : Str} {info : MicroServiceMeta}
    (h : latest (reports p ID_ ms) k = some info) :
    toLower info.type = info.type ∧ ∃ m ∈ ms, info.lastUpdate = m.received := by
  obtain ⟨m, hm, hreport⟩ := List.mem_map.mp (Expiry.exists_report_of_latest h)
  obtain ⟨hstamp, hlower⟩ := announcement_info p ID_ hreport
  exact ⟨hlower, m, hm, hstamp⟩

theorem InOrder.prefix {ms : List (Delivery F)} {m : Delivery F} (h : InOrder (ms ++ [m])) :
    InOrder ms where
  within m' hm' := h.within m' (List.mem_append_left _ hm')
  between := (List.pairwise_append.mp h.between).1

/-- No message is received after the last one is swept for. -/
theorem InOrder.received_le {ms : List (Delivery F)} {m m' : Delivery F}
    (h : InOrder (ms ++ [m])) (hm' : m' ∈ ms ++ [m]) : m'.received ≤ m.now := by
  have hlast : m.received ≤ m.now := h.within m (List.mem_append_right _ List.mem_cons_self)
  rcases List.mem_append.mp hm' with hmem | hmem
  · have hself : m'.received ≤ m'.now := h.within m' hm'
    have hnext : m'.now ≤ m.received :=
      (List.pairwise_append.mp h.between).2.2 m' hmem m List.mem_cons_self
    exact UInt64.le_trans (UInt64.le_trans hself hnext) hlast
  · rw [List.mem_singleton.mp hmem]
    exact hlast

/-- The time an entry was last updated, as a number. -/
abbrev stamp (info : MicroServiceMeta) : ℕ := info.lastUpdate.toNat

/-- The unsigned difference is the time that has passed. -/
theorem fresh_eq_sweep {now : UInt64} {c : Contents Str MicroServiceMeta}
    (h : ∀ k info, c k = some info → info.lastUpdate ≤ now) :
    fresh now c = sweep stamp 120 now.toNat c := by
  funext k
  refine Option.ext fun info => ?_
  rw [Expiry.sweep_eq_some_iff, fresh, Option.filter_eq_some_iff, decide_eq_true_iff]
  refine and_congr_right fun hinfo => ?_
  have hle := h k info hinfo
  rw [UInt64.le_iff_toNat_le, UInt64.toNat_sub_of_le _ _ hle]
  rw [UInt64.le_iff_toNat_le] at hle
  have h120 : (120 : UInt64).toNat = 120 := rfl
  have hstamp : stamp info = info.lastUpdate.toNat := rfl
  omega

/-- The registry is the last announcements, swept at this time. -/
def Swept (ms : List (Delivery F)) (time : ℕ) : Prop :=
  contents (receiveAll p ID_ ms) = sweep stamp 120 time (latest (reports p ID_ ms))

/-- A message that can be read sweeps, at a time no earlier than the sweeps before. -/
theorem swept_of_readable {ms : List (Delivery F)} {m : Delivery F} (h : InOrder (ms ++ [m]))
    {time : ℕ} (htime : time ≤ m.now.toNat) (hswept : Swept p ID_ ms time)
    (hreadable : Readable p ID_ m) : Swept p ID_ (ms ++ [m]) m.now.toNat := by
  rcases receive_spec p ID_ m (receiveAll p ID_ ms) with ⟨-, -, hnot⟩ | ⟨s', hs', hnew, -⟩
  · exact absurd hreadable hnot
  · have hstamps : ∀ k info, put (sweep stamp 120 time (latest (reports p ID_ ms)))
        (announcement? p ID_ m) k = some info → info.lastUpdate ≤ m.now := by
      intro k info hinfo
      have hlatest := Expiry.put_eq_some_of_put_sweep stamp 120 hinfo
      rw [← Expiry.latest_concat, ← reports_concat] at hlatest
      obtain ⟨-, m', hm', hstamp⟩ := exists_delivery_of_latest p ID_ hlatest
      rw [hstamp]
      exact h.received_le hm'
    rw [Swept, receiveAll_concat, reports_concat, Expiry.latest_concat, hs', hnew, hswept,
      fresh_eq_sweep hstamps, Expiry.sweep_put_sweep _ _ htime]

/-- A message that cannot leaves everything as it is. -/
theorem swept_of_not_readable {ms : List (Delivery F)} {m : Delivery F} {time : ℕ}
    (hswept : Swept p ID_ ms time) (hnot : ¬ Readable p ID_ m) :
    receiveAll p ID_ (ms ++ [m]) = receiveAll p ID_ ms ∧ Swept p ID_ (ms ++ [m]) time := by
  rcases receive_spec p ID_ m (receiveAll p ID_ ms) with ⟨hs, hnone, -⟩ | ⟨s', -, -, hreadable⟩
  · have hsame : receiveAll p ID_ (ms ++ [m]) = receiveAll p ID_ ms := by
      rw [receiveAll_concat, hs]
    refine ⟨hsame, ?_⟩
    rw [Swept, hsame, reports_concat, Expiry.latest_concat, hnone]
    exact hswept
  · exact absurd hreadable hnot

/-- After any messages the registry is swept for a time of one of them, or for none. -/
theorem exists_swept {ms : List (Delivery F)} (h : InOrder ms) :
    ∃ time, Swept p ID_ ms time ∧ ∀ m, InOrder (ms ++ [m]) → time ≤ m.now.toNat := by
  induction ms using List.reverseRecOn with
  | nil =>
      refine ⟨0, funext fun k => ?_, fun m _ => Nat.zero_le _⟩
      exact Std.ExtTreeMap.getElem?_empty
  | append_singleton ms m ih =>
      obtain ⟨time, hswept, hnext⟩ := ih h.prefix
      have htime := hnext m h
      have hlater : ∀ m', InOrder (ms ++ [m] ++ [m']) → m.now.toNat ≤ m'.now.toNat := by
        intro m' h'
        have hbetween : m.now ≤ m'.received :=
          (List.pairwise_append.mp h'.between).2.2 m (by simp) m' List.mem_cons_self
        exact UInt64.le_iff_toNat_le.mp
          (UInt64.le_trans hbetween (h'.within m' (by simp)))
      by_cases hreadable : Readable p ID_ m
      · exact ⟨m.now.toNat, swept_of_readable p ID_ h htime hswept hreadable, hlater⟩
      · exact ⟨time, (swept_of_not_readable p ID_ hswept hreadable).2, fun m' h' =>
          htime.trans (hlater m' h')⟩

/-! ## The registry -/

/-- The service was announced last by a join or a keep-alive that is at most two minutes old. -/
def Alive (ms : List (Delivery F)) (now : UInt64) (k : Str) (info : MicroServiceMeta) : Prop :=
  mostRecent (reports p ID_ ms) k = some (some info) ∧ now.toNat ≤ info.lastUpdate.toNat + 120

theorem mostRecent_eq_some_iff {ms : List (Delivery F)} {k : Str} {info : MicroServiceMeta} :
    mostRecent (reports p ID_ ms) k = some (some info) ↔
      latest (reports p ID_ ms) k = some info := by
  rw [Expiry.latest_eq_mostRecent, Option.join_eq_some_iff]

/-- The entries have their types in lower case. -/
theorem lower_of_mem {ms : List (Delivery F)} (h : InOrder ms) {k : Str} {info : MicroServiceMeta}
    (hinfo : (receiveAll p ID_ ms).services[k]? = some info) : toLower info.type = info.type := by
  obtain ⟨time, hswept, -⟩ := exists_swept p ID_ h
  have hk : contents (receiveAll p ID_ ms) k = some info := hinfo
  rw [hswept, Expiry.sweep_eq_some_iff] at hk
  exact (exists_delivery_of_latest p ID_ hk.1).1

/-- After a message that can be read the registry holds the services that are alive; a message that
    cannot changes nothing; and either way `GetServices` returns the entries of a type, in whatever
    case it is written. -/
theorem registry_contents (ms : List (Delivery F)) (m : Delivery F) (h : InOrder (ms ++ [m])) :
    (Readable p ID_ m → ∀ k info,
      (receiveAll p ID_ (ms ++ [m])).services[k]? = some info ↔
        Alive p ID_ (ms ++ [m]) m.now k info) ∧
    (¬ Readable p ID_ m → receiveAll p ID_ (ms ++ [m]) = receiveAll p ID_ ms) ∧
    ∀ type, getServices (receiveAll p ID_ (ms ++ [m])) type =
      ((receiveAll p ID_ (ms ++ [m])).services.toList.filter fun e =>
        toLower e.2.type = toLower type).map Prod.snd := by
  obtain ⟨time, hswept, hnext⟩ := exists_swept p ID_ h.prefix
  refine ⟨?_, fun hnot => (swept_of_not_readable p ID_ hswept hnot).1, ?_⟩
  · intro hreadable k info
    have hnow : Swept p ID_ (ms ++ [m]) m.now.toNat :=
      swept_of_readable p ID_ h (hnext m h) hswept hreadable
    have hk : (receiveAll p ID_ (ms ++ [m])).services[k]?
        = sweep stamp 120 m.now.toNat (latest (reports p ID_ (ms ++ [m]))) k := congrFun hnow k
    rw [hk, Expiry.sweep_eq_some_iff, Alive, mostRecent_eq_some_iff]
  · intro type
    unfold getServices
    rw [List.filter_map]
    -- the types are stored in lower case
    refine congrArg _ (List.filter_congr fun e he => ?_)
    have hlower : toLower e.2.type = e.2.type :=
      lower_of_mem p ID_ h (Std.ExtTreeMap.mem_toList_iff_getElem?_eq_some.mp he)
    rw [Function.comp_apply, hlower, beq_eq_decide]

/-! ## A value that does not convert -/

/-- A library that reads numbers and texts only where they are numbers and texts. -/
def strict : Poco Unit where
  text _ := none
  uint64
    | .unsigned n => some n
    | _ => none

/-- A service that joins. -/
def joined : Delivery Unit where
  payload := some (.obj
    [("event".toList, .str EVENT_JOIN), ("id".toList, .unsigned 2), ("key".toList, .str []),
      ("privateEndPoint".toList, .str "https://other".toList), ("publicEndPoint".toList, .str []),
      ("type".toList, .str "owGW".toList), ("version".toList, .str [])])
  received := 1000
  now := 1000

/-- An hour later, a message whose id is no number. -/
def unreadable : Delivery Unit where
  payload := some (.obj [("event".toList, .str EVENT_JOIN), ("id".toList, .str "abc".toList)])
  received := 4600
  now := 4600

/-- What another service announces, with the version it has. -/
def announcement (event : Str) (privateEndPoint type version : String) (received : UInt64) :
    Delivery Unit where
  payload := some (.obj
    [("event".toList, .str event), ("id".toList, .unsigned 2), ("key".toList, .str []),
      ("privateEndPoint".toList, .str privateEndPoint.toList), ("publicEndPoint".toList, .str []),
      ("type".toList, .str type.toList), ("version".toList, .str version.toList)])
  received := received
  now := received

/-- Three services join; the first is heard of again with another version, the third leaves, and
    then comes a message whose id is no number. -/
def twoMinutes : List (Delivery Unit) :=
  [announcement EVENT_JOIN "https://gw" "owGW" "1" 1000,
    announcement EVENT_JOIN "https://sec" "owsec" "1" 1005,
    announcement EVENT_JOIN "https://fms" "owfms" "1" 1010,
    announcement EVENT_KEEP_ALIVE "https://gw" "owGW" "2" 1100,
    announcement EVENT_LEAVE "https://fms" "owfms" "1" 1110,
    { unreadable with received := 1115, now := 1115 }]

/-- A fourth joins when the second has not been heard of for more than two minutes. -/
def rejoined : Delivery Unit := announcement EVENT_JOIN "https://prov" "owprov" "1" 1135

theorem registry_contents_twoMinutes :
    InOrder (twoMinutes ++ [rejoined]) ∧ Readable strict 1 rejoined ∧
      (∀ k info, (receiveAll strict 1 (twoMinutes ++ [rejoined])).services[k]? = some info ↔
        Alive strict 1 (twoMinutes ++ [rejoined]) rejoined.now k info) ∧
      (receiveAll strict 1 (twoMinutes ++ [rejoined])).services.toList.map
          (fun e => (e.1, e.2.version, e.2.lastUpdate))
        = [("https://gw".toList, "2".toList, 1100), ("https://prov".toList, "1".toList, 1135)] ∧
      getServices (receiveAll strict 1 (twoMinutes ++ [rejoined])) "OWGW".toList
        = ((receiveAll strict 1 (twoMinutes ++ [rejoined])).services.toList.filter fun e =>
            toLower e.2.type = toLower "OWGW".toList).map Prod.snd := by
  have horder : InOrder (twoMinutes ++ [rejoined]) := ⟨by decide, by decide⟩
  have hreads : Readable strict 1 rejoined := by
    intro _ _
    refine ⟨2, EVENT_JOIN, by decide +kernel, by decide +kernel, fun _ _ _ => ⟨?_, fun _ => ?_⟩, ?_⟩
    · exact Option.isSome_iff_ne_none.mp (by decide +kernel)
    · exact Option.isSome_iff_ne_none.mp (by decide +kernel)
    · intro _ hremove
      exact absurd hremove (by decide)
  obtain ⟨halive, -, hservices⟩ := registry_contents strict 1 twoMinutes rejoined horder
  exact ⟨horder, hreads, halive hreads, by decide +kernel, hservices _⟩

/-- It parses, and the service of an hour ago stays in the registry. -/
theorem unreadable_keeps_old_service :
    InOrder [joined, unreadable] ∧ (∃ fields, unreadable.payload = some (.obj fields)) ∧
      ¬ ∀ k info, (receiveAll strict 1 [joined, unreadable]).services[k]? = some info ↔
        Alive strict 1 [joined, unreadable] unreadable.now k info := by
  refine ⟨⟨by decide, by decide⟩, ⟨_, rfl⟩, fun h => ?_⟩
  have hstays : ((receiveAll strict 1 [joined, unreadable]).services["https://other".toList]?).map
      (·.lastUpdate) = some 1000 := by
    decide +kernel
  obtain ⟨info, hinfo, hstamp⟩ := Option.map_eq_some_iff.mp hstays
  have hage := ((h _ _).mp hinfo).2
  rw [hstamp] at hage
  exact absurd hage (by decide)

end OwAnalytics.Services
