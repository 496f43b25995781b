/-
  OwAnalytics.Mcp.Telemetry

  From the messages of the devices to the summaries of their numbers.  A time point is
  written as texts, selected by its columns and read again, one text for each endpoint.
  None of this shows: over any run of messages and deletions the endpoints answer as if
  the time points had been kept as they are.
-/

import OwAnalytics.Ap.Update
import OwAnalytics.Mcp.Endpoints
import OwAnalytics.Storage.TimePointRoundTrip

namespace OwAnalytics

open Ap Boards TimePointDB Document
open Storage (parseSsidDataForRssi)

/-! ## What is read of a row that was written -/

namespace TimePointDB

variable {F : Type} [Zero F] {L : JsonLibrary F}

theorem parseRadios_toJson (hL : L.Inverts) (radios : List (RadioTimePoint F)) :
    parseRadios L ((radios.map RadioTimePoint.toJson).map L.reread) = some radios := by
  induction radios with
  | nil => rfl
  | cons r rest ih =>
    have hdecode := RadioTimePoint.decode_toJson hL {} r
    obtain ⟨members, hmembers⟩ : ∃ members, L.reread r.toJson = .obj members := by
      obtain ⟨members, hobj⟩ := r.toJson_obj
      exact ⟨_, by rw [hobj, JsonLibrary.reread, reread]⟩
    rw [List.map_cons, List.map_cons, hmembers, parseRadios, ← hmembers, hdecode]
    dsimp only
    rw [ih, Option.map_some]

theorem parseRadioData_toRecord (hL : L.Inverts) (p : DeviceTimePoint F) :
    parseRadioData L (toRecord L p).radioData = (true, p.radioData) := by
  have hordered : ∀ d ∈ p.radioData.map RadioTimePoint.toJson, d.Ordered := by
    intro d hd
    obtain ⟨r, -, rfl⟩ := List.mem_map.mp hd
    exact r.ordered_toJson
  obtain ⟨hne, hparse⟩ := parse_arrayToString hL hordered
  have htext : (toRecord L p).radioData = arrayToString L (p.radioData.map RadioTimePoint.toJson) :=
    rfl
  rw [parseRadioData, htext, if_neg (by simpa using hne), hparse]
  dsimp only
  rw [parseRadios_toJson hL]

/-- An SSID as it is read again. -/
def ssidRead (L : JsonLibrary F) (s : SSIDTimePoint F) : SSIDTimePoint F :=
  SSIDTimePoint.fromJson L {} (L.reread (s.toJson L))

/-- An SSID that was written can be read with all its associations. -/
theorem wellFormed_toJson (hL : L.Inverts) (s : SSIDTimePoint F) :
    Storage.WellFormed L (L.reread (s.toJson L)) where
  ssid := by
    obtain ⟨members, hobj⟩ := s.toJson_obj L
    have hreread : L.reread (s.toJson L) = .obj (rereadMembers L.number members) := by
      rw [hobj, JsonLibrary.reread, reread]
    have hdecode := SSIDTimePoint.decode_toJson hL s
    rw [hreread] at hdecode ⊢
    rw [Storage.isSsid, hdecode]
  associations items hitems a ha := by
    rw [SSIDTimePoint.find?_associations, JsonLibrary.reread, reread, rereadItems_eq_map,
      Option.some.injEq, arr.injEq] at hitems
    subst hitems
    obtain ⟨written, hwritten, rfl⟩ := List.mem_map.mp ha
    obtain ⟨u, -, rfl⟩ := List.mem_map.mp hwritten
    obtain ⟨members, hobj⟩ := u.toJson_obj L
    have hreread : reread L.number (u.toJson L) = .obj (rereadMembers L.number members) := by
      rw [hobj, reread]
    have hdecode := UETimePoint.decode_toJson hL u
    rw [JsonLibrary.reread, hreread] at hdecode
    rw [hreread, Storage.isAssociation, hdecode]

theorem parseSsidDataForRssi_toRecord (hL : L.Inverts) (p : DeviceTimePoint F) :
    parseSsidDataForRssi L (toRecord L p).ssidData = (true, p.ssidData.map (ssidRead L)) := by
  have hordered : ∀ d ∈ p.ssidData.map (SSIDTimePoint.toJson L), d.Ordered := by
    intro d hd
    obtain ⟨s, -, rfl⟩ := List.mem_map.mp hd
    exact s.ordered_toJson hL
  obtain ⟨hne, hparse⟩ := parse_arrayToString hL hordered
  have hwellFormed : ∀ d ∈ (p.ssidData.map (SSIDTimePoint.toJson L)).map L.reread,
      Storage.WellFormed L d := by
    intro d hd
    obtain ⟨written, hwritten, rfl⟩ := List.mem_map.mp hd
    obtain ⟨s, -, rfl⟩ := List.mem_map.mp hwritten
    exact wellFormed_toJson hL s
  show parseSsidDataForRssi L (arrayToString L (p.ssidData.map (SSIDTimePoint.toJson L))) = _
  rw [Storage.parseSsidDataForRssi_array hne hparse,
    Storage.objectArray_eq_map fun d => Storage.exists_obj_of_mem_deleteMalformed,
    Storage.deleteMalformed_of_wellFormed hwellFormed, List.map_map, List.map_map]
  rfl

/-- A row that was written is well formed. -/
theorem wellFormed_toRecord (hL : L.Inverts) (p : DeviceTimePoint F) :
    (toRecord L p).WellFormed L := by
  -- a text that was printed parses to an object, or to an array of objects
  have hobject : ∀ {d : Document F}, (∃ members, d = .obj members) → d.Ordered →
      IsObjectText L (L.stringify d) := by
    rintro d ⟨members, rfl⟩ hordered
    exact .inr ⟨_, (hL.parse_stringify hordered).trans (by rw [JsonLibrary.reread, reread])⟩
  have harray : ∀ {items : List (Document F)}, (∀ d ∈ items, ∃ members, d = .obj members) →
      (∀ d ∈ items, d.Ordered) → IsArrayText L (arrayToString L items) := by
    intro items hobj hordered
    refine .inr ⟨_, (parse_arrayToString hL hordered).2, fun d hd => ?_⟩
    obtain ⟨x, hx, rfl⟩ := List.mem_map.mp hd
    obtain ⟨members, rfl⟩ := hobj x hx
    exact ⟨_, by rw [JsonLibrary.reread, reread]⟩
  refine ⟨hobject p.apData.toJson_obj p.apData.ordered_toJson, harray ?_ ?_, harray ?_ ?_,
    hobject p.deviceInfo.toJson_obj p.deviceInfo.ordered_toJson,
    hobject p.resourceData.toJson_obj p.resourceData.ordered_toJson⟩
  all_goals
    intro d hd
    obtain ⟨x, -, rfl⟩ := List.mem_map.mp hd
  · exact x.toJson_obj L
  · exact x.ordered_toJson hL
  · exact x.toJson_obj
  · exact x.ordered_toJson

/-- What the selections of one text keep of a time point. -/
def Selection.kept (L : JsonLibrary F) (s : Selection) (p : DeviceTimePoint F) :
    DeviceTimePoint F :=
  match s with
  | .records => { p with ssidData := p.ssidData.map (ssidRead L) }
  | .resource => { id := p.id, timestamp := p.timestamp, resourceData := p.resourceData }
  | .radio => { id := p.id, timestamp := p.timestamp, radioData := p.radioData }
  | .ssid => { id := p.id, timestamp := p.timestamp, ssidData := p.ssidData.map (ssidRead L) }

theorem Selection.point_toRecord (hL : L.Inverts) (s : Selection) (p : DeviceTimePoint F) :
    s.point L (toRecord L p) = some (some (s.kept L p)) := by
  cases s with
  | records =>
    rw [point, convertRecord, fromRecord_toRecord hL]
    rfl
  | resource =>
    show (toObject L _ _ (L.stringify p.resourceData.toJson)).map _ = _
    rw [toObject_stringify hL p.resourceData.toJson_obj p.resourceData.ordered_toJson,
      DeviceResourceTimePoint.fromJson_toJson hL]
    rfl
  | radio =>
    rw [point, convertRadio]
    dsimp only
    rw [parseRadioData_toRecord hL]
    rfl
  | ssid =>
    rw [point, convertSsid]
    dsimp only
    rw [parseSsidDataForRssi_toRecord hL]
    rfl

end TimePointDB

/-! ## Stores of time points -/

namespace Mcp

/-- A place time points are given to; `none` where one is not taken. -/
structure TimePointStore (F σ : Type) [Zero F] where
  create : σ → DeviceTimePoint F → Option σ
  /-- A deletion, of what a clause about the board and the time selects. -/
  delete : σ → (Str → UInt64 → Bool) → σ

/-- What `AP` does with the time point of a message, if there is one; a failure is not looked at. -/
def TimePointStore.take {F σ : Type} [Zero F] (S : TimePointStore F σ) (works : Bool) (s : σ) :
    Option (DeviceTimePoint F) → σ
  | none => s
  | some p => if works then (S.create s p).getD s else s

section Stores

variable {F : Type} [Zero F]

/-- The table of the texts: `CreateRecord` and `DeleteRecords`. -/
def recordStore (L : JsonLibrary F) : TimePointStore F (List Record) where
  create rows p :=
    if rows.any fun r => r.id == p.id then none else some (rows ++ [toRecord L p])
  delete rows selected := rows.filter fun r => !selected r.boardId r.timestamp

/-- The time points as they are. -/
def pointStore : TimePointStore F (List (DeviceTimePoint F)) where
  create points p :=
    if points.any fun q => q.id == p.id then none else some (points ++ [p])
  delete points selected := points.filter fun q => !selected q.boardId q.timestamp

theorem create_map (L : JsonLibrary F) (points : List (DeviceTimePoint F))
    (p : DeviceTimePoint F) :
    (recordStore L).create (points.map (toRecord L)) p =
      (pointStore.create points p).map (List.map (toRecord L)) := by
  have hany : ((points.map (toRecord L)).any fun r => r.id == p.id) =
      points.any fun q => q.id == p.id := by
    rw [List.any_map]
    rfl
  show (if _ then none else some _) = Option.map _ (if _ then none else some _)
  rw [hany]
  split
  · rfl
  · rw [Option.map_some, List.map_append, List.map_singleton]

theorem take_map (L : JsonLibrary F) (works : Bool) (points : List (DeviceTimePoint F))
    (p? : Option (DeviceTimePoint F)) :
    (recordStore L).take works (points.map (toRecord L)) p? =
      (pointStore.take works points p?).map (toRecord L) := by
  cases p? with
  | none => rfl
  | some p =>
    cases works with
    | false => rfl
    | true =>
      rw [TimePointStore.take, TimePointStore.take, if_pos rfl, if_pos rfl, create_map]
      cases pointStore.create points p <;> rfl

theorem delete_map (L : JsonLibrary F) (points : List (DeviceTimePoint F))
    (selected : Str → UInt64 → Bool) :
    (recordStore L).delete (points.map (toRecord L)) selected =
      (pointStore.delete points selected).map (toRecord L) := by
  show (points.map (toRecord L)).filter _ = (points.filter _).map _
  rw [List.filter_map]
  rfl

end Stores

/-! ## Runs -/

section Runs

variable {F ι : Type} [Double F] [DecidableEq ι]

/-- What happens: a message comes to the `AP` of a device, and the time point it has stored is
    created or the statement fails; or time points are deleted. -/
inductive Event (F ι : Type)
  | deliver (i : ι) (x : Delivery F) (works : Bool)
  | delete (selected : Str → UInt64 → Bool)

/-- The access points of all boards, and their store. -/
structure Telemetry (F ι σ : Type) [Double F] where
  aps : ι → AP F
  store : σ

namespace Telemetry

variable {σ : Type} (S : TimePointStore F σ)

/-- A message is delivered, and its point stored if the statement works; or rows go. -/
def step (t : Telemetry F ι σ) : Event F ι → Telemetry F ι σ
  | .deliver i x works =>
    let (ap, stored) := (t.aps i).deliver x
    { aps := Function.update t.aps i ap
      store := S.take works t.store stored.timePoint }
  | .delete selected => { t with store := S.delete t.store selected }

/-- The events one after the other. -/
def run (t : Telemetry F ι σ) (events : List (Event F ι)) : Telemetry F ι σ :=
  events.foldl (step S) t

end Telemetry

open Telemetry

/-- The table goes with the time points. -/
theorem step_map (L : JsonLibrary F) (aps : ι → AP F) (points : List (DeviceTimePoint F))
    (event : Event F ι) :
    step (recordStore L) { aps, store := points.map (toRecord L) } event =
      { aps := (step pointStore { aps, store := points } event).aps
        store := (step pointStore { aps, store := points } event).store.map (toRecord L) } := by
  cases event with
  | deliver i x works =>
    show Telemetry.mk _ _ = Telemetry.mk _ _
    rw [take_map]
    rfl
  | delete selected =>
    show Telemetry.mk _ _ = Telemetry.mk _ _
    rw [delete_map]
    rfl

theorem run_map (L : JsonLibrary F) (aps : ι → AP F) (points : List (DeviceTimePoint F))
    (events : List (Event F ι)) :
    (run (recordStore L) { aps, store := points.map (toRecord L) } events).store =
      (run pointStore { aps, store := points } events).store.map (toRecord L) := by
  induction events generalizing aps points with
  | nil => rfl
  | cons event rest ih =>
    rw [run, List.foldl_cons, step_map]
    exact ih _ _

/-- No two time points have one id. -/
def Distinct (points : List (DeviceTimePoint F)) : Prop := (points.map DeviceTimePoint.id).Nodup

theorem take_bound {points : List (DeviceTimePoint F)} (h : Distinct points) (works : Bool)
    (p? : Option (DeviceTimePoint F)) :
    Distinct (pointStore.take works points p?) ∧
      (pointStore.take works points p?).length ≤ points.length + 1 := by
  have hsame : Distinct points ∧ points.length ≤ points.length + 1 := ⟨h, Nat.le_succ _⟩
  cases p? with
  | none => exact hsame
  | some p =>
    cases works with
    | false => exact hsame
    | true =>
      rw [TimePointStore.take, if_pos rfl, pointStore]
      dsimp only
      split
      · exact hsame
      · -- the id is a new one
        rename_i hfresh
        rw [Option.getD_some, Distinct, List.map_append, List.map_singleton, List.nodup_append]
        refine ⟨⟨h, List.nodup_singleton _, fun id hid id' hid' hsame => hfresh ?_⟩, by simp⟩
        obtain ⟨q, hq, rfl⟩ := List.mem_map.mp hid
        rw [List.mem_singleton.mp hid'] at hsame
        exact List.any_eq_true.mpr ⟨q, hq, beq_iff_eq.mpr hsame⟩

/-- Time points have ids of their own, and there are no more than events. -/
theorem step_bound {t : Telemetry F ι (List (DeviceTimePoint F))} (event : Event F ι)
    (h : Distinct t.store) :
    Distinct (step pointStore t event).store ∧
      (step pointStore t event).store.length ≤ t.store.length + 1 := by
  cases event with
  | deliver i x works => exact take_bound h works _
  | delete selected =>
    refine ⟨h.sublist (List.filter_sublist.map _), ?_⟩
    exact (List.length_filter_le _ _).trans (Nat.le_succ _)

theorem run_bound {t : Telemetry F ι (List (DeviceTimePoint F))} (events : List (Event F ι))
    (h : Distinct t.store) :
    Distinct (run pointStore t events).store ∧
      (run pointStore t events).store.length ≤ t.store.length + events.length := by
  induction events generalizing t with
  | nil => exact ⟨h, Nat.le_refl _⟩
  | cons event rest ih =>
    obtain ⟨hnodup, hle⟩ := step_bound event h
    obtain ⟨hnodup', hle'⟩ := ih hnodup
    refine ⟨hnodup', hle'.trans ?_⟩
    rw [List.length_cons]
    omega

/-- The time points that are kept after a run that begins without any. -/
def pointsAfter (aps : ι → AP F) (events : List (Event F ι)) : List (DeviceTimePoint F) :=
  (run pointStore { aps, store := [] } events).store

theorem rows_eq (L : JsonLibrary F) (aps : ι → AP F) (events : List (Event F ι)) :
    (run (recordStore L) { aps, store := [] } events).store =
      (pointsAfter aps events).map (toRecord L) :=
  run_map L aps [] events

/-- The table after such a run. -/
def tableAfter (L : JsonLibrary F) (aps : ι → AP F) (events : List (Event F ι))
    (hlength : events.length < 2 ^ 64) (succeeds : TimePointDB.Statement → Bool) : RecordTable where
  rows := (run (recordStore L) { aps, store := [] } events).store
  nodup_id := by
    rw [rows_eq, List.map_map]
    exact (run_bound (t := { aps, store := [] }) events List.nodup_nil).1
  length_lt := by
    have hle := (run_bound (t := { aps, store := [] }) events List.nodup_nil).2
    rw [List.length_nil, Nat.zero_add] at hle
    rw [rows_eq, List.length_map]
    exact Nat.lt_of_le_of_lt hle hlength
  succeeds := succeeds

end Runs

/-! ## Endpoints over time points -/

namespace Endpoint

section Summaries

variable {F : Type} [Zero F] {α : Type}

/-- The endpoints of the windows. -/
inductive Summarizes (P : Platform) (p : ℕ) :
    {F : Type} → [Zero F] → {α : Type} → Endpoint F α → Prop
  | memory {F : Type} [Zero F] : Summarizes P p (memory P p : Endpoint F _)
  | radioTemperature : Summarizes P p (radioTemperature P)
  | rssi {F : Type} [Zero F] : Summarizes P p (rssi P : Endpoint F _)

/-- `order by timestamp, id ASC`, of time points. -/
abbrev pointLe : DeviceTimePoint F → DeviceTimePoint F → Prop :=
  thenLe (keyLe DeviceTimePoint.timestamp) (keyLe DeviceTimePoint.id)

/-- The answer of an endpoint, where the time points are kept as they are. -/
def answer (P : Platform) (e : Endpoint F α) (req : Request) (points : List (DeviceTimePoint F)) :
    Answer α := do
  let (window, resolved) ← prepare P req
  let maxSamples ← sampleLimit req window resolved
  let mine := points.filter fun p =>
    p.boardId = resolved.resolvedBoardId ∧ p.serialNumber = req.routerId ∧
      window.startTime ≤ p.timestamp ∧ p.timestamp < window.endTime
  refuseIf (mine.length > maxSamples.toNat) exceedsMaxSamples
  return e.calculate (mine.insertionSort pointLe) window

/-- The calculation looks only at what the selection keeps. -/
def ReadsKept (L : JsonLibrary F) (e : Endpoint F α) : Prop :=
  ∀ points window, e.calculate (points.map (e.selection.kept L)) window = e.calculate points window

variable {L : JsonLibrary F}

/-- The loops over the associations see their stations and strengths. -/
theorem collectRecord_kept (hL : L.Inverts) (requested : Window) (m : Rssi.ClientStatsByMac)
    (p : DeviceTimePoint F) :
    Rssi.collectRecord requested m (Selection.ssid.kept L p) =
      Rssi.collectRecord requested m p := by
  have hassociation : ∀ (m : Rssi.ClientStatsByMac) (u : UETimePoint F),
      Rssi.collectAssociation (Selection.ssid.kept L p) m
        (UETimePoint.fromJson L {} (L.reread (u.toJson L))) = Rssi.collectAssociation p m u := by
    intro m u
    rw [UETimePoint.fromJson_toJson hL]
    rfl
  have hssid : ∀ (m : Rssi.ClientStatsByMac) (s : SSIDTimePoint F),
      (ssidRead L s).associations.foldl (Rssi.collectAssociation (Selection.ssid.kept L p)) m =
        s.associations.foldl (Rssi.collectAssociation p) m := by
    intro m s
    rw [ssidRead, SSIDTimePoint.fromJson_toJson hL, List.foldl_map]
    simp only [hassociation]
  have hssids : (p.ssidData.map (ssidRead L)).foldl
      (fun m s => s.associations.foldl
        (Rssi.collectAssociation (Selection.ssid.kept L p)) m) m =
      p.ssidData.foldl (fun m s => s.associations.foldl (Rssi.collectAssociation p) m) m := by
    rw [List.foldl_map]
    simp only [hssid]
  -- the record's time is kept, so both go by the same window
  show (if _ then m else _) = if _ then m else _
  rw [← hssids]
  rfl

theorem Summarizes.readsKept {P : Platform} {p : ℕ} {e : Endpoint F α} (hL : L.Inverts)
    (h : Summarizes P p e) : e.ReadsKept L := by
  intro points window
  cases h with
  | memory =>
    show calculateMemorySummary P p _ window = calculateMemorySummary P p points window
    rw [calculateMemorySummary, Memory.run, List.foldl_map]
    rfl
  | radioTemperature =>
    show calculateRadioTemperatureSummary P _ window = _
    rw [calculateRadioTemperatureSummary, Temperature.run, List.foldl_map]
    rfl
  | rssi =>
    show calculateDeviceRssiQualitySummary P _ window =
      calculateDeviceRssiQualitySummary P points window
    rw [calculateDeviceRssiQualitySummary, Rssi.clientStatsByMac, List.foldl_map]
    have hrecord : ∀ (m : Rssi.ClientStatsByMac) (q : DeviceTimePoint F),
        Rssi.collectRecord window m ((Endpoint.rssi P : Endpoint F _).selection.kept L q) =
          Rssi.collectRecord window m q :=
      fun m q => collectRecord_kept hL window m q
    simp only [hrecord]
    rfl

/-- The points of an endpoint are what its selection keeps of the time points, in their order. -/
theorem points_map (hL : L.Inverts) (e : Endpoint F α) (points : List (DeviceTimePoint F)) :
    e.points L (points.map (toRecord L)) =
      (points.insertionSort pointLe).map (e.selection.kept L) := by
  have hsort : (points.map (toRecord L)).insertionSort rowLe =
      (points.insertionSort pointLe).map (toRecord L) :=
    (List.map_insertionSort _ _ (toRecord L) points fun _ _ _ _ => Iff.rfl).symm
  rw [Endpoint.points, hsort, List.filterMap_map]
  have hpoint : ∀ p : DeviceTimePoint F,
      (e.selection.point L (toRecord L p)).join = some (e.selection.kept L p) := by
    intro p
    rw [Selection.point_toRecord hL]
    rfl
  show (points.insertionSort pointLe).filterMap
    (fun p => (e.selection.point L (toRecord L p)).join) = _
  simp only [hpoint]
  rw [List.filterMap_eq_map']

/-- A table of written rows answers like the time points. -/
theorem respond_eq_answer (hL : L.Inverts) {e : Endpoint F α} (he : e.ReadsKept L) (P : Platform)
    (req : Request) {db : RecordTable} {points : List (DeviceTimePoint F)}
    (hrows : db.rows = points.map (toRecord L)) :
    e.respond L P req db = e.answer P req points := by
  unfold respond answer
  cases prepare P req with
  | error err => rfl
  | ok passed =>
    obtain ⟨window, resolved⟩ := passed
    dsimp only [bind, Except.bind]
    cases sampleLimit req window resolved with
    | error err => rfl
    | ok maxSamples =>
      -- the rows in the window are those of the points in the window
      have hmatching : db.matching (query req window resolved maxSamples) =
          (points.filter fun p =>
            p.boardId = resolved.resolvedBoardId ∧ p.serialNumber = req.routerId ∧
              window.startTime ≤ p.timestamp ∧ p.timestamp < window.endTime).map (toRecord L) := by
        rw [RecordTable.matching, hrows, List.filter_map]
        rfl
      dsimp only
      rw [hmatching, List.length_map, points_map hL, he]

end Summaries

/-- What the devices have sent is what the endpoints summarise.  After any run of messages to the
    access points of all boards, of statements that fail and of deletions, a request for a summary
    of memory, temperatures or signal strengths is answered as if the time points had been kept as
    they are: neither their texts nor the columns that are not read make a difference. -/
theorem summaries_of_messages {F ι α : Type} [Double F] [DecidableEq ι] {L : JsonLibrary F}
    (hL : L.Inverts) {P : Platform} {p : ℕ} {e : Endpoint F α} (he : Summarizes P p e)
    (aps : ι → AP F) (events : List (Event F ι)) (hlength : events.length < 2 ^ 64)
    (req : Request) :
    e.doGet L P req (tableAfter L aps events hlength fun _ => true) =
      some (e.answer P req (pointsAfter aps events)) := by
  have hrows : (tableAfter L aps events hlength fun _ => true).rows =
      (pointsAfter aps events).map (toRecord L) := rows_eq L aps events
  rw [e.doGet_eq_respond P req ?_ fun _ => rfl, respond_eq_answer hL (he.readsKept hL) P req hrows]
  intro row hrow
  rw [hrows] at hrow
  obtain ⟨q, -, rfl⟩ := List.mem_map.mp hrow
  exact wellFormed_toRecord hL q

end Endpoint

/-! ## A run with one time point -/

section Run

/-- Whole numbers as doubles. -/
local instance doubleInt64 : Double Int64 where
  lt a b := decide (a < b)
  ofUInt64 n := n.toInt64
  ofInt64 n := n
  toUInt64 x := x.toUInt64
  toInt64 x := x
  toUInt32 x := x.toUInt64.toUInt32
  toUInt16 x := x.toUInt64.toUInt16

/-- A message to the access point at the time 70000, whose point is stored. -/
def delivered (uuid : Str) (message : Message Int64) : Event Int64 Unit :=
  .deliver ()
    { message
      env := { now := 70000, uuid, dump := fun _ => [], missing := .null }
      cache := fun _ => none } true

/-- A state message with free memory. -/
def memoryMessage (localtime free : UInt64) : Message Int64 :=
  .state (.obj
    [("interfaces".toList, .arr []),
      ("unit".toList, .obj
        [("localtime".toList, .unsigned localtime),
          ("memory".toList, .obj [("free".toList, .unsigned free)])])])

/-- The time point of the second state is created, and that of the third has no new id. -/
def threeStates : List (Event Int64 Unit) :=
  [delivered ['c'] (.connection (.obj [("ping".toList, .obj [])])),
    delivered ['h'] (.health .null), delivered ['1'] (memoryMessage 69900 5),
    delivered ['2'] (memoryMessage 70000 7), delivered ['2'] (memoryMessage 70060 9)]

/-- The access point of a board. -/
def oneAp (_ : Unit) : AP Int64 where
  venueId := ['v']
  boardId := ['b']
  info := { serialNumber := ['s'] }

theorem summaries_of_messages_threeStates :
    ∃ summary : AnalyticsObjects.McpGatewayMemorySummary,
      (Endpoint.memory .posix 64).doGet JsonText.library .posix secondDayRequest
          (tableAfter JsonText.library oneAp threeStates (by decide) fun _ => true) =
        some (.ok summary) ∧
      summary.data.latestMemfree = some 7 := by
  have hanswer : ((Endpoint.memory .posix 64).answer .posix secondDayRequest
      (pointsAfter oneAp threeStates)).toOption.map (fun summary => summary.data.latestMemfree) =
        some (some 7) := by
    decide +kernel
  obtain ⟨summary, hsummary, hlatest⟩ := Option.map_eq_some_iff.mp hanswer
  have hok := Endpoint.summaries_of_messages JsonText.inverts_library (P := .posix)
    (Endpoint.Summarizes.memory (p := 64)) oneAp threeStates (by decide) secondDayRequest
  refine ⟨summary, ?_, hlatest⟩
  rw [hok]
  cases hcase : (Endpoint.memory .posix 64).answer .posix secondDayRequest
      (pointsAfter oneAp threeStates) with
  | error err =>
    rw [hcase] at hsummary
    cases hsummary
  | ok summary' =>
    rw [hcase] at hsummary
    rw [Option.some.inj hsummary]

end Run

end Mcp

end OwAnalytics
