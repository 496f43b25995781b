/-
  OwAnalytics.Mcp.Bandwidth.Boundary

  What the bandwidth endpoint loses by fetching one boundary row of the device
  on each side of the window.  The usage a client should be charged for runs, in
  each of its streams, from the latest stored sample of that stream at or before
  the window to the earliest one at or after it; the endpoint only sees such a
  sample when it lies in the boundary row of the device.
-/

import OwAnalytics.Mcp.Bandwidth.Handler
import OwAnalytics.Mcp.Bandwidth.Response

namespace OwAnalytics.Mcp.Bandwidth

open AnalyticsObjects Grouping TimeSeries Storage

/-! ## The boundary samples of a stream -/

/-- The latest reading. -/
def latest (rs : List Reading) : Option Reading := rs.argmax (·.timestamp.toNat)

/-- The earliest reading. -/
def earliest (rs : List Reading) : Option Reading := rs.argmin (·.timestamp.toNat)

/-- The readings in the window. -/
def inWindowReadings (w : Window) (rs : List Reading) : List Reading :=
  rs.filter fun r => timestampInHalfOpenWindow r.timestamp w

/-- The latest sample of the stream between the start of the retention and the start of the
    window, else its first sample in the window. -/
def startSample (retentionStart : UInt64) (w : Window) (rs : List Reading) : Option Reading :=
  (latest (rs.filter fun r => retentionStart ≤ r.timestamp ∧ r.timestamp ≤ w.startTime)).or
    (earliest (inWindowReadings w rs))

/-- The earliest sample of the stream at or after the end of the window, else its last sample
    in the window. -/
def endSample (w : Window) (rs : List Reading) : Option Reading :=
  (earliest (rs.filter fun r => w.endTime ≤ r.timestamp)).or (latest (inWindowReadings w rs))

/-- The counter of a sample. -/
def sampleValue (d : Direction) (sample : Option Reading) : ℕ :=
  ((sample.bind (·.counter d)).map UInt64.toNat).getD 0

/-- The usage of a client between the boundary samples of its streams. -/
def boundaryUsage (d : Direction) (retentionStart : UInt64) (w : Window)
    (rows : List DeviceTimePoint) (mac : Str) : ℕ :=
  ∑ key ∈ clientStreams rows mac,
    (sampleValue d (endSample w (streamOf rows key))
      - sampleValue d (startSample retentionStart w (streamOf rows key)))

/-- The start sample of the stream is in the boundary row of the device (no later row of the
    device precedes the window), or its counter is that of the first sample in the window. -/
def CoveredAtStart (d : Direction) (retentionStart : UInt64) (w : Window)
    (rows : List DeviceTimePoint) (key : StreamKey) : Prop :=
  (∃ b ∈ startSample retentionStart w (streamOf rows key),
    ∀ row ∈ rows, row.timestamp ≤ w.startTime → row.timestamp ≤ b.timestamp) ∨
  sampleValue d (startSample retentionStart w (streamOf rows key))
    = sampleValue d (earliest (inWindowReadings w (streamOf rows key)))

/-- The end sample of the stream is in the boundary row of the device (no earlier row of the
    device follows the window), or its counter is that of the last sample in the window. -/
def CoveredAtEnd (d : Direction) (w : Window) (rows : List DeviceTimePoint)
    (key : StreamKey) : Prop :=
  (∃ e ∈ endSample w (streamOf rows key),
    ∀ row ∈ rows, w.endTime ≤ row.timestamp → e.timestamp ≤ row.timestamp) ∨
  sampleValue d (endSample w (streamOf rows key))
    = sampleValue d (latest (inWindowReadings w (streamOf rows key)))

theorem latest_spec {rs : List Reading} {b : Reading} (h : latest rs = some b) :
    b ∈ rs ∧ ∀ r ∈ rs, r.timestamp.toNat ≤ b.timestamp.toNat :=
  ⟨List.argmax_mem h, fun _ hr => List.le_of_mem_argmax (f := fun r => r.timestamp.toNat) hr h⟩

theorem earliest_spec {rs : List Reading} {b : Reading} (h : earliest rs = some b) :
    b ∈ rs ∧ ∀ r ∈ rs, b.timestamp.toNat ≤ r.timestamp.toNat :=
  ⟨List.argmin_mem h, fun _ hr => List.le_of_mem_argmin (f := fun r => r.timestamp.toNat) hr h⟩

theorem latest_eq_none {rs : List Reading} : latest rs = none ↔ rs = [] := List.argmax_eq_none

theorem earliest_eq_none {rs : List Reading} : earliest rs = none ↔ rs = [] :=
  List.argmin_eq_none

theorem mem_inWindowReadings {w : Window} {rs : List Reading} {r : Reading} :
    r ∈ inWindowReadings w rs ↔
      r ∈ rs ∧ w.startTime.toNat ≤ r.timestamp.toNat ∧ r.timestamp.toNat < w.endTime.toNat := by
  rw [inWindowReadings, List.mem_filter, timestampInHalfOpenWindow_iff]
  rfl

/-! ## A growing history -/

/-- Rows of one device at distinct times, in which every counter is present and no counter of
    a stream decreases. -/
structure GrowingHistory (rows : List DeviceTimePoint) : Prop where
  distinct : (rows.map DeviceTimePoint.timestamp).Nodup
  present : ∀ kv ∈ keyedReadings rows, ∀ d, (kv.2.counter d).isSome
  nondecreasing : ∀ kv ∈ keyedReadings rows, ∀ kv' ∈ keyedReadings rows, kv.1 = kv'.1 →
    kv.2.timestamp ≤ kv'.2.timestamp →
    ∀ d, (kv.2.counter d).getD 0 ≤ (kv'.2.counter d).getD 0

/-- Two readings that show the same counters at the same time are equal. -/
theorem Reading.ext_counter {r r' : Reading} (htime : r.timestamp = r'.timestamp)
    (h : ∀ d, r.counter d = r'.counter d) : r = r' := by
  have hrx : r.rx = r'.rx := h .rx
  have htx : r.tx = r'.tx := h .tx
  cases r
  cases r'
  simp_all

theorem GrowingHistory.cleanStream {rows : List DeviceTimePoint} (h : GrowingHistory rows)
    (d : Direction) (key : StreamKey) : CleanStream d (streamOf rows key) := by
  have hle : ∀ r ∈ streamOf rows key, ∀ r' ∈ streamOf rows key, r.timestamp ≤ r'.timestamp →
      ∀ d, ∀ v ∈ r.counter d, ∀ v' ∈ r'.counter d, v ≤ v' := by
    intro r hr r' hr' htime d v hv v' hv'
    have hle := h.nondecreasing (key, r) (mem_valuesAt.mp hr) (key, r') (mem_valuesAt.mp hr') rfl
      htime d
    rwa [show r.counter d = some v from hv, show r'.counter d = some v' from hv'] at hle
  refine ⟨fun r hr => h.present (key, r) (mem_valuesAt.mp hr) d, ?_,
    fun r hr r' hr' htime => hle r hr r' hr' htime d⟩
  -- readings at one time bound each other, so they are equal
  intro r hr
  refine ⟨hr, fun r' hr' htime => Reading.ext_counter htime fun d => ?_⟩
  obtain ⟨v, hv⟩ := Option.isSome_iff_exists.mp (h.present (key, r) (mem_valuesAt.mp hr) d)
  obtain ⟨v', hv'⟩ := Option.isSome_iff_exists.mp (h.present (key, r') (mem_valuesAt.mp hr') d)
  have h1 : v ≤ v' := hle r hr r' hr' (htime ▸ UInt64.le_refl _) d v hv v' hv'
  have h2 : v' ≤ v := hle r' hr' r hr (htime ▸ UInt64.le_refl _) d v' hv' v hv
  rw [show r.counter d = some v from hv, show r'.counter d = some v' from hv',
    UInt64.le_antisymm h1 h2]

/-- A stream of some of the rows holds the readings of the stream at the times of those rows. -/
theorem mem_streamOf_rows {rows fetched : List DeviceTimePoint}
    (hdistinct : (rows.map DeviceTimePoint.timestamp).Nodup) (hsub : ∀ row ∈ fetched, row ∈ rows)
    {key : StreamKey} {r : Reading} :
    r ∈ streamOf fetched key ↔
      r ∈ streamOf rows key ∧ ∃ row ∈ fetched, row.timestamp = r.timestamp := by
  simp only [streamOf, mem_valuesAt, keyedReadings, mem_keyed]
  refine ⟨?_, ?_⟩
  · rintro ⟨row, hrow, ssid, hssid, a, ha, mac, hmac, hkey, rfl⟩
    exact ⟨⟨row, hsub row hrow, ssid, hssid, a, ha, mac, hmac, hkey, rfl⟩, row, hrow, rfl⟩
  · rintro ⟨⟨row, hrow, ssid, hssid, a, ha, mac, hmac, hkey, rfl⟩, row', hrow', htime⟩
    have heq : row' = row := List.inj_on_of_nodup_map hdistinct (hsub row' hrow') hrow htime
    exact ⟨row, heq ▸ hrow', ssid, hssid, a, ha, mac, hmac, hkey, rfl⟩

/-- Two readings of a stream at one time are one reading. -/
theorem GrowingHistory.eq_of_timestamp {rows : List DeviceTimePoint} (hgrow : GrowingHistory rows)
    {key : StreamKey} {r r' : Reading} (hr : r ∈ streamOf rows key)
    (hr' : r' ∈ streamOf rows key) (h : r.timestamp.toNat = r'.timestamp.toNat) : r = r' :=
  ((hgrow.cleanStream .rx key).conflictFree r' hr').2 r hr (UInt64.toNat_inj.mp h)

/-- Later readings of a stream have larger counters. -/
theorem GrowingHistory.sampleValue_le {rows : List DeviceTimePoint} (hgrow : GrowingHistory rows)
    {d : Direction} {key : StreamKey} {r r' : Reading} (hr : r ∈ streamOf rows key)
    (hr' : r' ∈ streamOf rows key) (h : r.timestamp.toNat ≤ r'.timestamp.toNat) :
    sampleValue d (some r) ≤ sampleValue d (some r') := by
  have hclean := hgrow.cleanStream d key
  obtain ⟨v, hv⟩ := Option.isSome_iff_exists.mp (hclean.present r hr)
  obtain ⟨v', hv'⟩ := Option.isSome_iff_exists.mp (hclean.present r' hr')
  have hle := hclean.nondecreasing r hr r' hr' (UInt64.le_iff_toNat_le.mpr h) v hv v' hv'
  simp only [sampleValue, Option.bind_some, hv, hv', Option.map_some, Option.getD_some]
  exact UInt64.le_iff_toNat_le.mp hle

/-! ## The rows of an accepted request -/

/-- The fetched rows of the device: those in the window, the last one before it unless the
    retention or a row at its start excludes that one, and the first one after it. -/
structure FetchedRows (retentionStart : UInt64) (w : Window)
    (rows fetched : List DeviceTimePoint) : Prop where
  sub : ∀ row ∈ fetched, row ∈ rows
  window : ∀ row ∈ rows, w.startTime.toNat ≤ row.timestamp.toNat →
    row.timestamp.toNat < w.endTime.toNat → row ∈ fetched
  before : ∀ row ∈ fetched, row.timestamp.toNat < w.startTime.toNat →
    retentionStart.toNat ≤ row.timestamp.toNat ∧
      ∀ row' ∈ rows, row'.timestamp.toNat ≤ w.startTime.toNat →
        row'.timestamp.toNat ≤ row.timestamp.toNat
  before_mem : ∀ row ∈ rows, retentionStart.toNat ≤ row.timestamp.toNat →
    row.timestamp.toNat < w.startTime.toNat →
    (∀ row' ∈ rows, row'.timestamp.toNat ≤ w.startTime.toNat →
      row'.timestamp.toNat ≤ row.timestamp.toNat) → row ∈ fetched
  after : ∀ row ∈ fetched, w.endTime.toNat ≤ row.timestamp.toNat →
    ∀ row' ∈ rows, w.endTime.toNat ≤ row'.timestamp.toNat →
      row.timestamp.toNat ≤ row'.timestamp.toNat
  after_mem : ∀ row ∈ rows, w.endTime.toNat ≤ row.timestamp.toNat →
    (∀ row' ∈ rows, w.endTime.toNat ≤ row'.timestamp.toNat →
      row.timestamp.toNat ≤ row'.timestamp.toNat) → row ∈ fetched

theorem Accepted.fetchedRows {P : Platform} {call : Call} (a : Accepted P call)
    (hwindow : a.window.startTime.toNat < a.window.endTime.toNat)
    (hdistinct : ((call.db.deviceRows a.resolved.resolvedBoardId call.routerId).map
      DeviceTimePoint.timestamp).Nodup) :
    FetchedRows (retentionStart call.nowAtBoundary a.resolved.retention) a.window
      (call.db.deviceRows a.resolved.resolvedBoardId call.routerId) a.fetched := by
  obtain ⟨hstart, hnostart⟩ := selectLatest_spec a.startBoundary_ok
  obtain ⟨hend, hnoend⟩ := selectEarliest_spec a.endBoundary_ok
  have hmem := a.mem_records
  simp only [UInt64.le_iff_toNat_le, UInt64.lt_iff_toNat_lt] at hstart hnostart hend hnoend hmem
  have hfetched : ∀ row, row ∈ a.fetched ↔
      row ∈ a.records ∨ row ∈ a.startBoundary ∨ row ∈ a.endBoundary := by
    intro row
    simp only [Accepted.fetched, List.mem_append, Option.mem_toList, Option.mem_def, or_assoc]
  -- No two rows of a device share a time, so a row is known by it.
  have hsame : ∀ row ∈ call.db.deviceRows a.resolved.resolvedBoardId call.routerId,
      ∀ row' ∈ call.db.deviceRows a.resolved.resolvedBoardId call.routerId,
      row.timestamp.toNat = row'.timestamp.toNat → row = row' := fun row h row' h' heq =>
    List.inj_on_of_nodup_map hdistinct h h' (UInt64.toNat_inj.mp heq)
  refine ⟨?_, ?_, ?_, ?_, ?_, ?_⟩
  · intro row hrow
    rcases (hfetched row).mp hrow with h | h | h
    · exact ((hmem row).mp h).1
    · exact (hstart row h).1
    · exact (hend row h).1
  -- A row in the window is one of the records.
  · intro row hrow hlo hhi
    exact (hfetched row).mpr (.inl ((hmem row).mpr ⟨hrow, hlo, hhi⟩))
  -- Only the start boundary lies before the window; a row the retention has passed is no later.
  · intro row hrow hlt
    rcases (hfetched row).mp hrow with h | h | h
    · have := ((hmem row).mp h).2.1
      omega
    · obtain ⟨-, hret, -, hlatest⟩ := hstart row h
      refine ⟨hret, fun row' hrow' hle => ?_⟩
      by_cases hret' : (retentionStart call.nowAtBoundary a.resolved.retention).toNat
          ≤ row'.timestamp.toNat
      · exact hlatest row' hrow' hret' hle
      · omega
    · have := (hend row h).2.1
      omega
  -- The last row before the window is the start boundary: the store finds one, and it is no other.
  · intro row hrow hret hlt hlast
    cases hb : a.startBoundary with
    | none => exact absurd hlt.le (hnostart hb row hrow hret)
    | some b =>
        obtain ⟨hbmem, -, hble, hlatest⟩ := hstart b hb
        have hge := hlatest row hrow hret hlt.le
        have hle := hlast b hbmem hble
        rw [hsame row hrow b hbmem (by omega)]
        exact (hfetched b).mpr (.inr (.inl hb))
  -- Only the end boundary lies past the window.
  · intro row hrow hge row' hrow' hge'
    rcases (hfetched row).mp hrow with h | h | h
    · have := ((hmem row).mp h).2.2
      omega
    · have := (hstart row h).2.2.1
      omega
    · exact (hend row h).2.2 row' hrow' hge'
  · intro row hrow hge hfirst
    cases he : a.endBoundary with
    | none => exact absurd hge (hnoend he row hrow)
    | some e =>
        obtain ⟨hemem, hege, hearliest⟩ := hend e he
        have hle := hearliest row hrow hge
        have hge' := hfirst e hemem hege
        rw [hsame row hrow e hemem (by omega)]
        exact (hfetched e).mpr (.inr (.inr he))

/-! ## One stream -/

section OneStream

variable {d : Direction} {ret : UInt64} {w : Window} {rows fetched : List DeviceTimePoint}
  {key : StreamKey} (hgrow : GrowingHistory rows) (hfetched : FetchedRows ret w rows fetched)

include hgrow hfetched

theorem mem_streamOf_fetched {r : Reading} :
    r ∈ streamOf fetched key ↔
      r ∈ streamOf rows key ∧ ∃ row ∈ fetched, row.timestamp = r.timestamp :=
  mem_streamOf_rows hgrow.distinct hfetched.sub

omit hgrow hfetched in
/-- Every reading of a stream is as old as one of the rows. -/
theorem exists_row_of_mem_streamOf {r : Reading} (h : r ∈ streamOf rows key) :
    ∃ row ∈ rows, row.timestamp = r.timestamp := by
  rw [streamOf, mem_valuesAt, keyedReadings, mem_keyed] at h
  obtain ⟨row, hrow, ssid, -, a, -, mac, -, -, rfl⟩ := h
  exact ⟨row, hrow, rfl⟩

theorem mem_fetched_of_window {r : Reading} (hr : r ∈ streamOf rows key)
    (hlo : w.startTime.toNat ≤ r.timestamp.toNat) (hhi : r.timestamp.toNat < w.endTime.toNat) :
    r ∈ streamOf fetched key := by
  obtain ⟨row, hrow, htime⟩ := exists_row_of_mem_streamOf hr
  rw [← htime] at hlo hhi
  exact (mem_streamOf_fetched hgrow hfetched).mpr ⟨hr, row, hfetched.window row hrow hlo hhi, htime⟩

theorem fetched_clean (key : StreamKey) : CleanStream d (streamOf fetched key) := by
  have hclean := hgrow.cleanStream d key
  have hsub : ∀ r ∈ streamOf fetched key, r ∈ streamOf rows key := fun r hr =>
    ((mem_streamOf_fetched hgrow hfetched).mp hr).1
  refine ⟨fun r hr => hclean.present r (hsub r hr), fun r hr => ⟨hr, fun r' hr' => ?_⟩,
    fun r hr r' hr' => hclean.nondecreasing r (hsub r hr) r' (hsub r' hr')⟩
  exact (hclean.conflictFree r (hsub r hr)).2 r' (hsub r' hr')

omit hgrow hfetched in
/-- A stream with a sample in the window has a first and a last one there. -/
theorem exists_inWindow
    (hin : ∃ r ∈ streamOf rows key, timestampInHalfOpenWindow r.timestamp w = true) :
    (∃ f, earliest (inWindowReadings w (streamOf rows key)) = some f) ∧
      ∃ l, latest (inWindowReadings w (streamOf rows key)) = some l := by
  obtain ⟨x, hx, hxwin⟩ := hin
  have hmem : x ∈ inWindowReadings w (streamOf rows key) := List.mem_filter.mpr ⟨hx, hxwin⟩
  refine ⟨Option.ne_none_iff_exists'.mp fun hf => ?_, Option.ne_none_iff_exists'.mp fun hl => ?_⟩
  · rw [earliest_eq_none.mp hf] at hmem
    exact List.not_mem_nil hmem
  · rw [latest_eq_none.mp hl] at hmem
    exact List.not_mem_nil hmem

/-- Without a fetched reading before the window, the first one in it starts the stream. -/
theorem startReading_first {f : Reading} (hf : earliest (inWindowReadings w (streamOf rows key))
      = some f)
    (hnone : ∀ r ∈ streamOf fetched key, w.startTime.toNat ≤ r.timestamp.toNat) :
    StartReading (streamOf fetched key) w.startTime f := by
  obtain ⟨hmem, hfirst⟩ := earliest_spec hf
  obtain ⟨hfrs, hlo, hhi⟩ := mem_inWindowReadings.mp hmem
  refine ⟨mem_fetched_of_window hgrow hfetched hfrs hlo hhi, .inr ⟨fun r hr => ?_, fun r hr => ?_⟩⟩
  · exact UInt64.le_iff_toNat_le.mpr (hnone r hr)
  · have hge := hnone r hr
    rw [UInt64.le_iff_toNat_le]
    by_cases hwin : r.timestamp.toNat < w.endTime.toNat
    · exact hfirst r (mem_inWindowReadings.mpr
        ⟨((mem_streamOf_fetched hgrow hfetched).mp hr).1, hge, hwin⟩)
    · omega

/-- A fetched reading before the window comes from the boundary row. -/
theorem fetched_before {r : Reading} (hr : r ∈ streamOf fetched key)
    (hlt : r.timestamp.toNat < w.startTime.toNat) :
    ret.toNat ≤ r.timestamp.toNat ∧ ∀ row ∈ rows, row.timestamp.toNat ≤ w.startTime.toNat →
      row.timestamp.toNat ≤ r.timestamp.toNat := by
  obtain ⟨-, row, hrow, htime⟩ := (mem_streamOf_fetched hgrow hfetched).mp hr
  rw [← htime] at hlt ⊢
  exact hfetched.before row hrow hlt

/-- A sample no row of the device hides is fetched, or stands at the very start of the window. -/
theorem startReading_boundary {f b : Reading}
    (hf : earliest (inWindowReadings w (streamOf rows key)) = some f)
    (hbrs : b ∈ streamOf rows key) (hbret : ret.toNat ≤ b.timestamp.toNat)
    (hble : b.timestamp.toNat ≤ w.startTime.toNat)
    (hlast : ∀ row ∈ rows, row.timestamp.toNat ≤ w.startTime.toNat →
      row.timestamp.toNat ≤ b.timestamp.toNat) :
    StartReading (streamOf fetched key) w.startTime b := by
  obtain ⟨hfmem, hfirst⟩ := earliest_spec hf
  obtain ⟨hfrs, hflo, hfhi⟩ := mem_inWindowReadings.mp hfmem
  obtain ⟨brow, hbrow, hbtime⟩ := exists_row_of_mem_streamOf hbrs
  -- the boundary reading is before the window, or is the first one inside
  by_cases hlt : b.timestamp.toNat < w.startTime.toNat
  · have hbf : b ∈ streamOf fetched key := by
      refine (mem_streamOf_fetched hgrow hfetched).mpr ⟨hbrs, brow, ?_, hbtime⟩
      rw [← hbtime] at hbret hlt hlast
      exact hfetched.before_mem brow hbrow hbret hlt hlast
    refine ⟨hbf, .inl ⟨UInt64.lt_iff_toNat_lt.mpr hlt, fun r hr hrlt => ?_⟩⟩
    obtain ⟨-, row, hrow, htime⟩ := (mem_streamOf_fetched hgrow hfetched).mp hr
    rw [UInt64.le_iff_toNat_le, ← htime]
    rw [UInt64.lt_iff_toNat_lt, ← htime] at hrlt
    exact hlast row (hfetched.sub row hrow) hrlt.le
  · have hbf : b.timestamp.toNat = f.timestamp.toNat := by
      have := hfirst b (mem_inWindowReadings.mpr ⟨hbrs, by omega, by omega⟩)
      omega
    obtain rfl := hgrow.eq_of_timestamp hbrs hfrs hbf
    refine startReading_first hgrow hfetched hf fun r hr => ?_
    by_contra hrlt
    have hall := (fetched_before hgrow hfetched hr (by omega)).2 brow hbrow
    rw [hbtime] at hall
    omega

/-- A later row of the device hides the last sample before the window. -/
theorem startReading_hidden {f b : Reading}
    (hf : earliest (inWindowReadings w (streamOf rows key)) = some f)
    (hlatest : ∀ r ∈ streamOf rows key, ret.toNat ≤ r.timestamp.toNat →
      r.timestamp.toNat ≤ w.startTime.toNat → r.timestamp.toNat ≤ b.timestamp.toNat)
    (hlast : ¬ ∀ row ∈ rows, row.timestamp.toNat ≤ w.startTime.toNat →
      row.timestamp.toNat ≤ b.timestamp.toNat) :
    StartReading (streamOf fetched key) w.startTime f := by
  refine startReading_first hgrow hfetched hf fun r hr => ?_
  by_contra hrlt
  obtain ⟨hret, hall⟩ := fetched_before hgrow hfetched hr (by omega)
  have hrb := hlatest r ((mem_streamOf_fetched hgrow hfetched).mp hr).1 hret (by omega)
  exact hlast fun row hrow hle => (hall row hrow hle).trans hrb

/-- The calculation starts at a counter no smaller than that of the start sample, and at the
    same one exactly when the start sample is covered. -/
theorem exists_startReading_covered
    (hin : ∃ r ∈ streamOf rows key, timestampInHalfOpenWindow r.timestamp w = true) :
    ∃ b, StartReading (streamOf fetched key) w.startTime b ∧
      sampleValue d (startSample ret w (streamOf rows key)) ≤ sampleValue d (some b) ∧
      (sampleValue d (startSample ret w (streamOf rows key)) = sampleValue d (some b) ↔
        CoveredAtStart d ret w rows key) := by
  obtain ⟨f, hf⟩ := (exists_inWindow hin).1
  obtain ⟨hfrs, hflo, -⟩ := mem_inWindowReadings.mp (earliest_spec hf).1
  cases hb : latest ((streamOf rows key).filter fun r =>
      ret ≤ r.timestamp ∧ r.timestamp ≤ w.startTime) with
  -- nothing between the start of the retention and the window
  | none =>
      have hnone : ∀ r ∈ streamOf rows key, ret.toNat ≤ r.timestamp.toNat →
          ¬ r.timestamp.toNat ≤ w.startTime.toNat := by
        intro r hr hret hle
        have hempty := List.filter_eq_nil_iff.mp (latest_eq_none.mp hb) r hr
        simp only [UInt64.le_iff_toNat_le, decide_eq_true_eq] at hempty
        exact hempty ⟨hret, hle⟩
      have hsample : startSample ret w (streamOf rows key) = some f := by
        rw [startSample, hb, hf]
        rfl
      refine ⟨f, startReading_first hgrow hfetched hf fun r hr => ?_, by rw [hsample], ?_⟩
      · by_contra hlt
        have hret := (fetched_before hgrow hfetched hr (by omega)).1
        exact hnone r ((mem_streamOf_fetched hgrow hfetched).mp hr).1 hret (by omega)
      · rw [CoveredAtStart, hsample, hf]
        exact iff_of_true rfl (.inr rfl)
  | some b =>
      obtain ⟨hbmem, hlatest⟩ := latest_spec hb
      simp only [List.mem_filter, UInt64.le_iff_toNat_le, decide_eq_true_eq, and_imp]
        at hbmem hlatest
      obtain ⟨hbrs, hbret, hble⟩ := hbmem
      have hsample : startSample ret w (streamOf rows key) = some b := by
        rw [startSample, hb]
        rfl
      by_cases hlast : ∀ row ∈ rows, row.timestamp.toNat ≤ w.startTime.toNat →
          row.timestamp.toNat ≤ b.timestamp.toNat
      · have hcovered : CoveredAtStart d ret w rows key := by
          refine .inl ⟨b, hsample, fun row hrow hle => ?_⟩
          rw [UInt64.le_iff_toNat_le] at hle ⊢
          exact hlast row hrow hle
        exact ⟨b, startReading_boundary hgrow hfetched hf hbrs hbret hble hlast, by rw [hsample],
          iff_of_true (by rw [hsample]) hcovered⟩
      · refine ⟨f, startReading_hidden hgrow hfetched hf hlatest hlast, ?_, ?_⟩
        · rw [hsample]
          exact hgrow.sampleValue_le hbrs hfrs (by omega)
        · rw [CoveredAtStart, hsample, hf]
          refine ⟨?_, ?_⟩
          · exact .inr
          · rintro (⟨b', hb', hall⟩ | heq)
            · obtain rfl := Option.some.inj hb'
              simp only [UInt64.le_iff_toNat_le] at hall
              exact absurd hall hlast
            · exact heq

/-- Without a fetched reading after the window, the last one in it ends the stream. -/
theorem endReading_last {l : Reading} (hl : latest (inWindowReadings w (streamOf rows key))
      = some l)
    (hnone : ∀ r ∈ streamOf fetched key, r.timestamp.toNat < w.endTime.toNat) :
    EndReading (streamOf fetched key) w.endTime l := by
  obtain ⟨hmem, hlast⟩ := latest_spec hl
  obtain ⟨hlrs, hlo, hhi⟩ := mem_inWindowReadings.mp hmem
  refine ⟨mem_fetched_of_window hgrow hfetched hlrs hlo hhi, .inr ⟨fun r hr => ?_, fun r hr => ?_⟩⟩
  · exact UInt64.lt_iff_toNat_lt.mpr (hnone r hr)
  · have hlt := hnone r hr
    rw [UInt64.le_iff_toNat_le]
    by_cases hwin : w.startTime.toNat ≤ r.timestamp.toNat
    · exact hlast r (mem_inWindowReadings.mpr
        ⟨((mem_streamOf_fetched hgrow hfetched).mp hr).1, hwin, hlt⟩)
    · omega

/-- A fetched reading after the window comes from the boundary row. -/
theorem fetched_after {r : Reading} (hr : r ∈ streamOf fetched key)
    (hge : w.endTime.toNat ≤ r.timestamp.toNat) :
    ∀ row ∈ rows, w.endTime.toNat ≤ row.timestamp.toNat →
      r.timestamp.toNat ≤ row.timestamp.toNat := by
  obtain ⟨-, row, hrow, htime⟩ := (mem_streamOf_fetched hgrow hfetched).mp hr
  rw [← htime] at hge ⊢
  exact hfetched.after row hrow hge

/-- A sample no row of the device hides is fetched. -/
theorem endReading_boundary {e : Reading} (hers : e ∈ streamOf rows key)
    (hege : w.endTime.toNat ≤ e.timestamp.toNat)
    (hfirst : ∀ row ∈ rows, w.endTime.toNat ≤ row.timestamp.toNat →
      e.timestamp.toNat ≤ row.timestamp.toNat) :
    EndReading (streamOf fetched key) w.endTime e := by
  obtain ⟨erow, herow, hetime⟩ := exists_row_of_mem_streamOf hers
  have hef : e ∈ streamOf fetched key := by
    refine (mem_streamOf_fetched hgrow hfetched).mpr ⟨hers, erow, ?_, hetime⟩
    rw [← hetime] at hege hfirst
    exact hfetched.after_mem erow herow hege hfirst
  refine ⟨hef, .inl ⟨UInt64.le_iff_toNat_le.mpr hege, fun r hr hrge => ?_⟩⟩
  obtain ⟨-, row, hrow, htime⟩ := (mem_streamOf_fetched hgrow hfetched).mp hr
  rw [UInt64.le_iff_toNat_le, ← htime] at hrge ⊢
  exact hfirst row (hfetched.sub row hrow) hrge

/-- An earlier row of the device hides the first sample after the window. -/
theorem endReading_hidden {l e : Reading}
    (hl : latest (inWindowReadings w (streamOf rows key)) = some l)
    (hearliest : ∀ r ∈ streamOf rows key, w.endTime.toNat ≤ r.timestamp.toNat →
      e.timestamp.toNat ≤ r.timestamp.toNat)
    (hfirst : ¬ ∀ row ∈ rows, w.endTime.toNat ≤ row.timestamp.toNat →
      e.timestamp.toNat ≤ row.timestamp.toNat) :
    EndReading (streamOf fetched key) w.endTime l := by
  refine endReading_last hgrow hfetched hl fun r hr => ?_
  by_contra hrge
  have hall := fetched_after hgrow hfetched hr (by omega)
  have her := hearliest r ((mem_streamOf_fetched hgrow hfetched).mp hr).1 (by omega)
  exact hfirst fun row hrow hle => her.trans (hall row hrow hle)

/-- The calculation ends at a counter no larger than that of the end sample, and at the same
    one exactly when the end sample is covered. -/
theorem exists_endReading_covered
    (hin : ∃ r ∈ streamOf rows key, timestampInHalfOpenWindow r.timestamp w = true) :
    ∃ e, EndReading (streamOf fetched key) w.endTime e ∧
      sampleValue d (some e) ≤ sampleValue d (endSample w (streamOf rows key)) ∧
      (sampleValue d (endSample w (streamOf rows key)) = sampleValue d (some e) ↔
        CoveredAtEnd d w rows key) := by
  obtain ⟨l, hl⟩ := (exists_inWindow hin).2
  obtain ⟨hlrs, -, hlhi⟩ := mem_inWindowReadings.mp (latest_spec hl).1
  cases he : earliest ((streamOf rows key).filter fun r => w.endTime ≤ r.timestamp) with
  | none =>
      have hsample : endSample w (streamOf rows key) = some l := by
        rw [endSample, he, hl]
        rfl
      refine ⟨l, endReading_last hgrow hfetched hl fun r hr => ?_, by rw [hsample], ?_⟩
      · have hnone := List.filter_eq_nil_iff.mp (earliest_eq_none.mp he) r
          ((mem_streamOf_fetched hgrow hfetched).mp hr).1
        simp only [UInt64.le_iff_toNat_le, decide_eq_true_eq] at hnone
        omega
      · rw [CoveredAtEnd, hsample, hl]
        exact iff_of_true rfl (.inr rfl)
  | some e =>
      obtain ⟨hemem, hearliest⟩ := earliest_spec he
      simp only [List.mem_filter, UInt64.le_iff_toNat_le, decide_eq_true_eq, and_imp]
        at hemem hearliest
      obtain ⟨hers, hege⟩ := hemem
      have hsample : endSample w (streamOf rows key) = some e := by
        rw [endSample, he]
        rfl
      -- the first row behind the window has the stream, or else it hides a later row that does
      by_cases hfirst : ∀ row ∈ rows, w.endTime.toNat ≤ row.timestamp.toNat →
          e.timestamp.toNat ≤ row.timestamp.toNat
      · have hcovered : CoveredAtEnd d w rows key := by
          refine .inl ⟨e, hsample, fun row hrow hle => ?_⟩
          rw [UInt64.le_iff_toNat_le] at hle ⊢
          exact hfirst row hrow hle
        exact ⟨e, endReading_boundary hgrow hfetched hers hege hfirst, by rw [hsample],
          iff_of_true (by rw [hsample]) hcovered⟩
      · refine ⟨l, endReading_hidden hgrow hfetched hl hearliest hfirst, ?_, ?_⟩
        · rw [hsample]
          exact hgrow.sampleValue_le hlrs hers (by omega)
        · rw [CoveredAtEnd, hsample, hl]
          refine ⟨?_, ?_⟩
          · exact .inr
          · rintro (⟨e', he', hall⟩ | heq)
            · obtain rfl := Option.some.inj he'
              simp only [UInt64.le_iff_toNat_le] at hall
              exact absurd hall hfirst
            · exact heq

/-- What the fetched rows yield for a stream: never more than the usage between its boundary
    samples, and the same exactly when both of them are covered. -/
theorem contribution_fetched
    (hin : ∃ r ∈ streamOf rows key, timestampInHalfOpenWindow r.timestamp w = true) :
    contribution d fetched w key
        ≤ sampleValue d (endSample w (streamOf rows key))
          - sampleValue d (startSample ret w (streamOf rows key)) ∧
      (contribution d fetched w key
          = sampleValue d (endSample w (streamOf rows key))
            - sampleValue d (startSample ret w (streamOf rows key)) ↔
        CoveredAtStart d ret w rows key ∧ CoveredAtEnd d w rows key) := by
  obtain ⟨b, hb, hble, hbcov⟩ := exists_startReading_covered (d := d) hgrow hfetched hin
  obtain ⟨e, he, hele, hecov⟩ := exists_endReading_covered (d := d) hgrow hfetched hin
  have hclean := fetched_clean (d := d) hgrow hfetched key
  obtain ⟨vb, hvb⟩ := Option.isSome_iff_exists.mp (hclean.present b hb.1)
  obtain ⟨ve, hve⟩ := Option.isSome_iff_exists.mp (hclean.present e he.1)
  have hinf : ∃ r ∈ streamOf fetched key, timestampInHalfOpenWindow r.timestamp w = true := by
    obtain ⟨x, hx, hxwin⟩ := hin
    obtain ⟨hlo, hhi⟩ := (timestampInHalfOpenWindow_iff _ _).mp hxwin
    exact ⟨x, mem_fetched_of_window hgrow hfetched hx hlo hhi, hxwin⟩
  -- Both sides are differences; neither end of the fetched one exceeds that of the history.
  have hsum : contribution d fetched w key + vb.toNat = ve.toNat :=
    hclean.increase_add hb he hvb hve hinf
  have hb' : sampleValue d (some b) = vb.toNat := by simp [sampleValue, hvb]
  have he' : sampleValue d (some e) = ve.toNat := by simp [sampleValue, hve]
  rw [hb'] at hble hbcov
  rw [he'] at hele hecov
  rw [← hbcov, ← hecov]
  omega

end OneStream

/-! ## All streams of a client -/

/-- A client whose streams all have a sample in the window keeps all its streams. -/
theorem clientStreams_fetched {ret : UInt64} {w : Window} {rows fetched : List DeviceTimePoint}
    (hgrow : GrowingHistory rows) (hfetched : FetchedRows ret w rows fetched) {mac : Str}
    (hin : ∀ key ∈ clientStreams rows mac,
      ∃ r ∈ streamOf rows key, timestampInHalfOpenWindow r.timestamp w = true) :
    clientStreams fetched mac = clientStreams rows mac := by
  ext key
  refine ⟨?_, ?_⟩
  · intro hkey
    obtain ⟨hmac, r, hr⟩ := mem_clientStreams.mp hkey
    have hrows := ((mem_streamOf_fetched hgrow hfetched).mp (mem_valuesAt.mpr hr)).1
    exact mem_clientStreams.mpr ⟨hmac, r, mem_valuesAt.mp hrows⟩
  · intro hkey
    obtain ⟨x, hx, hxwin⟩ := hin key hkey
    obtain ⟨hlo, hhi⟩ := (timestampInHalfOpenWindow_iff _ _).mp hxwin
    have hxf := mem_fetched_of_window hgrow hfetched hx hlo hhi
    exact mem_clientStreams.mpr ⟨(mem_clientStreams.mp hkey).1, x, mem_valuesAt.mp hxf⟩

/-- The fetched rows never yield more than the usage between the boundary samples, and the
    same exactly when every boundary sample of the client is covered. -/
theorem usage_fetched {ret : UInt64} {w : Window} {rows fetched : List DeviceTimePoint}
    (hgrow : GrowingHistory rows) (hfetched : FetchedRows ret w rows fetched) {mac : Str}
    (hin : ∀ key ∈ clientStreams rows mac,
      ∃ r ∈ streamOf rows key, timestampInHalfOpenWindow r.timestamp w = true) (d : Direction) :
    usage d fetched w mac ≤ boundaryUsage d ret w rows mac ∧
      (usage d fetched w mac = boundaryUsage d ret w rows mac ↔
        ∀ key ∈ clientStreams rows mac,
          CoveredAtStart d ret w rows key ∧ CoveredAtEnd d w rows key) := by
  unfold usage boundaryUsage
  rw [clientStreams_fetched hgrow hfetched hin]
  have hle := fun key (hkey : key ∈ clientStreams rows mac) =>
    (contribution_fetched (d := d) hgrow hfetched (hin key hkey)).1
  refine ⟨Finset.sum_le_sum hle, ?_⟩
  rw [Finset.sum_eq_sum_iff_of_le hle]
  exact forall₂_congr fun key hkey => (contribution_fetched hgrow hfetched (hin key hkey)).2

/-- For a growing history, the endpoint reports the usage between the boundary samples of the
    streams of a client exactly when all of them are covered by the boundary rows of the device
    and the usage fits the counter. -/
theorem bandwidth_boundary_complete_iff (P : Platform) (call : Call)
    (summary : McpDeviceBandwidthConsumptionSummary) (w : Window) (resolved : Resolved)
    (hok : doGet P call = .ok summary)
    (hwindow : validateWindowQuery P call.parameters call.nowAtWindow call.clockSkewSeconds
      = .ok w)
    (hresolved : call.resolve call.routerId = .ok resolved)
    (rows : List DeviceTimePoint)
    (hrows : rows = call.db.deviceRows resolved.resolvedBoardId call.routerId)
    (hgrow : GrowingHistory rows) (hfew : (clients rows).card ≤ maxItems) (mac : Str)
    (hin : ∀ key ∈ clientStreams rows mac,
      ∃ r ∈ streamOf rows key, timestampInHalfOpenWindow r.timestamp w = true)
    (d : Direction) :
    (reportedBytes d summary mac).toNat
        = boundaryUsage d (retentionStart call.nowAtBoundary resolved.retention) w rows mac ↔
      (∀ key ∈ clientStreams rows mac,
        CoveredAtStart d (retentionStart call.nowAtBoundary resolved.retention) w rows key ∧
          CoveredAtEnd d w rows key) ∧
      boundaryUsage d (retentionStart call.nowAtBoundary resolved.retention) w rows mac
        ≤ counterMax := by
  obtain ⟨a, rfl⟩ := doGet_ok hok
  obtain rfl : a.window = w := Except.ok.inj (a.window_ok.symm.trans hwindow)
  obtain rfl : a.resolved = resolved := Except.ok.inj (a.resolved_ok.symm.trans hresolved)
  subst hrows
  have hfetched := a.fetchedRows (UInt64.lt_iff_toNat_lt.mp (validateWindowQuery_ok hwindow))
    hgrow.distinct
  -- Fetched rows are rows of the device, so no client is cut off.
  have hclients : clients a.fetched
      ⊆ clients (call.db.deviceRows a.resolved.resolvedBoardId call.routerId) := by
    intro m hm
    rw [clients, List.mem_toFinset, List.mem_map] at hm ⊢
    obtain ⟨kv, hkv, rfl⟩ := hm
    have hrows := ((mem_streamOf_fetched hgrow hfetched).mp (mem_valuesAt.mpr hkv)).1
    exact ⟨kv, mem_valuesAt.mp hrows, rfl⟩
  have htotal := (totalClients_le P a.fetched a.window).trans
    ((Finset.card_le_card hclients).trans hfew)
  obtain ⟨hle, heq⟩ := usage_fetched hgrow hfetched hin d
  rw [reportedBytes_eq P a.fetched a.window htotal, total_clientTotals, ← heq]
  -- The reported bytes saturate, so the sum is reported only up to the largest counter.
  omega

/-! ## A hidden start sample -/

/-- A row of the router `r1` on the board `b`. -/
def storedRow (timestamp : UInt64) (associations : List UETimePoint) : DeviceTimePoint :=
  { point timestamp associations with boardId := "b".toList, serialNumber := "r1".toList }

/-- A request for the hour from 3600 to 7200 on the given rows. -/
def hourCall (rows : List DeviceTimePoint) : Call where
  authorization := some "Bearer token".toList
  isAuthorized := fun _ => true
  routerId := "r1".toList
  parameters :=
    [("timestampTill".toList, "1970-01-01T02:00:00Z".toList), ("lookbackHours".toList, ['1'])]
  configuredMaxSamples := 100
  nowAtWindow := 7200
  nowAtRetention := 7200
  nowAtBoundary := 7200
  resolve := fun _ => .ok { resolvedBoardId := "b".toList, retention := 7200, interval := 60 }
  db := { rows, joinSucceeds := fun _ => true }

/-- The second hour of the epoch. -/
def hourWindow : Window where
  startTime := 3600
  endTime := 7200
  lookbackHours := 1

/-- The first client is last seen before the window in the row at 3400; the row at 3500, which
    the endpoint fetches, only has the second one. -/
def hiddenRows : List DeviceTimePoint :=
  [storedRow 3400 [assoc "aa:bb:cc:dd:ee:01" (some 100) (some 0)],
    storedRow 3500 [assoc "aa:bb:cc:dd:ee:02" (some 10) (some 0)],
    storedRow 4000 [assoc "aa:bb:cc:dd:ee:01" (some 400) (some 0),
      assoc "aa:bb:cc:dd:ee:02" (some 20) (some 0)],
    storedRow 5000 [assoc "aa:bb:cc:dd:ee:01" (some 500) (some 0),
      assoc "aa:bb:cc:dd:ee:02" (some 30) (some 0)]]

theorem hourCall_window : validateWindowQuery Platform.posix (hourCall hiddenRows).parameters
    (hourCall hiddenRows).nowAtWindow (hourCall hiddenRows).clockSkewSeconds = .ok hourWindow := by
  show validateWindowQuery Platform.posix
    [("timestampTill".toList, "1970-01-01T02:00:00Z".toList), ("lookbackHours".toList, ['1'])]
    7200 300 = .ok hourWindow
  decide +kernel

theorem growingHistory_hiddenRows : GrowingHistory hiddenRows where
  distinct := by decide +kernel
  present := by decide +kernel
  nondecreasing := by decide +kernel

/-- The second client is covered on both sides, so its usage is reported. -/
theorem bandwidth_boundary_complete_iff_hiddenRows :
    ∃ summary, doGet Platform.posix (hourCall hiddenRows) = .ok summary ∧
      (reportedBytes .rx summary "aa:bb:cc:dd:ee:02".toList).toNat
        = boundaryUsage .rx (retentionStart 7200 7200) hourWindow hiddenRows
            "aa:bb:cc:dd:ee:02".toList := by
  obtain ⟨summary, hok, -⟩ : ∃ summary, doGet Platform.posix (hourCall hiddenRows) = .ok summary ∧
      summary.data.totalClients = 2 := Answer.exists_ok (by decide +kernel)
  have hiff := bandwidth_boundary_complete_iff Platform.posix (hourCall hiddenRows) summary
    hourWindow { resolvedBoardId := "b".toList, retention := 7200, interval := 60 } hok
    hourCall_window rfl hiddenRows (by decide +kernel) growingHistory_hiddenRows
    (by decide +kernel) "aa:bb:cc:dd:ee:02".toList (by decide +kernel) .rx
  refine ⟨summary, hok, hiff.mpr ⟨?_, by decide +kernel⟩⟩
  intro key hkey
  have hall : ∀ key ∈ clientStreams hiddenRows "aa:bb:cc:dd:ee:02".toList,
      (startSample (retentionStart 7200 7200) hourWindow (streamOf hiddenRows key)).map
        Reading.timestamp = some 3500 ∧
      sampleValue .rx (endSample hourWindow (streamOf hiddenRows key))
        = sampleValue .rx (latest (inWindowReadings hourWindow (streamOf hiddenRows key))) := by
    decide +kernel
  obtain ⟨hstart, hend⟩ := hall key hkey
  obtain ⟨b, hb, htime⟩ := Option.map_eq_some_iff.mp hstart
  -- the row at 3500 is the last one before the window
  have hlast : ∀ row ∈ hiddenRows, row.timestamp ≤ hourWindow.startTime →
      row.timestamp ≤ 3500 := by
    decide +kernel
  refine ⟨.inl ⟨b, hb, ?_⟩, .inr hend⟩
  rw [htime]
  exact hlast

/-- The endpoint loses what the first client used before its first sample in the window: it
    reports 100 bytes, and 400 were used since the latest sample before the window. -/
theorem bandwidth_boundary_incomplete :
    ¬ ∀ (P : Platform) (call : Call) (summary : McpDeviceBandwidthConsumptionSummary)
      (w : Window) (resolved : Resolved), doGet P call = .ok summary →
      validateWindowQuery P call.parameters call.nowAtWindow call.clockSkewSeconds = .ok w →
      call.resolve call.routerId = .ok resolved →
      ∀ rows, rows = call.db.deviceRows resolved.resolvedBoardId call.routerId →
      GrowingHistory rows → (clients rows).card ≤ maxItems →
      ∀ mac, (∀ key ∈ clientStreams rows mac,
        ∃ r ∈ streamOf rows key, timestampInHalfOpenWindow r.timestamp w = true) →
      ∀ d, (reportedBytes d summary mac).toNat
        = boundaryUsage d (retentionStart call.nowAtBoundary resolved.retention) w rows mac := by
  intro h
  -- the client is not in the row before the window, and its older row is not read
  obtain ⟨summary, hok, hreported⟩ : ∃ summary,
      doGet Platform.posix (hourCall hiddenRows) = .ok summary ∧
        reportedBytes .rx summary "aa:bb:cc:dd:ee:01".toList = 100 :=
    Answer.exists_ok (f := fun s => reportedBytes .rx s "aa:bb:cc:dd:ee:01".toList)
      (by decide +kernel)
  have hclaim := h Platform.posix (hourCall hiddenRows) summary hourWindow
    { resolvedBoardId := "b".toList, retention := 7200, interval := 60 } hok hourCall_window rfl
    hiddenRows (by decide +kernel) growingHistory_hiddenRows (by decide +kernel)
    "aa:bb:cc:dd:ee:01".toList (by decide +kernel) .rx
  rw [hreported] at hclaim
  revert hclaim
  decide +kernel

end OwAnalytics.Mcp.Bandwidth
