/-
  OwAnalytics.Ap.Disconnection

  What a disconnection does to an `AP`.  `UpdateConnection` reads the time stamp
  before it clears the flags, and what the reading throws is caught after them: an
  `AP` whose disconnection has an ill-typed time stamp stays connected.
-/

import OwAnalytics.Ap.Update

namespace OwAnalytics.Ap

open Throwing Document

variable {F : Type}

/-- The document has no time stamp, or one that is null or a number. -/
def ReadableTimestamp (d : Document F) : Prop :=
  match d.find? "timestamp" with
  | none | some .null | some (.unsigned _) | some (.integer _) | some (.float _) => True
  | some (.bool _) | some (.str _) | some (.arr _) | some (.obj _) => False

variable [Double F]

theorem readTimestamp_iff (d : Document F) (default : UInt64) :
    (∃ n, getJSON getUInt64 "timestamp" d default = some n) ↔ ReadableTimestamp d := by
  unfold getJSON ReadableTimestamp
  cases d.find? "timestamp" with
  | none => simp
  | some t => cases t <;> simp [getUInt64]

/-- The device is not connected, and what was got before counts no more. -/
structure Reset (ap : AP F) : Prop where
  connected : ap.info.connected = false
  gotBase : ap.gotBase = false
  gotHealth : ap.gotHealth = false
  gotConnection : ap.gotConnection = false

/-- The next state message sets a new base and stores nothing. -/
def OnlySetsBase (ap : AP F) : Prop :=
  ∀ env cache state, (ap.updateStats env cache state).2.1.timePoint = none ∧
    (ap.updateStats env cache state).1.gotBase = true

theorem Reset.onlySetsBase {ap : AP F} (h : Reset ap) : OnlySetsBase ap := by
  intro env cache state
  refine ⟨?_, rfl⟩
  simp [AP.updateStats, AP.toStore, h.gotBase]

namespace AP

/-- The second reading of the time stamp does not throw where the first has not. -/
theorem offlineTransition_ne_none {env : Env F} {boardId : Str} {device : DeviceInfo F}
    {d : Document F} (h : ReadableTimestamp d) :
    ∃ event, offlineTransition env boardId device d = some event := by
  obtain ⟨n, hn⟩ := (readTimestamp_iff d 0).mpr h
  unfold offlineTransition
  rw [hn]
  split
  · exact ⟨none, rfl⟩
  · by_cases hzero : n = 0
    · exact ⟨none, if_pos hzero⟩
    · exact ⟨_, if_neg hzero⟩

/-- With a readable time stamp, a disconnection resets; with another, it leaves everything. -/
theorem disconnection_cases (env : Env F) (ap : AP F) (d : Document F) :
    (ReadableTimestamp d ∧ Reset (disconnection env d ap).2) ∨
      (¬ ReadableTimestamp d ∧ (disconnection env d ap).2 = ap) := by
  by_cases h : ReadableTimestamp d
  · obtain ⟨n, hn⟩ := (readTimestamp_iff d 0).mpr h
    refine .inl ⟨h, ?_⟩
    unfold disconnection
    rw [hn]
    -- the time is read once more for the event, and nothing else of it can throw
    have htransition : ∃ event, offlineTransition env ap.boardId
        { ap.info with lastDisconnection := n } d = some event := offlineTransition_ne_none h
    obtain ⟨event, hevent⟩ := htransition
    rw [Computation.bind_of_some (Computation.ofOption_apply _ _),
      Computation.bind_of_some (Computation.modify_apply _ _),
      Computation.bind_of_some (Computation.get_apply _), hevent]
    exact ⟨rfl, rfl, rfl, rfl⟩
  · refine .inr ⟨h, ?_⟩
    have hnone : getJSON getUInt64 "timestamp" d 0 = none := by
      by_contra hsome
      exact h ((readTimestamp_iff d 0).mp (Option.ne_none_iff_exists'.mp hsome))
    unfold disconnection
    rw [hnone, Computation.bind_of_none (Computation.ofOption_apply _ _)]

end AP

/-- A disconnection resets iff its time stamp can be read, or there was nothing to reset. -/
theorem reset_iff (env : Env F) (ap : AP F) {d dis : Document F} (hping : d.find? "ping" = none)
    (hdis : d.find? "disconnection" = some dis) :
    (Reset (ap.updateConnection env d).1 ∧ OnlySetsBase (ap.updateConnection env d).1) ↔
      ReadableTimestamp dis ∨ Reset ap := by
  have hupdate : (ap.updateConnection env d).1 =
      (AP.disconnection env dis
        { ap with
          info := { ap.info with pings := ap.info.pings + 1, lastContact := env.now } }).2 := by
    simp only [AP.updateConnection, AP.connection, hping, hdis]
  rw [hupdate]
  -- the time is read and everything reset, or the exception leaves what was there
  rcases AP.disconnection_cases env
    { ap with info := { ap.info with pings := ap.info.pings + 1, lastContact := env.now } } dis with
    ⟨hreadable, hreset⟩ | ⟨hill, hsame⟩
  · exact iff_of_true ⟨hreset, hreset.onlySetsBase⟩ (.inl hreadable)
  · rw [hsame]
    refine ⟨?_, ?_⟩
    · rintro ⟨hreset, -⟩
      exact .inr ⟨hreset.connected, hreset.gotBase, hreset.gotHealth, hreset.gotConnection⟩
    · rintro (hreadable | hreset)
      · exact absurd hreadable hill
      · have hreset' : Reset
            { ap with
              info := { ap.info with pings := ap.info.pings + 1, lastContact := env.now } } :=
          ⟨hreset.connected, hreset.gotBase, hreset.gotHealth, hreset.gotConnection⟩
        exact ⟨hreset', hreset'.onlySetsBase⟩

/-! ## Two disconnections -/

/-- A message of a disconnection with this time stamp. -/
def disconnectionAt (timestamp : Document ℚ) : Document ℚ :=
  .obj [("disconnection".toList, .obj [("timestamp".toList, timestamp)])]

/-- Surroundings in which nothing happens. -/
def plainEnv : Env ℚ where
  now := 100
  uuid := ['u']
  dump := fun _ => []
  missing := .null

/-- A connected device with all flags set. -/
def online : AP ℚ :=
  { venueId := ['v']
    boardId := ['b']
    info := { serialNumber := "0000000000a1".toList, connected := true }
    gotHealth := true
    gotConnection := true
    gotBase := true }

/-- A time stamp that is a text leaves the device connected with all flags set. -/
theorem text_timestamp_keeps_online :
    ¬ (Reset (online.updateConnection plainEnv (disconnectionAt (.str ['5']))).1 ∧
      OnlySetsBase (online.updateConnection plainEnv (disconnectionAt (.str ['5']))).1) := by
  rintro ⟨hreset, -⟩
  exact absurd hreset.gotBase (by decide +kernel)

theorem reset_iff_number :
    (Reset (online.updateConnection plainEnv (disconnectionAt (.unsigned 5))).1 ∧
        OnlySetsBase (online.updateConnection plainEnv (disconnectionAt (.unsigned 5))).1) ↔
      ReadableTimestamp (.obj [("timestamp".toList, .unsigned 5)] : Document ℚ) ∨ Reset online :=
  reset_iff plainEnv online (by rfl) (by rfl)

end OwAnalytics.Ap
