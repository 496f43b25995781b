/-
  OwAnalytics.Venue.SerialIsolation

  What a serial number that is not hexadecimal does to the rounds of the coordinator.
  `SerialNumberToInt` throws on it or reads the digits it begins with;
  `GetDevicesForBoard`, the loops of `run` and `onReconcileTimer` have no handler, so
  that one such text ends the round for every board that comes after it, and two texts
  of one or of two boards may be one device.
-/

import OwAnalytics.Venue.Provisioning

namespace OwAnalytics.Venue

open Transitions AnalyticsObjects SortedMerge Readers

/-! ## Texts of serial numbers -/

/-- What `std::stoull` is left with after the blanks, the sign and the prefix `0x`. -/
def stoullText (s : List Char) : List Char :=
  let s := s.dropWhile fun c => [' ', '\t', '\n', '\x0b', '\x0c', '\r'].contains c
  let s :=
    (match s with
    | '-' :: rest => (true, rest)
    | '+' :: rest => (false, rest)
    | rest => (false, rest)).2
  match s with
  | '0' :: x :: c :: rest =>
      if (x = 'x' ∨ x = 'X') ∧ (hexDigit? c).isSome then c :: rest else s
  | _ => s

/-- The hexadecimal digits the text begins with. -/
def leadingDigits (s : List Char) : List Nat := hexPrefix (stoullText s)

/-- The text begins with hexadecimal digits, of a number of 64 bits. -/
def Readable (s : List Char) : Prop :=
  leadingDigits s ≠ [] ∧ (leadingDigits s).foldl (fun n d => 16 * n + d) 0 < 2 ^ 64

/-- Nothing follows the digits. -/
def ReadToTheEnd (s : List Char) : Prop := (leadingDigits s).length = (stoullText s).length

theorem isSome_serialNumberToInt (s : List Char) :
    (serialNumberToInt s).isSome = true ↔ Readable s := by
  have hdef : ∃ n, serialNumberToInt s =
      if (leadingDigits s).isEmpty ∨ 2 ^ 64 ≤ (leadingDigits s).foldl (fun n d => 16 * n + d) 0
      then none else some n := ⟨_, rfl⟩
  obtain ⟨n, hdef⟩ := hdef
  rw [Readable, hdef]
  split
  · rename_i hnone
    rw [List.isEmpty_iff] at hnone
    simp only [Option.isSome_none, Bool.false_eq_true, false_iff, not_and_or, not_not, Nat.not_lt]
    exact hnone
  · rename_i hsome
    rw [List.isEmpty_iff, not_or, Nat.not_le] at hsome
    simp only [Option.isSome_some, true_iff]
    exact hsome

/-! ## Rounds over the boards -/

/-- A board when the sweep of `run` comes to it. -/
structure BoardVisit where
  board : BoardInfo
  http : HttpAnswer
  /-- `Venue::Exists` answers that the venue is gone. -/
  gone : Bool
  this : WatcherPtr

/-- A board when the reconcile timer comes to it. -/
structure BoardUpdate where
  id : Str
  /-- The database answers. -/
  found : Bool
  http : HttpAnswer

/-- The serial numbers of a venue as the provisioning service gives them. -/
def serialTexts (text : Json → Option Str) (http : HttpAnswer) : List Str :=
  (getDevices text http).devices

namespace Service

variable (text : Json → Option Str)

/-- The loop of `run`, for one board; `none` for an exception. -/
def sweepBoard (s : Service) (v : BoardVisit) : Option Service :=
  if !s.coordinator.watching v.board.info.id then
    (s.startBoard v.board (getDevices text v.http) v.this).map Prod.snd
  else if v.gone then some (s.retireBoard v.board)
  else some s

/-- The loop of `run`, and whether it comes to its end. -/
def sweep (s : Service) : List BoardVisit → Service × Bool
  | [] => (s, true)
  | v :: rest =>
      match s.sweepBoard text v with
      | some s => sweep s rest
      | none => (s, false)

/-- The loop of `onReconcileTimer`, and whether it comes to its end. -/
def reconcile (s : Service) : List BoardUpdate → Service × Bool
  | [] => (s, true)
  | u :: rest =>
      match s.updateBoard u.id u.found (getDevices text u.http) with
      | some s => reconcile s rest
      | none => (s, false)

end Service

/-- A round of the coordinator. -/
inductive Round
  /-- Of its thread, over the boards that are stored. -/
  | sweep (visits : List BoardVisit)
  /-- Of its timer, over the boards that are watched. -/
  | reconcile (updates : List BoardUpdate)
  /-- What requests make of the boards between two rounds. -/
  | requests (change : Service → Service)

namespace Service

variable (text : Json → Option Str)

/-- A round of the coordinator, and whether no exception leaves it. -/
def round (s : Service) : Round → Service × Bool
  | .sweep visits => s.sweep text visits
  | .reconcile updates => s.reconcile text updates
  | .requests change => (change s, true)

/-- Rounds one after the other, and whether no exception leaves any of them. -/
def rounds (s : Service) : List Round → Service × Bool
  | [] => (s, true)
  | r :: rest =>
      match s.round text r with
      | (s, true) => rounds s rest
      | (s, false) => (s, false)

end Service

/-! ## The lists of serial numbers that are asked for -/

/-- The list the sweep gets for the board, if it asks for its devices. -/
def BoardVisit.asked (text : Json → Option Str) (v : BoardVisit) (s : Service) : List (List Str) :=
  if s.coordinator.watching v.board.info.id || v.board.venueList.isEmpty then []
  else [serialTexts text v.http]

/-- The list the timer gets for the board, if it asks for its devices. -/
def BoardUpdate.asked (text : Json → Option Str) (u : BoardUpdate) (s : Service) :
    List (List Str) :=
  if u.found && (s.getRecord u.id).isSome then [serialTexts text u.http] else []

namespace Service

variable (text : Json → Option Str)

/-- The lists a sweep asks for. -/
def sweepAsked (s : Service) : List BoardVisit → List (List Str)
  | [] => []
  | v :: rest =>
      v.asked text s ++
        match s.sweepBoard text v with
        | some s => sweepAsked s rest
        | none => []

/-- The lists a reconciliation asks for. -/
def reconcileAsked (s : Service) : List BoardUpdate → List (List Str)
  | [] => []
  | u :: rest =>
      u.asked text s ++
        match s.updateBoard u.id u.found (getDevices text u.http) with
        | some s => reconcileAsked s rest
        | none => []

/-- The lists a round asks for. -/
def roundAsked (s : Service) : Round → List (List Str)
  | .sweep visits => s.sweepAsked text visits
  | .reconcile updates => s.reconcileAsked text updates
  | .requests _ => []

/-- The lists the rounds get, up to the first exception. -/
def roundsAsked (s : Service) : List Round → List (List Str)
  | [] => []
  | r :: rest =>
      s.roundAsked text r ++
        match s.round text r with
        | (s, true) => roundsAsked s rest
        | (_, false) => []

end Service

/-! ## What is asked of the serial numbers -/

/-- Every serial number of the list that can be read comes through. -/
def YieldsReadable (l : List Str) : Prop :=
  ∀ (s : Service) (b : BoardInfo), ∃ devices,
    s.getDevicesForBoard b { result := true, devices := l } = some (some devices, s) ∧
      ∀ t ∈ l, ∀ n, serialNumberToInt t = some n → n ∈ devices

/-- No exception ends the rounds, each list they get yields its serial numbers, and no two texts of
    any of the lists that cannot be read to the end are taken for the same device. -/
structure IsolatesSerials (text : Json → Option Str) (s : Service) (rounds : List Round) :
    Prop where
  completes : (s.rounds text rounds).2 = true
  yields : ∀ l ∈ s.roundsAsked text rounds, YieldsReadable l
  distinct : ∀ t ∈ (s.roundsAsked text rounds).flatten, ∀ u ∈ (s.roundsAsked text rounds).flatten,
    t ≠ u → ¬ (Readable t ∧ ReadToTheEnd t) → ¬ (Readable u ∧ ReadToTheEnd u) →
      ∀ n, serialNumberToInt t = some n → serialNumberToInt u ≠ some n

/-- Every text begins with digits, and no two different ones that go on after their digits begin
    with the same number. -/
structure ReadableSerials (texts : List Str) : Prop where
  readable : ∀ t ∈ texts, Readable t
  distinct : ∀ t ∈ texts, ∀ u ∈ texts, t ≠ u → ¬ ReadToTheEnd t → ¬ ReadToTheEnd u →
    serialNumberToInt t ≠ serialNumberToInt u

theorem mem_sortUnique {k : Serial} {l : List Serial} : k ∈ sortUnique l ↔ k ∈ l := by
  rw [sortUnique, mem_destutter, (List.perm_insertionSort (· ≤ ·) l).mem_iff]

/-- The list comes through iff all of its texts can be read. -/
theorem isSome_mapM_serialNumberToInt (l : List Str) :
    (l.mapM serialNumberToInt).isSome = true ↔ ∀ t ∈ l, Readable t := by
  rw [isSome_mapM]
  exact forall₂_congr fun t _ => isSome_serialNumberToInt t

/-- So it does iff it yields those that can be. -/
theorem yieldsReadable_iff (l : List Str) : YieldsReadable l ↔ ∀ t ∈ l, Readable t := by
  refine ⟨?_, ?_⟩
  · intro h
    obtain ⟨devices, hget, -⟩ := h {} {}
    rw [← isSome_mapM_serialNumberToInt]
    simp only [Service.getDevicesForBoard, if_true] at hget
    obtain ⟨serials, hserials, -⟩ := Option.map_eq_some_iff.mp hget
    rw [hserials]
    rfl
  · intro h s b
    obtain ⟨serials, hserials⟩ := Option.isSome_iff_exists.mp
      ((isSome_mapM_serialNumberToInt l).mpr h)
    refine ⟨sortUnique serials, ?_, ?_⟩
    · simp only [Service.getDevicesForBoard, if_true, hserials, Option.map_some]
    · intro t ht n hn
      exact mem_sortUnique.mpr (mem_of_mapM hserials ht hn)

/-! ## When a round comes to its end -/

section Rounds

variable {text : Json → Option Str}

/-- All texts of the lists can be read. -/
def AllReadable (lists : List (List Str)) : Prop := ∀ l ∈ lists, ∀ t ∈ l, Readable t

theorem allReadable_append {lists lists' : List (List Str)} :
    AllReadable (lists ++ lists') ↔ AllReadable lists ∧ AllReadable lists' := List.forall_mem_append

/-- `GetDevicesForBoard` throws iff a text cannot be read. -/
theorem isSome_getDevicesForBoard (s : Service) (b : BoardInfo) (http : HttpAnswer) :
    (s.getDevicesForBoard b (getDevices text http)).isSome = true ↔
      ∀ t ∈ serialTexts text http, Readable t := by
  rw [← isSome_mapM_serialNumberToInt, serialTexts]
  cases hresult : (getDevices text http).result with
  | true => simp [Service.getDevicesForBoard, hresult]
  | false =>
      rw [getDevices_failure hresult]
      simp [Service.getDevicesForBoard]

theorem isSome_sweepBoard (s : Service) (v : BoardVisit) :
    (s.sweepBoard text v).isSome = true ↔ AllReadable (v.asked text s) := by
  unfold Service.sweepBoard BoardVisit.asked AllReadable
  cases hwatching : s.coordinator.watching v.board.info.id with
  | true => cases v.gone <;> simp
  | false =>
      by_cases hvenue : v.board.venueList.isEmpty = true
      · simp [Service.startBoard, hvenue]
      · simp [Service.startBoard, hvenue, ← isSome_getDevicesForBoard s v.board]

theorem isSome_updateBoard (s : Service) (u : BoardUpdate) :
    (s.updateBoard u.id u.found (getDevices text u.http)).isSome = true ↔
      AllReadable (u.asked text s) := by
  unfold Service.updateBoard BoardUpdate.asked AllReadable
  cases hfound : u.found with
  | false => simp
  | true =>
      cases hrecord : s.getRecord u.id with
      | none => simp
      | some b => simp [← isSome_getDevicesForBoard s b]

/-- The sweep comes to its end iff every text it gets can be read. -/
theorem sweep_completes_iff (s : Service) (visits : List BoardVisit) :
    (s.sweep text visits).2 = true ↔ AllReadable (s.sweepAsked text visits) := by
  induction visits generalizing s with
  | nil => simp [Service.sweep, Service.sweepAsked, AllReadable]
  | cons v rest ih =>
      rw [Service.sweepAsked, allReadable_append, ← isSome_sweepBoard, Service.sweep]
      cases hstep : s.sweepBoard text v with
      | none => simp
      | some s' => simp [ih]

/-- So does a round of the timer. -/
theorem reconcile_completes_iff (s : Service) (updates : List BoardUpdate) :
    (s.reconcile text updates).2 = true ↔ AllReadable (s.reconcileAsked text updates) := by
  induction updates generalizing s with
  | nil => simp [Service.reconcile, Service.reconcileAsked, AllReadable]
  | cons u rest ih =>
      rw [Service.reconcileAsked, allReadable_append, ← isSome_updateBoard, Service.reconcile]
      cases hstep : s.updateBoard u.id u.found (getDevices text u.http) with
      | none => simp
      | some s' => simp [ih]

theorem round_completes_iff (s : Service) (r : Round) :
    (s.round text r).2 = true ↔ AllReadable (s.roundAsked text r) := by
  cases r with
  | sweep visits => exact sweep_completes_iff s visits
  | reconcile updates => exact reconcile_completes_iff s updates
  | requests change => simp [Service.round, Service.roundAsked, AllReadable]

theorem rounds_complete_iff (s : Service) (rounds : List Round) :
    (s.rounds text rounds).2 = true ↔ AllReadable (s.roundsAsked text rounds) := by
  induction rounds generalizing s with
  | nil => simp [Service.rounds, Service.roundsAsked, AllReadable]
  | cons r rest ih =>
      rw [Service.roundsAsked, allReadable_append, ← round_completes_iff, Service.rounds]
      cases hround : s.round text r with
      | mk s' completed => cases completed <;> simp [ih]

end Rounds

/-! ## When a bad serial number stays alone -/

/-- No exception leaves a round of the thread or of the timer, the lists come through and no two
    texts are taken for one device, iff all texts that are given for the boards can be read and no
    two of them begin with the same number and then go on. -/
theorem serial_isolation_iff (text : Json → Option Str) (s : Service) (rounds : List Round) :
    IsolatesSerials text s rounds ↔ ReadableSerials (s.roundsAsked text rounds).flatten := by
  have hall : AllReadable (s.roundsAsked text rounds) ↔
      ∀ t ∈ (s.roundsAsked text rounds).flatten, Readable t := by
    simp only [AllReadable, List.mem_flatten]
    exact ⟨fun h t ⟨l, hl, ht⟩ => h l hl t ht, fun h l hl t ht => h t ⟨l, hl, ht⟩⟩
  refine ⟨?_, ?_⟩
  · intro h
    have hreadable := hall.mp ((rounds_complete_iff s rounds).mp h.completes)
    refine ⟨hreadable, ?_⟩
    intro t ht u hu hne hend hend' heq
    -- Two texts that are read as one number are one serial number for the code.
    obtain ⟨n, hn⟩ := Option.isSome_iff_exists.mp
      ((isSome_serialNumberToInt t).mpr (hreadable t ht))
    exact h.distinct t ht u hu hne (fun hr => hend hr.2) (fun hr => hend' hr.2) n hn (heq ▸ hn)
  · intro h
    have hlists := hall.mpr h.readable
    refine ⟨(rounds_complete_iff s rounds).mpr hlists,
      fun l hl => (yieldsReadable_iff l).mpr (hlists l hl), ?_⟩
    intro t ht u hu hne hend hend' n hn hn'
    have hend : ¬ ReadToTheEnd t := fun he => hend ⟨h.readable t ht, he⟩
    have hend' : ¬ ReadToTheEnd u := fun he => hend' ⟨h.readable u hu, he⟩
    exact h.distinct t ht u hu hne hend hend' (hn.trans hn'.symm)

/-! ## A sweep over two boards -/

/-- No other value converts to a string. -/
def noText : Json → Option Str := fun _ => none

/-- The answer of a venue with these devices. -/
def venueOf (serials : List String) : HttpAnswer where
  status := 200
  body := .obj [("devices".toList, .arr (serials.map fun s => .str s.toList))]

/-- Two boards that are not started yet, with these devices. -/
def twoVisits (serials serials' : List String) : List BoardVisit :=
  let board (id : Str) : BoardInfo := { info := { id }, venueList := [{ id }] }
  [{ board := board ['a'], http := venueOf serials, gone := false, this := 7 },
    { board := board ['b'], http := venueOf serials', gone := false, this := 8 }]

/-- The serial numbers of two boards that differ after their digits only. -/
def sameDigits : List Round := [.sweep (twoVisits ["ab_1"] ["ab-2"])]

/-- The second serial number of the first board ends the sweep and neither board is started; and
    serial numbers of two boards that begin with the same digits are one device. -/
theorem unreadable_serial_ends_sweep :
    (Service.sweep noText {} (twoVisits ["0000000000a1", "gw-1"] ["b1"])).2 = false ∧
      (Service.sweep noText {} (twoVisits ["0000000000a1", "gw-1"] ["b1"])).1.coordinator.watching
        ['a'] = false ∧
      (Service.sweep noText {} (twoVisits ["0000000000a1", "gw-1"] ["b1"])).1.coordinator.watching
        ['b'] = false ∧
      (Service.rounds noText {} sameDigits).2 = true ∧
      ¬ IsolatesSerials noText {} sameDigits := by
  refine ⟨by decide +kernel, by decide +kernel, by decide +kernel, by decide +kernel, fun h => ?_⟩
  have hasked : (Service.roundsAsked noText {} sameDigits).flatten
      = ["ab_1".toList, "ab-2".toList] := by
    decide +kernel
  have hdistinct := h.distinct
  rw [hasked] at hdistinct
  exact hdistinct "ab_1".toList (by simp) "ab-2".toList (by simp) (by decide)
    (fun hend => absurd hend.2 (by unfold ReadToTheEnd; decide))
    (fun hend => absurd hend.2 (by unfold ReadToTheEnd; decide)) 0xab (by decide) (by decide)

end OwAnalytics.Venue
