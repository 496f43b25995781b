/-
  OwAnalytics.Ap.RadioReferences

  The radio that an SSID names by `#/radios/N`.  The reference counts the elements of
  the array, the map of the radios only those with a channel, under numbers and with
  bands and channels of 32 bits: which radio a reference reaches, and when it is the
  one it names.
-/

import OwAnalytics.Ap.AssociationDeltas

namespace OwAnalytics.Ap

open Throwing Document

variable {F : Type} [Double F]

/-! ## The array and the map -/

/-- The elements of the radios array of a state message. -/
def radiosOf (state : Document F) : List (Document F) := (state.array? "radios").getD []

/-- The channel an element of the array has. -/
def channel? (radio : Document F) : Option UInt64 :=
  match radio.find? "channel" with
  | none | some .null => none
  | some d => d.getUInt64

/-- What a radio is entered in the map with. -/
def mapEntry (radio : Document F) : Option (UInt32 × UInt32) :=
  (radioTimePoint radio).map Prod.snd

/-- The elements that the map numbers. -/
def listed (radios : List (Document F)) : List (Document F) :=
  radios.filter fun radio => radio.contains "channel"

omit [Double F] in
theorem listed_cons (radio : Document F) (rest : List (Document F)) :
    listed (radio :: rest) =
      if radio.contains "channel" then radio :: listed rest else listed rest :=
  List.filter_cons

/-- A radio without a channel makes no entry, another one its own. -/
theorem parseRadio_eq_some {radio : Document F} {w w' : Work F} {entries : RadioMap}
    (h : parseRadio radio w = (some entries, w')) :
    entries.map some = if radio.contains "channel" then [mapEntry radio] else [] := by
  unfold parseRadio at h
  unfold mapEntry
  by_cases hchannel : radio.contains "channel" = true
  · rw [if_pos hchannel] at h ⊢
    cases hradio : radioTimePoint radio with
    | none =>
        rw [hradio, Computation.bind_of_none (Computation.ofOption_apply _ _)] at h
        cases h
    | some point =>
        rw [hradio, Computation.bind_of_some (Computation.ofOption_apply _ _)] at h
        obtain rfl := Option.some.inj (congrArg Prod.fst h)
        rfl
  · rw [if_neg hchannel] at h ⊢
    obtain rfl := Option.some.inj (congrArg Prod.fst h)
    rfl

theorem mapEach_parseRadio {radios : List (Document F)} {w w' : Work F}
    {entries : List RadioMap} (h : Computation.mapEach radios parseRadio w = (some entries, w')) :
    entries.flatten.map some = (listed radios).map mapEntry := by
  induction radios generalizing w w' entries with
  | nil =>
      obtain rfl := Option.some.inj (congrArg Prod.fst h)
      rfl
  | cons radio rest ih =>
      unfold Computation.mapEach at h
      rcases Computation.bind_cases (parseRadio radio) _ w with
        ⟨_, -, hbind⟩ | ⟨entry, w₁, hradio, hbind⟩
      · rw [hbind] at h
        cases h
      · rw [hbind] at h
        rcases Computation.bind_cases (Computation.mapEach rest parseRadio) _ w₁ with
          ⟨_, -, hbind'⟩ | ⟨others, w₂, hrest, hbind'⟩
        · rw [hbind'] at h
          cases h
        · rw [hbind'] at h
          obtain rfl := Option.some.inj (congrArg Prod.fst h)
          rw [List.flatten_cons, List.map_append, ih hrest, parseRadio_eq_some hradio]
          -- A radio without a channel makes no entry, and the later ones move up.
          by_cases hchannel : radio.contains "channel" = true
          · rw [if_pos hchannel, listed_cons, if_pos hchannel]
            rfl
          · rw [if_neg hchannel, listed_cons, if_neg hchannel]
            rfl

/-- The map holds the radios with a channel, in the order of the array. -/
theorem parseRadios_eq_some {state : Document F} {w w' : Work F} {radioMap : RadioMap}
    (h : parseRadios state w = (some radioMap, w')) :
    radioMap.map some = (listed (radiosOf state)).map mapEntry := by
  unfold parseRadios at h
  unfold radiosOf
  cases harray : state.array? "radios" with
  | none =>
      rw [harray] at h
      obtain rfl := Option.some.inj (congrArg Prod.fst h)
      rfl
  | some radios =>
      simp only [harray] at h
      rcases Computation.bind_cases (Computation.mapEach radios parseRadio) _ w with
        ⟨_, -, hbind⟩ | ⟨entries, w₁, hradios, hbind⟩
      · rw [hbind] at h
        cases h
      · rw [hbind] at h
        obtain rfl := Option.some.inj (congrArg Prod.fst h)
        exact mapEach_parseRadio hradios

/-! ## The reference -/

/-- `#/radios/N`. -/
def radioPath (n : ℕ) : Str := "#/radios/".toList ++ Nat.toDigits 10 n

/-- The number a reference is read as, in 32 bits. -/
def radioNumber (n : ℕ) : UInt32 := (strtol (Nat.toDigits 10 n)).toUInt64.toUInt32

theorem isDigit_of_mem {n : ℕ} {c : Char} (h : c ∈ Nat.toDigits 10 n) : c.isDigit = true :=
  Nat.isDigit_of_mem_toDigits (by decide) (by decide) h

/-- A path has three parts. -/
theorem tokens_radioPath (n : ℕ) :
    tokens (radioPath n) '/' = [['#'], "radios".toList, Nat.toDigits 10 n] := by
  have hdigits : '/' ∉ Nat.toDigits 10 n :=
    fun h => absurd (isDigit_of_mem h) (by decide)
  have hhash : '/' ∉ ['#'] := by decide
  have hradios : '/' ∉ "radios".toList := by decide
  have hpath : radioPath n = ['#'] ++ '/' :: ("radios".toList ++ '/' :: Nat.toDigits 10 n) := rfl
  unfold tokens
  rw [if_neg (by rw [hpath]; exact Bool.false_ne_true), hpath,
    List.splitOn_append_cons_self_of_not_mem hhash,
    List.splitOn_append_cons_self_of_not_mem hradios,
    List.splitOn_eq_singleton hdigits]

omit [Double F] in
theorem radioRef_radioPath {radio : Document F} {n : ℕ}
    (h : radio.find? "$ref" = some (.str (radioPath n))) :
    radioRef radio = some (some (radioNumber n)) := by
  unfold radioRef
  rw [h]
  simp only [getString, Option.bind_eq_bind, Option.bind_some, tokens_radioPath]
  rfl

theorem signed_toDigits (n : ℕ) : signed (Nat.toDigits 10 n) = (false, Nat.toDigits 10 n) := by
  obtain ⟨c, rest, hdigits⟩ := List.exists_cons_of_ne_nil (Nat.toDigits_ne_nil (b := 10) (n := n))
  have hdigit : c.isDigit = true := isDigit_of_mem (hdigits ▸ List.mem_cons_self)
  -- a digit is neither a blank nor a sign
  have hblank : [' ', '\t', '\n', '\x0b', '\x0c', '\r'].contains c = false := by
    rw [List.contains_eq_mem, decide_eq_false_iff_not]
    intro hmem
    simp only [List.mem_cons, List.not_mem_nil, or_false] at hmem
    rcases hmem with rfl | rfl | rfl | rfl | rfl | rfl <;> exact absurd hdigit (by decide)
  unfold signed
  rw [hdigits, List.dropWhile_cons, hblank, if_neg Bool.false_ne_true]
  split
  · rename_i heq
    obtain ⟨rfl, -⟩ := List.cons.inj heq
    exact absurd hdigit (by decide)
  · rename_i heq
    obtain ⟨rfl, -⟩ := List.cons.inj heq
    exact absurd hdigit (by decide)
  · rfl

theorem decimal_toDigits (n : ℕ) : decimal (Nat.toDigits 10 n) = n := by
  have hall : (Nat.toDigits 10 n).takeWhile Char.isDigit = Nat.toDigits 10 n :=
    List.takeWhile_eq_self_iff.mpr fun _ => isDigit_of_mem
  unfold decimal
  rw [hall, ← Nat.ofDigitChars_eq_foldl, Nat.ofDigitChars_ten_toDigits]

/-- A number below `2 ^ 32` is read as it is. -/
theorem toNat_radioNumber {n : ℕ} (h : n < 2 ^ 32) : (radioNumber n).toNat = n := by
  have hmin : min (n : ℤ) (2 ^ 63 - 1) = n := by omega
  unfold radioNumber strtol
  rw [signed_toDigits]
  simp only [decimal_toDigits, Bool.false_eq_true, if_false, hmin]
  rw [UInt64.toNat_toUInt32]
  show (BitVec.ofInt 64 n).toNat % 2 ^ 32 = n
  rw [BitVec.toNat_ofInt]
  omega

/-! ## The radio that is reached -/

/-- The entry that a reference finds in the map. -/
def reached (radios : List (Document F)) (n : ℕ) : Option (UInt32 × UInt32) :=
  (listed radios)[(radioNumber n).toNat]?.bind mapEntry

theorem getElem?_radioMap {state : Document F} {w w' : Work F} {radioMap : RadioMap}
    (h : parseRadios state w = (some radioMap, w')) (n : ℕ) :
    radioMap[(radioNumber n).toNat]? = reached (radiosOf state) n := by
  have hmap := congrArg (fun l => l[(radioNumber n).toNat]?) (parseRadios_eq_some h)
  simp only [List.getElem?_map] at hmap
  unfold reached
  cases hlisted : (listed (radiosOf state))[(radioNumber n).toNat]? with
  | none =>
      rw [hlisted, Option.map_none, Option.map_eq_none_iff] at hmap
      exact hmap
  | some radio =>
      rw [hlisted, Option.map_some, Option.map_eq_some_iff] at hmap
      obtain ⟨entry, hentry, hradio⟩ := hmap
      rw [hentry, hradio]
      rfl

/-- The channel, the band and the number for the count of an SSID with a reference. -/
theorem ssidHead_radioPath {env : Env F} {radioMap : RadioMap} {ssid radio : Document F} {n : ℕ}
    {head : SSIDTimePoint F} {location : UInt32} (hradio : ssid.find? "radio" = some radio)
    (href : radio.find? "$ref" = some (.str (radioPath n)))
    (h : ssidHead env radioMap ssid = some (head, location)) :
    location = radioNumber n ∧
      head.channel = ((radioMap[location.toNat]?.map Prod.snd).getD 0).toUInt64 ∧
      (ssid.contains "band" = false →
        head.band = ((radioMap[location.toNat]?.map Prod.fst).getD 2).toUInt64) := by
  cases hband : ssid.find? "band" with
  | some ownBand =>
      simp only [ssidHead, hband, hradio, Option.getD_some, radioRef_radioPath href,
        Option.bind_eq_bind, Option.bind_some, Option.bind_eq_some_iff, Option.pure_def,
        Option.some.injEq, Prod.mk.injEq] at h
      obtain ⟨text, -, bssid, -, mode, -, name, -, rfl, rfl⟩ := h
      -- An SSID with a band of its own takes only its channel from the map.
      refine ⟨rfl, rfl, fun hno => ?_⟩
      rw [contains, hband] at hno
      cases hno
  | none =>
      simp only [ssidHead, hband, hradio, radioRef_radioPath href, Option.bind_eq_bind,
        Option.bind_some, Option.pure_def] at h
      -- The entry of the map, or the defaults where the number is past its end.
      cases hfound : radioMap[(radioNumber n).toNat]? with
      | some entry =>
          obtain ⟨band, channel⟩ := entry
          simp only [hfound, Option.bind_eq_some_iff, Option.some.injEq, Prod.mk.injEq] at h
          obtain ⟨bssid, -, mode, -, name, -, rfl, rfl⟩ := h
          rw [Option.getD_some, hfound]
          exact ⟨rfl, rfl, fun _ => rfl⟩
      | none =>
          simp only [hfound, Option.bind_eq_some_iff, Option.some.injEq, Prod.mk.injEq] at h
          obtain ⟨bssid, -, mode, -, name, -, rfl, rfl⟩ := h
          rw [Option.getD_some, hfound]
          exact ⟨rfl, rfl, fun _ => rfl⟩

/-! ## The radio that is named -/

/-- What an SSID with the reference `#/radios/N` is made of, if `found` is the radio of the map
    that it uses: of element `N` where that has a channel, and of no other element where it has
    none. -/
structure Resolves (radios : List (Document F)) (n : ℕ) (ownBand : Bool)
    (found : Option (UInt32 × UInt32)) (head : SSIDTimePoint F) : Prop where
  named : ∀ radio rtp entry channel, radios[n]? = some radio →
    radioTimePoint radio = some (rtp, entry) → channel? radio = some channel →
      head.channel = channel ∧
        (ownBand = false →
          head.band = rtp.band ∧ found.map (fun e => e.1.toUInt64) = some rtp.band)
  absent : (∀ radio, radios[n]? = some radio → channel? radio = none) →
    ∀ entry, found = some entry →
      ∃ radio, radios[n]? = some radio ∧ radio.contains "channel" = true ∧
        mapEntry radio = some entry

/-- The reference reaches in the map what element `N` of the array has: its channel and, if the
    SSID has no band, its band; and nothing where there is no such radio. -/
structure ReachesSame (radios : List (Document F)) (n : ℕ) (ownBand : Bool) : Prop where
  named : ∀ radio rtp entry channel, radios[n]? = some radio →
    radioTimePoint radio = some (rtp, entry) → channel? radio = some channel →
      (((reached radios n).map Prod.snd).getD 0).toUInt64 = channel ∧
        (ownBand = false →
          (reached radios n).map (fun e => e.1.toUInt64) = some rtp.band)
  absent : (∀ radio, radios[n]? = some radio → channel? radio = none) →
    ∀ entry, reached radios n = some entry →
      ∃ radio, radios[n]? = some radio ∧ radio.contains "channel" = true ∧
        mapEntry radio = some entry

/-- A reference resolves to the radio it names iff it reaches the same in the map. -/
theorem resolves_iff {state : Document F} {w w' : Work F} {radioMap : RadioMap}
    (hmap : parseRadios state w = (some radioMap, w')) {env : Env F} {ssid radio : Document F}
    {n : ℕ} {head : SSIDTimePoint F} {location : UInt32}
    (hradio : ssid.find? "radio" = some radio)
    (href : radio.find? "$ref" = some (.str (radioPath n)))
    (hhead : ssidHead env radioMap ssid = some (head, location)) :
    Resolves (radiosOf state) n (ssid.contains "band") radioMap[location.toNat]? head ↔
      ReachesSame (radiosOf state) n (ssid.contains "band") := by
  obtain ⟨rfl, hchannel, hband⟩ := ssidHead_radioPath hradio href hhead
  rw [getElem?_radioMap hmap] at hchannel hband ⊢
  refine ⟨?_, ?_⟩
  · intro h
    refine ⟨?_, h.absent⟩
    intro radio rtp entry channel hn hpoint hhas
    obtain ⟨hsame, hsame'⟩ := h.named radio rtp entry channel hn hpoint hhas
    exact ⟨hchannel.symm.trans hsame, fun hno => (hsame' hno).2⟩
  · intro h
    refine ⟨?_, h.absent⟩
    intro radio rtp entry channel hn hpoint hhas
    obtain ⟨hsame, hsame'⟩ := h.named radio rtp entry channel hn hpoint hhas
    refine ⟨hchannel.trans hsame, fun hno => ⟨?_, hsame' hno⟩⟩
    -- the band is that of the radio that is counted
    obtain ⟨other, hother, hsame⟩ := Option.map_eq_some_iff.mp (hsame' hno)
    rw [hband hno, hother, ← hsame]
    rfl

/-! ## Radios with channels -/

theorem bandToInt_lt (band : Str) : (bandToInt band).toNat < 2 ^ 32 := by
  unfold bandToInt
  split_ifs <;> decide

/-- The channel that is read of a radio that has one. -/
theorem getJSON_channel {radio : Document F} {channel : UInt64}
    (h : channel? radio = some channel) (default : UInt64) :
    getJSON getUInt64 "channel" radio default = some channel := by
  cases hfind : radio.find? "channel" with
  | none =>
      rw [channel?, hfind] at h
      cases h
  | some d =>
      rw [channel?, hfind] at h
      rw [getJSON, hfind]
      cases d with
      | null => cases h
      | _ => exact h

theorem toUInt64_toUInt32 {n : UInt64} (h : n.toNat < 2 ^ 32) : n.toUInt32.toUInt64 = n := by
  apply UInt64.toNat_inj.mp
  rw [UInt32.toNat_toUInt64, UInt64.toNat_toUInt32]
  exact Nat.mod_eq_of_lt h

/-- The entry of a radio is its band and what is read of its channel, in 32 bits. -/
theorem entry_eq {radio : Document F} {rtp : RadioTimePoint F} {entry : UInt32 × UInt32}
    (h : radioTimePoint radio = some (rtp, entry)) :
    rtp.band.toNat < 2 ^ 32 ∧ ∃ channel,
      getJSON getUInt64 "channel" radio 2 = some channel ∧
        entry = (rtp.band.toUInt32, channel.toUInt32) := by
  unfold radioTimePoint at h
  obtain ⟨channel, hchannel, h⟩ := Option.bind_eq_some_iff.mp h
  -- Wherever the band is taken from, it has to fit 32 bits.
  have hrest : ∀ band : UInt64, band.toNat < 2 ^ 32 → rtp.band = band →
      entry = (band.toUInt32, channel.toUInt32) →
        rtp.band.toNat < 2 ^ 32 ∧ ∃ channel,
          getJSON getUInt64 "channel" radio 2 = some channel ∧
            entry = (rtp.band.toUInt32, channel.toUInt32) := by
    rintro band hlt rfl hentry
    exact ⟨hlt, channel, hchannel, hentry⟩
  cases hband : radio.array? "band" with
  | none =>
      simp only [hband, Option.bind_eq_bind, Option.bind_some, Option.bind_eq_some_iff,
        Option.some.injEq, Prod.mk.injEq] at h
      obtain ⟨_, -, _, -, _, -, _, -, _, -, _, -, _, -, rfl, rfl⟩ := h
      have hlt : (if channel ≤ 16 then 2 else 5 : UInt64).toNat < 2 ^ 32 := by
        split_ifs <;> decide
      exact hrest _ hlt rfl rfl
  | some bands =>
      cases bands with
      | nil =>
          simp only [hband] at h
          cases h
      | cons first rest =>
          simp only [hband, Option.bind_eq_bind, Option.bind_eq_some_iff, Option.map_eq_some_iff,
            Option.some.injEq, Prod.mk.injEq] at h
          obtain ⟨_, ⟨text, -, rfl⟩, _, -, _, -, _, -, _, -, _, -, _, -, _, -, rfl, rfl⟩ := h
          exact hrest _ (bandToInt_lt text) rfl rfl

/-- The entry of a radio has its band, and its channel if that fits 32 bits. -/
theorem entry_of_radioTimePoint {radio : Document F} {rtp : RadioTimePoint F}
    {entry : UInt32 × UInt32} (h : radioTimePoint radio = some (rtp, entry)) :
    entry.1.toUInt64 = rtp.band ∧
      ∀ channel, channel? radio = some channel → channel.toNat < 2 ^ 32 →
        entry.2.toUInt64 = channel := by
  obtain ⟨hband, read, hread, rfl⟩ := entry_eq h
  refine ⟨toUInt64_toUInt32 hband, fun channel hchannel hlt => ?_⟩
  rw [getJSON_channel hchannel, Option.some.injEq] at hread
  exact hread ▸ toUInt64_toUInt32 hlt

/-- Where every radio has a channel below `2 ^ 32`, all references resolve. -/
theorem reachesSame_of_channels {radios : List (Document F)} {n : ℕ} (hn : n < 2 ^ 32)
    (h : ∀ radio ∈ radios, ∃ channel, channel? radio = some channel ∧ channel.toNat < 2 ^ 32)
    (ownBand : Bool) : ReachesSame radios n ownBand := by
  -- Every radio has a channel, so none is missing from the map.
  have hlisted : listed radios = radios := by
    refine List.filter_eq_self.mpr fun radio hradio => ?_
    obtain ⟨channel, hchannel, -⟩ := h radio hradio
    unfold channel? at hchannel
    unfold contains
    cases hfind : radio.find? "channel" with
    | none => rw [hfind] at hchannel; cases hchannel
    | some d => rfl
  have hreached : reached radios n = radios[n]?.bind mapEntry := by
    rw [reached, hlisted, toNat_radioNumber hn]
  refine ⟨?_, ?_⟩
  · intro radio rtp entry channel hradio hpoint hchannel
    obtain ⟨channel', hchannel', hlt⟩ := h radio (List.mem_of_getElem? hradio)
    obtain ⟨hband, hentry⟩ := entry_of_radioTimePoint hpoint
    have hfound : reached radios n = some entry := by
      rw [hreached, hradio, Option.bind_some, mapEntry, hpoint]
      rfl
    rw [hchannel] at hchannel'
    obtain rfl := Option.some.inj hchannel'
    rw [hfound]
    exact ⟨hentry channel hchannel hlt, fun _ => congrArg some hband⟩
  · intro hnone entry hentry
    rw [hreached] at hentry
    obtain ⟨radio, hradio, hmapped⟩ := Option.bind_eq_some_iff.mp hentry
    obtain ⟨channel, hchannel, -⟩ := h radio (List.mem_of_getElem? hradio)
    rw [hnone radio hradio] at hchannel
    cases hchannel

/-! ## A radio without a channel -/

/-- A state message with two radios, of which the second has channel 36. -/
def twoRadios (first : Document ℚ) : Document ℚ :=
  .obj [("radios".toList, .arr [first, .obj [("channel".toList, .unsigned 36)]])]

/-- An SSID on the second of them. -/
def ssidOnSecond : Document ℚ :=
  .obj [("radio".toList, .obj [("$ref".toList, .str (radioPath 1))])]

/-- Nothing has been parsed yet. -/
def emptyWork : Work ℚ where
  info := {}
  cache := fun _ => none

/-- The first radio has no channel, and the SSID on the second gets none either. -/
theorem shifted_reference :
    ¬ ∀ (state : Document ℚ) (w w' : Work ℚ) (radioMap : RadioMap) (env : Env ℚ)
      (ssid radio : Document ℚ) (n : ℕ) (head : SSIDTimePoint ℚ) (location : UInt32),
      parseRadios state w = (some radioMap, w') → ssid.find? "radio" = some radio →
      radio.find? "$ref" = some (.str (radioPath n)) →
      ssidHead env radioMap ssid = some (head, location) →
        Resolves (radiosOf state) n (ssid.contains "band") radioMap[location.toNat]? head := by
  intro h
  have hresolves := h (twoRadios (.obj [])) emptyWork _ [(5, 36)] plainEnv ssidOnSecond _ 1
    { band := 2 } 1 rfl rfl rfl rfl
  have hsame := (hresolves.named (.obj [("channel".toList, .unsigned 36)]) _ _ 36 rfl rfl rfl).1
  exact absurd hsame (by decide)

/-- With a channel on both radios the reference resolves. -/
theorem resolves_iff_second :
    Resolves (radiosOf (twoRadios (.obj [("channel".toList, .unsigned 6)]))) 1
        (ssidOnSecond.contains "band") (some (5, 36)) { band := 5, channel := 36 } ↔
      ReachesSame (radiosOf (twoRadios (.obj [("channel".toList, .unsigned 6)]))) 1
        (ssidOnSecond.contains "band") := by
  have hmap : parseRadios (twoRadios (.obj [("channel".toList, .unsigned 6)])) emptyWork =
      (some [(2, 6), (5, 36)], _) := rfl
  have hhead : ssidHead plainEnv [(2, 6), (5, 36)] ssidOnSecond =
      some ({ band := 5, channel := 36 }, 1) := rfl
  exact resolves_iff hmap rfl rfl hhead

end OwAnalytics.Ap
