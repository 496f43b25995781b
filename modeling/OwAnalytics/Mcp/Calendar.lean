/-
  OwAnalytics.Mcp.Calendar

  The instants the endpoints take, and the C library's calendar.  The formulas for the
  number of a day and back, which `timegm` and `gmtime_r` come to, count the days of
  the Gregorian calendar.
-/

import OwAnalytics.Lib.Calendar
import OwAnalytics.Mcp.Request

namespace OwAnalytics

open Calendar

/-- A second of a day of the years that are written with four digits. -/
structure Instant where
  date : Date
  hour : ℕ
  minute : ℕ
  second : ℕ
  year_lt : date.year < 10000
  hour_lt : hour < 24
  minute_lt : minute < 60
  second_lt : second < 60

namespace Instant

/-- The seconds since the epoch. -/
def seconds (i : Instant) : ℤ :=
  i.date.dayNumber * 86400 + i.hour * 3600 + i.minute * 60 + i.second

/-- `YYYY-MM-DDTHH:mm:ssZ`. -/
def text (i : Instant) : Str :=
  fixedDigits 4 i.date.year ++ '-' :: fixedDigits 2 i.date.month ++ '-' ::
    fixedDigits 2 i.date.day ++ 'T' :: fixedDigits 2 i.hour ++ ':' :: fixedDigits 2 i.minute ++
    ':' :: fixedDigits 2 i.second ++ ['Z']

/-- The members of the `std::tm` of an instant. -/
def tm (i : Instant) : Tm where
  sec := i.second
  min := i.minute
  hour := i.hour
  mday := i.date.day
  mon := i.date.month - 1
  year := i.date.year - 1900

end Instant

namespace Platform

/-- `timegm` and `gmtime_r` go between the instants and the seconds since the epoch. -/
structure Gregorian (P : Platform) : Prop where
  timegm : ∀ i : Instant, P.timegm i.tm = i.seconds
  gmtime : ∀ i : Instant, 0 ≤ i.seconds → P.gmtime i.seconds = some i.tm

/-! ## The number of a day -/

/-- The days of whole years, in eras of 400 years. -/
theorem era_eq (y : ℤ) :
    y / 400 * 146097 + ((y - y / 400 * 400) * 365 + (y - y / 400 * 400) / 4 -
        (y - y / 400 * 400) / 100) = 365 * y + y / 4 - y / 100 + y / 400 := by
  have hfour : y / 4 = 100 * (y / 400) + (y - y / 400 * 400) / 4 := by omega
  have hcentury : y / 100 = 4 * (y / 400) + (y - y / 400 * 400) / 100 := by omega
  omega

theorem daysFromCivil_eq (d : Date) :
    daysFromCivil d.year d.month d.day = d.dayNumber := by
  have hyears := daysBeforeYear_eq d.year
  have hmonths := daysBeforeMonth_eq d.year d.month_pos d.month_le
  have hpos := d.month_pos
  unfold daysFromCivil Date.dayNumber
  dsimp only
  rw [daysBeforeYear_1970]
  -- January and February belong to the year that began in the March before
  by_cases hearly : d.month ≤ 2
  · rw [if_pos hearly] at hmonths
    rw [if_pos (by omega), if_neg (by omega)]
    have hera := era_eq ((d.year : ℤ) - 1)
    omega
  · rw [if_neg hearly] at hmonths
    rw [if_neg (by omega), if_pos (by omega)]
    have hera := era_eq (d.year : ℤ)
    by_cases hleap : IsLeap d.year
    · rw [if_pos hleap] at hmonths
      unfold IsLeap at hleap
      omega
    · rw [if_neg hleap] at hmonths
      unfold IsLeap at hleap
      omega

/-! ## And back -/

/-- The year of an era from the day of the era; the last day of a fourth year is its 365th, and
    the last year of a century has none but in the last century. -/
theorem yearOfEra_eq {c q r doy doe : ℤ} (hc0 : 0 ≤ c) (hc : c ≤ 3) (hq0 : 0 ≤ q) (hq : q ≤ 24)
    (hr0 : 0 ≤ r) (hr : r ≤ 3) (hd0 : 0 ≤ doy)
    (hd : doy ≤ 364 ∨ (doy = 365 ∧ r = 3 ∧ (q < 24 ∨ c = 3)))
    (hdoe : doe = 36524 * c + 1461 * q + 365 * r + doy) :
    (doe - doe / 1460 + doe / 36524 - doe / 146096) / 365 = 100 * c + 4 * q + r := by
  have hcenturies : doe / 36524 - doe / 146096 = c := by
    have hera : doe / 146096 = if doe = 146096 then 1 else 0 := by split <;> omega
    have hcentury : doe / 36524 = if doe = 146096 then 4 else c := by split <;> omega
    rw [hera, hcentury]
    split <;> omega
  have hupper : 24 * c + q + doy + c - doe / 1460 ≤ 364 := by omega
  have hlower : 0 ≤ 24 * c + q + doy + c - doe / 1460 := by omega
  omega

/-- A day of the year that begins in March. -/
theorem dayOfYear_cases (d : Date) {y doy : ℤ}
    (hy : y = if (d.month : ℤ) ≤ 2 then (d.year : ℤ) - 1 else d.year)
    (hdoy : doy = (153 * (if (d.month : ℤ) > 2 then (d.month : ℤ) - 3 else d.month + 9) + 2) / 5 +
      d.day - 1) :
    0 ≤ doy ∧ (doy ≤ 364 ∨ (doy = 365 ∧ y % 4 = 3 ∧ (y % 100 ≠ 99 ∨ y % 400 = 399))) := by
  obtain ⟨year, month, day, hmonth, hmonth', hday, hday'⟩ := d
  dsimp only at *
  by_cases hleap : IsLeap year <;> unfold IsLeap at hleap <;> interval_cases month <;>
    simp [monthLength, IsLeap, hleap] at hday' hy hdoy <;> omega

/-- The month of such a year, counted from March, from the day of the year. -/
theorem monthOfYear_eq (d : Date) {mp doy : ℤ}
    (hmp : mp = if (d.month : ℤ) > 2 then (d.month : ℤ) - 3 else d.month + 9)
    (hdoy : doy = (153 * mp + 2) / 5 + d.day - 1) : (5 * doy + 2) / 153 = mp := by
  obtain ⟨year, month, day, hmonth, hmonth', hday, hday'⟩ := d
  dsimp only at *
  by_cases hleap : IsLeap year <;> interval_cases month <;>
    simp [monthLength, hleap] at hday' hmp <;> omega

theorem civilFromDays_daysFromCivil (d : Date) :
    civilFromDays (daysFromCivil d.year d.month d.day) = (↑d.year, ↑d.month, ↑d.day) := by
  obtain ⟨y, hy⟩ : ∃ y : ℤ, y = if (d.month : ℤ) ≤ 2 then (d.year : ℤ) - 1 else d.year := ⟨_, rfl⟩
  obtain ⟨mp, hmp⟩ : ∃ mp : ℤ, mp = if (d.month : ℤ) > 2 then (d.month : ℤ) - 3 else d.month + 9 :=
    ⟨_, rfl⟩
  obtain ⟨doy, hdoy⟩ : ∃ doy : ℤ, doy = (153 * mp + 2) / 5 + d.day - 1 := ⟨_, rfl⟩
  obtain ⟨yoe, hyoe⟩ : ∃ yoe : ℤ, yoe = y - y / 400 * 400 := ⟨_, rfl⟩
  obtain ⟨doe, hdoe⟩ : ∃ doe : ℤ, doe = yoe * 365 + yoe / 4 - yoe / 100 + doy := ⟨_, rfl⟩
  obtain ⟨hdoy0, hdoyle⟩ := dayOfYear_cases d hy (hmp ▸ hdoy)
  have hmonth := monthOfYear_eq d hmp hdoy
  -- the year of the era by its century, its fourth year and the year after that
  have hyear : (doe - doe / 1460 + doe / 36524 - doe / 146096) / 365 = yoe := by
    have hsplit : (doe - doe / 1460 + doe / 36524 - doe / 146096) / 365 =
        100 * (yoe / 100) + 4 * (yoe % 100 / 4) + yoe % 4 :=
      yearOfEra_eq (by omega) (by omega) (by omega) (by omega) (by omega) (by omega) hdoy0
        (by omega) (by omega)
    omega
  have hdoe0 : 0 ≤ doe ∧ doe ≤ 146096 := by omega
  unfold daysFromCivil
  dsimp only
  rw [← hy, ← hmp, ← hdoy, ← hyoe, ← hdoe]
  unfold civilFromDays
  dsimp only
  have hera : (y / 400 * 146097 + doe - 719468 + 719468) / 146097 = y / 400 := by omega
  have hrest : y / 400 * 146097 + doe - 719468 + 719468 - y / 400 * 146097 = doe := by omega
  have hday : doe - (365 * yoe + yoe / 4 - yoe / 100) = doy := by omega
  rw [hera, hrest, hyear, hday, hmonth]
  have hpos := d.month_pos
  have hle := d.month_le
  have hback : (if mp < 10 then mp + 3 else mp - 9) = d.month := by
    rw [hmp]
    split <;> split <;> omega
  rw [hback]
  refine Prod.ext ?_ (Prod.ext rfl ?_)
  · dsimp only
    split at hy <;> omega
  · dsimp only
    omega

/-! ## The C library -/

theorem gregorian_posix : posix.Gregorian := by
  have htimegm : ∀ i : Instant, posix.timegm i.tm = i.seconds := by
    intro i
    show daysFromCivil ((i.date.year : ℤ) - 1900 + 1900) ((i.date.month : ℤ) - 1 + 1) i.date.day *
      86400 + i.hour * 3600 + i.minute * 60 + i.second = i.seconds
    rw [Int.sub_add_cancel, Int.sub_add_cancel, daysFromCivil_eq]
    rfl
  refine ⟨htimegm, fun i _ => ?_⟩
  have hhour := i.hour_lt
  have hminute := i.minute_lt
  have hsecond := i.second_lt
  -- the time of the day is less than a day, and the division takes it off
  have hday : i.seconds / 86400 = i.date.dayNumber := by
    unfold Instant.seconds
    omega
  have htime : i.seconds % 86400 = i.hour * 3600 + i.minute * 60 + i.second := by
    unfold Instant.seconds
    omega
  unfold posix
  dsimp only
  rw [hday, htime, ← daysFromCivil_eq, civilFromDays_daysFromCivil, Option.some.injEq]
  unfold Instant.tm
  simp only [Tm.mk.injEq, and_true]
  omega

end Platform

namespace Mcp

/-! ## Time stamps -/

theorem isDigit_eq (c : Char) : isDigit c = c.isDigit := rfl

theorem toInt_eq (value : Str) (offset count : Nat) :
    toInt value offset count =
      (Nat.ofDigitChars 10 ((value.drop offset).take count) 0 : ℕ) := by
  have hfold : ∀ (l : Str) (n : ℕ),
      l.foldl (fun parsed c => parsed * 10 + (digitValue c : ℤ)) (n : ℤ) =
        (Nat.ofDigitChars 10 l n : ℕ) := by
    intro l
    induction l with
    | nil =>
        intro n
        simp
    | cons c l ih =>
        intro n
        rw [List.foldl_cons, Nat.ofDigitChars_cons, ← ih]
        congr 1
        unfold digitValue
        push_cast
        ring
  exact hfold _ 0

theorem daysInMonth_eq (year : ℕ) {month : ℕ} (hpos : 1 ≤ month) (hle : month ≤ 12) :
    daysInMonth year month = monthLength year month := by
  have hleap : isLeapYear year = decide (IsLeap year) := by
    unfold isLeapYear IsLeap
    by_cases h : (year % 4 = 0 ∧ year % 100 ≠ 0) ∨ year % 400 = 0
    · simp [h]; omega
    · simp [h]; omega
  unfold daysInMonth
  rw [hleap]
  by_cases h : IsLeap year <;> interval_cases month <;> simp [monthLength, h]

theorem digitsAt_iff {value : Str} {offset count : Nat} :
    digitsAt value offset count = true ↔ offset + count ≤ value.length ∧
      ∀ c ∈ (value.drop offset).take count, c.isDigit = true := by
  unfold digitsAt
  rw [Bool.and_eq_true, decide_eq_true_eq, List.all_eq_true]
  rfl

/-- A field of digits is the text of its number. -/
theorem fixedDigits_field {value : Str} {offset count : Nat}
    (h : digitsAt value offset count = true) :
    fixedDigits count (Nat.ofDigitChars 10 ((value.drop offset).take count) 0) =
      (value.drop offset).take count := by
  obtain ⟨hlength, hdigits⟩ := digitsAt_iff.mp h
  have hcount : ((value.drop offset).take count).length = count := by
    rw [List.length_take, List.length_drop]
    omega
  have htext := fixedDigits_ofDigitChars hdigits
  rwa [hcount] at htext

theorem field_lt {value : Str} {offset count : Nat} (h : digitsAt value offset count = true) :
    Nat.ofDigitChars 10 ((value.drop offset).take count) 0 < 10 ^ count := by
  have hlt := ofDigitChars_lt (digitsAt_iff.mp h).2
  refine hlt.trans_le (Nat.pow_le_pow_right (by decide) ?_)
  exact List.length_take_le _ _

theorem drop_of_getElem? {value : Str} {offset : Nat} {c : Char}
    (h : value[offset]? = some c) : value.drop offset = c :: value.drop (offset + 1) := by
  obtain ⟨hlt, rfl⟩ := List.getElem?_eq_some_iff.mp h
  exact List.drop_eq_getElem_cons hlt

theorem drop_eq_field (value : Str) (offset count : Nat) :
    value.drop offset = (value.drop offset).take count ++ value.drop (offset + count) := by
  rw [← List.drop_drop, List.take_append_drop]

/-- A text of twenty characters with the separators in their places is made of its fields. -/
theorem eq_fields {value : Str} (hlength : value.length = 20) (h4 : value[4]? = some '-')
    (h7 : value[7]? = some '-') (h10 : value[10]? = some 'T') (h13 : value[13]? = some ':')
    (h16 : value[16]? = some ':') (h19 : value[19]? = some 'Z') :
    value = (value.drop 0).take 4 ++ '-' :: (value.drop 5).take 2 ++ '-' ::
      (value.drop 8).take 2 ++ 'T' :: (value.drop 11).take 2 ++ ':' :: (value.drop 14).take 2 ++
        ':' :: (value.drop 17).take 2 ++ ['Z'] := by
  have hend : value.drop 20 = [] := List.drop_eq_nil_of_le (by omega)
  calc value
      = value.drop 0 := rfl
    _ = (value.drop 0).take 4 ++ value.drop 4 := drop_eq_field value 0 4
    _ = _ := by
      conv_lhs =>
        rw [drop_of_getElem? h4, drop_eq_field value 5 2, drop_of_getElem? h7,
          drop_eq_field value 8 2, drop_of_getElem? h10, drop_eq_field value 11 2,
          drop_of_getElem? h13, drop_eq_field value 14 2, drop_of_getElem? h16,
          drop_eq_field value 17 2, drop_of_getElem? h19, hend]
      simp only [List.append_assoc, List.cons_append]

theorem day_le_31 (d : Date) : d.day ≤ 31 := by
  have hle := d.day_le
  unfold monthLength at hle
  split at hle
  · split at hle <;> omega
  all_goals omega

/-- The instants end long before the seconds overflow. -/
theorem seconds_lt (i : Instant) : i.seconds < 2 ^ 63 := by
  have hyears := daysBeforeYear_eq i.date.year
  have hmonths := daysBeforeMonth_eq i.date.year i.date.month_pos i.date.month_le
  have hyear := i.year_lt
  have hmonth := i.date.month_le
  have hday := day_le_31 i.date
  have hhour := i.hour_lt
  have hminute := i.minute_lt
  have hsecond := i.second_lt
  have hbefore : daysBeforeMonth i.date.year i.date.month ≤ 366 := by
    rw [hmonths]
    split
    · omega
    · split <;> omega
  unfold Instant.seconds Date.dayNumber
  omega

theorem toNat_ofInt {n : ℤ} (hpos : 0 ≤ n) (hlt : n < 2 ^ 63) :
    ((UInt64.ofInt n).toNat : ℤ) = n := by
  unfold UInt64.ofInt
  rw [UInt64.toNat_ofNat']
  omega

variable {P : Platform}

/-- What is made of the fields once they are those of an instant. -/
def epochOf (P : Platform) (tm : Tm) : Option UInt64 :=
  let epoch := P.timegm tm
  if epoch < 0 then none
  else if (P.gmtime epoch).getD {} ≠ tm then none
  else some (UInt64.ofInt epoch)

theorem epochOf_instant (hP : P.Gregorian) (i : Instant) :
    epochOf P i.tm = if 0 ≤ i.seconds then some (UInt64.ofInt i.seconds) else none := by
  unfold epochOf
  rw [hP.timegm]
  by_cases hpos : 0 ≤ i.seconds
  · simp [hP.gmtime i hpos, hpos]
  · simp [hpos, not_le.mp hpos]

/-- An accepted time stamp is the text of an instant that is not before the epoch. -/
theorem parseTimestampTill_some (hP : P.Gregorian) {value : Str} {t : UInt64}
    (h : parseTimestampTill P value = some t) :
    ∃ i : Instant, value = i.text ∧ 0 ≤ i.seconds ∧ t = UInt64.ofInt i.seconds := by
  unfold parseTimestampTill at h
  -- The shape: twenty characters, the six separators, and digits in between.
  split at h
  · cases h
  rename_i hshape
  simp only [not_or, not_not, Bool.not_eq_true, Bool.not_eq_false'] at hshape
  obtain ⟨hlength, h4, h7, h10, h13, h16, h19, hyear, hmonth, hday, hhour, hminute, hsecond⟩ :=
    hshape
  rw [toInt_eq, toInt_eq, toInt_eq, toInt_eq, toInt_eq, toInt_eq] at h
  dsimp only at h
  -- The ranges: they make the fields a date of the calendar and a time of the day.
  split at h
  · cases h
  rename_i hrange
  simp only [not_or, gt_iff_lt, not_lt] at hrange
  obtain ⟨hmonth1, hmonth12, hday1, hdayle, hhourle, hminutele, hsecondle⟩ := hrange
  rw [daysInMonth_eq _ (by exact_mod_cast hmonth1) (by exact_mod_cast hmonth12)] at hdayle
  let i : Instant :=
    { date :=
        { year := Nat.ofDigitChars 10 ((value.drop 0).take 4) 0
          month := Nat.ofDigitChars 10 ((value.drop 5).take 2) 0
          day := Nat.ofDigitChars 10 ((value.drop 8).take 2) 0
          month_pos := by exact_mod_cast hmonth1
          month_le := by exact_mod_cast hmonth12
          day_pos := by exact_mod_cast hday1
          day_le := by exact_mod_cast hdayle }
      hour := Nat.ofDigitChars 10 ((value.drop 11).take 2) 0
      minute := Nat.ofDigitChars 10 ((value.drop 14).take 2) 0
      second := Nat.ofDigitChars 10 ((value.drop 17).take 2) 0
      year_lt := field_lt hyear
      hour_lt := by omega
      minute_lt := by omega
      second_lt := by omega }
  -- Each field has the digits of its value, leading zeros included, so the text is recovered.
  have htext : value = i.text := by
    rw [Instant.text, fixedDigits_field hyear, fixedDigits_field hmonth, fixedDigits_field hday,
      fixedDigits_field hhour, fixedDigits_field hminute, fixedDigits_field hsecond]
    exact eq_fields hlength h4 h7 h10 h13 h16 h19
  have hepoch : epochOf P i.tm = some t := h
  rw [epochOf_instant hP] at hepoch
  split at hepoch
  · rename_i hpos
    exact ⟨i, htext, hpos, (Option.some.inj hepoch).symm⟩
  · cases hepoch

theorem digitsAt_text {i : Instant} {offset count n : ℕ}
    (hfield : (i.text.drop offset).take count = fixedDigits count n)
    (hlength : offset + count ≤ i.text.length) : digitsAt i.text offset count = true := by
  refine digitsAt_iff.mpr ⟨hlength, fun c hc => ?_⟩
  rw [hfield] at hc
  exact isDigit_of_mem_fixedDigits hc

theorem toInt_text {i : Instant} {offset count n : ℕ}
    (hfield : (i.text.drop offset).take count = fixedDigits count n) (hn : n < 10 ^ count) :
    toInt i.text offset count = n := by
  rw [toInt_eq, hfield, ofDigitChars_fixedDigits, Nat.mod_eq_of_lt hn]

theorem parseTimestampTill_text (hP : P.Gregorian) (i : Instant) (hpos : 0 ≤ i.seconds) :
    parseTimestampTill P i.text = some (UInt64.ofInt i.seconds) := by
  have hmonth1 := i.date.month_pos
  have hmonth12 := i.date.month_le
  have hday1 := i.date.day_pos
  have hdayle := i.date.day_le
  have hday31 := day_le_31 i.date
  have hhour := i.hour_lt
  have hminute := i.minute_lt
  have hsecond := i.second_lt
  have hlength : i.text.length = 20 := rfl
  unfold parseTimestampTill
  rw [if_neg]
  -- Past the shape: each field is read as the value it was printed from.
  · rw [toInt_text (n := i.date.year) rfl i.year_lt, toInt_text (n := i.date.month) rfl (by omega),
      toInt_text (n := i.date.day) rfl (by omega), toInt_text (n := i.hour) rfl (by omega),
      toInt_text (n := i.minute) rfl (by omega), toInt_text (n := i.second) rfl (by omega)]
    dsimp only
    rw [if_neg]
    · show epochOf P i.tm = _
      rw [epochOf_instant hP, if_pos hpos]
    · rw [daysInMonth_eq _ hmonth1 hmonth12]
      omega
  -- The text has the shape asked for.
  · rw [digitsAt_text (n := i.date.year) rfl (by omega),
      digitsAt_text (n := i.date.month) rfl (by omega),
      digitsAt_text (n := i.date.day) rfl (by omega), digitsAt_text (n := i.hour) rfl (by omega),
      digitsAt_text (n := i.minute) rfl (by omega), digitsAt_text (n := i.second) rfl (by omega)]
    simp [hlength]
    exact ⟨rfl, rfl, rfl, rfl, rfl, rfl⟩

/-- `ParseTimestampTill` reads the text of an instant, and nothing else. -/
theorem parseTimestampTill_eq_some_iff (hP : P.Gregorian) {value : Str} {t : UInt64} :
    parseTimestampTill P value = some t ↔
      ∃ i : Instant, value = i.text ∧ (t.toNat : ℤ) = i.seconds := by
  refine ⟨?_, ?_⟩
  · intro h
    obtain ⟨i, htext, hpos, rfl⟩ := parseTimestampTill_some hP h
    exact ⟨i, htext, toNat_ofInt hpos (seconds_lt i)⟩
  · rintro ⟨i, rfl, hseconds⟩
    have hpos : 0 ≤ i.seconds := by omega
    rw [parseTimestampTill_text hP i hpos, Option.some.injEq]
    have hnat := toNat_ofInt hpos (seconds_lt i)
    exact UInt64.toNat.inj (by omega)

end Mcp

end OwAnalytics
