/-
  OwAnalytics.Mcp.TimestampCodec

  Writing a time stamp and reading it.  The seconds that are written with a year of
  four digits are those of the instants from 1970 on, `FormatTimestamp` writes the text
  of the instant and `ParseTimestampTill` reads these texts and no others.  The fields
  stand in a text in the order of their weight, so texts compare as the seconds do.
-/

import OwAnalytics.Lib.CalendarOrder
import OwAnalytics.Mcp.Calendar

namespace OwAnalytics

open Calendar

namespace Instant

/-- The seconds of the day before an instant. -/
def secondOfDay (i : Instant) : ℕ := 3600 * i.hour + (60 * i.minute + i.second)

/-- The seconds before an instant, from year 0 on. -/
def ordinal (i : Instant) : ℕ := 86400 * i.date.ordinal + i.secondOfDay

theorem seconds_eq (i : Instant) : i.seconds = (i.ordinal : ℤ) - 719528 * 86400 := by
  rw [seconds, ordinal, secondOfDay, i.date.dayNumber_eq]
  push_cast
  ring

theorem secondOfDay_lt (i : Instant) : i.secondOfDay < 86400 := by
  have hhour := i.hour_lt
  have hminute := i.minute_lt
  have hsecond := i.second_lt
  rw [secondOfDay]
  omega

/-- An instant that is not before the epoch is in 1970 or later. -/
theorem year_of_seconds_nonneg {i : Instant} (h : 0 ≤ i.seconds) : 1970 ≤ i.date.year := by
  by_contra hlt
  have hbefore : daysBeforeYear (i.date.year + 1) ≤ daysBeforeYear 1970 :=
    daysBeforeYear_mono (by omega)
  have hdate := i.date.ordinal_lt
  have hday := i.secondOfDay_lt
  rw [daysBeforeYear_1970] at hbefore
  rw [seconds_eq, ordinal] at h
  omega

/-- The last second of the year 9999 is the last that is one of an instant. -/
theorem exists_seconds_eq {n : ℕ} (h : n ≤ 253402300799) : ∃ i : Instant, i.seconds = n := by
  have hend := daysBeforeYear_eq 10000
  have hday : n / 86400 + 719528 < daysBeforeYear 10000 := by omega
  obtain ⟨date, hdate, hyear⟩ := exists_date hday
  let i : Instant :=
    { date := date
      hour := n % 86400 / 3600
      minute := n % 3600 / 60
      second := n % 60
      year_lt := hyear
      hour_lt := by omega
      minute_lt := by omega
      second_lt := by omega }
  -- 719528 days come before the epoch
  have hordinal : i.ordinal = n + 719528 * 86400 := by
    show 86400 * date.ordinal + (3600 * (n % 86400 / 3600) + (60 * (n % 3600 / 60) + n % 60)) = _
    omega
  refine ⟨i, ?_⟩
  rw [seconds_eq, hordinal]
  push_cast
  omega

/-! ## The order -/

theorem compare_secondOfDay (i j : Instant) :
    compare i.secondOfDay j.secondOfDay = (compare i.hour j.hour).then
      ((compare i.minute j.minute).then (compare i.second j.second)) := by
  have himinute := i.minute_lt
  have hisecond := i.second_lt
  have hjminute := j.minute_lt
  have hjsecond := j.second_lt
  rw [secondOfDay, secondOfDay, compare_weighted (by omega) (by omega),
    compare_weighted hisecond hjsecond]

theorem compare_ordinal (i j : Instant) :
    compare i.ordinal j.ordinal = (compare i.date.ordinal j.date.ordinal).then
      (compare i.secondOfDay j.secondOfDay) :=
  compare_weighted i.secondOfDay_lt j.secondOfDay_lt

/-- One field of a text, and the separator after it. -/
theorem compare_field {width n m : ℕ} (hn : n < 10 ^ width) (hm : m < 10 ^ width) (c : Char)
    (s t : Str) :
    compare (fixedDigits width n ++ c :: s) (fixedDigits width m ++ c :: t)
      = (compare n m).then (compare s t) := by
  have hself : compare c c = .eq := Std.ReflCmp.compare_self
  rw [compare_fixedDigits hn hm, List.compare_cons_cons, hself]
  rfl

/-- Texts compare as the seconds they name. -/
theorem compare_text (i j : Instant) : compare i.text j.text = compare i.ordinal j.ordinal := by
  have hbounds : ∀ k : Instant, k.date.month < 10 ^ 2 ∧ k.date.day < 10 ^ 2 ∧ k.hour < 10 ^ 2 ∧
      k.minute < 10 ^ 2 ∧ k.second < 10 ^ 2 := by
    intro k
    have hmonth := k.date.month_le
    have hday := Mcp.day_le_31 k.date
    have hhour := k.hour_lt
    have hminute := k.minute_lt
    have hsecond := k.second_lt
    omega
  obtain ⟨himonth, hiday, hihour, himinute, hisecond⟩ := hbounds i
  obtain ⟨hjmonth, hjday, hjhour, hjminute, hjsecond⟩ := hbounds j
  have hend : compare ([] : Str) [] = .eq := rfl
  -- fields of a fixed width compare as texts as they do as numbers
  rw [text, text]
  simp only [List.append_assoc, List.cons_append]
  rw [compare_field i.year_lt j.year_lt, compare_field himonth hjmonth,
    compare_field hiday hjday, compare_field hihour hjhour, compare_field himinute hjminute,
    compare_field hisecond hjsecond, hend, compare_ordinal, Date.compare_ordinal,
    compare_secondOfDay]
  simp only [Ordering.then_assoc, Ordering.then_eq]

end Instant

namespace Platform

/-- `strftime` prints the instants whose year has four digits. -/
structure Prints (P : Platform) : Prop where
  strftime : ∀ i : Instant, 1000 ≤ i.date.year → P.strftime i.tm = i.text

theorem twoDigits_eq (n : ℕ) : twoDigits (n : ℤ) = fixedDigits 2 n := rfl

theorem prints_posix : posix.Prints := by
  refine ⟨fun i hyear => ?_⟩
  have hdigits : Nat.toDigits 10 i.date.year = fixedDigits 4 i.date.year :=
    toDigits_eq_fixedDigits hyear i.year_lt
  have hyear' : ((i.date.year : ℤ) - 1900 + 1900).toNat = i.date.year := by omega
  have hmonth : ((i.date.month : ℤ) - 1 + 1) = i.date.month := by omega
  show Nat.toDigits 10 ((i.date.year : ℤ) - 1900 + 1900).toNat ++ ['-'] ++
    twoDigits ((i.date.month : ℤ) - 1 + 1) ++ ['-'] ++ twoDigits i.date.day ++ ['T'] ++
    twoDigits i.hour ++ [':'] ++ twoDigits i.minute ++ [':'] ++ twoDigits i.second ++ ['Z'] =
      i.text
  rw [hyear', hmonth, hdigits]
  simp only [twoDigits_eq, Instant.text, List.append_assoc, List.cons_append, List.nil_append]

end Platform

namespace Mcp

variable {P : Platform}

/-! ## Writing and reading -/

/-- The cast to `std::time_t` keeps the seconds. -/
theorem toInt64_toInt {n : UInt64} (h : n.toNat < 2 ^ 63) : n.toInt64.toInt = n.toNat := by
  have hbits : 2 * n.toBitVec.toNat < 2 ^ 64 := by
    show 2 * n.toNat < 2 ^ 64
    omega
  exact BitVec.toInt_eq_toNat_of_lt hbits

theorem formatTimestamp_eq (hP : P.Gregorian) (hprint : P.Prints) {n : UInt64} {i : Instant}
    (h : (n.toNat : ℤ) = i.seconds) : formatTimestamp P n = i.text := by
  have hlt := seconds_lt i
  have hpos : 0 ≤ i.seconds := by omega
  have hyear := Instant.year_of_seconds_nonneg hpos
  rw [formatTimestamp, toInt64_toInt (by omega), h, hP.gmtime i hpos, Option.getD_some,
    hprint.strftime i (by omega)]

theorem parseTimestampTill_formatTimestamp (hP : P.Gregorian) (hprint : P.Prints) {n : UInt64}
    (h : n.toNat ≤ 253402300799) : parseTimestampTill P (formatTimestamp P n) = some n := by
  obtain ⟨i, hi⟩ := Instant.exists_seconds_eq h
  exact (parseTimestampTill_eq_some_iff hP).mpr
    ⟨i, formatTimestamp_eq hP hprint hi.symm, hi.symm⟩

theorem parseTimestampTill_isSome_iff (hP : P.Gregorian) {value : Str} :
    (parseTimestampTill P value).isSome ↔ ∃ i : Instant, value = i.text ∧ 0 ≤ i.seconds := by
  rw [Option.isSome_iff_exists]
  refine ⟨?_, ?_⟩
  · rintro ⟨t, ht⟩
    obtain ⟨i, htext, hpos, -⟩ := parseTimestampTill_some hP ht
    exact ⟨i, htext, hpos⟩
  · rintro ⟨i, rfl, hpos⟩
    exact ⟨_, parseTimestampTill_text hP i hpos⟩

theorem formatTimestamp_of_parseTimestampTill (hP : P.Gregorian) (hprint : P.Prints) {value : Str}
    {t : UInt64} (h : parseTimestampTill P value = some t) : formatTimestamp P t = value := by
  obtain ⟨i, rfl, hi⟩ := (parseTimestampTill_eq_some_iff hP).mp h
  exact formatTimestamp_eq hP hprint hi

theorem compare_of_parseTimestampTill (hP : P.Gregorian) {value value' : Str} {t t' : UInt64}
    (h : parseTimestampTill P value = some t) (h' : parseTimestampTill P value' = some t') :
    compare value value' = compare t.toNat t'.toNat := by
  obtain ⟨i, rfl, hi⟩ := (parseTimestampTill_eq_some_iff hP).mp h
  obtain ⟨j, rfl, hj⟩ := (parseTimestampTill_eq_some_iff hP).mp h'
  rw [Instant.seconds_eq] at hi hj
  rw [Instant.compare_text]
  -- both count from year 0
  rcases lt_trichotomy t.toNat t'.toNat with hlt | heq | hgt
  · rw [Nat.compare_eq_lt.mpr hlt, Nat.compare_eq_lt.mpr (by omega)]
  · rw [Nat.compare_eq_eq.mpr heq, Nat.compare_eq_eq.mpr (by omega)]
  · rw [Nat.compare_eq_gt.mpr hgt, Nat.compare_eq_gt.mpr (by omega)]

/-- The codec of the time stamps. -/
theorem timestamp_codec (hP : P.Gregorian) (hprint : P.Prints) :
    (∀ n : UInt64, n.toNat ≤ 253402300799 →
      parseTimestampTill P (formatTimestamp P n) = some n) ∧
    (∀ value : Str, (parseTimestampTill P value).isSome ↔
      ∃ i : Instant, value = i.text ∧ 0 ≤ i.seconds) ∧
    (∀ (value : Str) (t : UInt64), parseTimestampTill P value = some t →
      formatTimestamp P t = value) ∧
    (∀ (value value' : Str) (t t' : UInt64), parseTimestampTill P value = some t →
      parseTimestampTill P value' = some t' →
        compare value value' = compare t.toNat t'.toNat) := by
  refine ⟨fun n h => ?_, fun value => ?_, fun value t h => ?_, fun value value' t t' h h' => ?_⟩
  · exact parseTimestampTill_formatTimestamp hP hprint h
  · exact parseTimestampTill_isSome_iff hP
  · exact formatTimestamp_of_parseTimestampTill hP hprint h
  · exact compare_of_parseTimestampTill hP h h'

/-- The leap day of 2000, a year that ends a century, and the day after it. -/
theorem timestamp_codec_posix :
    parseTimestampTill .posix (formatTimestamp .posix 951782400) = some 951782400 ∧
    ((parseTimestampTill .posix "2000-02-29T00:00:00Z".toList).isSome ↔
      ∃ i : Instant, "2000-02-29T00:00:00Z".toList = i.text ∧ 0 ≤ i.seconds) ∧
    formatTimestamp .posix 951782400 = "2000-02-29T00:00:00Z".toList ∧
    compare "2000-02-29T00:00:00Z".toList "2000-03-01T00:00:00Z".toList = .lt := by
  obtain ⟨hread, haccept, hwrite, horder⟩ :=
    timestamp_codec Platform.gregorian_posix Platform.prints_posix
  have hleap : parseTimestampTill .posix "2000-02-29T00:00:00Z".toList = some 951782400 := by
    decide +kernel
  have hmarch : parseTimestampTill .posix "2000-03-01T00:00:00Z".toList = some 951868800 := by
    decide +kernel
  refine ⟨hread _ (by decide), haccept _, hwrite _ _ hleap, ?_⟩
  rw [horder _ _ _ _ hleap hmarch]
  decide

end Mcp

end OwAnalytics
