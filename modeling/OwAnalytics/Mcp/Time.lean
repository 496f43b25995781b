/-
  OwAnalytics.Mcp.Time

  Time stamps and byte counts as text (`RESTAPI/RESTAPI_mcp_helpers.h`).  The C
  library calls and the floating-point formatting behind them are a `Platform`
  the rest of the model takes as a parameter; `Platform.posix` is one to run it
  with.
-/

import OwAnalytics.Objects

namespace OwAnalytics

/-- The members of `std::tm` that the time helpers set and compare. -/
structure Tm where
  sec : Int := 0
  min : Int := 0
  hour : Int := 0
  mday : Int := 0
  mon : Int := 0
  year : Int := 0
deriving DecidableEq

/-- What the helpers call outside the repository. -/
structure Platform where
  /-- `timegm`. -/
  timegm : Tm → Int
  /-- `gmtime_r`; `none` when it fails and leaves its output alone. -/
  gmtime : Int → Option Tm
  /-- What a zeroed 21-byte buffer reads as after `strftime` with the format
      `%Y-%m-%dT%H:%M:%SZ`. -/
  strftime : Tm → Str
  /-- `fmt::format("\x7b:.2f\x7d MB", static_cast<double>(Bytes) / 1000000.0)`. -/
  formatMB : UInt64 → Str

namespace Mcp

/-- `FormatTimestamp`: the cast to `std::time_t` reinterprets the 64 bits as signed. -/
def formatTimestamp (P : Platform) (epochSeconds : UInt64) : Str :=
  P.strftime ((P.gmtime epochSeconds.toInt64.toInt).getD {})

/-- `FormatDecimalMB`. -/
def formatDecimalMB (P : Platform) (bytes : UInt64) : Str := P.formatMB bytes

end Mcp

/-! ## A platform to run the model with -/

namespace Platform

/-- Days since 1970-01-01 of a civil date, months counted from 1. -/
def daysFromCivil (year month day : Int) : Int :=
  let y := if month ≤ 2 then year - 1 else year
  let era := y / 400
  let yoe := y - era * 400
  let doy := (153 * (if month > 2 then month - 3 else month + 9) + 2) / 5 + day - 1
  let doe := yoe * 365 + yoe / 4 - yoe / 100 + doy
  era * 146097 + doe - 719468

/-- The civil date of a day number, the inverse of `daysFromCivil`. -/
def civilFromDays (days : Int) : Int × Int × Int :=
  let z := days + 719468
  let era := z / 146097
  let doe := z - era * 146097
  let yoe := (doe - doe / 1460 + doe / 36524 - doe / 146096) / 365
  let doy := doe - (365 * yoe + yoe / 4 - yoe / 100)
  let mp := (5 * doy + 2) / 153
  let day := doy - (153 * mp + 2) / 5 + 1
  let month := if mp < 10 then mp + 3 else mp - 9
  let year := yoe + era * 400 + (if month ≤ 2 then 1 else 0)
  (year, month, day)

/-- Two decimal digits, with a leading zero where needed. -/
def twoDigits (n : Int) : Str :=
  [Nat.digitChar (n.toNat / 10 % 10), Nat.digitChar (n.toNat % 10)]

/-- The proleptic Gregorian UTC calendar, and decimal megabytes rounded to the nearest
    hundredth. -/
def posix : Platform where
  timegm tm :=
    daysFromCivil (tm.year + 1900) (tm.mon + 1) tm.mday * 86400
      + tm.hour * 3600 + tm.min * 60 + tm.sec
  gmtime t :=
    let (year, month, day) := civilFromDays (t / 86400)
    let s := t % 86400
    some { sec := s % 60, min := s / 60 % 60, hour := s / 3600, mday := day,
           mon := month - 1, year := year - 1900 }
  strftime tm :=
    Nat.toDigits 10 (tm.year + 1900).toNat ++ ['-'] ++ twoDigits (tm.mon + 1) ++ ['-']
      ++ twoDigits tm.mday ++ ['T'] ++ twoDigits tm.hour ++ [':'] ++ twoDigits tm.min
      ++ [':'] ++ twoDigits tm.sec ++ ['Z']
  formatMB bytes :=
    let hundredths := (bytes.toNat + 5000) / 10000
    Nat.toDigits 10 (hundredths / 100) ++ ['.'] ++ twoDigits (hundredths % 100)
      ++ [' ', 'M', 'B']

end Platform
end OwAnalytics
