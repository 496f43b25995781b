/-
  OwAnalytics.Mcp.Request

  The checks the windowed endpoints make before they read any telemetry
  (`RESTAPI/RESTAPI_mcp_helpers.h` and `.cpp`): the bearer token, the router id,
  the requested window, the retention and the expected number of samples.  Each
  check either passes or answers with the error of the source.
-/

import OwAnalytics.Mcp.Time
import OwAnalytics.Mcp.Bandwidth.Summary

namespace OwAnalytics.Mcp

/-- The statuses of `Poco::Net::HTTPResponse::HTTPStatus` the endpoints answer with. -/
inductive HttpStatus where
  | badRequest
  | unauthorized
  | notFound
  | conflict
  | internalServerError
  | badGateway
deriving DecidableEq

/-- `MCP::Error`. -/
structure Error where
  status : HttpStatus := .badRequest
  error : Str := []
  message : Str := []
deriving DecidableEq

/-- `SetError`. -/
def setError (status : HttpStatus) (error message : String) : Error :=
  { status, error := error.toList, message := message.toList }

/-- A check that passes, or computes a value, or answers with an error. -/
abbrev Answer (α : Type) := Except Error α

/-- An answer that goes on after a step has both steps answer. -/
theorem Answer.bind_ok {α β : Type} {x : Answer α} {f : α → Answer β} {b : β}
    (h : (x >>= f) = .ok b) : ∃ a, x = .ok a ∧ f a = .ok b := by
  cases x with
  | error e => cases h
  | ok a => exact ⟨a, rfl, h⟩

/-- The check passes when the condition does not hold. -/
def refuseIf (condition : Prop) [Decidable condition] (e : Error) : Answer Unit :=
  if condition then .error e else .ok ()

/-- A check that was passed says that its condition does not hold. -/
theorem refuseIf_ok {condition : Prop} [Decidable condition] {e : Error} {u : Unit}
    (h : refuseIf condition e = .ok u) : ¬ condition := by
  intro hcondition
  rw [refuseIf, if_pos hcondition] at h
  cases h

theorem refuseIf_ok_iff {condition : Prop} [Decidable condition] {e : Error} {u : Unit} :
    refuseIf condition e = .ok u ↔ ¬ condition :=
  ⟨refuseIf_ok, fun h => if_neg h⟩

/-- The value that was found, or the error for a missing one. -/
def orError {α : Type} (e : Error) : Option α → Answer α
  | some a => .ok a
  | none => .error e

theorem orError_ok {α : Type} {e : Error} {o : Option α} {a : α} (h : orError e o = .ok a) :
    o = some a := by
  cases o with
  | none => cases h
  | some b => rw [Except.ok.inj h]

theorem orError_ok_iff {α : Type} {e : Error} {o : Option α} {a : α} :
    orError e o = .ok a ↔ o = some a :=
  ⟨orError_ok, fun h => by rw [h, orError]⟩

theorem Answer.bind_ok_iff {α β : Type} {x : Answer α} {f : α → Answer β} {b : β} :
    (x >>= f) = .ok b ↔ ∃ a, x = .ok a ∧ f a = .ok b := by
  refine ⟨?_, ?_⟩
  · exact Answer.bind_ok
  · rintro ⟨a, rfl, hf⟩
    exact hf

/-- An answer of which some value is known is the answer of a passed request. -/
theorem Answer.exists_ok {α β : Type} {x : Answer α} {f : α → β} {v : β}
    (h : x.toOption.map f = some v) : ∃ a, x = .ok a ∧ f a = v := by
  cases x with
  | error e => cases h
  | ok a => exact ⟨a, rfl, Option.some.inj h⟩

/-! ## Router id and bearer token -/

/-- The message for a router id that is refused. -/
def invalidRouterIdMessage : String :=
  "routerId must be a valid path-safe OWPROV gateway serial number (1 to 64 " ++
  "alphanumeric characters, hyphens, or underscores)"

/-- The message for a token that is refused. -/
def unauthorizedMessage : String := "Missing, invalid, or expired bearer token"

/-- `std::isdigit` in the C locale. -/
def isDigit (c : Char) : Bool := '0' ≤ c && c ≤ '9'

/-- `std::isalnum` in the C locale. -/
def isAlnum (c : Char) : Bool :=
  isDigit c || ('a' ≤ c && c ≤ 'z') || ('A' ≤ c && c ≤ 'Z')

/-- `ValidateRouterId`. -/
def validateRouterId (routerId : Str) : Answer Unit := do
  let e := setError .badRequest "invalid_router_id" invalidRouterIdMessage
  refuseIf (routerId.isEmpty ∨ routerId.length > 64) e
  refuseIf (routerId.any fun c => !isAlnum c && c ≠ '-' && c ≠ '_') e

/-- What stands before the token. -/
def bearerPrefix : Str := "Bearer ".toList

/-- `ExtractBearerToken`. -/
def extractBearerToken (authorization : Option Str) : Answer Str :=
  let e := setError .unauthorized "unauthorized" unauthorizedMessage
  match authorization with
  | none => .error e
  | some value =>
    if ¬ bearerPrefix.isPrefixOf value ∨ value.length = bearerPrefix.length then .error e
    else .ok (value.drop bearerPrefix.length)

/-- `AuthenticateBearerToken`; `isAuthorized` is the answer of the security service. -/
def authenticateBearerToken (isAuthorized : Str → Bool) (authorization : Option Str) :
    Answer Unit := do
  let token ← extractBearerToken authorization
  refuseIf (isAuthorized token = false)
    (setError .unauthorized "unauthorized" unauthorizedMessage)

/-! ## Numbers and timestamps -/

/-- The value of a decimal digit. -/
def digitValue (c : Char) : Nat := c.toNat - '0'.toNat

/-- The loop of `ParseDecimalUint64`, with the value parsed so far. -/
def parseDigits (parsed : UInt64) : Str → Option UInt64
  | [] => some parsed
  | c :: rest =>
    if !isDigit c then none
    else
      let digit := UInt64.ofNat (digitValue c)
      if parsed > (UInt64.ofNat (2 ^ 64 - 1) - digit) / 10 then none
      else parseDigits (parsed * 10 + digit) rest

/-- `ParseDecimalUint64`. -/
def parseDecimalUint64 (value : Str) : Option UInt64 :=
  if value.isEmpty then none else parseDigits 0 value

/-- `IsLeapYear`. -/
def isLeapYear (year : Int) : Bool :=
  (year % 4 = 0 && year % 100 ≠ 0) || year % 400 = 0

/-- `DaysInMonth`, 0 for a month there is not. -/
def daysInMonth (year month : Int) : Int :=
  if month = 2 ∧ isLeapYear year then 29
  else if month < 1 ∨ month > 12 then 0
  else [31, 28, 31, 30, 31, 30, 31, 31, 30, 31, 30, 31].getD (month - 1).toNat 0

/-- `DigitsAt`. -/
def digitsAt (value : Str) (offset count : Nat) : Bool :=
  value.length ≥ offset + count && ((value.drop offset).take count).all isDigit

/-- `ToInt` of the digits at an offset. -/
def toInt (value : Str) (offset count : Nat) : Int :=
  ((value.drop offset).take count).foldl (fun parsed c => parsed * 10 + digitValue c) 0

/-- `ParseTimestampTill`: `YYYY-MM-DDTHH:mm:ssZ`, a real date, not before the epoch. -/
def parseTimestampTill (P : Platform) (value : Str) : Option UInt64 :=
  if value.length ≠ 20 ∨ value[4]? ≠ some '-' ∨ value[7]? ≠ some '-' ∨ value[10]? ≠ some 'T' ∨
      value[13]? ≠ some ':' ∨ value[16]? ≠ some ':' ∨ value[19]? ≠ some 'Z' ∨
      !digitsAt value 0 4 ∨ !digitsAt value 5 2 ∨ !digitsAt value 8 2 ∨
      !digitsAt value 11 2 ∨ !digitsAt value 14 2 ∨ !digitsAt value 17 2 then none
  else
    let year := toInt value 0 4
    let month := toInt value 5 2
    let day := toInt value 8 2
    let hour := toInt value 11 2
    let minute := toInt value 14 2
    let second := toInt value 17 2
    if month < 1 ∨ month > 12 ∨ day < 1 ∨ day > daysInMonth year month ∨
        hour > 23 ∨ minute > 59 ∨ second > 59 then none
    else
      let tm : Tm :=
        { year := year - 1900, mon := month - 1, mday := day, hour, min := minute, sec := second }
      let epoch := P.timegm tm
      if epoch < 0 then none
      else if (P.gmtime epoch).getD {} ≠ tm then none
      else some (UInt64.ofInt epoch)

/-! ## The requested window -/

/-- The longest lookback the endpoints accept, ten years. -/
def maxApiLookbackHours : UInt64 := 87600

/-- The values of the parameters with the given name. -/
def valuesOf (name : String) (params : List (Str × Str)) : List Str :=
  (params.filter (·.1 = name.toList)).map Prod.snd

/-- The loop over the parameters: the first one with another name is refused. -/
def refuseUnsupported : List (Str × Str) → Answer Unit
  | [] => .ok ()
  | (name, _) :: rest =>
    if name ≠ "timestampTill".toList ∧ name ≠ "lookbackHours".toList then
      .error { status := .badRequest, error := "invalid_query_parameter".toList,
               message := "Unsupported query parameter: ".toList ++ name }
    else refuseUnsupported rest

/-- `ValidateWindowQuery`. -/
def validateWindowQuery (P : Platform) (params : List (Str × Str))
    (now clockSkewSeconds : UInt64) : Answer Window := do
  refuseUnsupported params
  let timestamps := valuesOf "timestampTill" params
  let lookbacks := valuesOf "lookbackHours" params
  refuseIf (timestamps.length ≠ 1) <|
    setError .badRequest "invalid_timestamp" "timestampTill must be present exactly once"
  let endTime ← orError
    (setError .badRequest "invalid_timestamp"
      "timestampTill must be a valid UTC timestamp in YYYY-MM-DDTHH:mm:ssZ format")
    (parseTimestampTill P (timestamps.getLastD []))
  refuseIf (endTime > now ∧ endTime - now > clockSkewSeconds) <|
    setError .badRequest "invalid_timestamp"
      "timestampTill is beyond the server clock skew tolerance"
  -- The lookback is read after the time, so its errors come second.
  refuseIf (lookbacks.length ≠ 1) <|
    setError .badRequest "invalid_lookback_hours" "lookbackHours must be present exactly once"
  let positive := setError .badRequest "invalid_lookback_hours"
    "lookbackHours must be a positive whole number"
  let lookbackHours ← orError positive (parseDecimalUint64 (lookbacks.getLastD []))
  refuseIf (lookbackHours = 0) positive
  refuseIf (lookbackHours > maxApiLookbackHours) <|
    setError .badRequest "invalid_lookback_hours"
      "lookbackHours exceeds maximum API limit of 87600 hours"
  let lookbackSeconds := lookbackHours * 3600
  refuseIf (lookbackSeconds > endTime) <|
    setError .badRequest "invalid_lookback_hours"
      "lookbackHours places the requested start before the Unix epoch"
  return { startTime := endTime - lookbackSeconds, endTime, lookbackHours }

/-- `ValidateRetention`. -/
def validateRetention (requested : Window) (retentionSeconds now clockSkewSeconds : UInt64) :
    Answer Unit := do
  let maxLookbackHours := retentionSeconds / 3600
  refuseIf (maxLookbackHours = 0 ∨ requested.lookbackHours > maxLookbackHours) <|
    setError .badRequest "invalid_lookback_hours"
      "lookbackHours exceeds configured maximum lookback"
  let max := UInt64.ofNat (2 ^ 64 - 1)
  let requestEndLimit := if max - now ≥ clockSkewSeconds then now + clockSkewSeconds else max
  let retentionStart := if now > retentionSeconds then now - retentionSeconds else 0
  refuseIf (requested.startTime < retentionStart ∨ requested.endTime > requestEndLimit) <|
    setError .badRequest "lookback_outside_retention"
      "Requested range is outside the configured monitoring retention window"

/-! ## The number of samples -/

/-- The least limit that may be configured. -/
def minMaxSamples : UInt64 := 1

/-- The largest limit that may be configured. -/
def maxMaxSamples : UInt64 := 100000

/-- The answer for more rows than the limit. -/
def exceedsMaxSamples : Error :=
  setError .badRequest "exceeds_max_samples"
    "Requested query window exceeds maximum allowed telemetry sample count"

/-- `EstimateExpectedSampleCount`. -/
def estimateExpectedSampleCount (requested : Window) (intervalSeconds : UInt64) : UInt64 :=
  let effectiveInterval := if intervalSeconds > 0 then intervalSeconds else 60
  let windowDuration :=
    if requested.endTime > requested.startTime then requested.endTime - requested.startTime else 0
  if windowDuration > 0 then
    windowDuration / effectiveInterval + (if windowDuration % effectiveInterval ≠ 0 then 1 else 0)
  else 0

/-- `ValidateExpectedSampleCount`. -/
def validateExpectedSampleCount (requested : Window) (intervalSeconds maxAllowedSamples : UInt64) :
    Answer Unit :=
  refuseIf (maxAllowedSamples ≠ 0 ∧
    estimateExpectedSampleCount requested intervalSeconds > maxAllowedSamples) exceedsMaxSamples

/-- `ValidateConfiguredMaxSamples`. -/
def validateConfiguredMaxSamples (configuredMaxSamples : UInt64) : Answer UInt64 := do
  refuseIf (configuredMaxSamples < minMaxSamples ∨ configuredMaxSamples > maxMaxSamples) <|
    setError .internalServerError "invalid_configuration"
      "mcp.max_samples must be between 1 and 100000"
  return configuredMaxSamples

/-! ## What a passed check says -/

theorem validateConfiguredMaxSamples_ok {configured maxSamples : UInt64}
    (h : validateConfiguredMaxSamples configured = .ok maxSamples) :
    maxSamples = configured ∧ 1 ≤ maxSamples ∧ maxSamples ≤ 100000 := by
  obtain ⟨_, hrange, heq⟩ := Answer.bind_ok h
  have hin := refuseIf_ok hrange
  obtain rfl : configured = maxSamples := Except.ok.inj heq
  simp only [not_or, minMaxSamples, maxMaxSamples, UInt64.not_lt] at hin
  exact ⟨rfl, hin.1, hin.2⟩

/-- The latest end that `ValidateRetention` takes. -/
def requestEndLimit (now skew : UInt64) : UInt64 :=
  if UInt64.ofNat (2 ^ 64 - 1) - now ≥ skew then now + skew else UInt64.ofNat (2 ^ 64 - 1)

theorem requestEndLimit_toNat (now skew : UInt64) :
    (requestEndLimit now skew).toNat = min (now.toNat + skew.toNat) (2 ^ 64 - 1) := by
  have hmax : (UInt64.ofNat (2 ^ 64 - 1)).toNat = 2 ^ 64 - 1 := by decide
  have hnow := now.toNat_lt
  have hsub : (UInt64.ofNat (2 ^ 64 - 1) - now).toNat = 2 ^ 64 - 1 - now.toNat := by
    rw [UInt64.toNat_sub_of_le, hmax]
    rw [UInt64.le_iff_toNat_le, hmax]
    omega
  unfold requestEndLimit
  split <;> rename_i hroom <;> rw [ge_iff_le, UInt64.le_iff_toNat_le, hsub] at hroom
  · rw [UInt64.toNat_add]
    omega
  · rw [hmax]
    omega

/-- What passes `ValidateRetention`, over the integers: the lookback is within the retention, and
    neither end of the window is too far from the clock. -/
theorem validateRetention_ok_iff {requested : Window} {retention now skew : UInt64} :
    validateRetention requested retention now skew = .ok () ↔
      3600 ≤ retention.toNat ∧ requested.lookbackHours.toNat ≤ retention.toNat / 3600 ∧
        now.toNat ≤ requested.startTime.toNat + retention.toNat ∧
        requested.endTime.toNat ≤ now.toNat + skew.toNat := by
  have h3600 : (3600 : UInt64).toNat = 3600 := by decide
  have hend := requested.endTime.toNat_lt
  have hlookback : ¬ (retention / 3600 = 0 ∨ requested.lookbackHours > retention / 3600) ↔
      3600 ≤ retention.toNat ∧ requested.lookbackHours.toNat ≤ retention.toNat / 3600 := by
    rw [← UInt64.toNat_inj, gt_iff_lt, UInt64.lt_iff_toNat_lt, UInt64.toNat_div, h3600,
      UInt64.toNat_zero]
    omega
  have hstart : (if now > retention then now - retention else 0).toNat =
      now.toNat - retention.toNat := by
    split
    · rename_i hlt
      rw [UInt64.toNat_sub_of_le _ _ (UInt64.le_of_lt hlt)]
    · rename_i hge
      rw [gt_iff_lt, UInt64.not_lt, UInt64.le_iff_toNat_le] at hge
      rw [UInt64.toNat_zero]
      omega
  -- the limit saturates, and no end is beyond it
  have hlimit : ¬ requested.endTime >
        (if UInt64.ofNat (2 ^ 64 - 1) - now ≥ skew then now + skew else UInt64.ofNat (2 ^ 64 - 1)) ↔
      requested.endTime.toNat ≤ now.toNat + skew.toNat := by
    show ¬ requested.endTime > requestEndLimit now skew ↔ _
    rw [gt_iff_lt, UInt64.not_lt, UInt64.le_iff_toNat_le, requestEndLimit_toNat]
    omega
  unfold validateRetention
  rw [Answer.bind_ok_iff]
  simp only [refuseIf_ok_iff, exists_const]
  rw [hlookback, and_assoc, not_or, hlimit, UInt64.not_lt, UInt64.le_iff_toNat_le, hstart]
  omega

/-- A window the endpoints accept is not empty. -/
theorem validateWindowQuery_ok {P : Platform} {params : List (Str × Str)}
    {now clockSkewSeconds : UInt64} {w : Window}
    (h : validateWindowQuery P params now clockSkewSeconds = .ok w) :
    w.startTime < w.endTime := by
  unfold validateWindowQuery at h
  -- The checks in turn, of which the last three bear on the window.
  obtain ⟨_, -, h⟩ := Answer.bind_ok h
  obtain ⟨_, -, h⟩ := Answer.bind_ok h
  obtain ⟨endTime, -, h⟩ := Answer.bind_ok h
  obtain ⟨_, -, h⟩ := Answer.bind_ok h
  obtain ⟨_, -, h⟩ := Answer.bind_ok h
  obtain ⟨lookbackHours, -, h⟩ := Answer.bind_ok h
  obtain ⟨_, hpos, h⟩ := Answer.bind_ok h
  obtain ⟨_, hmax, h⟩ := Answer.bind_ok h
  obtain ⟨_, hepoch, hw⟩ := Answer.bind_ok h
  have hne := refuseIf_ok hpos
  have hle := refuseIf_ok hmax
  have hend := refuseIf_ok hepoch
  obtain rfl := Except.ok.inj hw
  show endTime - lookbackHours * 3600 < endTime
  simp only [UInt64.not_lt, UInt64.le_iff_toNat_le, UInt64.toNat_mul] at hle hend
  have hhours : lookbackHours.toNat ≠ 0 := fun hzero => hne (UInt64.toNat_inj.mp hzero)
  have hcap : maxApiLookbackHours.toNat = 87600 := by decide
  have h3600 : (3600 : UInt64).toNat = 3600 := by decide
  -- The limit on the hours keeps the product from wrapping.
  have hseconds : (lookbackHours * 3600).toNat = lookbackHours.toNat * 3600 := by
    rw [UInt64.toNat_mul, h3600]
    omega
  have hle' : lookbackHours * 3600 ≤ endTime := by
    rw [UInt64.le_iff_toNat_le, UInt64.toNat_mul]
    exact hend
  rw [UInt64.lt_iff_toNat_lt, UInt64.toNat_sub_of_le _ _ hle', hseconds]
  rw [UInt64.le_iff_toNat_le, hseconds] at hle'
  omega

end OwAnalytics.Mcp
