/-
  OwAnalytics.Mcp.RouterId

  `RouterIdResolver::Resolve` (`RouterIdResolver.h`, `.cpp`): the device is looked up in
  the provisioning service and the board by the device's venue.
-/

import OwAnalytics.Mcp.Bandwidth.Handler
import OwAnalytics.Storage.Boards

namespace OwAnalytics.Mcp

open Bandwidth (Resolved routerNotFound)
open Storage

/-- `SDK::Prov::Device::FetchResult`. -/
inductive FetchResult
  | success
  | httpFailure
  | invalidResponse
deriving DecidableEq

/-- What `SDK::Prov::Device::GetWithStatus` comes back with. -/
structure DeviceFetch where
  result : FetchResult
  status : Nat
  /-- `Device.venue`. -/
  venue : Str := []

/-- The answer for a reply of the provisioning service that cannot be read. -/
def owprovInvalidResponse : Error :=
  setError .badGateway "owprov_invalid_response"
    "Upstream provisioning service returned an invalid response"

/-- The answer for a router with several boards. -/
def multipleBoards : Error :=
  setError .conflict "multiple_boards" "Router is mapped to multiple current boards"

/-- `AnalyticsBoardStorageFailure`. -/
def boardStorageFailure : Error := setError .internalServerError "internal_error" "Internal error"

/-- `ClassifyProvisioningFailure`. -/
def provisioningFailure (status : Nat) : Error :=
  if status = 404 ∨ status = 403 ∨ status = 401 then routerNotFound
  else
    setError .badGateway "owprov_unavailable" "Upstream provisioning service is unavailable"

/-- `ClassifyDeviceFetchResult`. -/
def classifyDeviceFetchResult (fetch : DeviceFetch) : Answer Unit :=
  match fetch.result with
  | .success => .ok ()
  | .invalidResponse => .error owprovInvalidResponse
  | .httpFailure => .error (provisioningFailure fetch.status)

/-- `ResolveBoardForVenue`. -/
def resolveBoardForVenue (routerId venueId : Str) (boards : List BoardVenueRecord) :
    Answer Resolved :=
  match boards.filter fun b => !b.venueId.isEmpty && b.venueId == venueId with
  | [] => .error routerNotFound
  | [b] =>
      .ok
        { routerId
          resolvedBoardId := b.boardId
          resolvedVenueId := venueId
          retention := b.retention
          interval := b.interval
          monitorSubVenues := b.monitorSubVenues }
  | _ :: _ :: _ => .error multipleBoards

/-- `Resolve`, with the answer of the provisioning service and what
    `FindBoardVenueRecordsByVenue` finds. -/
def resolve (fetch : Str → DeviceFetch) (findRecords : Str → Option (List BoardVenueRecord))
    (routerId : Str) : Answer Resolved := do
  validateRouterId routerId
  classifyDeviceFetchResult (fetch routerId)
  refuseIf ((fetch routerId).venue.isEmpty = true) routerNotFound
  let matches' ← orError boardStorageFailure (findRecords (fetch routerId).venue)
  resolveBoardForVenue routerId (fetch routerId).venue matches'

/-! ## The errors of the steps before the lookup -/

theorem refuseIf_error {condition : Prop} [Decidable condition] {e e' : Error}
    (h : refuseIf condition e = .error e') : e' = e := by
  unfold refuseIf at h
  split at h <;> cases h
  rfl

/-- An answer that ends in an error has one of its two steps end in it. -/
theorem Answer.bind_error {α β : Type} {x : Answer α} {f : α → Answer β} {e : Error}
    (h : (x >>= f) = .error e) : x = .error e ∨ ∃ a, x = .ok a ∧ f a = .error e := by
  cases x with
  | error e' => exact .inl (by cases h; rfl)
  | ok a => exact .inr ⟨a, rfl, h⟩

theorem classifyDeviceFetchResult_error {fetch : DeviceFetch} {e : Error}
    (h : classifyDeviceFetchResult fetch = .error e) : e ≠ multipleBoards := by
  unfold classifyDeviceFetchResult at h
  split at h
  · cases h
  · cases h
    decide
  · cases h
    unfold provisioningFailure
    split <;> decide

theorem validateRouterId_error {routerId : Str} {e : Error}
    (h : validateRouterId routerId = .error e) : e ≠ multipleBoards := by
  have he : e = setError .badRequest "invalid_router_id" invalidRouterIdMessage := by
    rcases Answer.bind_error h with h | ⟨_, -, h⟩ <;> exact refuseIf_error h
  rw [he]
  decide

/-- Whether the answer is `multiple_boards` is decided by the lookup of the board. -/
theorem resolve_multipleBoards {fetch : Str → DeviceFetch}
    {findRecords : Str → Option (List BoardVenueRecord)} {routerId : Str}
    (h : resolve fetch findRecords routerId = .error multipleBoards) :
    (fetch routerId).venue ≠ [] ∧ ∃ boards, findRecords (fetch routerId).venue = some boards ∧
      resolveBoardForVenue routerId (fetch routerId).venue boards = .error multipleBoards := by
  unfold resolve at h
  -- the checks before have errors of their own
  rcases Answer.bind_error h with h | ⟨_, -, h⟩
  · exact absurd rfl (validateRouterId_error h)
  rcases Answer.bind_error h with h | ⟨_, -, h⟩
  · exact absurd rfl (classifyDeviceFetchResult_error h)
  rcases Answer.bind_error h with h | ⟨_, hvenue, h⟩
  · exact absurd (refuseIf_error h) (by decide)
  refine ⟨fun hnil => refuseIf_ok hvenue (List.isEmpty_iff.mpr hnil), ?_⟩
  rcases Answer.bind_error h with h | ⟨boards, hboards, h⟩
  · cases hfind : findRecords (fetch routerId).venue with
    | none =>
        rw [hfind] at h
        exact absurd (Except.error.inj h) (by decide)
    | some boards =>
        rw [hfind] at h
        cases h
  · exact ⟨boards, orError_ok hboards, h⟩

/-- A resolved router is the device of a venue of which the board was found. -/
theorem resolve_ok {fetch : Str → DeviceFetch}
    {findRecords : Str → Option (List BoardVenueRecord)} {routerId : Str} {r : Resolved}
    (h : resolve fetch findRecords routerId = .ok r) :
    (fetch routerId).venue ≠ [] ∧ ∃ boards, findRecords (fetch routerId).venue = some boards ∧
      resolveBoardForVenue routerId (fetch routerId).venue boards = .ok r := by
  unfold resolve at h
  obtain ⟨_, -, h⟩ := Answer.bind_ok h
  obtain ⟨_, -, h⟩ := Answer.bind_ok h
  obtain ⟨_, hvenue, h⟩ := Answer.bind_ok h
  obtain ⟨boards, hboards, h⟩ := Answer.bind_ok h
  refine ⟨?_, boards, orError_ok hboards, h⟩
  intro hnil
  exact refuseIf_ok hvenue (List.isEmpty_iff.mpr hnil)

end OwAnalytics.Mcp
