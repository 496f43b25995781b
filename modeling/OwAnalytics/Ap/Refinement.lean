/-
  OwAnalytics.Ap.Refinement

  An `AP` with all its data does what the watcher's queue expects of its three flags:
  one message after the other sets the same flags and stores a point exactly where the
  model of the flags says that one is created.
-/

import OwAnalytics.Ap.Gating

namespace OwAnalytics

/-! ## Documents without their numbers -/

namespace Document

variable {F : Type}

mutual

/-- A document of which only the types of its numbers are left. -/
def shape : Document F → Venue.Json
  | .null => .null
  | .bool b => .bool b
  | .unsigned _ => .num
  | .integer _ => .num
  | .float _ => .num
  | .str s => .str s
  | .arr items => .arr (shapes items)
  | .obj fields => .obj (shapeFields fields)

/-- The shapes of the elements of an array. -/
def shapes : List (Document F) → List Venue.Json
  | [] => []
  | d :: rest => d.shape :: shapes rest

/-- The shapes of the members of an object. -/
def shapeFields : List (Str × Document F) → List (List Char × Venue.Json)
  | [] => []
  | (key, d) :: rest => (key, d.shape) :: shapeFields rest

end

theorem lookup_shapeFields (fields : List (Str × Document F)) (key : Str) :
    (shapeFields fields).lookup key = (fields.lookup key).map shape := by
  induction fields with
  | nil => rfl
  | cons field rest ih =>
      obtain ⟨key', d⟩ := field
      rw [shapeFields, List.lookup_cons, List.lookup_cons]
      split
      · rfl
      · exact ih

/-- The members of the shape are the shapes of the members. -/
theorem find?_shape (d : Document F) (field : String) :
    d.shape.find? field = (d.find? field).map shape := by
  cases d with
  | obj fields => exact lookup_shapeFields fields field.toList
  | _ => rfl

theorem contains_shape (d : Document F) (field : String) :
    d.shape.contains field = d.contains field := by
  rw [Venue.Json.contains, find?_shape, contains, Option.isSome_map]

theorem readsUInt64_shape (d : Document F) :
    d.shape.readsUInt64 "timestamp" = true ↔ Ap.ReadableTimestamp d := by
  rw [Venue.Json.readsUInt64, find?_shape, Ap.ReadableTimestamp]
  cases d.find? "timestamp" with
  | none => simp
  | some t => cases t <;> simp [shape]

end Document

namespace Ap

open Throwing Document

variable {F : Type} [Double F]

/-! ## One message -/

omit [Double F] in
/-- The message as the queue of a watcher holds it. -/
def Message.queued (serialNumber : Venue.Serial) : Message F → Venue.VenueMessage
  | .state d => { serialNumber, type := .state, payload := d.shape }
  | .connection d => { serialNumber, type := .connection, payload := d.shape }
  | .health d => { serialNumber, type := .health, payload := d.shape }

namespace AP

/-- What the model of the flags keeps of an `AP`. -/
def flags (ap : AP F) : Venue.AP where
  gotHealth := ap.gotHealth
  gotConnection := ap.gotConnection
  gotBase := ap.gotBase

theorem isSome_toStore (env : Env F) (ap : AP F) (dtp : DeviceTimePoint F) :
    (ap.toStore env dtp).isSome = (ap.gotBase && (ap.gotConnection && ap.gotHealth)) := by
  rw [Bool.eq_iff_iff, toStore, Bool.and_eq_true, Bool.and_eq_true]
  split
  · rename_i hgot
    exact iff_of_true rfl hgot
  · rename_i hgot
    exact iff_of_false (by simp) hgot

theorem updateStats_flags (env : Env F) (cache : WifiClientCache) (ap : AP F)
    (state : Document F) :
    ((ap.updateStats env cache state).1.flags,
        (ap.updateStats env cache state).2.1.timePoint.isSome) =
      ap.flags.updateStats state.shape := by
  have hstored : (ap.updateStats env cache state).2.1.timePoint.isSome =
      (ap.gotBase && (ap.gotConnection && ap.gotHealth)) := isSome_toStore env ap _
  have hflags : (ap.updateStats env cache state).1.flags = { ap.flags with gotBase := true } := rfl
  rw [hstored, hflags, Venue.AP.updateStats]
  by_cases hbase : ap.flags.gotBase = true
  · have hsame : ({ ap.flags with gotBase := true } : Venue.AP) = ap.flags := by rw [← hbase]
    rw [if_pos hbase, hsame, show ap.gotBase = true from hbase]
    rfl
  · rw [if_neg hbase, show ap.gotBase = false from Bool.eq_false_iff.mpr hbase]
    rfl

theorem updateHealth_flags (ap : AP F) (d : Document F) :
    (ap.updateHealth d).flags = ap.flags.updateHealth d.shape := by
  obtain ⟨hconnection, hbase, -⟩ := ap.updateHealth_same d
  have hhealth : (ap.updateHealth d).gotHealth = true := by
    refine Computation.keeps_bind (Computation.keeps_ofOption (fun ap => ap.gotHealth = true) _)
      (fun _ => ?_) { ap with gotHealth := true } rfl
    refine Computation.keeps_bind (Computation.keeps_modify fun _ h => h) fun _ => ?_
    exact Computation.keeps_bind (Computation.keeps_ofOption _ _) fun _ =>
      Computation.keeps_modify fun _ h => h
  rw [flags, hconnection, hbase, hhealth]
  rfl

theorem updateConnection_flags (env : Env F) (ap : AP F) (d : Document F) :
    (ap.updateConnection env d).1.flags = ap.flags.updateConnection d.shape := by
  let start : AP F :=
    { ap with info := { ap.info with pings := ap.info.pings + 1, lastContact := env.now } }
  let Contacted : AP F → Prop := fun ap' => ap'.flags = { ap.flags with gotConnection := true }
  have hinfo : InfoFree Contacted := fun _ _ _ h => h
  show (connection env d start).2.flags = _
  rw [connection, Venue.AP.updateConnection, contains_shape, contains_shape, find?_shape, contains,
    contains]
  cases d.find? "ping" with
  | some ping => exact keeps_ping hinfo.deviceFree env ping rfl
  | none =>
      cases d.find? "disconnection" with
      | some dis =>
          rw [Option.isSome_none, if_neg Bool.false_ne_true, Option.map_some]
          dsimp only
          -- the flags go if the time can be read, and that is seen from the shape
          rcases disconnection_cases env start dis with ⟨hread, hreset⟩ | ⟨hread, hsame⟩
          · rw [if_pos ((readsUInt64_shape dis).mpr hread), flags, hreset.gotHealth,
              hreset.gotConnection, hreset.gotBase]
          · rw [if_neg fun h => hread ((readsUInt64_shape dis).mp h), hsame]
            rfl
      | none =>
          cases d.find? "capabilities" with
          | some capabilities => exact keeps_capabilities hinfo.deviceFree env capabilities rfl
          | none => rfl

/-- One message sets the flags, and stores a point, as the model of the flags says. -/
theorem deliver_flags (ap : AP F) (x : Delivery F) (serialNumber : Venue.Serial) :
    ((ap.deliver x).1.flags, (ap.deliver x).2.timePoint.isSome) =
      ap.flags.update (x.message.queued serialNumber) := by
  cases hmessage : x.message with
  | state d =>
      simp only [deliver, hmessage, Message.queued, Venue.AP.update]
      exact ap.updateStats_flags x.env x.cache d
  | connection d =>
      simp only [deliver, hmessage, Message.queued, Venue.AP.update]
      exact Prod.ext (ap.updateConnection_flags x.env d) rfl
  | health d =>
      simp only [deliver, hmessage, Message.queued, Venue.AP.update]
      exact Prod.ext (ap.updateHealth_flags d) rfl

/-! ## Runs -/

/-- The number of time points a sequence of messages stores. -/
def stored (ap : AP F) : List (Delivery F) → Nat
  | [] => 0
  | x :: rest => (if (ap.deliver x).2.timePoint.isSome then 1 else 0) + (ap.deliver x).1.stored rest

/-- An `AP` stores as many points as the model of the flags creates for its queue. -/
theorem stored_eq_timePoints (ap : AP F) (xs : List (Delivery F)) (serialNumber : Venue.Serial) :
    ap.stored xs = ap.flags.timePoints (xs.map fun x => x.message.queued serialNumber) := by
  induction xs generalizing ap with
  | nil => rfl
  | cons x rest ih =>
      have hstep := ap.deliver_flags x serialNumber
      rw [stored, List.map_cons, Venue.AP.timePoints, ← hstep, ih]

/-- A new `AP` that gets no health message stores no point, whatever else it gets. -/
theorem stored_of_not_health (mac : UInt64) (venueId boardId : Str) (xs : List (Delivery F))
    (h : ∀ x ∈ xs, ¬ x.message.IsHealth) : (create mac venueId boardId).stored xs = 0 := by
  rw [stored_eq_timePoints _ xs mac]
  refine Venue.AP.timePoints_of_not_health _ (fun msg hmsg => ?_) _ rfl
  obtain ⟨x, hx, rfl⟩ := List.mem_map.mp hmsg
  have hnot := h x hx
  cases hmessage : x.message with
  | state d => exact nofun
  | connection d => exact nofun
  | health d =>
      rw [hmessage] at hnot
      exact absurd trivial hnot

end AP

end Ap

end OwAnalytics
