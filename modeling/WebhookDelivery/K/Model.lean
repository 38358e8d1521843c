/-
The records of the `k` service.

The formats it takes from other crates stay parameters: the JSON values and
their compact text, the instants and the text `fmt_ts` stores for them.  SQLite
compares that text byte by byte, so all a query uses of it is a linear order.
-/
import Mathlib.Order.Lattice
import Mathlib.Data.Int.Order.Basic
import WebhookDelivery.Sql.Table

namespace WebhookDelivery
namespace K

open Sql

abbrev Uuid := BitVec 128

/-- The value formats of serde_json and chrono. -/
structure Formats where
  Value : Type
  DateTime : Type
  Stamp : Type
  order : LinearOrder Stamp
  toString : Value → String
  fromStr : String → Option Value
  fmtTs : DateTime → Stamp
  parseTs : Stamp → Option DateTime

instance (F : Formats) : LinearOrder F.Stamp := F.order

/-- Instants in milliseconds that are stored as they are. -/
def Formats.millis : Formats where
  Value := String
  DateTime := Int
  Stamp := Int
  order := inferInstance
  toString := id
  fromStr := some
  fmtTs := id
  parseTs := some

inductive JobStatus
  | pending
  | inFlight
  | delivered
  | dead
  deriving DecidableEq

def JobStatus.asStr : JobStatus → String
  | .pending => "pending"
  | .inFlight => "in_flight"
  | .delivered => "delivered"
  | .dead => "dead"

def JobStatus.fromStr (s : String) : Option JobStatus :=
  if s = "pending" then some .pending
  else if s = "in_flight" then some .inFlight
  else if s = "delivered" then some .delivered
  else if s = "dead" then some .dead
  else none

/-- The column holds a status: every text the service writes reads back. -/
theorem JobStatus.fromStr_asStr (s : JobStatus) : fromStr s.asStr = some s := by
  cases s <;> simp [fromStr, asStr]

/-- A row of `jobs`. -/
structure JobRow (F : Formats) where
  id : Uuid
  destination : String
  payload : String
  status : JobStatus
  attempts : Int
  maxAttempts : Int
  nextAttemptAt : F.Stamp
  lastError : Option String
  createdAt : F.Stamp
  updatedAt : F.Stamp

instance (F : Formats) : Keyed (JobRow F) Uuid := ⟨JobRow.id⟩

@[simp] theorem key_eq {F : Formats} (r : JobRow F) : key r = r.id := rfl

/-- A job as a worker holds it. -/
structure Job (F : Formats) where
  id : Uuid
  destination : String
  payload : F.Value
  status : JobStatus
  attempts : Int
  maxAttempts : Int
  nextAttemptAt : F.DateTime
  lastError : Option String
  createdAt : F.DateTime
  updatedAt : F.DateTime

inductive DbError
  | database
  | rowNotFound
  | payload
  | timestamp
  deriving DecidableEq

variable {F : Formats}

def parse {α : Type} (e : DbError) : Option α → Except DbError α
  | some a => .ok a
  | none => .error e

def rowToJob (row : JobRow F) : Except DbError (Job F) := do
  let payload ← parse .payload (F.fromStr row.payload)
  let nextAttemptAt ← parse .timestamp (F.parseTs row.nextAttemptAt)
  let createdAt ← parse .timestamp (F.parseTs row.createdAt)
  let updatedAt ← parse .timestamp (F.parseTs row.updatedAt)
  return {
    id := row.id
    destination := row.destination
    payload := payload
    status := row.status
    attempts := row.attempts
    maxAttempts := row.maxAttempts
    nextAttemptAt := nextAttemptAt
    lastError := row.lastError
    createdAt := createdAt
    updatedAt := updatedAt }

/-- The columns that a claim reads and leaves as they are can be parsed. -/
structure Readable (row : JobRow F) : Prop where
  payload : (F.fromStr row.payload).isSome
  nextAttemptAt : (F.parseTs row.nextAttemptAt).isSome
  createdAt : (F.parseTs row.createdAt).isSome

theorem Readable.rowToJob {row : JobRow F} (h : Readable row)
    (hupdated : (F.parseTs row.updatedAt).isSome) : ∃ job, rowToJob row = .ok job := by
  obtain ⟨payload, hp⟩ := Option.isSome_iff_exists.1 h.payload
  obtain ⟨next, hn⟩ := Option.isSome_iff_exists.1 h.nextAttemptAt
  obtain ⟨created, hc⟩ := Option.isSome_iff_exists.1 h.createdAt
  obtain ⟨updated, hu⟩ := Option.isSome_iff_exists.1 hupdated
  unfold K.rowToJob
  rw [hp, hn, hc, hu]
  exact ⟨_, rfl⟩

theorem readable_of_rowToJob {row : JobRow F} {job : Job F} (h : rowToJob row = .ok job) :
    Readable row := by
  unfold rowToJob at h
  cases hp : F.fromStr row.payload with
  | none => simp [hp, parse, bind, Except.bind] at h
  | some p =>
    cases hn : F.parseTs row.nextAttemptAt with
    | none => simp [hp, hn, parse, bind, Except.bind] at h
    | some n =>
      cases hc : F.parseTs row.createdAt with
      | none => simp [hp, hn, hc, parse, bind, Except.bind] at h
      | some c => exact ⟨hp ▸ rfl, hn ▸ rfl, hc ▸ rfl⟩

/-- The columns `rowToJob` copies unchanged. -/
theorem rowToJob_ok {row : JobRow F} {job : Job F} (h : rowToJob row = .ok job) :
    job.id = row.id ∧ job.destination = row.destination ∧ job.status = row.status ∧
      job.attempts = row.attempts ∧ job.maxAttempts = row.maxAttempts := by
  unfold rowToJob at h
  cases hp : F.fromStr row.payload with
  | none => simp [hp, parse, bind, Except.bind] at h
  | some p =>
    cases hn : F.parseTs row.nextAttemptAt with
    | none => simp [hp, hn, parse, bind, Except.bind] at h
    | some n =>
      cases hc : F.parseTs row.createdAt with
      | none => simp [hp, hn, hc, parse, bind, Except.bind] at h
      | some c =>
        cases hu : F.parseTs row.updatedAt with
        | none => simp [hp, hn, hc, hu, parse, bind, Except.bind] at h
        | some u =>
          simp only [hp, hn, hc, hu, parse, bind, Except.bind, pure, Except.pure,
            Except.ok.injEq] at h
          subst h
          exact ⟨rfl, rfl, rfl, rfl, rfl⟩

/-! ## Delivery outcomes -/

inductive DeliveryError
  | http (code : Nat)
  | transport (msg : String)
  deriving DecidableEq

def DeliveryError.text : DeliveryError → String
  | .http code => s!"destination returned HTTP status {code}"
  | .transport msg => s!"transport error: {msg}"

/-- What the HTTP client reports of one request. -/
inductive Response
  | status (code : Nat)
  | failed (msg : String)

/-- `deliver`, from the response of the destination on. -/
def deliver : Response → Except DeliveryError Unit
  | .status code => if 200 ≤ code ∧ code < 300 then .ok () else .error (.http code)
  | .failed msg => .error (.transport msg)

def succeeded : Except DeliveryError Unit → Bool
  | .ok _ => true
  | .error _ => false

end K
end WebhookDelivery
