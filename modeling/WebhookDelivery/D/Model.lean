/-
The records of the `d` service and the texts they are stored as.

The payload of a job is a JSON value in the program and its text in the two
tables, and a time is an instant here and a timestamp text there.  The printers
and parsers belong to serde_json and chrono, so they are a parameter.
-/
import Mathlib.Algebra.Group.Int.Defs
import Mathlib.Algebra.Group.Nat.Defs
import WebhookDelivery.Sql.Table

namespace WebhookDelivery
namespace D

open Sql

abbrev Uuid := BitVec 128

/-- JSON values and instants, with `to_string` and `from_str` of the one and
`to_rfc3339` and `parse_from_rfc3339` of the other. -/
structure Formats where
  Value : Type
  toString : Value → String
  fromStr : String → Option Value
  toRfc3339 : Int → String
  parseFromRfc3339 : String → Option Int

inductive DeliveryStatus
  | pending
  | delivered
  | dead
  deriving DecidableEq

/-- `status_str`. -/
def DeliveryStatus.statusStr : DeliveryStatus → String
  | .pending => "Pending"
  | .delivered => "Delivered"
  | .dead => "Dead"

/-- `parse_status`.  A text it does not know reads as pending. -/
def DeliveryStatus.parseStatus (s : String) : DeliveryStatus :=
  if s = "Delivered" then .delivered
  else if s = "Dead" then .dead
  else .pending

/-- The status column holds a status: every text the service writes reads back. -/
theorem DeliveryStatus.parseStatus_statusStr (s : DeliveryStatus) :
    parseStatus s.statusStr = s := by
  cases s <;> simp [parseStatus, statusStr]

variable (F : Formats)

structure WebhookRequest where
  data : F.Value
  destination : String

structure WebhookJob where
  id : Uuid
  payload : F.Value
  destination : String
  attempts : Nat
  maxAttempts : Nat
  nextAttemptAt : Int
  createdAt : Int
  status : DeliveryStatus

/-- An entry of the dead letter queue, as the program reads it. -/
structure DqlEntry where
  id : Uuid
  jobId : Uuid
  payload : F.Value
  destination : String
  attempts : Nat
  lastError : String
  movedAt : Int

/-- A row of `jobs`. -/
structure JobRow where
  id : Uuid
  payload : String
  destination : String
  attempts : Int
  maxAttempts : Int
  nextAttemptAt : String
  createdAt : String
  status : DeliveryStatus

instance : Keyed JobRow Uuid := ⟨JobRow.id⟩

/-- A row of `dead_letters`. -/
structure DlqRow where
  id : Uuid
  jobId : Uuid
  payload : String
  destination : String
  attempts : Int
  lastError : String
  movedAt : String

instance : Keyed DlqRow Uuid := ⟨DlqRow.id⟩

structure Config where
  maxAttempts : Nat

variable {F}

def WebhookJob.new (req : WebhookRequest F) (id : Uuid) (maxAttempts : Nat) (now : Int) :
    WebhookJob F where
  id := id
  payload := req.data
  destination := req.destination
  attempts := 0
  maxAttempts := maxAttempts
  nextAttemptAt := now
  createdAt := now
  status := .pending

/-! ## Rows -/

/-- `n as u32` for an `i64`. -/
def asU32 (n : Int) : Nat := (n % 2 ^ 32).toNat

def WebhookJob.row (job : WebhookJob F) : JobRow where
  id := job.id
  payload := F.toString job.payload
  destination := job.destination
  attempts := job.attempts
  maxAttempts := job.maxAttempts
  nextAttemptAt := F.toRfc3339 job.nextAttemptAt
  createdAt := F.toRfc3339 job.createdAt
  status := job.status

/-- `row_to_job`. -/
def rowToJob (F : Formats) (r : JobRow) : Option (WebhookJob F) :=
  match F.fromStr r.payload, F.parseFromRfc3339 r.nextAttemptAt,
    F.parseFromRfc3339 r.createdAt with
  | some payload, some nextAttemptAt, some createdAt => some {
      id := r.id
      payload := payload
      destination := r.destination
      attempts := asU32 r.attempts
      maxAttempts := asU32 r.maxAttempts
      nextAttemptAt := nextAttemptAt
      createdAt := createdAt
      status := r.status }
  | _, _, _ => none

/-- `row_to_dlq`. -/
def rowToDlq (F : Formats) (r : DlqRow) : Option (DqlEntry F) :=
  match F.fromStr r.payload, F.parseFromRfc3339 r.movedAt with
  | some payload, some movedAt => some {
      id := r.id
      jobId := r.jobId
      payload := payload
      destination := r.destination
      attempts := asU32 r.attempts
      lastError := r.lastError
      movedAt := movedAt }
  | _, _ => none

theorem rowToJob_some {r : JobRow} {job : WebhookJob F} (h : rowToJob F r = some job) :
    job.id = r.id ∧ F.fromStr r.payload = some job.payload ∧
      job.destination = r.destination := by
  unfold rowToJob at h
  split at h
  · rename_i payload _ _ hp _ _
    rw [Option.some.injEq] at h
    subst h
    exact ⟨rfl, hp, rfl⟩
  · cases h

/-- The counters are read modulo `2 ^ 32`. -/
theorem rowToJob_counters {r : JobRow} {job : WebhookJob F} (h : rowToJob F r = some job) :
    job.attempts = asU32 r.attempts ∧ job.maxAttempts = asU32 r.maxAttempts := by
  unfold rowToJob at h
  split at h
  · rw [Option.some.injEq] at h
    subst h
    exact ⟨rfl, rfl⟩
  · cases h

theorem rowToJob_nextAttemptAt {r : JobRow} {job : WebhookJob F} (h : rowToJob F r = some job) :
    F.parseFromRfc3339 r.nextAttemptAt = some job.nextAttemptAt := by
  unfold rowToJob at h
  split at h
  · rename_i next _ _ hnext _
    rw [Option.some.injEq] at h
    subst h
    exact hnext
  · cases h

theorem asU32_of_lt {n : Nat} (h : n < 2 ^ 32) : asU32 n = n := by
  unfold asU32
  omega

theorem rowToDlq_some {r : DlqRow} {e : DqlEntry F} (h : rowToDlq F r = some e) :
    e.id = r.id ∧ F.fromStr r.payload = some e.payload ∧ e.destination = r.destination := by
  unfold rowToDlq at h
  split at h
  · rename_i payload _ hp _
    rw [Option.some.injEq] at h
    subst h
    exact ⟨rfl, hp, rfl⟩
  · cases h

/-! ## Responses -/

/-- What the HTTP client reports of one request. -/
inductive Response
  | status (code : Nat)
  | failed (e : String)

/-- `is_success`. -/
def isSuccess (code : Nat) : Bool := decide (200 ≤ code) && decide (code < 300)

/-- The error text of a send, if it did not succeed. -/
def Response.error : Response → Option String
  | .status code => if isSuccess code then none else some s!"HTTP status {code}"
  | .failed e => some e

end D
end WebhookDelivery
