/-
The records of the `q` service and its pure functions.

Times are Unix milliseconds.  SQLite holds every integer column as an `Int`; a
`Delivery` is a row as `map_delivery` decodes it, with the two counters read
through `i32` and turned into `u32`.
-/
import Mathlib.Algebra.Group.Int.Defs
import Mathlib.Algebra.Group.Nat.Defs
import Mathlib.Data.Int.Order.Basic
import WebhookDelivery.Run.Int64
import WebhookDelivery.Sql.Table

namespace WebhookDelivery
namespace Q

open Sql

abbrev Uuid := BitVec 128

inductive DeliveryStatus
  | pending
  | inFlight
  | delivered
  | deadLetter
  deriving DecidableEq

def DeliveryStatus.asStr : DeliveryStatus → String
  | .pending => "pending"
  | .inFlight => "in_flight"
  | .delivered => "delivered"
  | .deadLetter => "dead_letter"

def DeliveryStatus.parse (s : String) : Option DeliveryStatus :=
  if s = "pending" then some .pending
  else if s = "in_flight" then some .inFlight
  else if s = "delivered" then some .delivered
  else if s = "dead_letter" then some .deadLetter
  else none

/-- The status column holds a status: every text the service writes reads back. -/
theorem DeliveryStatus.parse_asStr (s : DeliveryStatus) : parse s.asStr = some s := by
  cases s <;> simp [parse, asStr]

/-- A row of `deliveries`. -/
structure DeliveryRow where
  id : Uuid
  idempotencyKey : Option String
  destination : String
  payload : List UInt8
  status : DeliveryStatus
  attempts : Int
  maxAttempts : Int
  nextRetryAt : Int
  lastError : Option String
  createdAt : Int
  updatedAt : Int

instance : Keyed DeliveryRow Uuid := ⟨DeliveryRow.id⟩

@[simp] theorem key_delivery (r : DeliveryRow) : key r = r.id := rfl

structure Delivery where
  id : Uuid
  idempotencyKey : Option String
  destination : String
  payload : List UInt8
  status : DeliveryStatus
  attempts : Nat
  maxAttempts : Nat
  nextRetryAt : Int
  lastError : Option String
  createdAt : Int
  updatedAt : Int

/-- What a submission stores. -/
structure NewDelivery where
  id : Uuid
  idempotencyKey : Option String
  destination : String
  payload : List UInt8
  maxAttempts : Nat

/-- A row of `dead_letters`. -/
structure DlqRow where
  id : Uuid
  deliveryId : Uuid
  destination : String
  payload : List UInt8
  attempts : Int
  lastError : Option String
  deadLetteredAt : Int

instance : Keyed DlqRow Uuid := ⟨DlqRow.id⟩

structure DlqEntry where
  id : Uuid
  deliveryId : Uuid
  destination : String
  payload : List UInt8
  attempts : Nat
  lastError : Option String
  deadLetteredAt : Int

inductive DbError
  | sqlite
  | idempotencyConflict (existing : Uuid)
  deriving DecidableEq

structure Config where
  baseRetryDelayMs : Nat
  maxRetryDelayMs : Nat
  staleInFlightMs : Nat

/-! ## Integers -/

/-- `n as i64` for an unsigned `n`. -/
def asI64 (n : Nat) : Int := Run.wrapI64 n

theorem asI64_of_lt {n : Nat} (h : n < 2 ^ 63) : asI64 n = n :=
  Run.wrapI64_of_fits ⟨by omega, by omega⟩

/-- The cast of a number with the highest bit is negative. -/
theorem asI64_of_ge {n : Nat} (h : 2 ^ 63 ≤ n) (hlt : n < 2 ^ 64) : asI64 n = n - 2 ^ 64 :=
  Run.wrapI64_of_ge (by omega) (by omega)

/-- Reading an integer column as `i32` fails out of range. -/
def getI32 (n : Int) : Except DbError Int :=
  if -2 ^ 31 ≤ n ∧ n < 2 ^ 31 then .ok n else .error .sqlite

/-- `u32::try_from(n).unwrap_or(u32::MAX)`. -/
def asU32 (n : Int) : Nat := if 0 ≤ n then n.toNat else 2 ^ 32 - 1

theorem getI32_ok {n m : Int} (h : getI32 n = .ok m) : m = n := by
  unfold getI32 at h
  split at h
  · exact (Except.ok.inj h).symm
  · cases h

theorem asU32_of_nonneg {n : Int} (h : 0 ≤ n) : (asU32 n : Int) = n := by
  rw [asU32, if_pos h, Int.toNat_of_nonneg h]

def mapDelivery (r : DeliveryRow) : Except DbError Delivery :=
  match getI32 r.attempts, getI32 r.maxAttempts with
  | .ok attempts, .ok maxAttempts => .ok {
      id := r.id
      idempotencyKey := r.idempotencyKey
      destination := r.destination
      payload := r.payload
      status := r.status
      attempts := asU32 attempts
      maxAttempts := asU32 maxAttempts
      nextRetryAt := r.nextRetryAt
      lastError := r.lastError
      createdAt := r.createdAt
      updatedAt := r.updatedAt }
  | .error e, _ => .error e
  | _, .error e => .error e

/-- The columns of a row that survive decoding. -/
theorem mapDelivery_ok {r : DeliveryRow} {d : Delivery} (h : mapDelivery r = .ok d) :
    d.id = r.id ∧ d.destination = r.destination ∧ d.payload = r.payload ∧
      d.attempts = asU32 r.attempts ∧ d.maxAttempts = asU32 r.maxAttempts ∧
      d.nextRetryAt = r.nextRetryAt := by
  unfold mapDelivery at h
  cases ha : getI32 r.attempts with
  | error e => simp [ha] at h
  | ok attempts =>
    cases hm : getI32 r.maxAttempts with
    | error e => simp [ha, hm] at h
    | ok maxAttempts =>
      simp only [ha, hm, Except.ok.injEq] at h
      subst h
      rw [getI32_ok ha, getI32_ok hm]
      exact ⟨rfl, rfl, rfl, rfl, rfl, rfl⟩

/-! ## Backoff and classification -/

/-- `n.checked_shl(k)` on `u64`: the bits shifted out are lost. -/
def checkedShl (n k : Nat) : Option Nat := if k < 64 then some (n * 2 ^ k % 2 ^ 64) else none

/-- `rnd` is the 64-bit output of the generator. -/
def uniformInclusive (rnd cap : Nat) : Nat := if cap = 2 ^ 64 - 1 then rnd else rnd % (cap + 1)

def nextDelayMs (attempt baseMs maxMs rnd : Nat) : Nat :=
  let exp := min (attempt - 1) 20
  let cap := min ((checkedShl baseMs exp).getD (2 ^ 64 - 1)) maxMs
  uniformInclusive rnd cap

inductive Outcome
  | delivered
  | retryable (err : String)
  | permanent (err : String)
  deriving DecidableEq

/-- `classify`.  A transport error takes precedence over the status. -/
def classify (status : Nat) : Option String → Outcome
  | some e => .retryable e
  | none =>
    if 200 ≤ status ∧ status ≤ 299 then .delivered
    else if status = 429 ∨ (500 ≤ status ∧ status ≤ 599) then .retryable s!"HTTP {status}"
    else .permanent s!"HTTP {status}"

/-- What the HTTP client reports of one request. -/
inductive Response
  | status (code : Nat)
  | failed (e : String)

/-- The end of `send`. -/
def Response.outcome : Response → Outcome
  | .status code => classify code none
  | .failed e => classify 0 (some e)

/-- The result of the checks `process` makes before it claims a delivery. -/
inductive Check
  | passed
  | badUrl
  | ssrf (e : String)
  deriving DecidableEq

/-- The error `process` dead-letters a delivery with, if a check fails. -/
def Check.reason : Check → Option String
  | .passed => none
  | .badUrl => some "ssrf: invalid destination url"
  | .ssrf e => some s!"ssrf: {e}"

end Q
end WebhookDelivery
