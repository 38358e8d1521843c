/-
The records of the `g` service.

Times are Unix milliseconds and ids are text.  The JSON values of a request stay
a parameter: the service stores their serialization and never reads it back.
-/
import Mathlib.Data.Int.Order.Basic
import WebhookDelivery.Sql.Table

namespace WebhookDelivery
namespace G

open Sql

/-- The values of serde_json and their compact text. -/
structure Json where
  Value : Type
  isNull : Value → Bool
  toString : Value → String

/-- The status column, by the constants of `models`. -/
inductive Status
  | pending
  | processing
  | delivered
  | deadLettered
  deriving DecidableEq

def Status.text : Status → String
  | .pending => "pending"
  | .processing => "processing"
  | .delivered => "delivered"
  | .deadLettered => "dead_lettered"

/-- A row of `deliveries`. -/
structure DeliveryRow where
  id : String
  destination : String
  payload : String
  status : Status
  attempts : Int
  maxAttempts : Int
  nextAttemptAt : Int
  createdAt : Int
  updatedAt : Int
  deliveredAt : Option Int
  lastError : Option String

instance : Keyed DeliveryRow String := ⟨DeliveryRow.id⟩

@[simp] theorem key_delivery (r : DeliveryRow) : key r = r.id := rfl

/-- A delivery as a task holds it. -/
structure ClaimedJob where
  id : String
  destination : String
  payload : String
  attempts : Int
  maxAttempts : Int
  deriving DecidableEq

def DeliveryRow.job (r : DeliveryRow) : ClaimedJob where
  id := r.id
  destination := r.destination
  payload := r.payload
  attempts := r.attempts
  maxAttempts := r.maxAttempts

structure Config where
  maxPayloadBytes : Nat
  maxAttempts : Int
  batchSize : Int
  visibilityTimeoutSecs : Int
  maxConcurrentDeliveries : Nat

inductive ApiError
  | badRequest (msg : String)
  | unprocessable (msg : String)
  | payloadTooLarge (msg : String)
  | notFound
  | conflict (msg : String)
  | internal (msg : String)
  deriving DecidableEq

/-! ## One delivery attempt -/

/-- What the HTTP client reports of one request. -/
inductive Response
  | status (code : Nat) (shown body : String)
  | failed (e : String)

/-- The first `max` characters of a text. -/
def truncate (s : String) (max : Nat) : String := String.ofList (s.toList.take max)

/-- `deliver_once`, from the check of the destination and the response on. -/
def deliverOnce (check : Except String Unit) (resp : Response) : Except String Unit :=
  match check with
  | .error reason => .error s!"destination rejected: {reason}"
  | .ok _ =>
    match resp with
    | .status code shown body =>
      if 200 ≤ code ∧ code < 300 then .ok ()
      else .error s!"destination responded with HTTP {shown}: {truncate body 200}"
    | .failed e => .error s!"request failed: {e}"

def succeeded : Except String Unit → Bool
  | .ok _ => true
  | .error _ => false

end G
end WebhookDelivery
