/-
The handlers of the `g` service that write or decide to.

`createWebhook` checks a request in the order of the source and inserts the row
last.  `requeueCheck` is the first statement of `requeue_from_dlq`, the only one
that looks at the status.
-/
import WebhookDelivery.G.Db

namespace WebhookDelivery
namespace G

open Sql

variable {J : Json}

/-- How the extractor of axum refuses a body. -/
structure Rejection where
  tooLarge : Bool
  text : String

variable (J) in
structure WebhookRequest where
  data : J.Value
  destination : String

structure EnqueueResponse where
  id : String
  status : Status

def Rejection.error (e : Rejection) : ApiError :=
  if e.tooLarge then .payloadTooLarge s!"request body exceeds the configured limit: {e.text}"
  else .badRequest s!"invalid request body: {e.text}"

/-- `check` is the answer of `validate_destination`, `id` the fresh uuid, and
`fault` the error of the `INSERT` if it fails. -/
def createWebhook (cfg : Config) (payload : Except Rejection (WebhookRequest J))
    (check : Except String Unit) (id : String) (now : Int) (fault : Option String)
    (t : Deliveries) : Except ApiError EnqueueResponse × Deliveries :=
  match payload with
  | .error e => (.error e.error, t)
  | .ok req =>
    if J.isNull req.data then (.error (.badRequest "'data' must not be null"), t)
    else
      match check with
      | .error reason => (.error (.unprocessable reason), t)
      | .ok _ =>
        let body := J.toString req.data
        if cfg.maxPayloadBytes < body.utf8ByteSize then
          (.error (.payloadTooLarge (s!"serialized payload is {body.utf8ByteSize} bytes, " ++
            s!"exceeding the maximum of {cfg.maxPayloadBytes} bytes")), t)
        else
          match fault, t.insert? (newRow id req.destination body cfg.maxAttempts now) with
          | some e, _ => (.error (.internal e), t)
          | none, none => (.error (.internal "UNIQUE constraint failed: deliveries.id"), t)
          | none, some t' => (.ok { id := id, status := .pending }, t')

/-- A 202 means that the row was inserted as the request has it; any other
answer leaves the table alone. -/
theorem createWebhook_spec (cfg : Config) (payload : Except Rejection (WebhookRequest J))
    (check : Except String Unit) (id : String) (now : Int) (fault : Option String)
    (t : Deliveries) {res : Except ApiError EnqueueResponse} {t' : Deliveries}
    (h : createWebhook cfg payload check id now fault t = (res, t')) :
    (∃ e, res = .error e ∧ t' = t) ∨
      ∃ req, payload = .ok req ∧ res = .ok { id := id, status := .pending } ∧
        t.insert? (newRow id req.destination (J.toString req.data) cfg.maxAttempts now)
          = some t' := by
  unfold createWebhook at h
  cases payload with
  | error e =>
    obtain ⟨rfl, rfl⟩ := Prod.mk.inj h
    exact .inl ⟨_, rfl, rfl⟩
  | ok req =>
    simp only at h
    split at h
    · obtain ⟨rfl, rfl⟩ := Prod.mk.inj h
      exact .inl ⟨_, rfl, rfl⟩
    · split at h
      · obtain ⟨rfl, rfl⟩ := Prod.mk.inj h
        exact .inl ⟨_, rfl, rfl⟩
      · split at h
        · obtain ⟨rfl, rfl⟩ := Prod.mk.inj h
          exact .inl ⟨_, rfl, rfl⟩
        · split at h
          · obtain ⟨rfl, rfl⟩ := Prod.mk.inj h
            exact .inl ⟨_, rfl, rfl⟩
          · obtain ⟨rfl, rfl⟩ := Prod.mk.inj h
            exact .inl ⟨_, rfl, rfl⟩
          · rename_i hins
            obtain ⟨rfl, rfl⟩ := Prod.mk.inj h
            exact .inr ⟨req, rfl, rfl, hins⟩

def requeueCheck (id : String) (t : Deliveries) : Except ApiError Unit :=
  match t.get? id with
  | none => .error .notFound
  | some r =>
    if r.status = .deadLettered then .ok ()
    else .error (.conflict
      s!"delivery is '{r.status.text}': only dead-lettered deliveries can be requeued")

theorem requeueCheck_ok {id : String} {t : Deliveries} (h : requeueCheck id t = .ok ()) :
    ∃ r, t.get? id = some r ∧ r.status = .deadLettered := by
  unfold requeueCheck at h
  cases hr : t.get? id with
  | none => simp [hr] at h
  | some r =>
    by_cases hst : r.status = .deadLettered
    · exact ⟨r, rfl, hst⟩
    · simp [hr, hst] at h

end G
end WebhookDelivery
