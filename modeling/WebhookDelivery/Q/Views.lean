/-
What `GET /deliveries/{id}` of `q` shows.

The handler renders the row as it finds it, so what it shows can be told from the run.  It
has nothing to show for a row whose counters do not fit, which it answers like a failure of
the database.
-/
import WebhookDelivery.Q.Completeness
import WebhookDelivery.Q.Ledger
import WebhookDelivery.Q.Listing
import WebhookDelivery.Q.Webhook

namespace WebhookDelivery
namespace Q

open Sql Run

/-- What `payload_value` uses: `serde_json::from_slice`, `Value::String` and
`String::from_utf8_lossy`. -/
structure Json (J : Type) where
  fromSlice : List UInt8 → Option J
  string : String → J
  fromUtf8Lossy : List UInt8 → String

variable {J : Type}

def payloadValue (json : Json J) (payload : List UInt8) : J :=
  (json.fromSlice payload).getD (json.string (json.fromUtf8Lossy payload))

structure DeliveryResponse (J : Type) where
  id : Uuid
  idempotencyKey : Option String
  destination : String
  payload : J
  status : DeliveryStatus
  attempts : Nat
  maxAttempts : Nat
  nextRetryAt : Int
  lastError : Option String
  createdAt : Int
  updatedAt : Int

/-- `DeliveryResponse::from`. -/
def Delivery.response (json : Json J) (d : Delivery) : DeliveryResponse J where
  id := d.id
  idempotencyKey := d.idempotencyKey
  destination := d.destination
  payload := payloadValue json d.payload
  status := d.status
  attempts := d.attempts
  maxAttempts := d.maxAttempts
  nextRetryAt := d.nextRetryAt
  lastError := d.lastError
  createdAt := d.createdAt
  updatedAt := d.updatedAt

/-- The handler of `GET /deliveries/{id}`. -/
def getDelivery (json : Json J) (text : DbError → String) (headers : HeaderMap)
    (adminKey : String) (db : Db) (id : Uuid) : Except ApiError (DeliveryResponse J) :=
  match requireAdmin headers adminKey with
  | .error e => .error e
  | .ok _ =>
    match find db id with
    | .error e => .error (dbErr text e)
    | .ok none => .error (.notFound "unknown delivery id")
    | .ok (some d) => .ok (d.response json)

variable {ω : Type}

/-- What a delivery that is shown has behind it in the history. -/
structure Told (json : Json J) (h : List (Label ω)) (v : DeliveryResponse J) : Prop where
  submitted : ∃ d now, .insert d now ∈ h ∧ d.id = v.id ∧ v.idempotencyKey = d.idempotencyKey ∧
    v.destination = d.destination ∧ v.payload = payloadValue json d.payload ∧
    v.maxAttempts = d.maxAttempts ∧ v.createdAt = now
  delivered : v.status = .delivered → v.lastError = none ∧ 1 ≤ v.attempts ∧
    ∃ w d n, .send w d n .delivered ∈ h ∧ d.id = v.id
  dead : v.status = .deadLetter → FailedWith h v.id v.lastError

/-- A delivery that is done shows no error and has been attempted. -/
theorem delivered_row {ops : List Op} {db : Db} (h : operations.Reaches ops db) :
    ∀ k r, db.row k = some r → r.status = .delivered → r.lastError = none ∧ 1 ≤ r.attempts := by
  refine h.invariant (I := fun _ db => ∀ k r, db.row k = some r → r.status = .delivered →
    r.lastError = none ∧ 1 ≤ r.attempts) ?_ ?_
  · rintro db rfl k r hr
    cases hr
  · rintro ops db op db' hreach hI rfl k r' hr' hdone
    rcases Op.row_run hr' with ⟨d, now, rfl, -, -, rfl⟩ | ⟨r, hr, hrewrites⟩
    · cases hdone
    · have hcounts := (sourced hreach k r hr).counts
      cases hrewrites with
      | same => exact hI k _ hr hdone
      | delivered now => exact ⟨rfl, Int.le_add_of_nonneg_left hcounts.1⟩
      | claimed | retried | deadLettered | replayed | reset => cases hdone

variable [DecidableEq ω]

theorem inserted_of_row {h : List (Label ω)} {s : State ω} (hs : (system ω).Reaches h s)
    {id : Uuid} {r : DeliveryRow} (hr : s.db.row id = some r) :
    ∃ d now, .insert d now ∈ h ∧ d.id = id ∧ r.submitted = (newRow d now).submitted := by
  have hcount := (deliveries_honest hs).once id
  rw [hr, Option.isSome_some, if_pos rfl] at hcount
  obtain ⟨l, hl, hins⟩ := List.countP_pos_iff.1 (hcount ▸ Nat.one_pos)
  cases l with
  | insert d now =>
    obtain rfl : d.id = id := of_decide_eq_true hins
    obtain ⟨r', hr', hsub⟩ := (deliveries_honest hs).stored d now hl
    obtain rfl := Option.some.inj (hr.symm.trans hr')
    exact ⟨d, now, hl, rfl, hsub⟩
  | _ => cases hins

theorem told_of_row (json : Json J) {h : List (Label ω)} {s : State ω}
    (hs : (system ω).Reaches h s) {id : Uuid} {r : DeliveryRow} (hr : s.db.row id = some r) :
    Told json h (r.delivery.response json) := by
  obtain rfl : r.id = id := Table.key_of_get? hr
  constructor
  · obtain ⟨d, now, hmem, hid, hsub⟩ := inserted_of_row hs hr
    have hmax : r.maxAttempts = d.maxAttempts := congrArg Submitted.maxAttempts hsub
    refine ⟨d, now, hmem, hid, congrArg Submitted.idempotencyKey hsub,
      congrArg Submitted.destination hsub,
      congrArg (payloadValue json ∘ Submitted.payload) hsub, ?_,
      congrArg Submitted.createdAt hsub⟩
    show r.maxAttempts.toNat = d.maxAttempts
    rw [hmax, Int.toNat_natCast]
  · intro hdone
    obtain ⟨ops, hops⟩ := operations_of_reaches hs
    obtain ⟨herr, hone⟩ := delivered_row hops r.id r hr hdone
    refine ⟨herr, ?_, (deliveries_honest hs).delivered r.id r hr hdone⟩
    show 1 ≤ r.attempts.toNat
    omega
  · exact (deliveries_honest hs).dead r.id r hr

/-- `GET /deliveries/{id}` answers an admin 404 for the ids that were never stored, 500 for a
row whose counters do not fit, and else 200 with what is so: the submission as it was made, and
for an outcome the send or the check that it is owed to. -/
theorem get_delivery_exact (json : Json J) (text : DbError → String) (headers : HeaderMap)
    (adminKey : String) {h : List (Label ω)} {s : State ω} (hs : (system ω).Reaches h s)
    (id : Uuid) :
    (requireAdmin headers adminKey = .error .unauthorized ∧
      getDelivery json text headers adminKey s.db id = .error .unauthorized) ∨
    (requireAdmin headers adminKey = .ok () ∧
      ((h.countP (Label.inserts id) = 0 ∧ getDelivery json text headers adminKey s.db id =
          .error (.notFound "unknown delivery id")) ∨
        (h.countP (Label.inserts id) = 1 ∧ (∃ r, s.db.row id = some r ∧ ¬r.Fits) ∧
          getDelivery json text headers adminKey s.db id = .error (dbErr text .sqlite)) ∨
        ∃ v, h.countP (Label.inserts id) = 1 ∧
          getDelivery json text headers adminKey s.db id = .ok v ∧ v.id = id ∧
          Told json h v)) := by
  have hcount := (deliveries_honest hs).once id
  by_cases hadmin : adminAuthorized headers adminKey = true
  · have hok : requireAdmin headers adminKey = .ok () := if_pos hadmin
    refine .inr ⟨hok, ?_⟩
    cases hr : s.db.row id with
    | none =>
      rw [hr] at hcount
      exact .inl ⟨hcount, by simp only [getDelivery, hok, find, hr]⟩
    | some r =>
      rw [hr, Option.isSome_some, if_pos rfl] at hcount
      by_cases hfits : r.Fits
      · obtain ⟨ops, hops⟩ := operations_of_reaches hs
        have hmap := mapDelivery_of_fits (sourced hops id r hr).counts hfits
        refine .inr (.inr ⟨r.delivery.response json, hcount, ?_, Table.key_of_get? hr,
          told_of_row json hs hr⟩)
        simp only [getDelivery, hok, find, hr, hmap, Except.map]
      · refine .inr (.inl ⟨hcount, ⟨r, rfl, hfits⟩, ?_⟩)
        simp only [getDelivery, hok, find, hr, mapDelivery_of_not_fits hfits, Except.map]
  · have hno : requireAdmin headers adminKey = .error .unauthorized := if_neg hadmin
    exact .inl ⟨hno, by simp only [getDelivery, hno]⟩

end Q
end WebhookDelivery
