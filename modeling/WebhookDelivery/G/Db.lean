/-
The statements of the `g` service.

`reclaim` and `claim` are the two statements of `tick`, each atomic on its own.
The final statement of `process_job` and the one of `requeue_from_dlq` name a
row by its id and nothing else, and the first writes the attempts of the task's
copy, not those of the row.  The times they bind are sums of `i64`, which wrap.
-/
import WebhookDelivery.Run.Int64
import WebhookDelivery.Sql.Select
import WebhookDelivery.G.Model

namespace WebhookDelivery
namespace G

open Sql Run

abbrev Deliveries := Table DeliveryRow

def newRow (id destination payload : String) (maxAttempts now : Int) : DeliveryRow where
  id := id
  destination := destination
  payload := payload
  status := .pending
  attempts := 0
  maxAttempts := maxAttempts
  nextAttemptAt := now
  createdAt := now
  updatedAt := now
  deliveredAt := none
  lastError := none

/-! ## The worker's statements -/

/-- The row has been in processing since before the cutoff. -/
def isStale (cutoff : Int) (r : DeliveryRow) : Bool :=
  decide (r.status = .processing) && decide (r.updatedAt < cutoff)

def asReclaimed (now : Int) (r : DeliveryRow) : DeliveryRow :=
  { r with status := .pending, updatedAt := now }

def staleCutoff (cfg : Config) (now : Int) : Int :=
  wrapI64 (now - wrapI64 (cfg.visibilityTimeoutSecs * 1000))

def reclaim (cfg : Config) (now : Int) (t : Deliveries) : Deliveries :=
  t.update (isStale (staleCutoff cfg now)) (asReclaimed now)

def isDue (now : Int) (r : DeliveryRow) : Bool := r.status = .pending ∧ r.nextAttemptAt ≤ now

/-- `rows` is an answer of the inner `SELECT` of the claim. -/
def SelectsDue (t : Deliveries) (now limit : Int) (rows : List DeliveryRow) : Prop :=
  Ordered DeliveryRow.nextAttemptAt limit (t.select (isDue now)) rows

def asClaimed (now : Int) (r : DeliveryRow) : DeliveryRow :=
  { r with status := .processing, updatedAt := now }

/-- `UPDATE … WHERE id IN (…)`. -/
def claim (now : Int) (ids : List String) (t : Deliveries) : Deliveries :=
  t.update (fun r => decide (r.id ∈ ids)) (asClaimed now)

/-- The final statement of `process_job`, on the row it names.  `now` is the
clock reading before the delivery and `delay` what `backoff_ms` drew. -/
def asFinished (job : ClaimedJob) (now delay : Int) (res : Except String Unit)
    (r : DeliveryRow) : DeliveryRow :=
  let attempts := job.attempts + 1
  match res with
  | .ok _ =>
    { r with
      status := .delivered, attempts := attempts, deliveredAt := some now, updatedAt := now,
      lastError := none }
  | .error err =>
    if job.maxAttempts ≤ attempts then
      { r with
        status := .deadLettered, attempts := attempts, lastError := some err, updatedAt := now,
        deliveredAt := none }
    else
      { r with
        status := .pending, attempts := attempts, lastError := some err,
        nextAttemptAt := wrapI64 (now + delay), updatedAt := now }

theorem asFinished_id (job : ClaimedJob) (now delay : Int) (res : Except String Unit)
    (r : DeliveryRow) : (asFinished job now delay res r).id = r.id := by
  unfold asFinished
  cases res with
  | ok u => rfl
  | error err =>
    simp only
    split <;> rfl

def finish (job : ClaimedJob) (now delay : Int) (res : Except String Unit) (t : Deliveries) :
    Deliveries :=
  t.update (fun r => r.id = job.id) (asFinished job now delay res)
    (asFinished_id job now delay res)

/-! ## Requeueing and starting -/

def asRequeued (now : Int) (r : DeliveryRow) : DeliveryRow :=
  { r with
    status := .pending, attempts := 0, nextAttemptAt := now, updatedAt := now,
    lastError := none, deliveredAt := none }

def requeue (id : String) (now : Int) (t : Deliveries) : Deliveries :=
  t.update (fun r => r.id = id) (asRequeued now)

def isProcessing (r : DeliveryRow) : Bool := r.status = .processing

def resetProcessing (now : Int) (t : Deliveries) : Deliveries :=
  t.update isProcessing (asReclaimed now)

/-! ## What the statements do to a row -/

theorem isStale_iff {cutoff : Int} {r : DeliveryRow} :
    isStale cutoff r = true ↔ r.status = .processing ∧ r.updatedAt < cutoff := by
  simp [isStale]

theorem get?_reclaim (cfg : Config) (now : Int) (t : Deliveries) (k : String) :
    (reclaim cfg now t).get? k = (t.get? k).map fun r =>
      if isStale (staleCutoff cfg now) r then asReclaimed now r else r :=
  Table.get?_update t (isStale (staleCutoff cfg now)) (asReclaimed now) (fun _ => rfl) k

theorem get?_claim (now : Int) (ids : List String) (t : Deliveries) (k : String) :
    (claim now ids t).get? k = if k ∈ ids then (t.get? k).map (asClaimed now) else t.get? k := by
  refine (Table.get?_update t (fun r => decide (r.id ∈ ids)) (asClaimed now) (fun _ => rfl) k).trans
    ?_
  cases hr : t.get? k with
  | none => simp
  | some r =>
    have hid : r.id = k := Table.key_of_get? hr
    by_cases hk : k ∈ ids <;> simp [hid, hk]

theorem get?_finish (job : ClaimedJob) (now delay : Int) (res : Except String Unit)
    (t : Deliveries) (k : String) :
    (finish job now delay res t).get? k =
      if k = job.id then (t.get? job.id).map (asFinished job now delay res) else t.get? k :=
  Table.get?_update_at t job.id (asFinished job now delay res) (asFinished_id job now delay res) k

/-- The row a task names after its final statement. -/
theorem get?_finish_self {job : ClaimedJob} {t : Deliveries} {r : DeliveryRow}
    (hr : t.get? job.id = some r) (now delay : Int) (res : Except String Unit) :
    (finish job now delay res t).get? job.id = some (asFinished job now delay res r) := by
  rw [get?_finish, if_pos rfl, hr, Option.map_some]

theorem get?_requeue (id : String) (now : Int) (t : Deliveries) (k : String) :
    (requeue id now t).get? k = if k = id then (t.get? id).map (asRequeued now) else t.get? k :=
  Table.get?_update_at t id (asRequeued now) (fun _ => rfl) k

theorem get?_resetProcessing (now : Int) (t : Deliveries) (k : String) :
    (resetProcessing now t).get? k = (t.get? k).map fun r =>
      if isProcessing r then asReclaimed now r else r :=
  Table.get?_update t isProcessing (asReclaimed now) (fun _ => rfl) k

theorem SelectsDue.due {t : Deliveries} {now limit : Int} {rows : List DeliveryRow}
    (h : SelectsDue t now limit rows) {r : DeliveryRow} (hr : r ∈ rows) :
    t.get? r.id = some r ∧ r.status = .pending ∧ r.nextAttemptAt ≤ now := by
  obtain ⟨hmem, hdue⟩ := List.mem_filter.1 (h.mem hr)
  have hdue' : r.status = .pending ∧ r.nextAttemptAt ≤ now := by simpa [isDue] using hdue
  exact ⟨Table.get?_of_mem hmem, hdue'⟩

theorem SelectsDue.nodup {t : Deliveries} {now limit : Int} {rows : List DeliveryRow}
    (h : SelectsDue t now limit rows) : (rows.map DeliveryRow.id).Nodup :=
  h.nodup_map (t.nodup.sublist (List.filter_sublist.map _))

end G
end WebhookDelivery
