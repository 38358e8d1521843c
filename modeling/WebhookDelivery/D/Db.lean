/-
The statements of the `d` service.

Each is one SQL statement that commits by itself.  `move_to_dlq` is `insertDlq`
followed by `deleteJob`, and `redeliver` is `getDlq`, then `enqueue` of the new
job, then `deleteDlq`.  `none` is the constraint violation of an `INSERT`.
-/
import Mathlib.Data.String.Basic
import WebhookDelivery.Sql.Select
import WebhookDelivery.D.Model

namespace WebhookDelivery
namespace D

open Sql

structure Db where
  jobs : Table JobRow
  deadLetters : Table DlqRow

def Db.empty : Db := { jobs := Table.empty, deadLetters := Table.empty }

/-- The row of a job. -/
def Db.job (db : Db) (id : Uuid) : Option JobRow := db.jobs.get? id

/-- The row of a dead letter. -/
def Db.entry (db : Db) (id : Uuid) : Option DlqRow := db.deadLetters.get? id

variable {F : Formats}

def enqueue (db : Db) (job : WebhookJob F) : Option Db :=
  (db.jobs.insert? job.row).map fun t => { db with jobs := t }

/-! ## The worker's statements -/

/-- `status='Pending' AND next_attempt_at <= ?1`, which compares texts. -/
def isDue (now : String) (r : JobRow) : Bool := r.status = .pending ∧ r.nextAttemptAt ≤ now

/-- `res` is an answer of `fetch_due`. -/
def FetchesDue (F : Formats) (db : Db) (now limit : Int) (res : Option (List (WebhookJob F))) :
    Prop :=
  ∃ rows, Ordered JobRow.nextAttemptAt limit (db.jobs.select (isDue (F.toRfc3339 now))) rows ∧
    collect (rowToJob F) rows = res

/-- The assignments of `record_attempt`, with the time of the next attempt if
there is one. -/
def asAttempted (F : Formats) (attempts : Nat) (next : Option Int) (r : JobRow) : JobRow :=
  { r with
    attempts := attempts, nextAttemptAt := (next.map F.toRfc3339).getD r.nextAttemptAt }

def asDelivered (r : JobRow) : JobRow := { r with status := .delivered }

def recordAttempt (F : Formats) (db : Db) (id : Uuid) (attempts : Nat) (next : Option Int) : Db :=
  { db with jobs := db.jobs.update (fun r => r.id = id) (asAttempted F attempts next) }

def markDelivered (db : Db) (id : Uuid) : Db :=
  { db with jobs := db.jobs.update (fun r => r.id = id) asDelivered }

def dlqRow (entryId : Uuid) (job : WebhookJob F) (error : String) (now : Int) : DlqRow where
  id := entryId
  jobId := job.id
  payload := F.toString job.payload
  destination := job.destination
  attempts := job.attempts
  lastError := error
  movedAt := F.toRfc3339 now

/-- The first statement of `move_to_dlq`. -/
def insertDlq (db : Db) (entryId : Uuid) (job : WebhookJob F) (error : String) (now : Int) :
    Option Db :=
  (db.deadLetters.insert? (dlqRow entryId job error now)).map fun t =>
    { db with deadLetters := t }

/-- The second statement of `move_to_dlq`. -/
def deleteJob (db : Db) (id : Uuid) : Db :=
  { db with jobs := db.jobs.delete fun r => r.id = id }

/-! ## The statements of `redeliver` -/

/-- `get_dlq`: no row, or a row that may fail to decode. -/
def getDlq (F : Formats) (db : Db) (entryId : Uuid) : Option (Option (DqlEntry F)) :=
  match db.entry entryId with
  | none => some none
  | some r => (rowToDlq F r).map some

/-- The job `redeliver` makes of an entry. -/
def redelivered (entry : DqlEntry F) (id : Uuid) (maxAttempts : Nat) (now : Int) :
    WebhookJob F where
  id := id
  payload := entry.payload
  destination := entry.destination
  attempts := 0
  maxAttempts := maxAttempts
  nextAttemptAt := now
  createdAt := now
  status := .pending

/-- The last statement of `redeliver`. -/
def deleteDlq (db : Db) (entryId : Uuid) : Db :=
  { db with deadLetters := db.deadLetters.delete fun r => r.id = entryId }

/-! ## What the statements do to a row -/

theorem enqueue_some {db db' : Db} {job : WebhookJob F} (h : enqueue db job = some db')
    (k : Uuid) :
    db.job job.id = none ∧ db'.job k = (if job.id = k then some job.row else db.job k) ∧
      db'.deadLetters = db.deadLetters := by
  obtain ⟨t, ht, rfl⟩ := Option.map_eq_some_iff.1 h
  exact ⟨Table.get?_of_insert? ht, Table.get?_insert? ht k, rfl⟩

theorem insertDlq_some {db db' : Db} {entryId : Uuid} {job : WebhookJob F} {error : String}
    {now : Int} (h : insertDlq db entryId job error now = some db') (k : Uuid) :
    db.entry entryId = none ∧
      db'.entry k = (if entryId = k then some (dlqRow entryId job error now) else db.entry k) ∧
      db'.jobs = db.jobs := by
  obtain ⟨t, ht, rfl⟩ := Option.map_eq_some_iff.1 h
  exact ⟨Table.get?_of_insert? ht, Table.get?_insert? ht k, rfl⟩

/-- What an `UPDATE` of one row does to the rows. -/
theorem job_update (db : Db) (id : Uuid) (f : JobRow → JobRow) (hkey : ∀ r, key (f r) = key r)
    (k : Uuid) :
    Db.job { db with jobs := db.jobs.update (fun r => decide (key r = id)) f hkey } k =
      if k = id then (db.job id).map f else db.job k :=
  Table.get?_update_at db.jobs id f hkey k

theorem job_deleteJob (db : Db) (id k : Uuid) :
    (deleteJob db id).job k = if k = id then none else db.job k :=
  Table.get?_delete_at db.jobs id k

theorem entry_deleteDlq (db : Db) (entryId k : Uuid) :
    (deleteDlq db entryId).entry k = if k = entryId then none else db.entry k :=
  Table.get?_delete_at db.deadLetters entryId k

/-- The fields of a job in a batch are those of its row. -/
theorem FetchesDue.mem {db : Db} {now limit : Int} {jobs : List (WebhookJob F)}
    (h : FetchesDue F db now limit (some jobs)) {job : WebhookJob F} (hjob : job ∈ jobs) :
    ∃ r, db.job job.id = some r ∧ isDue (F.toRfc3339 now) r = true ∧
      rowToJob F r = some job := by
  obtain ⟨rows, hord, hcol⟩ := h
  obtain ⟨r, hr, hdec⟩ := mem_of_collect hcol hjob
  obtain ⟨hmem, hdue⟩ := List.mem_filter.1 (hord.mem hr)
  have hid : job.id = r.id := (rowToJob_some hdec).1
  exact ⟨r, hid ▸ Table.get?_of_mem hmem, hdue, hdec⟩

theorem FetchesDue.pending {db : Db} {now limit : Int} {jobs : List (WebhookJob F)}
    (h : FetchesDue F db now limit (some jobs)) {job : WebhookJob F} (hjob : job ∈ jobs) :
    ∃ r, db.job job.id = some r ∧ r.status = .pending ∧ rowToJob F r = some job := by
  obtain ⟨r, hr, hdue, hdec⟩ := h.mem hjob
  exact ⟨r, hr, (of_decide_eq_true hdue).1, hdec⟩

/-- A batch has no job twice. -/
theorem FetchesDue.nodup {db : Db} {now limit : Int} {jobs : List (WebhookJob F)}
    (h : FetchesDue F db now limit (some jobs)) : (jobs.map WebhookJob.id).Nodup := by
  obtain ⟨rows, hord, hcol⟩ := h
  rw [map_collect (g := JobRow.id) (fun r job hdec => (rowToJob_some hdec).1) hcol]
  exact hord.nodup_map (db.jobs.nodup.sublist (List.filter_sublist.map key))

theorem getDlq_some {db : Db} {entryId : Uuid} {e : DqlEntry F}
    (h : getDlq F db entryId = some (some e)) :
    e.id = entryId ∧ ∃ r, db.entry entryId = some r ∧ rowToDlq F r = some e := by
  unfold getDlq at h
  split at h
  · cases h
  · rename_i r hr
    have hdec : rowToDlq F r = some e := by simpa using h
    exact ⟨(rowToDlq_some hdec).1.trans (Table.key_of_get? hr), r, hr, hdec⟩

end D
end WebhookDelivery
