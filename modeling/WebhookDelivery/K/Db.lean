/-
The job-queue statements of the `k` service.

Each function is one method of `Db` with the clock reading it takes as an
argument.  `claimDueJobs` runs in one transaction: an error at any statement or
row leaves the table as it was.  The other writes name a row by its id and
nothing else, except `requeueDead`, which also asks for the status.
-/
import WebhookDelivery.Sql.Select
import WebhookDelivery.K.Model

namespace WebhookDelivery
namespace K

open Sql

variable {F : Formats}

abbrev Jobs (F : Formats) := Table (JobRow F)

/-- The row `INSERT` writes: pending, never attempted, due at once. -/
def newRow (id : Uuid) (destination : String) (payload : F.Value) (maxAttempts : Int)
    (now : F.DateTime) : JobRow F where
  id := id
  destination := destination
  payload := F.toString payload
  status := .pending
  attempts := 0
  maxAttempts := maxAttempts
  nextAttemptAt := F.fmtTs now
  lastError := none
  createdAt := F.fmtTs now
  updatedAt := F.fmtTs now

def insertJob (t : Jobs F) (id : Uuid) (destination : String) (payload : F.Value)
    (maxAttempts : Int) (now : F.DateTime) : Option (Jobs F) :=
  t.insert? (newRow id destination payload maxAttempts now)

/-! ## Claiming -/

def isDue (now : F.Stamp) (r : JobRow F) : Bool :=
  r.status = .pending ∧ r.nextAttemptAt ≤ now

/-- `rows` is an answer of the `SELECT` in `claim_due_jobs`. -/
def SelectsDue (t : Jobs F) (now : F.DateTime) (n : Int) (rows : List (JobRow F)) : Prop :=
  Ordered JobRow.nextAttemptAt n (t.select (isDue (F.fmtTs now))) rows

def asClaimed (now : F.DateTime) (r : JobRow F) : JobRow F :=
  { r with status := .inFlight, attempts := r.attempts + 1, updatedAt := F.fmtTs now }

/-- A claim changes none of the columns it needs to read. -/
theorem readable_asClaimed (now : F.DateTime) (r : JobRow F) :
    Readable (asClaimed now r) ↔ Readable r :=
  ⟨fun h => ⟨h.payload, h.nextAttemptAt, h.createdAt⟩,
    fun h => ⟨h.payload, h.nextAttemptAt, h.createdAt⟩⟩

/-- The statements of `claim_due_jobs` that can fail. -/
inductive Statement
  | begin
  | select
  | update (id : Uuid)
  | commit
  deriving DecidableEq

/-- The loop of `claim_due_jobs`: `UPDATE … RETURNING` and `row_to_job` for one
id after the other. -/
def claimLoop (fault : Option Statement) (now : F.DateTime) :
    List Uuid → Jobs F → Except DbError (List (Job F) × Jobs F)
  | [], t => .ok ([], t)
  | id :: ids, t =>
    if fault = some (.update id) then .error .database
    else
      let t' := t.update (fun r => r.id = id) (asClaimed now)
      match t'.get? id with
      | none => .error .rowNotFound
      | some updated =>
        match rowToJob updated with
        | .error e => .error e
        | .ok job =>
          match claimLoop fault now ids t' with
          | .error e => .error e
          | .ok (jobs, t'') => .ok (job :: jobs, t'')

/-- `claim_due_jobs` on the rows its `SELECT` returned.  The transaction is
dropped on every error, so the table the loop was working on is lost. -/
def claimDueJobs (fault : Option Statement) (now : F.DateTime) (rows : List (JobRow F))
    (t : Jobs F) : Except DbError (List (Job F)) × Jobs F :=
  if fault = some .begin ∨ fault = some .select then (.error .database, t)
  else
    match claimLoop fault now (rows.map JobRow.id) t with
    | .error e => (.error e, t)
    | .ok (jobs, t') =>
      if fault = some .commit then (.error .database, t) else (.ok jobs, t')

/-! ## Outcomes and requeueing -/

def asDelivered (now : F.DateTime) (r : JobRow F) : JobRow F :=
  { r with status := .delivered, lastError := none, updatedAt := F.fmtTs now }

def asRescheduled (nextAttemptAt : F.DateTime) (error : String) (now : F.DateTime)
    (r : JobRow F) : JobRow F :=
  { r with
    status := .pending, nextAttemptAt := F.fmtTs nextAttemptAt, lastError := some error,
    updatedAt := F.fmtTs now }

def asDead (error : String) (now : F.DateTime) (r : JobRow F) : JobRow F :=
  { r with status := .dead, lastError := some error, updatedAt := F.fmtTs now }

def asRequeued (now : F.DateTime) (r : JobRow F) : JobRow F :=
  { r with
    status := .pending, attempts := 0, nextAttemptAt := F.fmtTs now, lastError := none,
    updatedAt := F.fmtTs now }

def markDelivered (t : Jobs F) (id : Uuid) (now : F.DateTime) : Jobs F :=
  t.update (fun r => r.id = id) (asDelivered now)

def rescheduleJob (t : Jobs F) (id : Uuid) (nextAttemptAt : F.DateTime) (error : String)
    (now : F.DateTime) : Jobs F :=
  t.update (fun r => r.id = id) (asRescheduled nextAttemptAt error now)

def markDead (t : Jobs F) (id : Uuid) (error : String) (now : F.DateTime) : Jobs F :=
  t.update (fun r => r.id = id) (asDead error now)

def isDead (id : Uuid) (r : JobRow F) : Bool := decide (r.id = id) && decide (r.status = .dead)

def requeueDead (t : Jobs F) (id : Uuid) (now : F.DateTime) : Bool × Jobs F :=
  (decide (0 < t.affected (isDead id)), t.update (isDead id) (asRequeued now))

/-! ## What the statements do to a row -/

theorem isDue_iff {now : F.Stamp} {r : JobRow F} :
    isDue now r = true ↔ r.status = .pending ∧ r.nextAttemptAt ≤ now := by
  simp [isDue]

theorem SelectsDue.pending {t : Jobs F} {now : F.DateTime} {n : Int} {rows : List (JobRow F)}
    (h : SelectsDue t now n rows) {r : JobRow F} (hr : r ∈ rows) :
    t.get? r.id = some r ∧ r.status = .pending ∧ r.nextAttemptAt ≤ F.fmtTs now := by
  have hm := List.mem_filter.1 (h.mem hr)
  exact ⟨Table.get?_of_mem hm.1, isDue_iff.1 hm.2⟩

theorem SelectsDue.nodup {t : Jobs F} {now : F.DateTime} {n : Int} {rows : List (JobRow F)}
    (h : SelectsDue t now n rows) : (rows.map JobRow.id).Nodup :=
  h.nodup_map (t.nodup.sublist (List.filter_sublist.map _))

/-- The rows the loop has passed are claimed once, the others are untouched, and
each job returned is its claimed row. -/
theorem claimLoop_ok {fault : Option Statement} {now : F.DateTime} {ids : List Uuid}
    {t t' : Jobs F} {jobs : List (Job F)} (hnd : ids.Nodup)
    (h : claimLoop fault now ids t = .ok (jobs, t')) :
    (∀ k, k ∉ ids → t'.get? k = t.get? k) ∧
      (∀ k ∈ ids, ∃ r, t.get? k = some r ∧ t'.get? k = some (asClaimed now r)) ∧
      jobs.map Job.id = ids ∧
      ∀ job ∈ jobs, ∃ r, t.get? job.id = some r ∧ rowToJob (asClaimed now r) = .ok job := by
  induction ids generalizing t jobs with
  | nil =>
    simp only [claimLoop, Except.ok.injEq, Prod.mk.injEq] at h
    obtain ⟨rfl, rfl⟩ := h
    exact ⟨fun _ _ => rfl, fun _ hk => absurd hk List.not_mem_nil, rfl,
      fun _ hj => absurd hj List.not_mem_nil⟩
  | cons id ids ih =>
    rw [List.nodup_cons] at hnd
    unfold claimLoop at h
    split at h
    · cases h
    · let t₁ : Jobs F := t.update (fun r => r.id = id) (asClaimed now)
      have hne : ∀ k, k ≠ id → t₁.get? k = t.get? k := by
        intro k hk
        refine Table.get?_update_of_not fun r hr => ?_
        have hrk : r.id = k := Table.key_of_get? hr
        simpa [hrk] using hk
      cases hg : t.get? id with
      | none =>
        have hg' : t₁.get? id = none := Table.get?_update_none.2 hg
        simp only [show (t.update (fun r => r.id = id) (asClaimed now)).get? id
          = none from hg'] at h
        cases h
      | some r =>
        have hid : r.id = id := Table.key_of_get? hg
        have hg' : t₁.get? id = some (asClaimed now r) :=
          Table.get?_update_of hg (by simpa using hid)
        simp only [show (t.update (fun r => r.id = id) (asClaimed now)).get? id
          = some (asClaimed now r) from hg'] at h
        cases hj : rowToJob (asClaimed now r) with
        | error e => simp [hj] at h
        | ok job =>
          simp only [hj] at h
          cases hl : claimLoop fault now ids t₁ with
          | error e => simp [t₁, hl] at h
          | ok res =>
            obtain ⟨jobs', t''⟩ := res
            simp only [t₁, hl, Except.ok.injEq, Prod.mk.injEq] at h
            obtain ⟨rfl, rfl⟩ := h
            obtain ⟨hout, hin, hids, hall⟩ := ih hnd.2 hl
            have hjid : job.id = id := (rowToJob_ok hj).1.trans hid
            refine ⟨?_, ?_, ?_, ?_⟩
            · intro k hk
              rw [List.mem_cons, not_or] at hk
              rw [hout k hk.2, hne k hk.1]
            · intro k hk
              rcases List.mem_cons.1 hk with rfl | hk
              · exact ⟨r, hg, by rw [hout k hnd.1, hg']⟩
              · have hkid : k ≠ id := fun e => hnd.1 (e ▸ hk)
                obtain ⟨r', hr', hr''⟩ := hin k hk
                exact ⟨r', by rw [← hne k hkid, hr'], hr''⟩
            · rw [List.map_cons, hjid, hids]
            · intro job' hjob'
              rcases List.mem_cons.1 hjob' with rfl | hjob'
              · exact ⟨r, by rw [hjid, hg], hj⟩
              · have hmem : job'.id ∈ ids := hids ▸ List.mem_map_of_mem hjob'
                have hkid : job'.id ≠ id := fun e => hnd.1 (e ▸ hmem)
                obtain ⟨r', hr', hj'⟩ := hall job' hjob'
                exact ⟨r', by rw [← hne _ hkid, hr'], hj'⟩

theorem claimDueJobs_error {fault : Option Statement} {now : F.DateTime}
    {rows : List (JobRow F)} {t t' : Jobs F} {e : DbError}
    (h : claimDueJobs fault now rows t = (.error e, t')) : t' = t := by
  unfold claimDueJobs at h
  split at h
  · exact (Prod.mk.inj h).2.symm
  · split at h
    · exact (Prod.mk.inj h).2.symm
    · split at h
      · exact (Prod.mk.inj h).2.symm
      · cases (Prod.mk.inj h).1

theorem claimDueJobs_ok {fault : Option Statement} {now : F.DateTime}
    {rows : List (JobRow F)} {t t' : Jobs F} {jobs : List (Job F)}
    (h : claimDueJobs fault now rows t = (.ok jobs, t')) :
    claimLoop fault now (rows.map JobRow.id) t = .ok (jobs, t') := by
  unfold claimDueJobs at h
  split at h
  · cases (Prod.mk.inj h).1
  · split at h
    · cases (Prod.mk.inj h).1
    · rename_i jobs' t'' hl
      split at h
      · cases (Prod.mk.inj h).1
      · obtain ⟨h1, rfl⟩ := Prod.mk.inj h
        cases h1
        exact hl

theorem get?_requeueDead (t : Jobs F) (id : Uuid) (now : F.DateTime) (k : Uuid) :
    (requeueDead t id now).2.get? k =
      if k = id then (t.get? id).map fun r => if r.status = .dead then asRequeued now r else r
      else t.get? k := by
  refine (Table.get?_update_key t id (fun r => decide (r.status = .dead)) (asRequeued now)
    (fun _ => rfl) k).trans ?_
  simp

/-- `requeue_dead` reports whether the job is dead. -/
theorem requeueDead_fst (t : Jobs F) (id : Uuid) (now : F.DateTime) :
    (requeueDead t id now).1 = true ↔ ∃ r, t.get? id = some r ∧ r.status = .dead := by
  have h : t.affected (isDead id) = if (t.get? id).any (fun r => decide (r.status = .dead))
      then 1 else 0 := Table.affected_key t id fun r => decide (r.status = .dead)
  simp only [requeueDead, h, decide_eq_true_eq]
  cases hg : t.get? id with
  | none => simp
  | some r => by_cases hr : r.status = .dead <;> simp [hr]

end K
end WebhookDelivery
