/-
What a task's copy still says about its row.

No statement deletes a delivery or assigns the columns of its submission, so a
task has the destination, the payload and the limit of its row however long it
has waited.
-/
import WebhookDelivery.G.Worker

namespace WebhookDelivery
namespace G

open Sql Run

/-- `r'` differs from `r` only in what the worker and the requeues write. -/
structure DeliveryRow.Same (r r' : DeliveryRow) : Prop where
  id : r'.id = r.id
  destination : r'.destination = r.destination
  payload : r'.payload = r.payload
  maxAttempts : r'.maxAttempts = r.maxAttempts
  createdAt : r'.createdAt = r.createdAt

theorem DeliveryRow.Same.refl (r : DeliveryRow) : r.Same r := ⟨rfl, rfl, rfl, rfl, rfl⟩

theorem same_asFinished (job : ClaimedJob) (now delay : Int) (res : Except String Unit)
    (r : DeliveryRow) : r.Same (asFinished job now delay res r) := by
  unfold asFinished
  cases res with
  | ok u => exact ⟨rfl, rfl, rfl, rfl, rfl⟩
  | error err =>
    simp only
    split <;> exact ⟨rfl, rfl, rfl, rfl, rfl⟩

variable {J : Json}

/-- What a claim does: its jobs are rows that were pending and due and are now
in processing, each once; every other row is as it was. -/
theorem claim_spec {t : Deliveries} {now limit : Int} {rows : List DeliveryRow}
    {jobs : List ClaimedJob} (hsel : SelectsDue t now limit rows)
    (hjobs : jobs.Perm (rows.map DeliveryRow.job)) :
    (jobs.map ClaimedJob.id).Nodup ∧
      (∀ job ∈ jobs, ∃ r, t.get? job.id = some r ∧ r.status = .pending ∧
        r.nextAttemptAt ≤ now ∧ job = r.job ∧
        (claim now (rows.map DeliveryRow.id) t).get? job.id = some (asClaimed now r)) ∧
      ∀ k, k ∉ jobs.map ClaimedJob.id →
        (claim now (rows.map DeliveryRow.id) t).get? k = t.get? k := by
  have hids : (jobs.map ClaimedJob.id).Perm (rows.map DeliveryRow.id) := by
    have h := hjobs.map ClaimedJob.id
    rwa [List.map_map] at h
  refine ⟨hids.nodup_iff.2 hsel.nodup, fun job hjob => ?_, fun k hk => ?_⟩
  · obtain ⟨r, hr, rfl⟩ := List.mem_map.1 (hjobs.mem_iff.1 hjob)
    obtain ⟨hget, hpend, hdue⟩ := hsel.due hr
    refine ⟨r, hget, hpend, hdue, rfl, ?_⟩
    have hmem : r.job.id ∈ rows.map DeliveryRow.id := List.mem_map.2 ⟨r, hr, rfl⟩
    rw [get?_claim, if_pos hmem]
    exact congrArg (Option.map (asClaimed now)) hget
  · rw [get?_claim, if_neg fun hmem => hk (hids.mem_iff.2 hmem)]

/-- What a step does to the row of `id`: it is accepted, or the other columns of
it are assigned. -/
theorem Step.row {s t : State} {l : Label J} (hst : Step s l t) (id : String) :
    (∃ cfg req now, l = .createWebhook cfg (.ok req) now (.ok { id := id, status := .pending }) ∧
      s.table.get? id = none ∧ t.table.get? id =
        some (newRow id req.destination (J.toString req.data) cfg.maxAttempts now)) ∨
    ∃ f : DeliveryRow → DeliveryRow, (∀ r, DeliveryRow.Same r (f r)) ∧
      t.table.get? id = (s.table.get? id).map f := by
  have hkeep : t.table.get? id = s.table.get? id →
      ∃ f : DeliveryRow → DeliveryRow, (∀ r, DeliveryRow.Same r (f r)) ∧
        t.table.get? id = (s.table.get? id).map f :=
    fun h => ⟨fun r => r, .refl, h.trans Option.map_id'.symm⟩
  cases hst with
  | createWebhook payload check id' now fault res t' hcreate =>
    rcases createWebhook_spec _ _ _ _ _ _ _ hcreate with ⟨e, rfl, rfl⟩ | ⟨req, rfl, rfl, hins⟩
    · exact .inr (hkeep rfl)
    · by_cases hid : id' = id
      · subst hid
        refine .inl ⟨s.cfg, req, now, rfl, Table.get?_of_insert? hins, ?_⟩
        exact (Table.get?_insert? hins id').trans (if_pos rfl)
      · exact .inr (hkeep ((Table.get?_insert? hins id).trans (if_neg hid)))
  | reclaim now htick =>
    refine .inr ⟨_, fun r => ?_, get?_reclaim s.cfg now s.table id⟩
    split <;> exact ⟨rfl, rfl, rfl, rfl, rfl⟩
  | claim now rows jobs htick hsel hjobs =>
    have hrow := get?_claim now (rows.map DeliveryRow.id) s.table id
    by_cases hid : id ∈ rows.map DeliveryRow.id
    · exact .inr ⟨asClaimed now, fun r => ⟨rfl, rfl, rfl, rfl, rfl⟩, hrow.trans (if_pos hid)⟩
    · exact .inr (hkeep (hrow.trans (if_neg hid)))
  | finish pre post job claimedAt now delay res htasks =>
    have hrow := get?_finish job now delay res s.table id
    by_cases hid : id = job.id
    · refine .inr ⟨asFinished job now delay res, same_asFinished job now delay res, ?_⟩
      exact hrow.trans (by rw [if_pos hid, hid])
    · exact .inr (hkeep (hrow.trans (if_neg hid)))
  | requeueUpdate id' now hmem =>
    have hrow := get?_requeue id' now s.table id
    by_cases hid : id = id'
    · refine .inr ⟨asRequeued now, fun r => ⟨rfl, rfl, rfl, rfl, rfl⟩, ?_⟩
      exact hrow.trans (by rw [if_pos hid, hid])
    · exact .inr (hkeep (hrow.trans (if_neg hid)))
  | restart cfg now =>
    refine .inr ⟨_, fun r => ?_, get?_resetProcessing now s.table id⟩
    split <;> exact ⟨rfl, rfl, rfl, rfl, rfl⟩
  | tickFailed | deliverOnce | finishFailed | requeueCheck | requeueFailed =>
    exact .inr (hkeep rfl)

/-- A row stays, with the columns of its submission. -/
theorem Step.same {s t : State} {l : Label J} (hst : Step s l t) {id : String}
    {r : DeliveryRow} (hr : s.table.get? id = some r) :
    ∃ r', t.table.get? id = some r' ∧ r.Same r' := by
  rcases hst.row id with ⟨cfg, req, now, -, hnone, -⟩ | ⟨f, hf, hrow⟩
  · rw [hr] at hnone
    cases hnone
  · exact ⟨f r, by rw [hrow, hr, Option.map_some], hf r⟩

/-! ## The tasks of a step -/

/-- The tasks after a step are the jobs just claimed, tasks that were there, and
the task whose call has just returned. -/
theorem Step.tasks {s t : State} {l : Label J} (hst : Step s l t) {k : Task}
    (hk : k ∈ t.tasks) :
    k ∈ s.tasks ∨
    (∃ now jobs, l = .claim now jobs ∧ k.job ∈ jobs ∧ k = Task.spawn now k.job) ∨
    (∃ now res, l = .deliverOnce k.job now res ∧ k.pc = .called now res ∧
      ⟨k.job, k.claimedAt, .waiting⟩ ∈ s.tasks) := by
  cases hst with
  | claim now rows jobs htick hsel hjobs =>
    rcases List.mem_append.1 hk with hk | hk
    · exact .inl hk
    · obtain ⟨job, hjob, rfl⟩ := List.mem_map.1 hk
      exact .inr (.inl ⟨now, jobs, rfl, hjob, rfl⟩)
  | deliverOnce pre post job claimedAt now check resp htasks hperm =>
    rcases List.mem_append.1 hk with hk | hk
    · exact .inl (htasks ▸ List.mem_append_left _ hk)
    · rcases List.mem_cons.1 hk with rfl | hk
      · exact .inr (.inr ⟨now, _, rfl, rfl, htasks ▸ by simp⟩)
      · exact .inl (htasks ▸ List.mem_append_right _ (List.mem_cons_of_mem _ hk))
  | finish pre post job claimedAt now delay res htasks
  | finishFailed pre post job claimedAt now res htasks =>
    rcases List.mem_append.1 hk with hk | hk
    · exact .inl (htasks ▸ List.mem_append_left _ hk)
    · exact .inl (htasks ▸ List.mem_append_right _ (List.mem_cons_of_mem _ hk))
  | restart cfg now => exact absurd hk List.not_mem_nil
  | createWebhook | reclaim | tickFailed | requeueCheck | requeueUpdate | requeueFailed =>
    exact .inl hk

/-- Each task has a row, with the destination, the payload and the limit of its
copy. -/
def Snapshots (s : State) : Prop :=
  ∀ k ∈ s.tasks, ∃ r, s.table.get? k.id = some r ∧ r.destination = k.job.destination ∧
    r.payload = k.job.payload ∧ r.maxAttempts = k.job.maxAttempts

theorem Snapshots.step {s t : State} {l : Label J} (hs : Snapshots s) (hst : Step s l t) :
    Snapshots t := by
  intro k hk
  have hrow : ∃ r, s.table.get? k.id = some r ∧ r.destination = k.job.destination ∧
      r.payload = k.job.payload ∧ r.maxAttempts = k.job.maxAttempts := by
    rcases hst.tasks hk with hk | ⟨now, jobs, rfl, hjob, -⟩ | ⟨now, res, -, -, hk⟩
    · exact hs k hk
    · cases hst with
      | claim _ rows _ htick hsel hjobs =>
        obtain ⟨r, hr, -, -, hjr, -⟩ := (claim_spec hsel hjobs).2.1 k.job hjob
        exact ⟨r, hr, by rw [hjr]; rfl, by rw [hjr]; rfl, by rw [hjr]; rfl⟩
    · exact hs ⟨k.job, k.claimedAt, .waiting⟩ hk
  obtain ⟨r, hr, hdest, hpay, hmax⟩ := hrow
  obtain ⟨r', hr', hsame⟩ := hst.same hr
  exact ⟨r', hr', hsame.destination.trans hdest, hsame.payload.trans hpay,
    hsame.maxAttempts.trans hmax⟩

theorem snapshots {h : List (Label J)} {s : State} (hs : (system J).Reaches h s) :
    Snapshots s := by
  refine hs.invariant (I := fun _ s => Snapshots s) (fun s hinit k hk => ?_)
    (fun _ _ _ _ _ hI hst => hI.step hst)
  rw [hinit.2.2.1] at hk
  exact absurd hk List.not_mem_nil

end G
end WebhookDelivery
