/-
A claimed job belongs to one worker.

The outcome writes of `handle_one` name a row by its id alone.  They are safe
because of an invariant of the whole service: no job is in two batches, and the
row of a job in a batch is in flight with the attempts of the worker's copy.
`claim_due_jobs` takes pending rows only and `requeue_dead` dead rows only, so
neither touches a row that is held.

`RowStep` says once what a step makes of one row; what later modules need of rows
follows from it by cases.
-/
import WebhookDelivery.Run.Ownership
import WebhookDelivery.K.Worker

namespace WebhookDelivery
namespace K

open Sql Run

variable {F : Formats} {ω : Type}

def asOutcome (job : Job F) (res : Except DeliveryError Unit) (nextAttemptAt now : F.DateTime)
    (r : JobRow F) : JobRow F :=
  match res with
  | .ok _ => asDelivered now r
  | .error e =>
    if job.maxAttempts ≤ job.attempts then asDead e.text now r
    else asRescheduled nextAttemptAt e.text now r

theorem get?_recordOutcome (t : Jobs F) (job : Job F) (res : Except DeliveryError Unit)
    (nextAttemptAt now : F.DateTime) (k : Uuid) :
    (recordOutcome t job res nextAttemptAt now).get? k =
      if k = job.id then (t.get? job.id).map (asOutcome job res nextAttemptAt now)
      else t.get? k := by
  cases res with
  | ok u => exact Table.get?_update_at t job.id (asDelivered now) (fun _ => rfl) k
  | error e =>
    by_cases h : job.maxAttempts ≤ job.attempts
    · have hrow : asOutcome job (.error e) nextAttemptAt now = asDead e.text now := by
        funext r
        simp [asOutcome, h]
      rw [hrow, recordOutcome, if_pos h]
      exact Table.get?_update_at t job.id (asDead e.text now) (fun _ => rfl) k
    · have hrow : asOutcome job (.error e) nextAttemptAt now
          = asRescheduled nextAttemptAt e.text now := by
        funext r
        simp [asOutcome, h]
      rw [hrow, recordOutcome, if_neg h]
      exact Table.get?_update_at t job.id (asRescheduled nextAttemptAt e.text now) (fun _ => rfl) k

def State.heldIds (s : State F ω) (w : ω) : List Uuid := (s.pc w).held.map Job.id

/-- The row of a job in flight with the worker's copy of it. -/
def Backed (t : Jobs F) (job : Job F) : Prop :=
  ∃ r, t.get? job.id = some r ∧ r.status = .inFlight ∧ r.attempts = job.attempts ∧
    r.maxAttempts = job.maxAttempts

structure Owned (s : State F ω) : Prop where
  exclusive : Exclusive s.heldIds
  backed : ∀ w, ∀ job ∈ (s.pc w).held, Backed s.jobs job

/-- Letting go of jobs keeps the invariant if the rows of those still held are
left alone. -/
theorem Owned.shrink {s t : State F ω} (hs : Owned s)
    (hsub : ∀ w, (t.pc w).held.Sublist (s.pc w).held)
    (hrow : ∀ w, ∀ job ∈ (t.pc w).held, ∀ r, s.jobs.get? job.id = some r →
      r.status = .inFlight → t.jobs.get? job.id = some r) : Owned t where
  exclusive := hs.exclusive.release fun w => (hsub w).map Job.id
  backed w job hjob := by
    obtain ⟨r, hr, hst, hatt⟩ := hs.backed w job ((hsub w).subset hjob)
    exact ⟨r, hrow w job hjob r hr hst, hst, hatt⟩

variable [DecidableEq ω]

/-- A change of one worker's place that keeps the table. -/
theorem Owned.setPc {s : State F ω} (hs : Owned s) {w : ω} {pc : Pc F}
    (hsub : pc.held.Sublist (s.pc w).held) : Owned (s.setPc w pc) := by
  refine hs.shrink (fun v => ?_) (fun _ _ _ _ hr _ => hr)
  by_cases hv : v = w
  · subst hv
    rw [State.setPc_self]
    exact hsub
  · rw [State.setPc_ne s pc hv]

/-- What `claim_due_jobs` returns: jobs of rows that were pending and are now
in flight, each backed by its row; every other row is as it was. -/
theorem claimDueJobs_spec {fault : Option Statement} {now : F.DateTime} {n : Int}
    {rows : List (JobRow F)} {t t' : Jobs F} {res : Except DbError (List (Job F))}
    (hsel : SelectsDue t now n rows) (h : claimDueJobs fault now rows t = (res, t')) :
    ((claimed res).map Job.id).Nodup ∧
      (∀ job ∈ claimed res, ∃ r, t.get? job.id = some r ∧ r.status = .pending ∧
        r.nextAttemptAt ≤ F.fmtTs now ∧ t'.get? job.id = some (asClaimed now r) ∧
        rowToJob (asClaimed now r) = .ok job) ∧
      ∀ k, k ∉ (claimed res).map Job.id → t'.get? k = t.get? k := by
  cases res with
  | error e =>
    rw [claimDueJobs_error h]
    exact ⟨List.nodup_nil, fun _ hj => absurd hj List.not_mem_nil, fun _ _ => rfl⟩
  | ok jobs =>
    obtain ⟨hout, hin, hids, hall⟩ := claimLoop_ok hsel.nodup (claimDueJobs_ok h)
    simp only [claimed]
    refine ⟨hids ▸ hsel.nodup, fun job hjob => ?_, fun k hk => hout k (hids ▸ hk)⟩
    have hmem : job.id ∈ rows.map JobRow.id := hids ▸ List.mem_map_of_mem hjob
    obtain ⟨r₀, hr₀, hid⟩ := List.mem_map.1 hmem
    obtain ⟨hget, hpend, hdue⟩ := hsel.pending hr₀
    obtain ⟨r, hr, hr'⟩ := hin job.id hmem
    obtain ⟨r₁, hr₁, hj⟩ := hall job hjob
    rw [hid, hr] at hget
    rw [hr] at hr₁
    cases hget
    cases hr₁
    exact ⟨_, hr, hpend, hdue, hr', hj⟩

theorem Backed.of_claimed {t : Jobs F} {job : Job F} {now : F.DateTime} {r : JobRow F}
    (hr : t.get? job.id = some (asClaimed now r))
    (hj : rowToJob (asClaimed now r) = .ok job) : Backed t job := by
  obtain ⟨-, -, -, hatt, hmax⟩ := rowToJob_ok hj
  exact ⟨_, hr, rfl, hatt.symm, hmax.symm⟩

/-! ## One row -/

/-- What a step makes of the row of a job: it leaves the row alone, or one of the
three updates of the service writes it. -/
inductive RowStep (s : State F ω) (id : Uuid) : Label F ω → JobRow F → JobRow F → Prop
  | kept (l : Label F ω) (r : JobRow F) : RowStep s id l r r
  | requeueDead (now : F.DateTime) (r : JobRow F) : r.status = .dead →
      RowStep s id (.requeueDead id now true) r (asRequeued now r)
  | claimDueJobs (w : ω) (now : F.DateTime) (jobs : List (Job F)) (job : Job F) (r : JobRow F) :
      job ∈ jobs → job.id = id → r.status = .pending → rowToJob (asClaimed now r) = .ok job →
      RowStep s id (.claimDueJobs w now jobs) r (asClaimed now r)
  | recordOutcome (w : ω) (job : Job F) (res : Except DeliveryError Unit)
      (nextAttemptAt now : F.DateTime) (r : JobRow F) : job ∈ (s.pc w).held → job.id = id →
      RowStep s id (.recordOutcome w job res) r (asOutcome job res nextAttemptAt now r)

/-- A row that is there stays there. -/
theorem Step.row {s t : State F ω} {l : Label F ω} (hst : Step s l t) {id : Uuid}
    {r : JobRow F} (hr : s.jobs.get? id = some r) :
    ∃ r', t.jobs.get? id = some r' ∧ RowStep s id l r r' := by
  cases hst with
  | insertJob id' destination payload maxAttempts now t' hins =>
    exact ⟨r, Table.get?_insert?_of_some hins hr, .kept _ r⟩
  | requeueDead id' now =>
    have hrow := get?_requeueDead s.jobs id' now id
    by_cases hid : id = id'
    · subst hid
      rw [if_pos rfl, hr, Option.map_some] at hrow
      by_cases hdead : r.status = .dead
      · have hok : (K.requeueDead s.jobs id now).1 = true :=
          (requeueDead_fst s.jobs id now).2 ⟨r, hr, hdead⟩
        rw [if_pos hdead] at hrow
        exact ⟨_, hrow, hok ▸ .requeueDead now r hdead⟩
      · rw [if_neg hdead] at hrow
        exact ⟨r, hrow, .kept _ r⟩
    · exact ⟨r, (hrow.trans (if_neg hid)).trans hr, .kept _ r⟩
  | claimDueJobs w now fault rows res t' hidle hsel hclaim =>
    obtain ⟨-, hin, hout⟩ := claimDueJobs_spec hsel hclaim
    by_cases hk : id ∈ (claimed res).map Job.id
    · obtain ⟨job, hjob, rfl⟩ := List.mem_map.1 hk
      obtain ⟨r₀, hr₀, hpend, -, hr', hok⟩ := hin job hjob
      obtain rfl := Option.some.inj (hr.symm.trans hr₀)
      exact ⟨_, hr', .claimDueJobs w now _ job r hjob rfl hpend hok⟩
    · exact ⟨r, (hout id hk).trans hr, .kept _ r⟩
  | recordOutcome w job res rest next now hpc =>
    have hrow := get?_recordOutcome s.jobs job res next now id
    by_cases hid : id = job.id
    · rw [if_pos hid, ← hid, hr, Option.map_some] at hrow
      refine ⟨_, hrow, .recordOutcome w job res next now r ?_ hid.symm⟩
      rw [hpc]
      exact List.mem_cons_self
    · exact ⟨r, (hrow.trans (if_neg hid)).trans hr, .kept _ r⟩
  | deliver | recordFailed | nextPoll | stop | crash | spawnWorkers => exact ⟨r, hr, .kept _ r⟩

/-- A row that was not there has been inserted. -/
theorem Step.inserted {s t : State F ω} {l : Label F ω} (hst : Step s l t) {id : Uuid}
    {r : JobRow F} (hnone : s.jobs.get? id = none) (hr : t.jobs.get? id = some r) :
    ∃ destination payload maxAttempts now, l = .insertJob id destination payload maxAttempts now ∧
      r = newRow id destination payload maxAttempts now := by
  have hsome : t.jobs.get? id ≠ none := by
    rw [hr]
    exact Option.some_ne_none r
  cases hst with
  | insertJob id' destination payload maxAttempts now t' hins =>
    have hrow : t'.get? id = if id' = id then some _ else s.jobs.get? id :=
      Table.get?_insert? hins id
    by_cases hid : id' = id
    · subst hid
      obtain rfl := Option.some.inj ((hrow.trans (if_pos rfl)).symm.trans hr)
      exact ⟨destination, payload, maxAttempts, now, rfl, rfl⟩
    · exact absurd ((hrow.trans (if_neg hid)).trans hnone) hsome
  | requeueDead id' now =>
    refine absurd ((get?_requeueDead s.jobs id' now id).trans ?_) hsome
    split
    · rename_i hid
      rw [← hid, hnone, Option.map_none]
    · exact hnone
  | claimDueJobs w now fault rows res t' hidle hsel hclaim =>
    obtain ⟨-, hin, hout⟩ := claimDueJobs_spec hsel hclaim
    refine absurd ((hout id fun hk => ?_).trans hnone) hsome
    obtain ⟨job, hjob, rfl⟩ := List.mem_map.1 hk
    obtain ⟨r₀, hr₀, -⟩ := hin job hjob
    rw [hnone] at hr₀
    cases hr₀
  | recordOutcome w job res rest next now hpc =>
    refine absurd ((get?_recordOutcome s.jobs job res next now id).trans ?_) hsome
    split
    · rename_i hid
      rw [← hid, hnone, Option.map_none]
    · exact hnone
  | deliver | recordFailed | nextPoll | stop | crash | spawnWorkers => exact absurd hnone hsome

/-- Where the row of a job comes from: an update of the row before the step, or its
`INSERT`. -/
theorem Step.row_of {s t : State F ω} {l : Label F ω} (hst : Step s l t) {id : Uuid}
    {r' : JobRow F} (hr' : t.jobs.get? id = some r') :
    (∃ r, s.jobs.get? id = some r ∧ RowStep s id l r r') ∨
      ∃ destination payload maxAttempts now,
        l = .insertJob id destination payload maxAttempts now ∧
        r' = newRow id destination payload maxAttempts now := by
  cases hr : s.jobs.get? id with
  | none => exact .inr (hst.inserted hr hr')
  | some r =>
    obtain ⟨r₁, hr₁, hrow⟩ := hst.row hr
    obtain rfl := Option.some.inj (hr'.symm.trans hr₁)
    exact .inl ⟨r, rfl, hrow⟩

theorem Owned.step {s t : State F ω} {l : Label F ω} (hs : Owned s) (hst : Step s l t) :
    Owned t := by
  cases hst with
  | insertJob id destination payload maxAttempts now t' hins =>
    refine hs.shrink (fun _ => List.Sublist.refl _) (fun w job _ r hr _ => ?_)
    exact Table.get?_insert?_of_some hins hr
  | requeueDead id now =>
    refine hs.shrink (fun _ => List.Sublist.refl _) (fun w job _ r hr hst => ?_)
    show (requeueDead s.jobs id now).2.get? job.id = some r
    rw [get?_requeueDead]
    by_cases hk : job.id = id
    · rw [if_pos hk, ← hk, hr, Option.map_some, if_neg (by rw [hst]; decide)]
    · rw [if_neg hk, hr]
  | claimDueJobs w now fault rows res t hidle hsel hclaim =>
    obtain ⟨hnd, hin, hout⟩ := claimDueJobs_spec hsel hclaim
    -- A row in flight is not pending, so none of the claimed jobs was held.
    have hfree : ∀ k ∈ (claimed res).map Job.id, ∀ v, k ∉ s.heldIds v := by
      intro k hk v hv
      obtain ⟨job, hjob, rfl⟩ := List.mem_map.1 hk
      obtain ⟨r, hr, hpend, -⟩ := hin job hjob
      obtain ⟨job', hjob', hid⟩ := List.mem_map.1 hv
      obtain ⟨r', hr', hfl, -⟩ := hs.backed v job' hjob'
      rw [hid, hr] at hr'
      cases hr'
      rw [hpend] at hfl
      cases hfl
    have hself : (State.setPc { s with jobs := t } w (.batch (claimed res))).heldIds w
        = (claimed res).map Job.id := by
      simp [State.heldIds, Pc.held]
    have hother : ∀ v, v ≠ w →
        (State.setPc { s with jobs := t } w (.batch (claimed res))).heldIds v = s.heldIds v := by
      intro v hv
      simp only [State.heldIds, State.setPc_ne _ _ hv]
    refine ⟨hs.exclusive.acquire w hother (hself ▸ hnd) ?_, ?_⟩
    · intro k hk v _
      exact hfree k (hself ▸ hk) v
    · intro v job hjob
      by_cases hv : v = w
      · subst hv
        rw [State.setPc_self] at hjob
        obtain ⟨r, -, -, -, hr', hj⟩ := hin job hjob
        exact Backed.of_claimed hr' hj
      · rw [State.setPc_ne _ _ hv] at hjob
        obtain ⟨r, hr, hrest⟩ := hs.backed v job hjob
        have hk : job.id ∉ (claimed res).map Job.id := fun hk =>
          hfree _ hk v (List.mem_map_of_mem hjob)
        exact ⟨r, (hout _ hk).trans hr, hrest⟩
  | deliver w job rest resp hpc =>
    exact hs.setPc (by rw [hpc]; exact List.Sublist.refl _)
  | recordOutcome w job res rest next now hpc =>
    have hheld : (s.pc w).held = job :: rest := by rw [hpc]; rfl
    have hnd := hs.exclusive.nodup w
    rw [State.heldIds, hheld, List.map_cons, List.nodup_cons] at hnd
    refine hs.shrink (fun v => ?_) (fun v job' hjob' r hr _ => ?_)
    · by_cases hv : v = w
      · subst hv
        rw [State.setPc_self, hheld]
        exact List.sublist_cons_self job rest
      · rw [State.setPc_ne _ _ hv]
    · -- A job still held has another id than the one just recorded.
      have hne : job'.id ≠ job.id := by
        intro he
        by_cases hv : v = w
        · subst hv
          rw [State.setPc_self] at hjob'
          exact hnd.1 (he ▸ List.mem_map_of_mem hjob')
        · rw [State.setPc_ne _ _ hv] at hjob'
          refine hv (hs.exclusive.unique v w job.id ?_ ?_)
          · exact he ▸ List.mem_map_of_mem hjob'
          · rw [State.heldIds, hheld]
            exact List.mem_cons_self
      show (recordOutcome s.jobs job res next now).get? job'.id = some r
      rw [get?_recordOutcome, if_neg hne, hr]
  | recordFailed w job res rest hpc =>
    exact hs.setPc (by rw [hpc]; exact List.sublist_cons_self job rest)
  | nextPoll w hpc => exact hs.setPc (List.nil_sublist _)
  | stop w => exact hs.setPc (List.nil_sublist _)
  | crash => exact hs.shrink (fun _ => List.nil_sublist _) (fun _ _ _ _ hr _ => hr)
  | spawnWorkers hpc => exact hs.shrink (fun _ => List.nil_sublist _) (fun _ _ _ _ hr _ => hr)

theorem owned {h : List (Label F ω)} {s : State F ω} (hs : (system F ω).Reaches h s) :
    Owned s := by
  refine hs.invariant (I := fun _ s => Owned s) (fun s hinit => ?_)
    (fun _ _ _ _ _ hI hst => hI.step hst)
  have hheld : ∀ w, (s.pc w).held = [] := fun w => by rw [hinit.2 w]; rfl
  refine ⟨Exclusive.none fun w => by rw [State.heldIds, hheld w]; rfl, fun w job hjob => ?_⟩
  rw [hheld w] at hjob
  exact absurd hjob List.not_mem_nil

end K
end WebhookDelivery
