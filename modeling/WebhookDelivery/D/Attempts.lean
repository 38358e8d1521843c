/-
The sends of a job.

`run_worker` has no claim: it acts on the copies `fetch_due` has read and writes
the attempts back as a number.  While its statements succeed and the process
stays up, nobody else changes a row it has fetched, so for each id the service
simulates `Run.Retry`.  A fetched job is held by the one worker, and a job whose
destination is blocked is dropped.
-/
import WebhookDelivery.Run.Retry
import WebhookDelivery.D.Snapshots

namespace WebhookDelivery
namespace D

open Sql Run

variable {F : Formats} {κ : Type}

/-- No statement of the worker fails, and the process does not crash. -/
def Label.workerSucceeds : Label F κ → Bool
  | .workerFailed | .restart _ => false
  | _ => true

/-- The worker runs undisturbed; `max_attempts` is a `u32`. -/
def Undisturbed (s : State F κ) (l : Label F κ) : Prop :=
  s.cfg.maxAttempts < 2 ^ 32 ∧ l.workerSucceeds = true

def Label.sends (id : Uuid) : Label F κ → Bool
  | .send job _ => job.id = id
  | _ => false

def Label.fails (id : Uuid) : Label F κ → Bool
  | .send job resp => decide (job.id = id) && resp.error.isSome
  | _ => false

def Label.blocks (id : Uuid) : Label F κ → Bool
  | .block job _ => job.id = id
  | _ => false

/-- The sends of a job, and the failed ones among them. -/
def sends (id : Uuid) (h : List (Label F κ)) : Nat := h.countP (Label.sends id)

def failures (id : Uuid) (h : List (Label F κ)) : Nat := h.countP (Label.fails id)

/-- The job that `process_job` is at. -/
def Pc.processing : Pc F → Option Uuid
  | .fetching | .batch _ => none
  | .marking job _ | .retrying job _ _ | .moving job _ _ | .deleting job _ _ => some job.id

/-! ## What the worker has to do with a job -/

inductive View (F : Formats)
  | none
  | queued (job : WebhookJob F)
  | marking
  | retrying (attempts : Nat)
  | moving (job : WebhookJob F)
  | deleting

def queue (id : Uuid) (jobs : List (WebhookJob F)) : View F :=
  match jobs.find? fun job => job.id = id with
  | some job => .queued job
  | none => .none

def Pc.view (id : Uuid) : Pc F → View F
  | .fetching => .none
  | .batch jobs => queue id jobs
  | .marking job rest => if job.id = id then .marking else queue id rest
  | .retrying job attempts rest => if job.id = id then .retrying attempts else queue id rest
  | .moving job _ rest => if job.id = id then .moving job else queue id rest
  | .deleting job _ rest => if job.id = id then .deleting else queue id rest

theorem queue_self (job : WebhookJob F) (rest : List (WebhookJob F)) :
    queue job.id (job :: rest) = .queued job := by
  simp [queue]

theorem queue_ne {job : WebhookJob F} {id : Uuid} (h : job.id ≠ id)
    (rest : List (WebhookJob F)) : queue id (job :: rest) = queue id rest := by
  simp [queue, h]

theorem queue_none {id : Uuid} {jobs : List (WebhookJob F)}
    (h : id ∉ jobs.map WebhookJob.id) : queue id jobs = .none := by
  have hfind : jobs.find? (fun job => decide (job.id = id)) = none := by
    rw [List.find?_eq_none]
    intro job hjob
    have hne : job.id ≠ id := fun e => h (List.mem_map.2 ⟨job, hjob, e⟩)
    simpa using hne
  rw [queue, hfind]

theorem queue_mem {id : Uuid} {jobs : List (WebhookJob F)} (h : id ∈ jobs.map WebhookJob.id) :
    ∃ job ∈ jobs, job.id = id ∧ queue id jobs = .queued job := by
  cases hfind : jobs.find? fun job => decide (job.id = id) with
  | none =>
    obtain ⟨job, hjob, hid⟩ := List.mem_map.1 h
    have hne := List.find?_eq_none.1 hfind job hjob
    exact absurd hid (by simpa using hne)
  | some job =>
    have hid : job.id = id := by simpa using List.find?_some hfind
    exact ⟨job, List.mem_of_find?_eq_some hfind, hid, by rw [queue, hfind]⟩

/-- The jobs of the worker are distinct. -/
def Distinct (s : State F κ) : Prop := (s.pc.jobs.map WebhookJob.id).Nodup

/-- Where the worker goes once it is done with the job. -/
theorem Distinct.rest {s : State F κ} (hs : Distinct s) {job : WebhookJob F}
    {rest : List (WebhookJob F)} (hjobs : s.pc.jobs = job :: rest) : queue job.id rest = .none := by
  rw [Distinct, hjobs, List.map_cons, List.nodup_cons] at hs
  exact queue_none hs.1

/-! ## The simulation -/

/-- The job has had its last attempt. -/
def WebhookJob.spent (job : WebhookJob F) : Bool :=
  decide (0 < job.attempts) && decide (job.maxAttempts ≤ job.attempts)

/-- There is room for another send. -/
def Room (m : Int) (n : Nat) : Prop := n = 0 ∨ (n : Int) < m

/-- The row waits, with `n` attempts. -/
def Waiting (id : Uuid) (s : State F κ) (m : Int) (n : Nat) : Prop :=
  ∃ r, s.db.job id = some r ∧ r.status = .pending ∧ r.attempts = n ∧ r.maxAttempts = m

/-- The row is there until its job is delivered or deleted. -/
def Stays (id : Uuid) (s : State F κ) (m : Int) : Prop :=
  ∃ r, s.db.job id = some r ∧ r.status = .pending ∧ r.maxAttempts = m

/-- The worker is at the deletion of the row, or has made it. -/
def Leaving (id : Uuid) (s : State F κ) (m : Int) : Prop :=
  (s.pc.view id = .deleting ∧ Stays id s m) ∨ (s.pc.view id = .none ∧ s.db.job id = none)

/-- The row and the place of the worker put the job at this stage. -/
def AtStage (id : Uuid) (s : State F κ) (m : Int) (n : Nat) : Retry.Stage Unit → Prop
  | .waiting => s.pc.view id = .none ∧ Waiting id s m n ∧ Room m n
  | .held _ => Waiting id s m n ∧ Room m n ∧
      ∃ job, s.pc.view id = .queued job ∧ job.attempts = n ∧ (job.maxAttempts : Int) = m
  | .called _ true => s.pc.view id = .marking ∧ Stays id s m
  | .called _ false => Stays id s m ∧ 0 < n ∧
      ((s.pc.view id = .retrying n ∧ (n : Int) < m) ∨
        ∃ job, s.pc.view id = .moving job ∧ job.attempts = n ∧ (job.maxAttempts : Int) = m ∧
          job.spent = true)
  | .lost => Room m n ∧
      ((∃ job, s.pc.view id = .moving job ∧ job.spent = false ∧ Stays id s m) ∨ Leaving id s m)
  | .delivered => s.pc.view id = .none ∧ ∃ r, s.db.job id = some r ∧ r.status = .delivered
  | .dead => Leaving id s m
  | .rejected => False

def Tracks (id : Uuid) (s : State F κ) : Option (Retry.Job Unit) → Prop
  | none => s.pc.view id = .none ∧ s.db.job id = none
  | some j => id ∈ s.issued ∧ (∃ m : Nat, j.maxAttempts = m ∧ m < 2 ^ 32) ∧
      AtStage id s j.maxAttempts j.calls j.stage

/-- A step that leaves the row and the view of the job alone. -/
theorem Tracks.frame {id : Uuid} {s t : State F κ} {a : Option (Retry.Job Unit)}
    (h : Tracks id s a) (hissued : ∀ id, id ∈ s.issued → id ∈ t.issued)
    (hrow : t.db.job id = s.db.job id) (hview : t.pc.view id = s.pc.view id) : Tracks id t a := by
  cases a with
  | none => exact ⟨hview.trans h.1, hrow.trans h.2⟩
  | some j =>
    obtain ⟨hid, hmax, hst⟩ := h
    refine ⟨hissued id hid, hmax, ?_⟩
    obtain ⟨m, stage, n, f⟩ := j
    cases stage with
    | called w ok => cases ok <;> simpa only [AtStage, Stays, hrow, hview] using hst
    | waiting | held | lost | delivered | dead =>
      simpa only [AtStage, Waiting, Stays, Leaving, hrow, hview] using hst
    | rejected => exact hst

/-- A job whose id is new has not been submitted. -/
theorem Tracks.of_new {id : Uuid} {s : State F κ} {a : Option (Retry.Job Unit)}
    (h : Tracks id s a) (hnew : id ∉ s.issued) : a = none := by
  cases a with
  | none => rfl
  | some j => exact absurd h.1 hnew

/-- The worker has to do with a job only after its submission. -/
theorem Tracks.submitted {id : Uuid} {s : State F κ} {a : Option (Retry.Job Unit)}
    (h : Tracks id s a) (hv : s.pc.view id ≠ .none) :
    ∃ m stage n f, a = some ⟨m, stage, n, f⟩ ∧ id ∈ s.issued ∧
      (∃ m' : Nat, m = m' ∧ m' < 2 ^ 32) ∧ AtStage id s m n stage := by
  cases a with
  | none => exact absurd h.1 hv
  | some j =>
    obtain ⟨m, stage, n, f⟩ := j
    exact ⟨m, stage, n, f, rfl, h⟩

theorem Tracks.of_queued {id : Uuid} {s : State F κ} {a : Option (Retry.Job Unit)}
    (h : Tracks id s a) {job : WebhookJob F} (hv : s.pc.view id = .queued job) :
    ∃ f, a = some ⟨job.maxAttempts, .held (), job.attempts, f⟩ ∧ id ∈ s.issued ∧
      job.maxAttempts < 2 ^ 32 ∧ Waiting id s job.maxAttempts job.attempts ∧
      Room job.maxAttempts job.attempts := by
  obtain ⟨m, stage, n, f, ha, hid, ⟨m', hm, hlt⟩, hst⟩ := h.submitted (by simp [hv])
  cases stage with
  | held w =>
    obtain ⟨hrow, hroom, job', hv', hatt, hmax⟩ := hst
    rw [hv] at hv'
    cases hv'
    have hlt' : job.maxAttempts < 2 ^ 32 := by omega
    subst hmax hatt
    exact ⟨f, ha, hid, hlt', hrow, hroom⟩
  | called w ok => cases ok <;> simp [AtStage, hv] at hst
  | waiting | lost | delivered | dead | rejected => simp [AtStage, Leaving, hv] at hst

theorem Tracks.of_marking {id : Uuid} {s : State F κ} {a : Option (Retry.Job Unit)}
    (h : Tracks id s a) (hv : s.pc.view id = .marking) :
    ∃ m n f, a = some ⟨m, .called () true, n, f⟩ ∧ id ∈ s.issued ∧
      (∃ m' : Nat, m = m' ∧ m' < 2 ^ 32) ∧ Stays id s m := by
  obtain ⟨m, stage, n, f, ha, hid, hmax, hst⟩ := h.submitted (by simp [hv])
  cases stage with
  | called w ok =>
    cases ok with
    | true => exact ⟨m, n, f, ha, hid, hmax, hst.2⟩
    | false => simp [AtStage, hv] at hst
  | waiting | held | lost | delivered | dead | rejected => simp [AtStage, Leaving, hv] at hst

theorem Tracks.of_retrying {id : Uuid} {s : State F κ} {a : Option (Retry.Job Unit)}
    (h : Tracks id s a) {n : Nat} (hv : s.pc.view id = .retrying n) :
    ∃ m f, a = some ⟨m, .called () false, n, f⟩ ∧ id ∈ s.issued ∧
      (∃ m' : Nat, m = m' ∧ m' < 2 ^ 32) ∧ Stays id s m ∧ (n : Int) < m := by
  obtain ⟨m, stage, n', f, ha, hid, hmax, hst⟩ := h.submitted (by simp [hv])
  cases stage with
  | called w ok =>
    cases ok with
    | true => simp [AtStage, hv] at hst
    | false =>
      obtain ⟨hrow, hpos, ⟨hv', hlt⟩ | ⟨job, hv', -⟩⟩ := hst
      · rw [hv] at hv'
        cases hv'
        exact ⟨m, f, ha, hid, hmax, hrow, hlt⟩
      · rw [hv] at hv'
        cases hv'
  | waiting | held | lost | delivered | dead | rejected => simp [AtStage, Leaving, hv] at hst

/-- A job that is being moved was blocked, or its last attempt has failed. -/
theorem Tracks.of_moving {id : Uuid} {s : State F κ} {a : Option (Retry.Job Unit)}
    (h : Tracks id s a) {job : WebhookJob F} (hv : s.pc.view id = .moving job) :
    id ∈ s.issued ∧
      ((∃ m n f, a = some ⟨m, .lost, n, f⟩ ∧ (∃ m' : Nat, m = m' ∧ m' < 2 ^ 32) ∧
          Room m n ∧ Stays id s m ∧ job.spent = false) ∨
        ∃ f, a = some ⟨job.maxAttempts, .called () false, job.attempts, f⟩ ∧
          job.maxAttempts < 2 ^ 32 ∧ Stays id s job.maxAttempts ∧ job.spent = true) := by
  obtain ⟨m, stage, n, f, ha, hid, hmax, hst⟩ := h.submitted (by simp [hv])
  refine ⟨hid, ?_⟩
  cases stage with
  | called w ok =>
    cases ok with
    | true => simp [AtStage, hv] at hst
    | false =>
      obtain ⟨hrow, -, ⟨hv', -⟩ | ⟨job', hv', hatt, hm, hspent⟩⟩ := hst
      · rw [hv] at hv'
        cases hv'
      · rw [hv] at hv'
        cases hv'
        obtain ⟨m', hm', hlt⟩ := hmax
        have hlt' : job.maxAttempts < 2 ^ 32 := by omega
        subst hm hatt
        exact .inr ⟨f, ha, hlt', hrow, hspent⟩
  | lost =>
    obtain ⟨hroom, ⟨job', hv', hspent, hrow⟩ | ⟨hv', -⟩ | ⟨hv', -⟩⟩ := hst
    · rw [hv] at hv'
      cases hv'
      exact .inl ⟨m, n, f, ha, hmax, hroom, hrow, hspent⟩
    · rw [hv] at hv'
      cases hv'
    · rw [hv] at hv'
      cases hv'
  | waiting | held | delivered | dead | rejected => simp [AtStage, Leaving, hv] at hst

/-- A row that nobody has to do with waits, or is delivered. -/
theorem Tracks.of_none {id : Uuid} {s : State F κ} {a : Option (Retry.Job Unit)}
    (h : Tracks id s a) (hv : s.pc.view id = .none) {r : JobRow} (hr : s.db.job id = some r) :
    ∃ (m : Int) (n f : Nat), (∃ m' : Nat, m = m' ∧ m' < 2 ^ 32) ∧
      ((a = some ⟨m, .waiting, n, f⟩ ∧ r.status = .pending ∧ r.attempts = n ∧
          r.maxAttempts = m ∧ Room m n) ∨
        (a = some ⟨m, .delivered, n, f⟩ ∧ r.status = .delivered)) := by
  cases a with
  | none =>
    rw [Tracks, hr] at h
    cases h.2
  | some j =>
    obtain ⟨m, stage, n, f⟩ := j
    obtain ⟨hid, hmax, hst⟩ := h
    refine ⟨m, n, f, hmax, ?_⟩
    cases stage with
    | waiting =>
      obtain ⟨-, ⟨r', hr', hpend, hatt, hm⟩, hroom⟩ := hst
      rw [hr] at hr'
      cases hr'
      exact .inl ⟨rfl, hpend, hatt, hm, hroom⟩
    | delivered =>
      obtain ⟨-, r', hr', hdel⟩ := hst
      rw [hr] at hr'
      cases hr'
      exact .inr ⟨rfl, hdel⟩
    | called w ok => cases ok <;> simp [AtStage, hv] at hst
    | held | lost | dead | rejected => simp [AtStage, Leaving, hv, hr] at hst

/-- A job is submitted under a new id, and waits. -/
theorem Tracks.submit {id : Uuid} {s t : State F κ} {a : Option (Retry.Job Unit)}
    (h : Tracks id s a) {job : WebhookJob F} (hnew : id ∉ s.issued)
    (hmax : job.maxAttempts < 2 ^ 32) (hatt : job.attempts = 0) (hpend : job.status = .pending)
    (hin : id ∈ t.issued) (hview : t.pc.view id = s.pc.view id)
    (hrow : t.db.job id = some job.row) :
    ∃ b, Retry.Step a (.submit job.maxAttempts) b ∧ Tracks id t b := by
  obtain rfl := h.of_new hnew
  refine ⟨_, Retry.Step.submit job.maxAttempts, hin, ⟨job.maxAttempts, rfl, hmax⟩,
    hview.trans h.1, ⟨job.row, hrow, hpend, ?_, rfl⟩, .inl rfl⟩
  show (job.attempts : Int) = ((0 : Nat) : Int)
  rw [hatt]

/-- The step of the life of `id` that a label is. -/
def lifeEvent (id : Uuid) : Label F κ → Option (Retry.Event Unit)
  | .enqueue job | .insertJob _ _ job =>
    if job.id = id then some (.submit job.maxAttempts) else none
  | .fetchDue _ jobs => if id ∈ jobs.map WebhookJob.id then some (.claim ()) else none
  | .block job _ => if job.id = id then some (.drop fun _ => true) else none
  | .send job resp => if job.id = id then some (.call () resp.error.isNone) else none
  | .markDelivered job => if job.id = id then some (.succeed ()) else none
  | .recordAttempt job _ _ => if job.id = id then some (.retry ()) else none
  | .insertDlq job _ => if job.id = id ∧ job.spent = true then some (.exhaust ()) else none
  | .deleteJob _ | .workerFailed | .endPass | .getDlq .. | .deleteDlq .. | .callFailed _
  | .restart _ => none

theorem ne_of_submit {id : Uuid} {job : WebhookJob F} {e : Retry.Event Unit}
    (hl : (if job.id = id then some e else none) = none) : job.id ≠ id := by
  simpa using hl

theorem eq_of_submit {id : Uuid} {job : WebhookJob F} {e e' : Retry.Event Unit}
    (hl : (if job.id = id then some e else none) = some e') : job.id = id ∧ e = e' := by
  simpa using hl

theorem afterSend_jobs (job : WebhookJob F) (resp : Response) (rest : List (WebhookJob F)) :
    (afterSend job resp rest).jobs.map WebhookJob.id = (job :: rest).map WebhookJob.id := by
  unfold afterSend handleFailure
  split
  · rfl
  · dsimp only
    split <;> rfl

theorem WebhookJob.not_spent {job : WebhookJob F} (h : Room job.maxAttempts job.attempts) :
    job.spent = false := by
  rcases h with hzero | hroom
  · simp [WebhookJob.spent, hzero]
  · have hlt : ¬job.maxAttempts ≤ job.attempts := by omega
    simp [WebhookJob.spent, hlt]

theorem WebhookJob.maxAttempts_le {job : WebhookJob F} (h : job.spent = true) :
    job.maxAttempts ≤ job.attempts := by
  simp only [WebhookJob.spent, Bool.and_eq_true, decide_eq_true_eq] at h
  exact h.2

/-- After a send that fails, its job is retried, or it has had its last attempt. -/
theorem afterSend_view_failed {job : WebhookJob F} {resp : Response} {err : String}
    (herr : resp.error = some err) (hlt : job.attempts + 1 < 2 ^ 32)
    (rest : List (WebhookJob F)) :
    (afterSend job resp rest).view job.id =
      if job.maxAttempts ≤ job.attempts + 1 then
        .moving { job with attempts := job.attempts + 1 }
      else .retrying (job.attempts + 1) := by
  have hfail : afterSend job resp rest = handleFailure job err rest := by rw [afterSend, herr]
  rw [hfail, handleFailure, Nat.mod_eq_of_lt hlt]
  split <;> exact if_pos rfl

/-- A send moves the view of its own job only. -/
theorem afterSend_view_ne {job : WebhookJob F} {id : Uuid} (hne : job.id ≠ id) (resp : Response)
    (rest : List (WebhookJob F)) : (afterSend job resp rest).view id = queue id rest := by
  unfold afterSend handleFailure
  split
  · exact if_neg hne
  · dsimp only
    split <;> exact if_neg hne

/-- A batch with the job is its claim. -/
theorem Tracks.claimed {id : Uuid} {s : State F κ} {a : Option (Retry.Job Unit)}
    (h : Tracks id s a) (hpc : s.pc = .fetching) {now limit : Int} {jobs : List (WebhookJob F)}
    (hfetch : FetchesDue F s.db now limit (some jobs)) (hmem : id ∈ jobs.map WebhookJob.id) :
    ∃ b, Retry.Step a (.claim ()) b ∧ Tracks id { s with pc := .batch jobs } b := by
  obtain ⟨job, hjob, hid, hqueue⟩ := queue_mem hmem
  obtain ⟨r, hr, hdue, hdec⟩ := hfetch.pending hjob
  rw [hid] at hr
  have hview : s.pc.view id = .none := by rw [hpc]; rfl
  obtain ⟨m, n, f, ⟨m', rfl, hlt⟩, ⟨rfl, -, hatt, hm, hroom⟩ | ⟨-, hdel⟩⟩ := h.of_none hview hr
  · refine ⟨_, Retry.Step.claim _ n f (), h.1, ⟨m', rfl, hlt⟩, ⟨r, hr, hdue, hatt, hm⟩, hroom,
      job, hqueue, ?_, ?_⟩
    · rw [(rowToJob_counters hdec).1, hatt]
      refine asU32_of_lt ?_
      rcases hroom with rfl | hroom
      · decide
      · omega
    · rw [(rowToJob_counters hdec).2, hm, asU32_of_lt hlt]
  · rw [hdue] at hdel
    cases hdel

theorem Tracks.called {s : State F κ} {job : WebhookJob F} {rest : List (WebhookJob F)}
    {a : Option (Retry.Job Unit)} (h : Tracks job.id s a) (hpc : s.pc = .batch (job :: rest))
    (resp : Response) :
    ∃ b, Retry.Step a (.call () resp.error.isNone) b ∧
      Tracks job.id { s with pc := afterSend job resp rest } b := by
  have hview : s.pc.view job.id = .queued job := by
    rw [hpc]
    exact queue_self job rest
  obtain ⟨f, rfl, hin, hlt, ⟨r, hr, hpend, hatt, hm⟩, hroom⟩ := h.of_queued hview
  refine ⟨_, Retry.Step.call _ _ f () _, hin, ⟨_, rfl, hlt⟩, ?_⟩
  have hstays : Stays job.id { s with pc := afterSend job resp rest } job.maxAttempts :=
    ⟨r, hr, hpend, hm⟩
  cases herr : resp.error with
  | none =>
    refine ⟨?_, hstays⟩
    show (afterSend job resp rest).view job.id = .marking
    rw [afterSend, herr]
    exact if_pos rfl
  | some err =>
    have hnext : job.attempts + 1 < 2 ^ 32 := by
      rcases hroom with hzero | hroom <;> omega
    have hview' := afterSend_view_failed herr hnext rest
    refine ⟨hstays, Nat.succ_pos _, ?_⟩
    by_cases hle : job.maxAttempts ≤ job.attempts + 1
    · rw [if_pos hle] at hview'
      refine .inr ⟨{ job with attempts := job.attempts + 1 }, hview', rfl, rfl, ?_⟩
      simp [WebhookJob.spent, hle]
    · rw [if_neg hle] at hview'
      have hless : ((job.attempts + 1 : Nat) : Int) < job.maxAttempts := by omega
      exact .inl ⟨hview', hless⟩

variable [DecidableEq κ]

theorem Distinct.step {s t : State F κ} {l : Label F κ} (hs : Distinct s) (hst : Step s l t) :
    Distinct t := by
  have hrest : ∀ {job : WebhookJob F} {rest : List (WebhookJob F)}, s.pc.jobs = job :: rest →
      (rest.map WebhookJob.id).Nodup := by
    intro job rest hjobs
    rw [Distinct, hjobs, List.map_cons, List.nodup_cons] at hs
    exact hs.2
  cases hst with
  | enqueue | getDlq | notFound | insertJob | deleteDlq | callFailed => exact hs
  | fetchDue now jobs hpc hlock hfetch => exact hfetch.nodup
  | block job rest err hpc =>
    rw [Distinct, hpc] at hs
    exact hs
  | send job rest resp hpc =>
    rw [Distinct, hpc] at hs
    show ((afterSend job resp rest).jobs.map WebhookJob.id).Nodup
    rw [afterSend_jobs]
    exact hs
  | markDelivered job rest hpc | recordAttempt job attempts rest next hpc
  | deleteJob job entryId rest hpc => exact hrest (congrArg Pc.jobs hpc)
  | insertDlq job error rest entryId now db hpc =>
    rw [Distinct, hpc] at hs
    exact hs
  | workerFailed =>
    show (s.pc.afterFailure.jobs.map WebhookJob.id).Nodup
    cases hpc : s.pc with
    | fetching => exact List.nodup_nil
    | batch jobs =>
      rw [Distinct, hpc] at hs
      exact hs
    | marking job rest | retrying job attempts rest | moving job error rest
    | deleting job entryId rest => exact hrest (congrArg Pc.jobs hpc)
  | endPass | restart => exact List.nodup_nil

theorem distinct {h : List (Label F κ)} {s : State F κ} (hs : (system F κ).Reaches h s) :
    Distinct s := by
  apply hs.invariant (I := fun _ s => Distinct s)
  · rintro s ⟨-, -, -, hpc, -⟩
    rw [Distinct, hpc]
    exact List.nodup_nil
  · intro h s l t _ hI hst
    exact hI.step hst

theorem Tracks.stutter {id : Uuid} {s t : State F κ} {l : Label F κ}
    {a : Option (Retry.Job Unit)} (h : Tracks id s a) (hs : Distinct s) (hst : Step s l t)
    (hok : l.workerSucceeds = true) (hl : lifeEvent id l = none) : Tracks id t a := by
  have hissued : ∀ id, id ∈ s.issued → id ∈ t.issued := fun id => hst.issued
  have hrow := hst.job_eq id
  cases hst with
  | enqueue req id' now db hlock hnew hins =>
    have hne : ¬id' = id := ne_of_submit hl
    exact h.frame hissued (hrow.trans (if_neg hne)) rfl
  | insertJob k e entry id' now db hcall hlock hnew hins =>
    have hne : ¬id' = id := ne_of_submit hl
    exact h.frame hissued (hrow.trans (if_neg hne)) rfl
  | fetchDue now jobs hpc hlock hfetch =>
    have hmem : id ∉ jobs.map WebhookJob.id := by
      intro hmem
      simp only [lifeEvent, if_pos hmem, reduceCtorEq] at hl
    refine h.frame hissued rfl ?_
    rw [hpc]
    exact queue_none hmem
  | block job rest err hpc =>
    have hne : ¬job.id = id := by simpa [lifeEvent] using hl
    refine h.frame hissued rfl ?_
    rw [hpc]
    exact (if_neg hne).trans (queue_ne hne rest).symm
  | send job rest resp hpc =>
    have hne : ¬job.id = id := by simpa [lifeEvent] using hl
    refine h.frame hissued rfl ?_
    rw [hpc]
    exact (afterSend_view_ne hne resp rest).trans (queue_ne hne rest).symm
  | markDelivered job rest hpc hlock =>
    have hne : ¬job.id = id := by simpa [lifeEvent] using hl
    refine h.frame hissued (hrow.trans (if_neg fun e => hne e.symm)) ?_
    rw [hpc]
    exact (if_neg hne).symm
  | recordAttempt job attempts rest next hpc hlock =>
    have hne : ¬job.id = id := by simpa [lifeEvent] using hl
    refine h.frame hissued (hrow.trans (if_neg fun e => hne e.symm)) ?_
    rw [hpc]
    exact (if_neg hne).symm
  | insertDlq job error rest e now db hpc hlock hnew hins =>
    have hjobs : db.job id = s.db.job id := hrow
    by_cases hid : job.id = id
    · -- a blocked job: the entry is made, and the job stays dropped
      have hspent : ¬job.spent = true := by
        intro hspent
        simp only [lifeEvent, hid, hspent, and_self, if_true, reduceCtorEq] at hl
      have hview : s.pc.view id = .moving job := by
        rw [hpc]
        exact if_pos hid
      obtain ⟨hin, ⟨m, n, f, rfl, hmax, hroom, ⟨r, hr, hrest⟩, -⟩ | ⟨f, -, -, -, hsp⟩⟩ :=
        h.of_moving hview
      · exact ⟨hissued id hin, hmax, hroom, .inr (.inl ⟨if_pos hid, r, hjobs.trans hr, hrest⟩)⟩
      · exact absurd hsp hspent
    · refine h.frame hissued hjobs ?_
      rw [hpc]
      exact (if_neg hid).trans (if_neg hid).symm
  | deleteJob job e rest hpc =>
    by_cases hid : job.id = id
    · have hview : s.pc.view id = .deleting := by
        rw [hpc]
        exact if_pos hid
      have hgone : queue id rest = .none := hid ▸ hs.rest (congrArg Pc.jobs hpc)
      have hrow : (deleteJob s.db job.id).job id = none := hrow.trans (if_pos hid.symm)
      cases a with
      | none => exact ⟨hgone, hrow⟩
      | some j =>
        obtain ⟨hin, hmax, hstage⟩ := h
        refine ⟨hin, hmax, ?_⟩
        obtain ⟨m, stage, n, f⟩ := j
        cases stage with
        | lost => exact ⟨hstage.1, .inr (.inr ⟨hgone, hrow⟩)⟩
        | dead => exact .inr ⟨hgone, hrow⟩
        | called w ok => cases ok <;> simp [AtStage, hview] at hstage
        | waiting | held | delivered | rejected => simp [AtStage, hview] at hstage
    · refine h.frame hissued (hrow.trans (if_neg fun e => hid e.symm)) ?_
      rw [hpc]
      exact (if_neg hid).symm
  | endPass hpc =>
    refine h.frame hissued rfl ?_
    rw [hpc]
    rfl
  | getDlq | notFound | deleteDlq | callFailed => exact h.frame hissued rfl rfl
  | workerFailed | restart => cases hok

theorem Tracks.step {id : Uuid} {s t : State F κ} {l : Label F κ}
    {a : Option (Retry.Job Unit)} {e : Retry.Event Unit} (h : Tracks id s a) (hs : Distinct s)
    (hst : Step s l t) (hcfg : s.cfg.maxAttempts < 2 ^ 32) (hl : lifeEvent id l = some e) :
    ∃ b, Retry.Step a e b ∧ Tracks id t b := by
  have hrow := hst.job_eq id
  cases hst with
  | enqueue req id' now db hlock hnew hins =>
    obtain ⟨hid, rfl⟩ := eq_of_submit hl
    have hid : id' = id := hid
    subst hid
    exact h.submit hnew hcfg rfl rfl List.mem_cons_self rfl (hrow.trans (if_pos rfl))
  | insertJob k e' entry id' now db hcall hlock hnew hins =>
    obtain ⟨hid, rfl⟩ := eq_of_submit hl
    have hid : id' = id := hid
    subst hid
    exact h.submit hnew hcfg rfl rfl List.mem_cons_self rfl (hrow.trans (if_pos rfl))
  | fetchDue now jobs hpc hlock hfetch =>
    have hmem : id ∈ jobs.map WebhookJob.id := by
      by_contra hmem
      simp only [lifeEvent, if_neg hmem, reduceCtorEq] at hl
    have he : Retry.Event.claim () = e := by
      simpa only [lifeEvent, if_pos hmem, Option.some.injEq] using hl
    subst he
    exact h.claimed hpc hfetch hmem
  | block job rest err hpc =>
    obtain ⟨hid, rfl⟩ := eq_of_submit hl
    subst hid
    have hview : s.pc.view job.id = .queued job := by
      rw [hpc]
      exact queue_self job rest
    obtain ⟨f, rfl, hin, hlt, ⟨r, hr, hpend, -, hm⟩, hroom⟩ := h.of_queued hview
    exact ⟨_, Retry.Step.drop _ _, hin, ⟨_, rfl, hlt⟩, hroom,
      .inl ⟨job, if_pos rfl, job.not_spent hroom, r, hr, hpend, hm⟩⟩
  | send job rest resp hpc =>
    obtain ⟨hid, rfl⟩ := eq_of_submit hl
    subst hid
    exact h.called hpc resp
  | markDelivered job rest hpc hlock =>
    obtain ⟨hid, rfl⟩ := eq_of_submit hl
    subst hid
    have hview : s.pc.view job.id = .marking := by
      rw [hpc]
      exact if_pos rfl
    obtain ⟨m, n, f, rfl, hin, hmax, r, hr, -, -⟩ := h.of_marking hview
    have hrow := hrow.trans (if_pos rfl)
    rw [hr] at hrow
    exact ⟨_, Retry.Step.succeed m n f (), hin, hmax, hs.rest (congrArg Pc.jobs hpc),
      asDelivered r, hrow, rfl⟩
  | recordAttempt job attempts rest next hpc hlock =>
    obtain ⟨hid, rfl⟩ := eq_of_submit hl
    subst hid
    have hview : s.pc.view job.id = .retrying attempts := by
      rw [hpc]
      exact if_pos rfl
    obtain ⟨m, f, rfl, hin, hmax, ⟨r, hr, hpend, hm⟩, hlt⟩ := h.of_retrying hview
    have hrow := hrow.trans (if_pos rfl)
    rw [hr] at hrow
    exact ⟨_, Retry.Step.retry m attempts f () hlt, hin, hmax,
      hs.rest (congrArg Pc.jobs hpc), ⟨_, hrow, hpend, rfl, hm⟩, .inr hlt⟩
  | insertDlq job error rest e' now db hpc hlock hnew hins =>
    have hboth : (job.id = id ∧ job.spent = true) ∧ Retry.Event.exhaust () = e := by
      simpa [lifeEvent] using hl
    obtain ⟨⟨hid, hspent⟩, rfl⟩ := hboth
    subst hid
    have hview : s.pc.view job.id = .moving job := by
      rw [hpc]
      exact if_pos rfl
    obtain ⟨hin, ⟨m, n, f, -, -, -, -, hsp⟩ | ⟨f, rfl, hlt, ⟨r, hr, hrest⟩, -⟩⟩ :=
      h.of_moving hview
    · rw [hspent] at hsp
      cases hsp
    · have hle := WebhookJob.maxAttempts_le hspent
      have hjobs : db.job job.id = s.db.job job.id := hrow
      exact ⟨_, Retry.Step.exhaust _ _ f () (by omega), List.mem_cons_of_mem _ hin,
        ⟨_, rfl, hlt⟩, .inl ⟨if_pos rfl, r, hjobs.trans hr, hrest⟩⟩
  | deleteJob | workerFailed | endPass | getDlq | notFound | deleteDlq | callFailed | restart =>
    cases hl

variable (F κ) in
/-- The runs in which the worker's statements succeed. -/
def undisturbed : System (State F κ) (Label F κ) := (system F κ).restrict Undisturbed

variable (F κ) in
theorem simulation (id : Uuid) :
    Simulation (undisturbed F κ) (Retry.system Unit) (lifeEvent id) (Tracks id) where
  init s hs := by
    obtain ⟨hdb, -, -, hpc, -⟩ := hs
    refine ⟨none, rfl, ?_, ?_⟩
    · rw [hpc]
      rfl
    · rw [hdb]
      rfl
  stutter _ _ _ _ _ hr h hst hl := h.stutter (distinct hr.of_restrict) hst.2 hst.1.2 hl
  step _ _ _ _ _ _ hr h hst hl := h.step (distinct hr.of_restrict) hst.2 hst.1.1 hl

end D
end WebhookDelivery
