/-
The budget of a job.

What `Run.Retry` proves of one job holds of every job the worker has to do with
while its statements succeed: the sends are at most `max_attempts`, the row
counts the failed ones, and the job is moved to the dead letters when the last
one fails.  A job that is delivered, or moved, is not touched again.
-/
import WebhookDelivery.D.Attempts
import WebhookDelivery.D.Lineage

namespace WebhookDelivery
namespace D

open Sql Run

variable {F : Formats} {κ : Type}

/-- The label submits the job, or a call of `redeliver` does. -/
def Submitted (h : List (Label F κ)) (job : WebhookJob F) : Prop :=
  .enqueue job ∈ h ∨ ∃ k e, .insertJob k e job ∈ h

theorem lifeEvent_submitted {id : Uuid} {h : List (Label F κ)} {job : WebhookJob F}
    (hsub : Submitted h job) (hid : job.id = id) :
    .submit job.maxAttempts ∈ h.filterMap (lifeEvent id) := by
  rw [List.mem_filterMap]
  rcases hsub with hmem | ⟨k, e, hmem⟩
  · exact ⟨_, hmem, if_pos hid⟩
  · exact ⟨_, hmem, if_pos hid⟩

theorem lifeEvent_none {id : Uuid} {l : Label F κ} (hl : lifeEvent id l = none) :
    l.sends id = false ∧ l.fails id = false := by
  cases l with
  | send job resp =>
    have hne : ¬job.id = id := by simpa [lifeEvent] using hl
    simp [Label.sends, Label.fails, hne]
  | enqueue | fetchDue | block | markDelivered | recordAttempt | insertDlq | deleteJob
  | workerFailed | endPass | getDlq | insertJob | deleteDlq | callFailed | restart =>
    exact ⟨rfl, rfl⟩

/-- The sends of a job are the calls of its life. -/
theorem lifeEvent_counts {id : Uuid} {l : Label F κ} {e : Retry.Event Unit}
    (hl : lifeEvent id l = some e) :
    ((∃ m, e = .submit m) ∧ l.sends id = false ∧ l.fails id = false) ∨
      (e.starts = false ∧ e.isCall = l.sends id ∧ e.isFailure = l.fails id) := by
  cases l with
  | enqueue job =>
    obtain ⟨-, rfl⟩ := eq_of_submit hl
    exact .inl ⟨⟨_, rfl⟩, rfl, rfl⟩
  | insertJob k e' job =>
    obtain ⟨-, rfl⟩ := eq_of_submit hl
    exact .inl ⟨⟨_, rfl⟩, rfl, rfl⟩
  | send job resp =>
    obtain ⟨hid, rfl⟩ := eq_of_submit hl
    refine .inr ⟨rfl, ?_, ?_⟩
    · simp [Retry.Event.isCall, Label.sends, hid]
    · cases hresp : resp.error <;> simp [Retry.Event.isFailure, Label.fails, hid, hresp]
  | fetchDue now jobs =>
    simp only [lifeEvent, Option.ite_none_right_eq_some] at hl
    obtain ⟨-, hl⟩ := hl
    cases hl
    exact .inr ⟨rfl, rfl, rfl⟩
  | insertDlq job entryId =>
    simp only [lifeEvent, Option.ite_none_right_eq_some] at hl
    obtain ⟨-, hl⟩ := hl
    cases hl
    exact .inr ⟨rfl, rfl, rfl⟩
  | block job | markDelivered job | recordAttempt job =>
    obtain ⟨-, rfl⟩ := eq_of_submit hl
    exact .inr ⟨rfl, rfl, rfl⟩
  | deleteJob | workerFailed | endPass | getDlq | deleteDlq | callFailed | restart => cases hl

variable [DecidableEq κ]

theorem Step.submit_new {s t : State F κ} {l : Label F κ} (hst : Step s l t) {id : Uuid} {m : Int}
    (hl : lifeEvent id l = some (.submit m)) : id ∉ s.issued := by
  cases hst with
  | enqueue req id' now db hlock hnew hins =>
    obtain ⟨hid, -⟩ := eq_of_submit hl
    have hid : id' = id := hid
    exact hid ▸ hnew
  | insertJob k e' entry id' now db hcall hlock hnew hins =>
    obtain ⟨hid, -⟩ := eq_of_submit hl
    have hid : id' = id := hid
    exact hid ▸ hnew
  | send | block | markDelivered | recordAttempt =>
    obtain ⟨-, he⟩ := eq_of_submit hl
    cases he
  | fetchDue | insertDlq =>
    simp only [lifeEvent, Option.ite_none_right_eq_some] at hl
    cases hl.2
  | deleteJob | workerFailed | endPass | getDlq | notFound | deleteDlq | callFailed | restart =>
    cases hl

theorem tracked {h : List (Label F κ)} {s : State F κ} (hs : (undisturbed F κ).Reaches h s)
    (id : Uuid) :
    ∃ a, (Retry.system Unit).Reaches (h.filterMap (lifeEvent id)) a ∧ Tracks id s a :=
  (simulation F κ id).reaches hs

/-- The history counts for each job what its life counts. -/
theorem counts_eq {h : List (Label F κ)} {s : State F κ} (hs : (undisturbed F κ).Reaches h s)
    (id : Uuid) :
    sends id h = Retry.calls (h.filterMap (lifeEvent id)) ∧
      failures id h = Retry.failures (h.filterMap (lifeEvent id)) := by
  apply hs.invariant (I := fun h _ =>
    sends id h = Retry.calls (h.filterMap (lifeEvent id)) ∧
      failures id h = Retry.failures (h.filterMap (lifeEvent id)))
  · intro s _
    exact ⟨rfl, rfl⟩
  · intro h s l t hr hI hst
    have hsends : sends id (l :: h) = sends id h + if l.sends id then 1 else 0 :=
      List.countP_cons
    have hfails : failures id (l :: h) = failures id h + if l.fails id then 1 else 0 :=
      List.countP_cons
    cases hl : lifeEvent id l with
    | none =>
      obtain ⟨hnosend, hnofail⟩ := lifeEvent_none hl
      rw [List.filterMap_cons_none hl, hsends, hfails, hnosend, hnofail]
      exact hI
    | some e =>
      rw [List.filterMap_cons_some hl, Retry.calls_cons, Retry.failures_cons, hsends, hfails]
      rcases lifeEvent_counts hl with ⟨⟨m, rfl⟩, hnosend, hnofail⟩ | ⟨hstart, hcall, hfail⟩
      · -- the id is new, so nothing has been counted for it
        obtain ⟨a, ha, htr⟩ := tracked hr id
        obtain rfl := htr.of_new (hst.2.submit_new hl)
        obtain ⟨hcalls, hfails⟩ := Retry.accounted ha
        rw [hnosend, hnofail, hI.1, hI.2, hcalls, hfails]
        exact ⟨rfl, rfl⟩
      · rw [hstart, hcall, hfail, hI.1, hI.2]
        constructor <;> split <;> rfl

/-! ## Jobs that are left alone -/

omit [DecidableEq κ] in
theorem Pc.view_rest {pc : Pc F} {id : Uuid} (hv : pc.view id = .none) {job : WebhookJob F}
    {rest : List (WebhookJob F)} (hjobs : pc.jobs = job :: rest) :
    job.id ≠ id ∧ queue id rest = .none := by
  have hne : job.id ≠ id := by
    rintro rfl
    cases pc with
    | fetching => cases hjobs
    | batch jobs =>
      have hjobs : jobs = job :: rest := hjobs
      rw [hjobs] at hv
      exact absurd ((queue_self job rest).symm.trans hv) (by simp)
    | marking | retrying | moving | deleting =>
      obtain ⟨rfl, rfl⟩ := List.cons.inj hjobs
      simp [Pc.view] at hv
  refine ⟨hne, ?_⟩
  cases pc with
  | fetching => cases hjobs
  | batch jobs =>
    have hjobs : jobs = job :: rest := hjobs
    rw [hjobs] at hv
    exact (queue_ne hne rest).symm.trans hv
  | marking | retrying | moving | deleting =>
    obtain ⟨rfl, rfl⟩ := List.cons.inj hjobs
    exact (if_neg hne).symm.trans hv

/-- A job that the worker has nothing to do with keeps its row and is not sent,
and only a pending row is fetched. -/
theorem Step.aside {s t : State F κ} {l : Label F κ} (hst : Step s l t)
    (hok : l.workerSucceeds = true) {id : Uuid} (hid : id ∈ s.issued)
    (hview : s.pc.view id = .none) :
    t.db.job id = s.db.job id ∧ l.sends id = false ∧
      (t.pc.view id = .none ∨ ∃ r, s.db.job id = some r ∧ r.status = .pending) := by
  have hnew : ∀ {id'}, id' ∉ s.issued → ¬id' = id := fun hnew e => hnew (e ▸ hid)
  have hrow := hst.job_eq id
  cases hst with
  | enqueue req id' now db hlock hn hins =>
    exact ⟨hrow.trans (if_neg (hnew hn)), rfl, .inl hview⟩
  | insertJob k e entry id' now db hcall hlock hn hins =>
    exact ⟨hrow.trans (if_neg (hnew hn)), rfl, .inl hview⟩
  | fetchDue now jobs hpc hlock hfetch =>
    refine ⟨rfl, rfl, ?_⟩
    by_cases hmem : id ∈ jobs.map WebhookJob.id
    · obtain ⟨job, hjob, rfl⟩ := List.mem_map.1 hmem
      obtain ⟨r, hr, hdue, -⟩ := hfetch.pending hjob
      exact .inr ⟨r, hr, hdue⟩
    · exact .inl (queue_none hmem)
  | block job rest err hpc =>
    obtain ⟨hne, hrest⟩ := Pc.view_rest hview (congrArg Pc.jobs hpc)
    exact ⟨rfl, rfl, .inl ((if_neg hne).trans hrest)⟩
  | send job rest resp hpc =>
    obtain ⟨hne, hrest⟩ := Pc.view_rest hview (congrArg Pc.jobs hpc)
    refine ⟨rfl, by simpa [Label.sends] using hne, .inl ?_⟩
    exact (afterSend_view_ne hne resp rest).trans hrest
  | markDelivered job rest hpc hlock =>
    obtain ⟨hne, hrest⟩ := Pc.view_rest hview (congrArg Pc.jobs hpc)
    exact ⟨hrow.trans (if_neg fun e => hne e.symm), rfl, .inl hrest⟩
  | recordAttempt job attempts rest next hpc hlock =>
    obtain ⟨hne, hrest⟩ := Pc.view_rest hview (congrArg Pc.jobs hpc)
    exact ⟨hrow.trans (if_neg fun e => hne e.symm), rfl, .inl hrest⟩
  | insertDlq job error rest e now db hpc hlock hn hins =>
    obtain ⟨hne, hrest⟩ := Pc.view_rest hview (congrArg Pc.jobs hpc)
    exact ⟨hrow, rfl, .inl ((if_neg hne).trans hrest)⟩
  | deleteJob job e rest hpc =>
    obtain ⟨hne, hrest⟩ := Pc.view_rest hview (congrArg Pc.jobs hpc)
    exact ⟨hrow.trans (if_neg fun e => hne e.symm), rfl, .inl hrest⟩
  | endPass => exact ⟨rfl, rfl, .inl rfl⟩
  | getDlq | notFound | deleteDlq | callFailed => exact ⟨rfl, rfl, .inl hview⟩
  | workerFailed | restart => cases hok

/-- The job is delivered, and the worker has nothing to do with it. -/
def Settled (id : Uuid) (r : JobRow) (s : State F κ) : Prop :=
  id ∈ s.issued ∧ s.pc.view id = .none ∧ s.db.job id = some r ∧ r.status = .delivered

theorem Settled.step {id : Uuid} {r : JobRow} {s t : State F κ} {l : Label F κ}
    (hs : Settled id r s) (hst : Step s l t) (hok : l.workerSucceeds = true) :
    Settled id r t ∧ l.sends id = false := by
  obtain ⟨hid, hview, hrow, hdel⟩ := hs
  obtain ⟨hsame, hsends, hview' | ⟨r', hr', hpend⟩⟩ := hst.aside hok hid hview
  · exact ⟨⟨hst.issued hid, hview', hsame.trans hrow, hdel⟩, hsends⟩
  · rw [hrow] at hr'
    cases hr'
    rw [hdel] at hpend
    cases hpend

/-- The job has an entry, and the worker is at the deletion of its row or has
made it. -/
def Moved (id : Uuid) (s : State F κ) : Prop :=
  id ∈ s.issued ∧
    (s.pc.view id = .deleting ∨ (s.pc.view id = .none ∧ s.db.job id = none))

omit [DecidableEq κ] in
theorem queue_cases (id : Uuid) (jobs : List (WebhookJob F)) :
    queue id jobs = .none ∨ ∃ job, queue id jobs = .queued job := by
  unfold queue
  split
  · exact .inr ⟨_, rfl⟩
  · exact .inl rfl

omit [DecidableEq κ] in
theorem queue_ne_view {id : Uuid} {v : View F} (hnone : .none ≠ v)
    (hqueued : ∀ job, .queued job ≠ v) (jobs : List (WebhookJob F)) : queue id jobs ≠ v := by
  rcases queue_cases id jobs with h | ⟨job, h⟩
  · rw [h]
    exact hnone
  · rw [h]
    exact hqueued job

omit [DecidableEq κ] in
theorem Pc.of_deleting {pc : Pc F} {id : Uuid} (hv : pc.view id = .deleting) :
    ∃ job e rest, pc = .deleting job e rest ∧ job.id = id := by
  have hno : ∀ jobs, queue id jobs ≠ (.deleting : View F) :=
    fun jobs => queue_ne_view (by simp) (by simp) jobs
  cases pc with
  | fetching => cases hv
  | batch jobs => exact absurd hv (hno jobs)
  | deleting job e rest =>
    by_cases hid : job.id = id
    · exact ⟨job, e, rest, rfl, hid⟩
    · exact absurd ((if_neg hid).symm.trans hv) (hno rest)
  | marking job rest | retrying job attempts rest | moving job error rest =>
    by_cases hid : job.id = id
    · cases (if_pos hid).symm.trans hv
    · exact absurd ((if_neg hid).symm.trans hv) (hno rest)

omit [DecidableEq κ] in
theorem Pc.of_moving {pc : Pc F} {id : Uuid} {d : WebhookJob F} (hv : pc.view id = .moving d) :
    ∃ error rest, pc = .moving d error rest ∧ d.id = id := by
  have hno : ∀ jobs, queue id jobs ≠ (.moving d : View F) :=
    fun jobs => queue_ne_view (by simp) (by simp) jobs
  cases pc with
  | fetching => cases hv
  | batch jobs => exact absurd hv (hno jobs)
  | moving job error rest =>
    by_cases hid : job.id = id
    · cases (if_pos hid).symm.trans hv
      exact ⟨error, rest, rfl, hid⟩
    · exact absurd ((if_neg hid).symm.trans hv) (hno rest)
  | marking job rest | retrying job attempts rest | deleting job e rest =>
    by_cases hid : job.id = id
    · cases (if_pos hid).symm.trans hv
    · exact absurd ((if_neg hid).symm.trans hv) (hno rest)

omit [DecidableEq κ] in
/-- A job that `process_job` is not at is in the queue of the worker or not. -/
theorem Pc.view_of_idle {pc : Pc F} {id : Uuid} (h : pc.processing ≠ some id) :
    pc.view id = .none ∨ ∃ job, pc.view id = .queued job := by
  cases pc with
  | fetching => exact .inl rfl
  | batch jobs => exact queue_cases id jobs
  | marking job rest | retrying job attempts rest | moving job error rest
  | deleting job e rest =>
    have hne : ¬job.id = id := fun e => h (congrArg some e)
    rw [Pc.view, if_neg hne]
    exact queue_cases id rest

omit [DecidableEq κ] in
theorem Tracks.settled {id : Uuid} {s : State F κ} {a : Option (Retry.Job Unit)}
    (h : Tracks id s a) {r : JobRow} (hr : s.db.job id = some r) (hdel : r.status = .delivered) :
    Settled id r s := by
  cases a with
  | none =>
    rw [Tracks, hr] at h
    cases h.2
  | some j =>
    obtain ⟨m, stage, n, f⟩ := j
    obtain ⟨hid, -, hst⟩ := h
    cases stage with
    | delivered => exact ⟨hid, hst.1, hr, hdel⟩
    | called w ok => cases ok <;> simp [AtStage, Stays, hr, hdel] at hst
    | waiting | held | lost | dead | rejected =>
      simp [AtStage, Waiting, Stays, Leaving, hr, hdel] at hst

omit [DecidableEq κ] in
theorem lifeEvent_exhaust {id : Uuid} {l : Label F κ} {w : Unit}
    (hl : lifeEvent id l = some (.exhaust w)) :
    ∃ d e, l = .insertDlq d e ∧ d.id = id ∧ d.spent = true := by
  cases l with
  | insertDlq d e =>
    simp only [lifeEvent, Option.ite_none_right_eq_some] at hl
    exact ⟨d, e, rfl, hl.1⟩
  | enqueue | insertJob | send | block | markDelivered | recordAttempt =>
    obtain ⟨-, he⟩ := eq_of_submit hl
    cases he
  | fetchDue =>
    simp only [lifeEvent, Option.ite_none_right_eq_some] at hl
    cases hl.2
  | deleteJob | workerFailed | endPass | getDlq | deleteDlq | callFailed | restart => cases hl

theorem Moved.step {id : Uuid} {s t : State F κ} {l : Label F κ} (hs : Moved id s)
    (hdist : Distinct s) (hst : Step s l t) (hok : l.workerSucceeds = true) : Moved id t := by
  obtain ⟨hid, hview | ⟨hview, hrow⟩⟩ := hs
  · refine ⟨hst.issued hid, ?_⟩
    obtain ⟨job, e, rest, hdel, rfl⟩ := Pc.of_deleting hview
    cases hst with
    | deleteJob job' e' rest' hpc =>
      rw [hdel] at hpc
      cases hpc
      refine .inr ⟨hdist.rest (congrArg Pc.jobs hdel), ?_⟩
      exact (job_deleteJob s.db job.id job.id).trans (if_pos rfl)
    | enqueue | insertJob | getDlq | notFound | deleteDlq | callFailed => exact .inl hview
    | fetchDue now jobs hpc | block job' rest' err hpc | send job' rest' resp hpc
    | markDelivered job' rest' hpc | recordAttempt job' attempts rest' next hpc
    | insertDlq job' error rest' e' now db hpc | endPass hpc =>
      rw [hdel] at hpc
      cases hpc
    | workerFailed | restart => cases hok
  · obtain ⟨hsame, -, hview' | ⟨r, hr, -⟩⟩ := hst.aside hok hid hview
    · exact ⟨hst.issued hid, .inr ⟨hview', hsame.trans hrow⟩⟩
    · rw [hrow] at hr
      cases hr

/-! ## What moves a job -/

theorem Step.moving {s t : State F κ} {d : WebhookJob F} {e : Uuid}
    (hst : Step s (.insertDlq d e) t) :
    s.pc.view d.id = .moving d ∧ t.pc.view d.id = .deleting ∧
      ∃ r, t.db.entry e = some r ∧ r.jobId = d.id ∧ r.attempts = d.attempts := by
  cases hst with
  | insertDlq job error rest _ now db hpc hlock hnew hins =>
    refine ⟨?_, if_pos rfl, dlqRow e d error now, ?_, rfl, rfl⟩
    · rw [hpc]
      exact if_pos rfl
    · exact (insertDlq_some hins e).2.1.trans (if_pos rfl)

/-- A job moved with attempts to spare has been blocked. -/
theorem blocked_of_unspent {h : List (Label F κ)} {s t : State F κ}
    (hs : (undisturbed F κ).Reaches h s) {d : WebhookJob F} {e : Uuid}
    (hst : Step s (.insertDlq d e) t) (hspent : d.spent = false) :
    ∃ l ∈ h, l.blocks d.id = true := by
  obtain ⟨a, ha, htr⟩ := tracked hs d.id
  obtain ⟨-, ⟨m, n, f, rfl, -⟩ | ⟨f, -, -, -, hsp⟩⟩ := htr.of_moving hst.moving.1
  · obtain ⟨gone, hdrop⟩ := Retry.lost_dropped ha rfl
    obtain ⟨l, hl, hevent⟩ := List.mem_filterMap.1 hdrop
    refine ⟨l, hl, ?_⟩
    cases l with
    | block job err =>
      obtain ⟨hid, -⟩ := eq_of_submit hevent
      exact decide_eq_true hid
    | enqueue | insertJob | send | markDelivered | recordAttempt =>
      obtain ⟨-, he⟩ := eq_of_submit hevent
      cases he
    | fetchDue | insertDlq =>
      simp only [lifeEvent, Option.ite_none_right_eq_some] at hevent
      cases hevent.2
    | deleteJob | workerFailed | endPass | getDlq | deleteDlq | callFailed | restart =>
      cases hevent
  · rw [hspent] at hsp
    cases hsp

/-- A job moved with no attempt to spare has had them all, and they have failed. -/
theorem exhausted_of_spent {h : List (Label F κ)} {s t : State F κ}
    (hs : (undisturbed F κ).Reaches h s) {d : WebhookJob F} {e : Uuid}
    (hst : Step s (.insertDlq d e) t) (hspent : d.spent = true) :
    d.attempts = max 1 d.maxAttempts ∧ failures d.id h = d.attempts ∧
      ∀ m : Int, .submit m ∈ h.filterMap (lifeEvent d.id) → m = d.maxAttempts := by
  obtain ⟨a, ha, htr⟩ := tracked hs d.id
  obtain ⟨-, ⟨m, n, f, -, -, -, -, hsp⟩ | ⟨f, rfl, -⟩⟩ := htr.of_moving hst.moving.1
  · rw [hspent] at hsp
    cases hsp
  · obtain ⟨-, hfails, hbound⟩ := Retry.accounted ha
    simp only [Retry.Job.Bounded, Bool.false_eq_true, if_false] at hbound
    have hle := WebhookJob.maxAttempts_le hspent
    refine ⟨by omega, ?_, fun m hm => ?_⟩
    · rw [(counts_eq hs d.id).2, hfails]
      exact hbound.1
    · obtain ⟨k, hk, hmax⟩ := Retry.submitted ha m hm
      cases hk
      exact hmax.symm

/-- Every job that has been moved stays so.  It has been blocked, or its entry
counts its whole budget. -/
theorem moved_budget {h : List (Label F κ)} {s : State F κ} (hs : (undisturbed F κ).Reaches h s) :
    ∀ d e, .insertDlq d e ∈ h → Moved d.id s ∧
      (d.spent = true → ∀ m, .submit m ∈ h.filterMap (lifeEvent d.id) →
        (d.attempts : Int) = max 1 m) := by
  apply hs.invariant (I := fun h s => ∀ d e, .insertDlq d e ∈ h → Moved d.id s ∧
    (d.spent = true → ∀ m, .submit m ∈ h.filterMap (lifeEvent d.id) →
      (d.attempts : Int) = max 1 m))
  · intro s _ d e hmem
    exact absurd hmem List.not_mem_nil
  · intro h s l t hr hI hst d e hmem
    rcases List.mem_cons.1 hmem with rfl | hmem
    · have hmove := hst.2.moving
      obtain ⟨a, ha, htr⟩ := tracked hr d.id
      obtain ⟨hid, -⟩ := htr.of_moving hmove.1
      refine ⟨⟨hst.2.issued hid, .inl hmove.2.1⟩, fun hspent m hm => ?_⟩
      obtain ⟨hatt, -, hmax⟩ := exhausted_of_spent hr hst.2 hspent
      have hevent : lifeEvent d.id (.insertDlq d e : Label F κ) = some (.exhaust ()) :=
        if_pos ⟨rfl, hspent⟩
      rw [List.filterMap_cons_some hevent] at hm
      rcases List.mem_cons.1 hm with hm | hm
      · cases hm
      · rw [hmax m hm]
        omega
    · obtain ⟨hmoved, hatt⟩ := hI d e hmem
      refine ⟨hmoved.step (distinct hr.of_restrict) hst.2 hst.1.2, fun hspent m hm => ?_⟩
      cases hl : lifeEvent d.id l with
      | none =>
        rw [List.filterMap_cons_none hl] at hm
        exact hatt hspent m hm
      | some e' =>
        rw [List.filterMap_cons_some hl] at hm
        rcases List.mem_cons.1 hm with rfl | hm
        · exact absurd hmoved.1 (hst.2.submit_new hl)
        · exact hatt hspent m hm

/-! ## The budget -/

/-- A job whose attempts have failed as often as they may is at the `INSERT` of
its move, or has been moved. -/
theorem spent_moves {h : List (Label F κ)} {s : State F κ} (hs : (undisturbed F κ).Reaches h s)
    {job : WebhookJob F} (hsub : Submitted h job)
    (hfail : failures job.id h = max 1 job.maxAttempts) :
    (∃ d error rest, s.pc = .moving d error rest ∧ d.id = job.id ∧
        d.attempts = max 1 job.maxAttempts) ∨
      Moved job.id s ∧ ∃ d e, .insertDlq d e ∈ h ∧ d.id = job.id ∧
        d.attempts = max 1 job.maxAttempts := by
  have hin := lifeEvent_submitted hsub rfl
  obtain ⟨a, ha, htr⟩ := tracked hs job.id
  obtain ⟨j, rfl, hmax⟩ := Retry.submitted ha _ hin
  obtain ⟨hcalls, hfails, hbound⟩ := Retry.accounted ha
  have hcount := (counts_eq hs job.id).2
  rw [hfail, hfails] at hcount
  obtain ⟨m, stage, n, f⟩ := j
  have hmax : m = job.maxAttempts := hmax
  subst hmax
  have hcount : max 1 job.maxAttempts = f := hcount
  have hroom : Room job.maxAttempts n → f ≤ n → False := by
    rintro (rfl | hlt) hle
    · omega
    · omega
  cases stage with
  | waiting => exact absurd hbound.1.le (hroom htr.2.2.2.2)
  | held w => exact absurd hbound.1.le (hroom htr.2.2.2.1)
  | lost =>
    have hle := Retry.failures_le_calls (h.filterMap (lifeEvent job.id))
    rw [hfails, hcalls] at hle
    exact absurd hle (hroom htr.2.2.1)
  | delivered =>
    have hdel := Retry.delivered_calls ha rfl
    rw [hfails, hcalls] at hdel
    simp only [Retry.Job.Bounded] at hbound
    have hdel : f + 1 = n := hdel
    omega
  | called w ok =>
    cases ok with
    | true =>
      simp only [Retry.Job.Bounded, if_true] at hbound
      omega
    | false =>
      simp only [Retry.Job.Bounded, Bool.false_eq_true, if_false] at hbound
      obtain ⟨-, -, ⟨-, hlt⟩ | ⟨d, hview, hatt, -, -⟩⟩ := htr.2.2
      · have hlt : (n : Int) < job.maxAttempts := hlt
        omega
      · have hatt : d.attempts = n := hatt
        obtain ⟨error, rest, hpc, hid⟩ := Pc.of_moving hview
        exact .inl ⟨d, error, rest, hpc, hid, by omega⟩
  | dead =>
    obtain ⟨w, hexh⟩ := Retry.dead_exhausted ha rfl
    obtain ⟨l, hl, hevent⟩ := List.mem_filterMap.1 hexh
    obtain ⟨d, e, rfl, hid, hspent⟩ := lifeEvent_exhaust hevent
    obtain ⟨hmoved, hatt⟩ := moved_budget hs d e hl
    rw [hid] at hmoved hatt
    have hatt := hatt hspent _ hin
    exact .inr ⟨hmoved, d, e, hl, hid, by omega⟩
  | rejected => exact htr.2.2.elim

/-- A job that the worker is not about has as many attempts as sends that failed. -/
theorem pending_attempts {h : List (Label F κ)} {s : State F κ}
    (hs : (undisturbed F κ).Reaches h s) {id : Uuid} {r : JobRow} (hr : s.db.job id = some r)
    (hpend : r.status = .pending) (hidle : s.pc.processing ≠ some id) :
    r.attempts = failures id h := by
  obtain ⟨a, ha, htr⟩ := tracked hs id
  rw [(counts_eq hs id).2]
  rcases Pc.view_of_idle hidle with hview | ⟨job, hview⟩
  · obtain ⟨m, n, f, -, ⟨rfl, -, hatt, -⟩ | ⟨-, hdel⟩⟩ := htr.of_none hview hr
    · obtain ⟨-, hfails, hbound⟩ := Retry.accounted ha
      rw [hatt, hfails]
      exact congrArg Int.ofNat hbound.1.symm
    · rw [hpend] at hdel
      cases hdel
  · obtain ⟨f, rfl, -, -, ⟨r', hr', -, hatt, -⟩, -⟩ := htr.of_queued hview
    rw [hr] at hr'
    cases hr'
    obtain ⟨-, hfails, hbound⟩ := Retry.accounted ha
    rw [hatt, hfails]
    exact congrArg Int.ofNat hbound.1.symm

/-- A job that is not blocked is moved after its last failed send, with all of them
on its entry. -/
theorem moved_exhausted {h : List (Label F κ)} {s t : State F κ}
    (hs : (undisturbed F κ).Reaches h s) {job d : WebhookJob F} {e : Uuid}
    (hsub : Submitted h job) (hid : d.id = job.id)
    (hst : (undisturbed F κ).step s (.insertDlq d e) t) (hfree : ∀ l ∈ h, l.blocks job.id = false) :
    failures job.id h = max 1 job.maxAttempts ∧
      ∃ r, t.db.entry e = some r ∧ r.jobId = job.id ∧
        r.attempts = (max 1 job.maxAttempts : Nat) := by
  have hspent : d.spent = true := by
    by_contra hno
    obtain ⟨l, hl, hblocks⟩ := blocked_of_unspent hs hst.2 (Bool.eq_false_iff.2 hno)
    rw [hid, hfree l hl] at hblocks
    cases hblocks
  obtain ⟨hatt, hfail, hmax⟩ := exhausted_of_spent hs hst.2 hspent
  have hm := hmax _ (lifeEvent_submitted hsub hid.symm)
  obtain ⟨-, -, r, hr, hjob, hr'⟩ := hst.2.moving
  rw [hid] at hfail hjob
  exact ⟨by omega, r, hr, hjob, by omega⟩

/-- A delivered job keeps its row and is not sent again. -/
theorem Settled.path {id : Uuid} {r : JobRow} {s t : State F κ} {h : List (Label F κ)}
    (hs : Settled id r s) (hpath : (undisturbed F κ).Path s h t) :
    Settled id r t ∧ sends id h = 0 := by
  apply hpath.invariant (I := fun h t => Settled id r t ∧ sends id h = 0)
  · exact ⟨hs, rfl⟩
  · intro h t l u _ hI hst
    obtain ⟨hu, hl⟩ := hI.1.step hst.2 hst.1.2
    refine ⟨hu, ?_⟩
    show (l :: h).countP (Label.sends id) = 0
    rw [List.countP_cons, hl]
    exact hI.2

/-- In a run in which the worker's statements succeed and the process stays up,
a job has at most `max 1 max_attempts` sends, its pending row counts the failed
ones, it is moved to the dead letters for failed sends exactly when that many
have failed, and once delivered it is left alone. -/
theorem attempts_exact {h : List (Label F κ)} {s : State F κ}
    (hs : (undisturbed F κ).Reaches h s) :
    (∀ job, Submitted h job → sends job.id h ≤ max 1 job.maxAttempts) ∧
    (∀ id r, s.db.job id = some r → r.status = .pending → s.pc.processing ≠ some id →
      r.attempts = failures id h) ∧
    (∀ job d e t, Submitted h job → d.id = job.id →
      (undisturbed F κ).step s (.insertDlq d e) t → (∀ l ∈ h, l.blocks job.id = false) →
      failures job.id h = max 1 job.maxAttempts ∧
        ∃ r, t.db.entry e = some r ∧ r.jobId = job.id ∧
          r.attempts = (max 1 job.maxAttempts : Nat)) ∧
    (∀ job, Submitted h job → failures job.id h = max 1 job.maxAttempts →
      (∃ d error rest, s.pc = .moving d error rest ∧ d.id = job.id ∧
          d.attempts = max 1 job.maxAttempts) ∨
        Moved job.id s ∧ ∃ d e, .insertDlq d e ∈ h ∧ d.id = job.id ∧
          d.attempts = max 1 job.maxAttempts) ∧
    ∀ id r, s.db.job id = some r → r.status = .delivered → ∀ h' t,
      (undisturbed F κ).Path s h' t → t.db.job id = some r ∧ sends id h' = 0 := by
  refine ⟨fun job hsub => ?_, fun id r hr hpend hidle => pending_attempts hs hr hpend hidle,
    fun job d e t hsub hid hst hfree => moved_exhausted hs hsub hid hst hfree,
    fun job hsub hfail => spent_moves hs hsub hfail, fun id r hr hdel h' t hpath => ?_⟩
  · obtain ⟨a, ha, -⟩ := tracked hs job.id
    obtain ⟨j, rfl, hmax⟩ := Retry.submitted ha _ (lifeEvent_submitted hsub rfl)
    have hle := Retry.calls_le ha
    rw [← (counts_eq hs job.id).1, hmax] at hle
    omega
  · obtain ⟨a, ha, htr⟩ := tracked hs id
    have hsettled : Settled id r s := htr.settled hr hdel
    obtain ⟨hend, hsends⟩ := hsettled.path hpath
    exact ⟨hend.2.2.1, hsends⟩

/-- The hook is sent once, and fails. -/
def failing : List (Label mini Bool) :=
  [.send (hookJob 1) (.status 500), .fetchDue 0 [hookJob 1], .enqueue (hookJob 1)]

theorem failing_reached : (undisturbed mini Bool).Reaches failing
    (pairAt accepted [1] none (afterSend (hookJob 1) (.status 500) []) .idle .idle) := by
  have hfetch : FetchesDue mini accepted 0 10 (some [hookJob 1]) :=
    ⟨[(hookJob 1).row], ⟨_, List.Perm.refl _, List.pairwise_singleton _ _, rfl⟩, rfl⟩
  have hC : ∀ (db : Db) (issued : List Uuid) (pc : Pc mini) (l : Label mini Bool),
      l.workerSucceeds = true → Undisturbed (pairAt db issued none pc .idle .idle) l := by
    intro db issued pc l hl
    exact ⟨show 1 < 2 ^ 32 by decide, hl⟩
  have r₀ : (undisturbed mini Bool).Reaches []
      (pairAt Db.empty [] none .fetching .idle .idle) :=
    .init ⟨rfl, rfl, rfl, rfl, fun k => by cases k <;> rfl⟩
  have r₁ := r₀.step ⟨hC _ _ _ _ rfl, Step.enqueue _ hook 1 0 accepted rfl (by decide) rfl⟩
  have r₂ := r₁.step ⟨hC accepted [1] .fetching _ rfl,
    Step.fetchDue _ 0 [hookJob 1] rfl rfl hfetch⟩
  exact r₂.step ⟨hC accepted [1] (.batch [hookJob 1]) _ rfl,
    Step.send _ (hookJob 1) [] (.status 500) rfl⟩

theorem attempts_exact_hook :
    sends 1 failing ≤ max 1 1 ∧
      ((∃ (d : WebhookJob mini) (error : String) (rest : List (WebhookJob mini)),
          afterSend (hookJob 1) (.status 500) [] = .moving d error rest ∧ d.id = 1 ∧
            d.attempts = max 1 1) ∨
        Moved 1 (pairAt accepted [1] none (afterSend (hookJob 1) (.status 500) []) .idle .idle) ∧
          ∃ (d : WebhookJob mini) (e : Uuid), .insertDlq d e ∈ failing ∧ d.id = 1 ∧
            d.attempts = max 1 1) := by
  have hsub : Submitted failing (hookJob 1) := .inl (by simp [failing])
  obtain ⟨hsends, -, -, hmoves, -⟩ := attempts_exact failing_reached
  exact ⟨hsends _ hsub, hmoves _ hsub (by decide)⟩

end D
end WebhookDelivery
