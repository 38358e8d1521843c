/-
Why a job is moved to the dead letters.

In every run, crashes and failing statements included, a row counts no more sends
than have failed for it, and stays below its budget.  So a job that is moved was
blocked, or as many of its sends have failed as it may have.
-/
import WebhookDelivery.D.Budget

namespace WebhookDelivery
namespace D

open Sql Run

variable {F : Formats} {κ : Type}

/-- `max_attempts` is a `u32`. -/
def Sized (s : State F κ) (_ : Label F κ) : Prop := s.cfg.maxAttempts < 2 ^ 32

/-- The job that a label submits. -/
def Label.submitted : Label F κ → Option (WebhookJob F)
  | .enqueue job | .insertJob _ _ job => some job
  | _ => none

/-- The job was submitted with this budget. -/
def Budget (h : List (Label F κ)) (id : Uuid) (m : Nat) : Prop :=
  ∃ job, Submitted h job ∧ job.id = id ∧ job.maxAttempts = m

/-- `n` attempts are noted of a job with the budget `m`. -/
def Tally (h : List (Label F κ)) (id : Uuid) (n m : Nat) : Prop :=
  Budget h id m ∧ n ≤ failures id h ∧ (n = 0 ∨ n < m)

/-- As many sends of the job have failed as it may have. -/
def Exhausted (h : List (Label F κ)) (id : Uuid) : Prop :=
  ∃ m, Budget h id m ∧ max 1 m ≤ failures id h

/-- The jobs of the batch that the worker has not come to. -/
def Pc.queued : Pc F → List (WebhookJob F)
  | .fetching => []
  | .batch jobs => jobs
  | .marking _ rest | .retrying _ _ rest | .moving _ _ rest | .deleting _ _ rest => rest

/-- A worker whose statement has failed goes on with the rest of its batch. -/
theorem Pc.afterFailure_eq (pc : Pc F) : pc.afterFailure = .batch pc.queued := by
  cases pc <;> rfl

/-- The worker's copies are tallied, and it moves a job for a reason. -/
structure Pc.Tallied (h : List (Label F κ)) (pc : Pc F) : Prop where
  queued : ∀ job ∈ pc.queued, Tally h job.id job.attempts job.maxAttempts
  retrying : ∀ job n rest, pc = .retrying job n rest → Tally h job.id n job.maxAttempts
  moving : ∀ job error rest, pc = .moving job error rest →
    (∃ err, .block job err ∈ h) ∨ Exhausted h job.id

structure Tallied (h : List (Label F κ)) (s : State F κ) : Prop where
  submitted : ∀ job, Submitted h job → job.id ∈ s.issued ∧ job.maxAttempts < 2 ^ 32
  budget : ∀ id m m', Budget h id m → Budget h id m' → m = m'
  rows : ∀ id r, s.db.job id = some r →
    ∃ n m : Nat, r.attempts = n ∧ r.maxAttempts = m ∧ Tally h id n m
  worker : s.pc.Tallied h

section Histories

variable {h : List (Label F κ)} {l : Label F κ} {job : WebhookJob F} {id : Uuid} {n m : Nat}

theorem Submitted.cons (hs : Submitted h job) : Submitted (l :: h) job := by
  rcases hs with hmem | ⟨k, e, hmem⟩
  · exact .inl (List.mem_cons_of_mem l hmem)
  · exact .inr ⟨k, e, List.mem_cons_of_mem l hmem⟩

theorem Budget.cons (hb : Budget h id m) : Budget (l :: h) id m := by
  obtain ⟨job, hsub, hid, hm⟩ := hb
  exact ⟨job, hsub.cons, hid, hm⟩

theorem failures_cons (id : Uuid) (l : Label F κ) (h : List (Label F κ)) :
    failures id (l :: h) = failures id h + if l.fails id = true then 1 else 0 :=
  List.countP_cons

theorem Tally.cons (ht : Tally h id n m) : Tally (l :: h) id n m := by
  obtain ⟨hb, hn, hroom⟩ := ht
  refine ⟨hb.cons, ?_, hroom⟩
  rw [failures_cons]
  omega

theorem Exhausted.cons (he : Exhausted h id) : Exhausted (l :: h) id := by
  obtain ⟨m, hb, hm⟩ := he
  refine ⟨m, hb.cons, ?_⟩
  rw [failures_cons]
  omega

theorem submitted_cons (hs : Submitted (l :: h) job) :
    Submitted h job ∨ l.submitted = some job := by
  rcases hs with hmem | ⟨k, e, hmem⟩
  · rcases List.mem_cons.1 hmem with rfl | hmem
    · exact .inr rfl
    · exact .inl (.inl hmem)
  · rcases List.mem_cons.1 hmem with rfl | hmem
    · exact .inr rfl
    · exact .inl (.inr ⟨k, e, hmem⟩)

theorem submitted_head (hl : l.submitted = some job) : Submitted (l :: h) job := by
  cases l with
  | enqueue job' =>
    cases hl
    exact .inl List.mem_cons_self
  | insertJob k e job' =>
    cases hl
    exact .inr ⟨k, e, List.mem_cons_self⟩
  | fetchDue | block | send | markDelivered | recordAttempt | insertDlq | deleteJob
  | workerFailed | endPass | getDlq | deleteDlq | callFailed | restart => cases hl

/-- A failed send is noted, or was the last. -/
theorem Tally.failed (ht : Tally h job.id n m) (hm : m < 2 ^ 32)
    (hl : l.fails job.id = true) :
    (n + 1) % 2 ^ 32 = n + 1 ∧ (n + 1 < m → Tally (l :: h) job.id (n + 1) m) ∧
      (m ≤ n + 1 → Exhausted (l :: h) job.id) := by
  obtain ⟨hb, hn, hroom⟩ := ht
  have hcount : failures job.id (l :: h) = failures job.id h + 1 := by
    rw [failures_cons, hl]
    rfl
  refine ⟨Nat.mod_eq_of_lt (by omega), fun hlt => ⟨hb.cons, by omega, .inr hlt⟩, fun hle => ?_⟩
  exact ⟨m, hb.cons, by omega⟩

/-- A job of a batch counts what its row counts. -/
theorem Tallied.fetched {s : State F κ} (hs : Tallied h s) {now limit : Int}
    {jobs : List (WebhookJob F)} (hfetch : FetchesDue F s.db now limit (some jobs))
    (hjob : job ∈ jobs) :
    Tally h job.id job.attempts job.maxAttempts := by
  obtain ⟨r, hr, -, hdec⟩ := hfetch.mem hjob
  obtain ⟨n, m, hn, hm, ht⟩ := hs.rows job.id r hr
  obtain ⟨hatt, hmax⟩ := rowToJob_counters hdec
  obtain ⟨⟨j, hsub, -, hj⟩, -, hroom⟩ := id ht
  have hsize := (hs.submitted j hsub).2
  rw [hn, asU32_of_lt (by omega)] at hatt
  rw [hm, asU32_of_lt (by omega)] at hmax
  rw [hatt, hmax]
  exact ht

theorem afterSend_cases (job : WebhookJob F) (resp : Response) (rest : List (WebhookJob F)) :
    afterSend job resp rest = .marking job rest ∨
      ∃ err, resp.error = some err ∧ afterSend job resp rest = handleFailure job err rest := by
  unfold afterSend
  split
  · exact .inl rfl
  · rename_i err herr
    exact .inr ⟨err, herr, rfl⟩

theorem Pc.Tallied.cons {pc : Pc F} (hp : pc.Tallied h) : pc.Tallied (l :: h) where
  queued job hjob := (hp.queued job hjob).cons
  retrying job n rest hpc := (hp.retrying job n rest hpc).cons
  moving job error rest hpc := by
    rcases hp.moving job error rest hpc with ⟨err, hmem⟩ | hex
    · exact .inl ⟨err, List.mem_cons_of_mem l hmem⟩
    · exact .inr hex.cons

/-- A worker that neither retries a job nor moves one. -/
theorem Pc.Tallied.idle {pc : Pc F}
    (hqueued : ∀ job ∈ pc.queued, Tally h job.id job.attempts job.maxAttempts)
    (hretry : ∀ job n rest, pc ≠ .retrying job n rest)
    (hmove : ∀ job error rest, pc ≠ .moving job error rest) : pc.Tallied h where
  queued := hqueued
  retrying job n rest hpc := absurd hpc (hretry job n rest)
  moving job error rest hpc := absurd hpc (hmove job error rest)

/-- What a send puts the worker at. -/
theorem Tallied.sent {s : State F κ} (hs : Tallied h s) {rest : List (WebhookJob F)}
    (hpc : s.pc = .batch (job :: rest)) (resp : Response) :
    (afterSend job resp rest).Tallied (.send job resp :: h) := by
  have hqueued := hs.worker.queued
  rw [hpc] at hqueued
  have hrest : ∀ j ∈ rest, Tally (.send job resp :: h) j.id j.attempts j.maxAttempts :=
    fun j hj => (hqueued j (List.mem_cons_of_mem job hj)).cons
  rcases afterSend_cases job resp rest with hdone | ⟨err, herr, hfail⟩
  · rw [hdone]
    exact .idle hrest (by simp) (by simp)
  · have ht := hqueued job List.mem_cons_self
    obtain ⟨j, hsub, -, hj⟩ := ht.1
    have hl : (Label.send job resp : Label F κ).fails job.id = true := by
      simp [Label.fails, herr]
    obtain ⟨hmod, hnoted, hlast⟩ := ht.failed (hj ▸ (hs.submitted j hsub).2) hl
    rw [hfail, handleFailure, hmod]
    split
    · rename_i hle
      refine ⟨hrest, by simp, fun _ _ _ hpc => ?_⟩
      cases hpc
      exact .inr (hlast hle)
    · rename_i hlt
      refine ⟨hrest, fun _ _ _ hpc => ?_, by simp⟩
      cases hpc
      exact hnoted (by omega)

end Histories

/-! ## Steps -/

section Steps

variable [DecidableEq κ] {h : List (Label F κ)} {s t : State F κ} {l : Label F κ}
  {job : WebhookJob F}

/-- A job is submitted under a new id, with the budget of the configuration. -/
theorem Step.submitted (hst : Step s l t) (hl : l.submitted = some job) :
    job.id ∉ s.issued ∧ job.id ∈ t.issued ∧ job.maxAttempts = s.cfg.maxAttempts ∧
      job.attempts = 0 := by
  cases hst with
  | enqueue req id now db hlock hnew hins =>
    cases hl
    exact ⟨hnew, List.mem_cons_self, rfl, rfl⟩
  | insertJob k e entry id now db hcall hlock hnew hins =>
    cases hl
    exact ⟨hnew, List.mem_cons_self, rfl, rfl⟩
  | fetchDue | block | send | markDelivered | recordAttempt | insertDlq | deleteJob
  | workerFailed | endPass | getDlq | notFound | deleteDlq | callFailed | restart => cases hl

theorem Tallied.submitted_step (hs : Tallied h s) (hst : Step s l t) (hsize : Sized s l) :
    ∀ job, Submitted (l :: h) job → job.id ∈ t.issued ∧ job.maxAttempts < 2 ^ 32 := by
  intro job hsub
  rcases submitted_cons hsub with hold | hnew
  · obtain ⟨hid, hm⟩ := hs.submitted job hold
    exact ⟨hst.issued hid, hm⟩
  · obtain ⟨-, hid, hm, -⟩ := hst.submitted hnew
    exact ⟨hid, hm ▸ hsize⟩

theorem Tallied.budget_step (hs : Tallied h s) (hst : Step s l t) :
    ∀ id m m', Budget (l :: h) id m → Budget (l :: h) id m' → m = m' := by
  rintro id m m' ⟨job, hsub, rfl, rfl⟩ ⟨job', hsub', hid, rfl⟩
  rcases submitted_cons hsub with hold | hnew
  · rcases submitted_cons hsub' with hold' | hnew'
    · exact hs.budget job.id _ _ ⟨job, hold, rfl, rfl⟩ ⟨job', hold', hid, rfl⟩
    · exact absurd (hid ▸ (hs.submitted job hold).1) (hst.submitted hnew').1
  · rcases submitted_cons hsub' with hold' | hnew'
    · exact absurd (hid ▸ (hs.submitted job' hold').1) (hst.submitted hnew).1
    · rw [hnew, Option.some.injEq] at hnew'
      rw [hnew']

theorem Tallied.rows_step (hs : Tallied h s) (hst : Step s l t) :
    ∀ id r, t.db.job id = some r →
      ∃ n m : Nat, r.attempts = n ∧ r.maxAttempts = m ∧ Tally (l :: h) id n m := by
  intro id r hr
  have hkept : s.db.job id = some r →
      ∃ n m : Nat, r.attempts = n ∧ r.maxAttempts = m ∧ Tally (l :: h) id n m := by
    intro hr
    obtain ⟨n, m, hn, hm, ht⟩ := hs.rows id r hr
    exact ⟨n, m, hn, hm, ht.cons⟩
  have hsubmit : ∀ job, l.submitted = some job →
      (if job.id = id then some job.row else s.db.job id) = some r →
      ∃ n m : Nat, r.attempts = n ∧ r.maxAttempts = m ∧ Tally (l :: h) id n m := by
    intro job hl hr
    split at hr
    · rename_i hid
      cases hr
      have hb : Budget (l :: h) id job.maxAttempts := ⟨job, submitted_head hl, hid, rfl⟩
      have hatt := (hst.submitted hl).2.2.2
      exact ⟨job.attempts, job.maxAttempts, rfl, rfl, hb, by omega, .inl hatt⟩
    · exact hkept hr
  rw [hst.job_eq] at hr
  cases hst with
  | enqueue req id' now db hlock hnew hins => exact hsubmit _ rfl hr
  | insertJob k e entry id' now db hcall hlock hnew hins => exact hsubmit _ rfl hr
  | markDelivered job rest hpc hlock =>
    simp only [Label.rowAfter] at hr
    split at hr
    · rename_i hid
      obtain ⟨r', hr', rfl⟩ := Option.map_eq_some_iff.1 hr
      obtain ⟨n, m, hn, hm, ht⟩ := hs.rows job.id r' hr'
      exact ⟨n, m, hn, hm, hid ▸ ht.cons⟩
    · exact hkept hr
  | recordAttempt job attempts rest next hpc hlock =>
    simp only [Label.rowAfter] at hr
    split at hr
    · rename_i hid
      obtain ⟨r', hr', rfl⟩ := Option.map_eq_some_iff.1 hr
      obtain ⟨n, m, hn, hm, hb, -⟩ := hs.rows job.id r' hr'
      have ht := hs.worker.retrying job attempts rest hpc
      rw [hs.budget job.id _ _ ht.1 hb] at ht
      exact ⟨attempts, m, rfl, hm, hid ▸ ht.cons⟩
    · exact hkept hr
  | deleteJob job e rest hpc =>
    simp only [Label.rowAfter] at hr
    split at hr
    · cases hr
    · exact hkept hr
  | fetchDue | block | send | insertDlq | workerFailed | endPass | getDlq | notFound
  | deleteDlq | callFailed | restart => exact hkept hr

theorem Tallied.worker_step (hs : Tallied h s) (hst : Step s l t) : t.pc.Tallied (l :: h) := by
  have hrest : ∀ j ∈ s.pc.queued, Tally (l :: h) j.id j.attempts j.maxAttempts :=
    fun j hj => (hs.worker.queued j hj).cons
  cases hst with
  | enqueue | getDlq | notFound | insertJob | deleteDlq | callFailed => exact hs.worker.cons
  | fetchDue now jobs hpc hlock hfetch =>
    exact .idle (fun j hj => (hs.fetched hfetch hj).cons) (by simp) (by simp)
  | block job rest err hpc =>
    rw [hpc] at hrest
    refine ⟨fun j hj => hrest j (List.mem_cons_of_mem job hj), by simp, fun _ _ _ hpc => ?_⟩
    cases hpc
    exact .inl ⟨err, List.mem_cons_self⟩
  | send job rest resp hpc => exact hs.sent hpc resp
  | markDelivered job rest hpc hlock | recordAttempt job attempts rest next hpc hlock
  | insertDlq job error rest e now db hpc hlock hnew hins | deleteJob job e rest hpc =>
    rw [hpc] at hrest
    exact .idle hrest (by simp) (by simp)
  | workerFailed =>
    show s.pc.afterFailure.Tallied _
    rw [Pc.afterFailure_eq]
    exact .idle hrest (by simp) (by simp)
  | endPass | restart =>
    exact .idle (fun _ hj => absurd hj List.not_mem_nil) (by simp) (by simp)

theorem tallied (hs : ((system F κ).restrict Sized).Reaches h s) : Tallied h s := by
  apply hs.invariant
  · rintro s ⟨hdb, -, -, hpc, -⟩
    have hnone : ∀ job : WebhookJob F, ¬Submitted ([] : List (Label F κ)) job := by
      rintro job (hmem | ⟨k, e, hmem⟩)
      · cases hmem
      · cases hmem
    refine ⟨fun job hsub => absurd hsub (hnone job), ?_, fun id r hr => ?_, ?_⟩
    · rintro id m m' ⟨job, hsub, -⟩
      exact absurd hsub (hnone job)
    · rw [hdb] at hr
      cases hr
    · rw [hpc]
      exact .idle (fun _ hj => absurd hj List.not_mem_nil) (by simp) (by simp)
  · intro h s l t _ hI hst
    exact ⟨hI.submitted_step hst.2 hst.1, hI.budget_step hst.2, hI.rows_step hst.2,
      hI.worker_step hst.2⟩

/-- A job that is moved was blocked, or has no send left. -/
theorem moved_for_cause {entryId : Uuid} (hs : ((system F κ).restrict Sized).Reaches h s)
    (hst : Step s (.insertDlq job entryId) t) :
    (∃ err, .block job err ∈ h) ∨ Exhausted h job.id := by
  cases hst with
  | insertDlq job error rest e now db hpc hlock hnew hins =>
    exact (tallied hs).worker.moving job error rest hpc

end Steps

end D
end WebhookDelivery
