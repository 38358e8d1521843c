/-
Why the `d` service sends a job twice.

Once a destination has answered a send with success, the worker marks the job
delivered, and what is marked is never fetched again.  So a job is sent again only
if the mark was not made: its statement failed, or the process died before it.
-/
import WebhookDelivery.Run.Progress
import WebhookDelivery.D.Attempts
import WebhookDelivery.D.Origin

namespace WebhookDelivery
namespace D

open Sql Run

variable {F : Formats} {κ : Type}

/-- The label keeps the worker from marking a job. -/
def Label.interrupts : Label F κ → Prop
  | .workerFailed | .restart _ => True
  | _ => False

/-- The row of `id`, if it is there, is delivered. -/
def Marked (id : Uuid) (s : State F κ) : Prop :=
  ∀ r, s.db.job id = some r → r.status = .delivered

/-- A send of `id` has succeeded, and the worker marks the job next or has marked it. -/
structure Answered (id : Uuid) (s : State F κ) : Prop where
  issued : id ∈ s.issued
  marked : (∃ job rest, s.pc = .marking job rest ∧ job.id = id ∧ id ∉ rest.map WebhookJob.id) ∨
    (id ∉ s.pc.jobs.map WebhookJob.id ∧ Marked id s)

variable [DecidableEq κ]

theorem Marked.step {id : Uuid} {s t : State F κ} {l : Label F κ} (hm : Marked id s)
    (hissued : id ∈ s.issued) (hst : Step s l t) : Marked id t := by
  intro r hr
  rw [hst.job_eq id] at hr
  cases hst with
  | enqueue req id' now db hlock hnew hins | insertJob k e entry id' now db hcall hlock hnew hins =>
    have hne : ¬id' = id := fun e => hnew (e ▸ hissued)
    exact hm r ((if_neg hne).symm.trans hr)
  | markDelivered job rest hpc hlock =>
    simp only [Label.rowAfter] at hr
    split at hr
    · obtain ⟨r₀, -, rfl⟩ := Option.map_eq_some_iff.1 hr
      rfl
    · exact hm r hr
  | recordAttempt job attempts rest next hpc hlock =>
    simp only [Label.rowAfter] at hr
    split at hr
    · rename_i hid
      obtain ⟨r₀, hr₀, rfl⟩ := Option.map_eq_some_iff.1 hr
      exact hm r₀ (hid ▸ hr₀)
    · exact hm r hr
  | deleteJob job entryId rest hpc =>
    simp only [Label.rowAfter] at hr
    split at hr
    · cases hr
    · exact hm r hr
  | fetchDue | block | send | insertDlq | workerFailed | endPass | getDlq | notFound | deleteDlq
  | callFailed | restart => exact hm r hr

/-- A marked job does not come back to the worker. -/
theorem Answered.away {id : Uuid} {s t : State F κ} {l : Label F κ} (hst : Step s l t)
    (hissued : id ∈ s.issued) (haway : id ∉ s.pc.jobs.map WebhookJob.id) (hm : Marked id s) :
    Answered id t where
  issued := hst.issued hissued
  marked := by
    refine .inr ⟨fun hin => ?_, hm.step hissued hst⟩
    obtain ⟨job, hjob, rfl⟩ := List.mem_map.1 hin
    rcases hst.jobs hjob with ⟨job', hjob', hid, -⟩ | ⟨now, jobs, hfetch, hmem⟩
    · exact haway (hid ▸ List.mem_map_of_mem hjob')
    · obtain ⟨r, hr, hpend, -⟩ := hfetch.pending hmem
      rw [hm r hr] at hpend
      cases hpend

theorem Answered.step {id : Uuid} {s t : State F κ} {l : Label F κ} (hs : Answered id s)
    (hst : Step s l t) : l.interrupts ∨ Answered id t := by
  obtain ⟨hissued, ⟨job, rest, hpc, hid, hrest⟩ | ⟨haway, hm⟩⟩ := hs
  · have hsame : t.pc = s.pc → Answered id t :=
      fun e => ⟨hst.issued hissued, .inl ⟨job, rest, e.trans hpc, hid, hrest⟩⟩
    have hrow := hst.job_eq id
    cases hst with
    | enqueue | getDlq | notFound | insertJob | deleteDlq | callFailed => exact .inr (hsame rfl)
    | markDelivered job' rest' hpc' hlock =>
      obtain ⟨rfl, rfl⟩ : job = job' ∧ rest = rest' := by
        rw [hpc] at hpc'
        exact Pc.marking.inj hpc'
      refine .inr ⟨hissued, .inr ⟨hrest, fun r hr => ?_⟩⟩
      rw [hrow] at hr
      simp only [Label.rowAfter, hid, if_true] at hr
      obtain ⟨r₀, -, rfl⟩ := Option.map_eq_some_iff.1 hr
      rfl
    | workerFailed | restart => exact .inl trivial
    | fetchDue _ _ hpc' | block _ _ _ hpc' | send _ _ _ hpc' | recordAttempt _ _ _ _ hpc'
    | insertDlq _ _ _ _ _ _ hpc' | deleteJob _ _ _ hpc' | endPass hpc' =>
      rw [hpc] at hpc'
      cases hpc'
  · exact .inr (Answered.away hst hissued haway hm)

/-- The jobs of the worker have ids that were given out. -/
theorem jobs_issued {h : List (Label F κ)} {s : State F κ} (hs : (system F κ).Reaches h s) :
    ∀ job ∈ s.pc.jobs, job.id ∈ s.issued := by
  refine hs.invariant (I := fun _ s => ∀ job ∈ s.pc.jobs, job.id ∈ s.issued)
    (fun s hinit job hjob => ?_) (fun h s l t hr hI hst job hjob => ?_)
  · rw [hinit.2.2.2.1] at hjob
    exact absurd hjob List.not_mem_nil
  · rcases hst.jobs hjob with ⟨job', hjob', hid, -⟩ | ⟨now, jobs, hfetch, hmem⟩
    · exact hst.issued (hid ▸ hI job' hjob')
    · obtain ⟨r, hrow, -⟩ := hfetch.mem hmem
      have hcontent : s.db.content (.job job.id) = some (r.payload, r.destination) := by
        show (s.db.job job.id).map _ = _
        rw [hrow]
        rfl
      exact hst.issued (used hr _ _ hcontent)

theorem Step.answered {s t : State F κ} {job : WebhookJob F} {resp : Response}
    (hst : Step s (.send job resp) t) (hdistinct : Distinct s)
    (hissued : ∀ job ∈ s.pc.jobs, job.id ∈ s.issued) (hok : resp.error = none) :
    Answered job.id t := by
  cases hst with
  | send job rest resp hpc =>
    rw [Distinct, hpc] at hdistinct
    refine ⟨hissued job (by rw [hpc]; exact List.mem_cons_self), .inl ⟨job, rest, ?_, rfl, ?_⟩⟩
    · show afterSend job resp rest = .marking job rest
      rw [afterSend, hok]
    · exact (List.nodup_cons.1 hdistinct).1

/-- A job whose send got a 2xx status is sent again only if a statement of the
worker has failed since, or the process was restarted: whatever redeliveries and
submissions come between, nothing else makes a duplicate. -/
theorem resend_has_cause (h₂ h₁ : List (Label F κ)) {h₀ : List (Label F κ)}
    {job job' : WebhookJob F} {resp resp' : Response} {s : State F κ}
    (hs : (system F κ).Reaches (h₂ ++ .send job' resp' :: (h₁ ++ .send job resp :: h₀)) s)
    (hok : resp.error = none) (hid : job'.id = job.id) : ∃ l ∈ h₁, l.interrupts := by
  obtain ⟨s₂, s₃, hs₂, hsend', -⟩ := hs.cut
  obtain ⟨s₀, s₁, hs₀, hsend, hpath⟩ := hs₂.cut
  have hanswered := hsend.answered (distinct hs₀) (jobs_issued hs₀) hok
  have hkeeps : ∀ s l t, Answered job.id s → (system F κ).step s l t →
      Label.interrupts l ∨ Answered job.id t := fun _ _ _ hI hst => hI.step hst
  rcases hpath.unless hkeeps hanswered with hcause | hafter
  · exact hcause
  · obtain ⟨-, ⟨job₀, rest, hpc, -⟩ | ⟨haway, -⟩⟩ := hafter
    · cases hsend' with
      | send job' rest' resp' hpc' =>
        rw [hpc] at hpc'
        cases hpc'
    · cases hsend' with
      | send job' rest' resp' hpc' =>
        refine absurd ?_ haway
        rw [hpc', ← hid]
        exact List.mem_cons_self

/-- The hook is sent, its mark fails, and it is sent again. -/
theorem resend_has_cause_hook :
    ∃ l ∈ ([.fetchDue 0 [hookJob 1], .endPass, .workerFailed] : List (Label mini Bool)),
      l.interrupts := by
  have hfetch : FetchesDue mini accepted 0 10 (some [hookJob 1]) :=
    ⟨[(hookJob 1).row], ⟨_, List.Perm.refl _, List.pairwise_singleton _ _, rfl⟩, rfl⟩
  have r₀ : (system mini Bool).Reaches [] (pairAt Db.empty [] none .fetching .idle .idle) :=
    .init ⟨rfl, rfl, rfl, rfl, fun k => by cases k <;> rfl⟩
  have r₁ := r₀.step (Step.enqueue _ hook 1 0 accepted rfl (by decide) rfl)
  have r₂ := r₁.step (Step.fetchDue _ 0 [hookJob 1] rfl rfl hfetch)
  have r₃ := r₂.step (Step.send _ (hookJob 1) [] (.status 200) rfl)
  have r₄ := r₃.step (Step.workerFailed _)
  have r₅ := r₄.step (Step.endPass _ rfl)
  have r₆ := r₅.step (Step.fetchDue _ 0 [hookJob 1] rfl rfl hfetch)
  have r₇ := r₆.step (Step.send _ (hookJob 1) [] (.status 200) rfl)
  exact resend_has_cause [] [.fetchDue 0 [hookJob 1], .endPass, .workerFailed] r₇ rfl rfl

end D
end WebhookDelivery
