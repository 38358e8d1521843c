/-
Where everything the `d` service sends comes from.

`no_job_lost` follows a webhook forwards.  Here a place is followed back: what it
holds was accepted once, and came to it by moves, however often it has been
buried and redelivered.  So a send carries what some caller has submitted, and a
row or an entry that says how a job has ended has its reason in the history.
-/
import WebhookDelivery.D.Lineage

namespace WebhookDelivery
namespace D

open Sql Run

variable {F : Formats} {κ : Type}

/-- What is, or was, in `x` is the content `c` of a job that was enqueued, and
`x` is the place of that job or was copied from it. -/
def Rooted (h : List (Label F κ)) (x : Place) (c : Content) : Prop :=
  ∃ job : WebhookJob F, .enqueue job ∈ h ∧ Descends (copies h) (.job job.id) x ∧ job.content = c

/-- Why a job is moved to the dead letters. -/
def EndedWith (h : List (Label F κ)) (id : Uuid) (error : String) : Prop :=
  (∃ job err, .block job err ∈ h ∧ job.id = id ∧ error = s!"blocked: {err}") ∨
    ∃ job resp, .send job resp ∈ h ∧ job.id = id ∧ resp.error = some error

/-- A send of the job got a 2xx status. -/
def SentOk (h : List (Label F κ)) (id : Uuid) : Prop :=
  ∃ job code, .send job (.status code) ∈ h ∧ job.id = id ∧ isSuccess code = true

section Histories

variable {h : List (Label F κ)} {l : Label F κ} {x y : Place} {c : Content} {id : Uuid}

theorem Rooted.cons (hx : Rooted h x c) : Rooted (l :: h) x c := by
  obtain ⟨job, hjob, hdesc, hc⟩ := hx
  refine ⟨job, List.mem_cons_of_mem l hjob, ?_, hc⟩
  exact Relation.ReflTransGen.mono (fun _ _ he => copies_cons he) _ _ hdesc

/-- A copy has the root of its original. -/
theorem Rooted.copy (hx : Rooted h x c) (hl : l.copy = some (x, y)) : Rooted (l :: h) y c := by
  obtain ⟨job, hjob, hdesc, hc⟩ := hx.cons (l := l)
  exact ⟨job, hjob, hdesc.tail (copies_head hl), hc⟩

theorem EndedWith.cons {error : String} (he : EndedWith h id error) :
    EndedWith (l :: h) id error := by
  rcases he with ⟨job, err, hmem, hrest⟩ | ⟨job, resp, hmem, hrest⟩
  · exact .inl ⟨job, err, List.mem_cons_of_mem l hmem, hrest⟩
  · exact .inr ⟨job, resp, List.mem_cons_of_mem l hmem, hrest⟩

theorem SentOk.cons (hs : SentOk h id) : SentOk (l :: h) id := by
  obtain ⟨job, code, hmem, hrest⟩ := hs
  exact ⟨job, code, List.mem_cons_of_mem l hmem, hrest⟩

end Histories

/-- Only a 2xx status is no error. -/
theorem Response.error_none {resp : Response} (h : resp.error = none) :
    ∃ code, resp = .status code ∧ isSuccess code = true := by
  cases resp with
  | failed e => cases h
  | status code =>
    refine ⟨code, rfl, ?_⟩
    by_cases hok : isSuccess code = true
    · exact hok
    · rw [Response.error, if_neg hok] at h
      cases h

/-- What the history says of the places and of the copies in memory. -/
structure Traced (h : List (Label F κ)) (s : State F κ) : Prop where
  places : ∀ x c, s.db.content x = some c → Rooted h x c
  jobs : ∀ job ∈ s.pc.jobs, Rooted h (.job job.id) job.content
  found : ∀ k e entry, s.call k = .found e entry → Rooted h (.entry e) entry.content

/-- What the history says of the ends of jobs, and of the worker that is about to
write one. -/
structure Ended (h : List (Label F κ)) (s : State F κ) : Prop where
  marking : ∀ job rest, s.pc = .marking job rest → SentOk h job.id
  moving : ∀ job error rest, s.pc = .moving job error rest → EndedWith h job.id error
  delivered : ∀ id r, s.db.job id = some r → r.status = .delivered → SentOk h id
  entries : ∀ id r, s.db.entry id = some r → EndedWith h r.jobId r.lastError

variable [DecidableEq κ]

theorem Traced.step (hparse : ∀ v : F.Value, F.fromStr (F.toString v) = some v)
    {h : List (Label F κ)} {s t : State F κ} {l : Label F κ} (hs : Traced h s)
    (hfaithful : Faithful s) (hused : Used s) (hst : Step s l t) : Traced (l :: h) t where
  places x c hc := by
    cases hst.effect x with
    | emptied _ hnone =>
      rw [hnone] at hc
      cases hc
    | kept _ _ hsame => exact (hs.places x c (hsame.symm.trans hc)).cons
    | filled c' hfill _ _ hc' =>
      rw [hc', Option.some.injEq] at hc
      subst hc
      cases hst with
      | enqueue req id now db hlock hnew hins =>
        cases hfill
        exact ⟨_, List.mem_cons_self, Relation.ReflTransGen.refl, rfl⟩
      | insertDlq job error rest entryId now db hpc hlock hnew hins =>
        cases hfill
        exact (hs.jobs job (by rw [hpc]; exact List.mem_cons_self)).copy rfl
      | insertJob k entryId entry id now db hcall hlock hnew hins =>
        cases hfill
        exact (hs.found k entryId entry hcall).copy rfl
      | fetchDue | block | send | markDelivered | recordAttempt | deleteJob | workerFailed
      | endPass | getDlq | notFound | deleteDlq | callFailed | restart => cases hfill
  jobs job hjob := by
    rcases hst.jobs hjob with ⟨job', hjob', hid, hcontent⟩ | ⟨now, jobs, hfetch, hmem⟩
    · rw [hid, hcontent]
      exact (hs.jobs job' hjob').cons
    · obtain ⟨r, hr, -, -⟩ := hfetch.mem hmem
      have hcontent : s.db.content (.job job.id) = some (r.payload, r.destination) := by
        show (s.db.job job.id).map _ = _
        rw [hr]
        rfl
      have hagrees := (hfaithful.read_job hparse hused hfetch hmem).2 _ hcontent
      exact (hs.places _ _ (hagrees ▸ hcontent)).cons
  found k e entry hcall := by
    rcases hst.found hcall with hcall | hget
    · exact (hs.found k e entry hcall).cons
    · obtain ⟨-, r, hr, -⟩ := getDlq_some hget
      have hcontent : s.db.content (.entry e) = some (r.payload, r.destination) := by
        show (s.db.entry e).map _ = _
        rw [hr]
        rfl
      have hagrees := (hfaithful.read_entry hparse hused hget).2 _ hcontent
      exact (hs.places _ _ (hagrees ▸ hcontent)).cons

theorem traced (hparse : ∀ v : F.Value, F.fromStr (F.toString v) = some v)
    {h : List (Label F κ)} {s : State F κ} (hs : (system F κ).Reaches h s) : Traced h s := by
  refine hs.invariant (I := Traced) ?_ fun h s l t hr hI hst =>
    hI.step hparse (faithful hparse hr) (used hr) hst
  rintro s ⟨hdb, -, -, hpc, hcall⟩
  refine ⟨fun x c hc => ?_, fun job hjob => ?_, fun k e entry hk => ?_⟩
  · rw [hdb] at hc
    cases x <;> cases hc
  · rw [hpc] at hjob
    exact absurd hjob List.not_mem_nil
  · rw [hcall k] at hk
    cases hk

omit [DecidableEq κ] in
/-- What a send puts the worker at has the send behind it. -/
theorem ended_afterSend (h : List (Label F κ)) (job : WebhookJob F) (resp : Response)
    (rest : List (WebhookJob F)) :
    (∀ job' rest', afterSend job resp rest = .marking job' rest' →
      SentOk (.send job resp :: h) job'.id) ∧
    ∀ job' error rest', afterSend job resp rest = .moving job' error rest' →
      EndedWith (.send job resp :: h) job'.id error := by
  unfold afterSend
  cases herr : resp.error with
  | none =>
    obtain ⟨code, rfl, hok⟩ := Response.error_none herr
    refine ⟨fun job' rest' hpc => ?_, fun job' error rest' hpc => nomatch hpc⟩
    cases hpc
    exact ⟨job, code, List.mem_cons_self, rfl, hok⟩
  | some err =>
    refine ⟨fun job' rest' hpc => ?_, fun job' error rest' hpc => ?_⟩
    · simp only [handleFailure] at hpc
      split at hpc <;> cases hpc
    · simp only [handleFailure] at hpc
      split at hpc
      · cases hpc
        exact .inr ⟨job, resp, List.mem_cons_self, rfl, herr⟩
      · cases hpc

theorem Ended.worker_step {h : List (Label F κ)} {s t : State F κ} {l : Label F κ}
    (hs : Ended h s) (hst : Step s l t) :
    (∀ job rest, t.pc = .marking job rest → SentOk (l :: h) job.id) ∧
      ∀ job error rest, t.pc = .moving job error rest → EndedWith (l :: h) job.id error := by
  have hkeep : t.pc = s.pc → (∀ job rest, t.pc = .marking job rest → SentOk (l :: h) job.id) ∧
      ∀ job error rest, t.pc = .moving job error rest → EndedWith (l :: h) job.id error := by
    intro hpc
    rw [hpc]
    exact ⟨fun job rest hm => (hs.marking job rest hm).cons,
      fun job error rest hm => (hs.moving job error rest hm).cons⟩
  cases hst with
  | enqueue | getDlq | notFound | insertJob | deleteDlq | callFailed => exact hkeep rfl
  | block job rest err hpc =>
    refine ⟨fun _ _ hm => (nomatch hm), fun job' error rest' hm => ?_⟩
    cases hm
    exact .inl ⟨job, err, List.mem_cons_self, rfl, rfl⟩
  | send job rest resp hpc => exact ended_afterSend h job resp rest
  | workerFailed =>
    constructor
    · intro job rest hm
      have hm : s.pc.afterFailure = .marking job rest := hm
      unfold Pc.afterFailure at hm
      split at hm <;> cases hm
    · intro job error rest hm
      have hm : s.pc.afterFailure = .moving job error rest := hm
      unfold Pc.afterFailure at hm
      split at hm <;> cases hm
  | fetchDue | markDelivered | recordAttempt | insertDlq | deleteJob | endPass | restart =>
    exact ⟨fun _ _ hm => (nomatch hm), fun _ _ _ hm => (nomatch hm)⟩

theorem Ended.delivered_step {h : List (Label F κ)} {s t : State F κ} {l : Label F κ}
    (hs : Ended h s) (hst : Step s l t) {id : Uuid} {r : JobRow} (hr : t.db.job id = some r)
    (hdel : r.status = .delivered) : SentOk (l :: h) id := by
  have hkept : s.db.job id = some r → SentOk (l :: h) id :=
    fun hr => (hs.delivered id r hr hdel).cons
  have hfresh : ∀ job : WebhookJob F, job.status = .pending →
      (if job.id = id then some job.row else s.db.job id) = some r → SentOk (l :: h) id := by
    intro job hpend hr
    split at hr
    · obtain rfl := Option.some.inj hr
      rw [show job.row.status = .pending from hpend] at hdel
      cases hdel
    · exact hkept hr
  rw [hst.job_eq] at hr
  cases hst with
  | enqueue req id' now db hlock hnew hins => exact hfresh _ rfl hr
  | insertJob k e entry id' now db hcall hlock hnew hins => exact hfresh _ rfl hr
  | markDelivered job rest hpc hlock =>
    simp only [Label.rowAfter] at hr
    split at hr
    · rename_i hid
      exact hid ▸ (hs.marking job rest hpc).cons
    · exact hkept hr
  | recordAttempt job attempts rest next hpc hlock =>
    simp only [Label.rowAfter] at hr
    split at hr
    · rename_i hid
      obtain ⟨r₀, hr₀, rfl⟩ := Option.map_eq_some_iff.1 hr
      exact hid ▸ (hs.delivered job.id r₀ hr₀ hdel).cons
    · exact hkept hr
  | deleteJob job e rest hpc =>
    simp only [Label.rowAfter] at hr
    split at hr
    · cases hr
    · exact hkept hr
  | fetchDue | block | send | insertDlq | workerFailed | endPass | getDlq | notFound
  | deleteDlq | callFailed | restart => exact hkept hr

theorem Ended.entries_step {h : List (Label F κ)} {s t : State F κ} {l : Label F κ}
    (hs : Ended h s) (hst : Step s l t) {id : Uuid} {r : DlqRow} (hr : t.db.entry id = some r) :
    EndedWith (l :: h) r.jobId r.lastError := by
  have hkept : s.db.entry id = some r → EndedWith (l :: h) r.jobId r.lastError :=
    fun hr => (hs.entries id r hr).cons
  cases hst with
  | insertDlq job error rest entryId now db hpc hlock hnew hins =>
    obtain ⟨-, hentry, -⟩ := insertDlq_some hins id
    have hr : db.entry id = some r := hr
    rw [hentry] at hr
    split at hr
    · obtain rfl := Option.some.inj hr
      exact (hs.moving job error rest hpc).cons
    · exact hkept hr
  | deleteDlq k entryId job hcall =>
    have hr : (deleteDlq s.db entryId).entry id = some r := hr
    rw [entry_deleteDlq] at hr
    split at hr
    · cases hr
    · exact hkept hr
  | enqueue req id' now db hlock hnew hins =>
    exact hkept (((congrArg (Table.get? · id) (enqueue_some hins id).2.2)).symm.trans hr)
  | insertJob k e entry id' now db hcall hlock hnew hins =>
    exact hkept (((congrArg (Table.get? · id) (enqueue_some hins id).2.2)).symm.trans hr)
  | fetchDue | block | send | markDelivered | recordAttempt | deleteJob | workerFailed | endPass
  | getDlq | notFound | callFailed | restart => exact hkept hr

theorem ended {h : List (Label F κ)} {s : State F κ} (hs : (system F κ).Reaches h s) :
    Ended h s := by
  refine hs.invariant (I := Ended) ?_ fun h s l t _ hI hst =>
    ⟨(hI.worker_step hst).1, (hI.worker_step hst).2, fun id r hr => hI.delivered_step hst hr,
      fun id r hr => hI.entries_step hst hr⟩
  rintro s ⟨hdb, -, -, hpc, -⟩
  refine ⟨fun job rest hm => ?_, fun job error rest hm => ?_, fun id r hr => ?_, fun id r hr => ?_⟩
  · rw [hpc] at hm
    cases hm
  · rw [hpc] at hm
    cases hm
  · rw [hdb] at hr
    cases hr
  · rw [hdb] at hr
    cases hr

/-- A send is of the first job of the worker's batch. -/
theorem Step.sends {s t : State F κ} {job : WebhookJob F} {resp : Response}
    (hst : Step s (.send job resp) t) : job ∈ s.pc.jobs := by
  cases hst with
  | send _ rest _ hpc =>
    rw [hpc]
    exact List.mem_cons_self

/-- What holds of everything the service stores, holds and sends. -/
structure Honest (h : List (Label F κ)) (s : State F κ) : Prop where
  places : ∀ x c, s.db.content x = some c → Rooted h x c
  held : ∀ job ∈ s.pc.jobs, Rooted h (.job job.id) job.content
  sent : ∀ h₁ h₀ job resp, h = h₁ ++ .send job resp :: h₀ →
    Rooted h₀ (.job job.id) job.content
  delivered : ∀ id r, s.db.job id = some r → r.status = .delivered → SentOk h id
  entries : ∀ id r, s.db.entry id = some r → EndedWith h r.jobId r.lastError

/-- In every run, with any races of `redeliver`, failing statements and crashes,
what is stored, what the worker holds and what is sent was submitted, a job is
delivered only after a send of it got a 2xx status, and an entry shows the error
its job has ended with.  `hparse` is about the payloads: their text reads back. -/
theorem contents_honest (hparse : ∀ v : F.Value, F.fromStr (F.toString v) = some v)
    {h : List (Label F κ)} {s : State F κ} (hs : (system F κ).Reaches h s) : Honest h s where
  places := (traced hparse hs).places
  held := (traced hparse hs).jobs
  sent h₁ h₀ job resp hh := by
    subst hh
    obtain ⟨s₀, s₁, hs₀, hst, -⟩ := hs.cut
    exact (traced hparse hs₀).jobs job hst.sends
  delivered := (ended hs).delivered
  entries := (ended hs).entries

theorem contents_honest_buried :
    Honest burying (pairAt buried [2, 1] none (.batch []) .idle .idle) :=
  contents_honest mini_parse
    (buried_reached (C := fun _ _ => True) fun _ _ _ => trivial).of_restrict

end D
end WebhookDelivery
