/-
The attempts of a job, and what holds of it in every run.

For each id the service simulates `Run.Retry`: a pending row is a waiting job
that has had as many calls as `attempts` says, a row in flight is a job held by
the worker that has it in its batch, where `attempts` already counts the call to
come, and a row in flight that no worker holds is lost.  The budget of calls is
then the one proved there.
-/
import WebhookDelivery.Run.Retry
import WebhookDelivery.K.Ownership

namespace WebhookDelivery
namespace K

open Sql Run

variable {F : Formats} {ω : Type}

/-- What a worker has to do with the job `id`. -/
inductive View
  | none
  | queued
  | called (ok : Bool)
  deriving DecidableEq

def Pc.view (id : Uuid) : Pc F → View
  | .stopped | .idle => .none
  | .batch jobs => if id ∈ jobs.map Job.id then .queued else .none
  | .outcome job res rest =>
    if job.id = id then .called (succeeded res)
    else if id ∈ rest.map Job.id then .queued else .none

theorem Pc.view_eq_none_iff {id : Uuid} {pc : Pc F} :
    pc.view id = .none ↔ id ∉ pc.held.map Job.id := by
  cases pc with
  | stopped | idle => simp [view, held]
  | batch jobs =>
    show (if id ∈ jobs.map Job.id then View.queued else .none) = .none ↔ id ∉ jobs.map Job.id
    by_cases h : id ∈ jobs.map Job.id <;> simp [h]
  | outcome job res rest =>
    show (if job.id = id then View.called (succeeded res)
      else if id ∈ rest.map Job.id then .queued else .none) = .none ↔
        id ∉ (job :: rest).map Job.id
    rw [List.map_cons, List.mem_cons, not_or]
    by_cases hj : job.id = id
    · simp [hj]
    · have hj' : ¬id = job.id := fun e => hj e.symm
      by_cases h : id ∈ rest.map Job.id <;> simp [hj, hj', h]

/-- Only one worker has anything to do with a job. -/
theorem Owned.view_unique {s : State F ω} (hs : Owned s) {id : Uuid} {v w : ω}
    (hv : (s.pc v).view id ≠ .none) (hw : (s.pc w).view id ≠ .none) : v = w := by
  refine hs.exclusive.unique v w id ?_ ?_
  · exact not_not.1 fun h => hv (Pc.view_eq_none_iff.2 h)
  · exact not_not.1 fun h => hw (Pc.view_eq_none_iff.2 h)

theorem Owned.inFlight_of_view {s : State F ω} (hs : Owned s) {id : Uuid} {w : ω}
    (hw : (s.pc w).view id ≠ .none) {r : JobRow F} (hr : s.jobs.get? id = some r) :
    r.status = .inFlight := by
  have hmem : id ∈ s.heldIds w := not_not.1 fun h => hw (Pc.view_eq_none_iff.2 h)
  obtain ⟨job, hjob, rfl⟩ := List.mem_map.1 hmem
  obtain ⟨r', hr', hst, -⟩ := hs.backed w job hjob
  rw [hr] at hr'
  cases hr'
  exact hst

/-! ## The simulation -/

/-- The row and the workers' views put the job at this stage. -/
def AtStage (id : Uuid) (s : State F ω) (r : JobRow F) (calls : Nat) :
    Retry.Stage ω → Prop
  | .waiting => r.status = .pending ∧ r.attempts = calls
  | .held w => r.status = .inFlight ∧ r.attempts = calls + 1 ∧ (s.pc w).view id = .queued
  | .called w ok => r.status = .inFlight ∧ r.attempts = calls ∧ (s.pc w).view id = .called ok
  | .lost => r.status = .inFlight ∧ ∀ w, (s.pc w).view id = .none
  | .delivered => r.status = .delivered
  | .dead => r.status = .dead
  | .rejected => False

def Tracks (id : Uuid) (s : State F ω) : Option (Retry.Job ω) → Prop
  | none => s.jobs.get? id = none
  | some j => ∃ r, s.jobs.get? id = some r ∧ r.maxAttempts = j.maxAttempts ∧
      AtStage id s r j.calls j.stage

/-- A step that leaves the row and every view of the job alone. -/
theorem Tracks.frame {id : Uuid} {s t : State F ω} {a : Option (Retry.Job ω)}
    (h : Tracks id s a) (hrow : t.jobs.get? id = s.jobs.get? id)
    (hview : ∀ w, (t.pc w).view id = (s.pc w).view id) : Tracks id t a := by
  cases a with
  | none => exact hrow.trans h
  | some j =>
    obtain ⟨r, hr, hmax, hst⟩ := h
    refine ⟨r, hrow.trans hr, hmax, ?_⟩
    obtain ⟨m, stage, n, f⟩ := j
    cases stage <;> simp only [AtStage, hview] at hst ⊢ <;> exact hst

/-- The row of a tracked job, and its stage. -/
theorem Tracks.row {id : Uuid} {s : State F ω} {a : Option (Retry.Job ω)} (h : Tracks id s a)
    {r : JobRow F} (hr : s.jobs.get? id = some r) :
    ∃ stage n f, a = some ⟨r.maxAttempts, stage, n, f⟩ ∧ AtStage id s r n stage := by
  cases a with
  | none => rw [Tracks, hr] at h; cases h
  | some j =>
    obtain ⟨r', hr', hmax, hst⟩ := h
    rw [hr] at hr'
    cases hr'
    obtain ⟨m, stage, n, f⟩ := j
    subst hmax
    exact ⟨stage, n, f, rfl, hst⟩

theorem Tracks.of_pending {id : Uuid} {s : State F ω} {a : Option (Retry.Job ω)}
    (h : Tracks id s a) {r : JobRow F} (hr : s.jobs.get? id = some r)
    (hst : r.status = .pending) :
    ∃ n f, a = some ⟨r.maxAttempts, .waiting, n, f⟩ ∧ r.attempts = n := by
  obtain ⟨stage, n, f, ha, hstage⟩ := h.row hr
  cases stage <;> simp [AtStage, hst] at hstage
  exact ⟨n, f, ha, hstage⟩

theorem Tracks.of_dead {id : Uuid} {s : State F ω} {a : Option (Retry.Job ω)}
    (h : Tracks id s a) {r : JobRow F} (hr : s.jobs.get? id = some r)
    (hst : r.status = .dead) : ∃ n f, a = some ⟨r.maxAttempts, .dead, n, f⟩ := by
  obtain ⟨stage, n, f, ha, hstage⟩ := h.row hr
  cases stage <;> simp [AtStage, hst] at hstage
  exact ⟨n, f, ha⟩

/-- A job that waits in a batch for its call. -/
theorem Tracks.of_queued {id : Uuid} {s : State F ω} {a : Option (Retry.Job ω)}
    (h : Tracks id s a) (hs : Owned s) {w : ω} (hw : (s.pc w).view id = .queued)
    {r : JobRow F} (hr : s.jobs.get? id = some r) :
    ∃ n f, a = some ⟨r.maxAttempts, .held w, n, f⟩ ∧ r.attempts = n + 1 := by
  have hne : (s.pc w).view id ≠ .none := by rw [hw]; decide
  have hfl := hs.inFlight_of_view hne hr
  obtain ⟨stage, n, f, ha, hstage⟩ := h.row hr
  cases stage <;> simp only [AtStage, hfl, true_and, reduceCtorEq, false_and] at hstage
  case held v =>
    have hv : v = w := hs.view_unique (by rw [hstage.2]; decide) hne
    exact ⟨n, f, hv ▸ ha, hstage.1⟩
  case called v ok =>
    have hv : v = w := hs.view_unique (by rw [hstage.2]; simp) hne
    rw [hv, hw] at hstage
    cases hstage.2
  case lost => exact absurd (hstage w) hne

/-- A job whose call has returned. -/
theorem Tracks.of_called {id : Uuid} {s : State F ω} {a : Option (Retry.Job ω)}
    (h : Tracks id s a) (hs : Owned s) {w : ω} {ok : Bool} (hw : (s.pc w).view id = .called ok)
    {r : JobRow F} (hr : s.jobs.get? id = some r) :
    ∃ n f, a = some ⟨r.maxAttempts, .called w ok, n, f⟩ ∧ r.attempts = n := by
  have hne : (s.pc w).view id ≠ .none := by rw [hw]; simp
  have hfl := hs.inFlight_of_view hne hr
  obtain ⟨stage, n, f, ha, hstage⟩ := h.row hr
  cases stage <;> simp only [AtStage, hfl, true_and, reduceCtorEq, false_and] at hstage
  case held v =>
    have hv : v = w := hs.view_unique (by rw [hstage.2]; decide) hne
    rw [hv, hw] at hstage
    cases hstage.2
  case called v ok' =>
    have hv : v = w := hs.view_unique (by rw [hstage.2]; simp) hne
    subst hv
    rw [hw] at hstage
    cases hstage.2
    exact ⟨n, f, ha, hstage.1⟩
  case lost => exact absurd (hstage w) hne

/-- Workers that let go of the job without recording an outcome lose it. -/
theorem Tracks.drop {id : Uuid} {s t : State F ω} {a : Option (Retry.Job ω)}
    (h : Tracks id s a) (hs : Owned s) (gone : ω → Bool)
    (hrow : t.jobs.get? id = s.jobs.get? id)
    (hview : ∀ w, (t.pc w).view id = if gone w then .none else (s.pc w).view id) :
    Tracks id t (a.map (Retry.Job.drop gone)) := by
  cases a with
  | none => exact hrow.trans h
  | some j =>
    obtain ⟨r, hr, hmax, hst⟩ := h
    refine ⟨r, hrow.trans hr, hmax, ?_⟩
    obtain ⟨m, stage, n, f⟩ := j
    -- Once the only worker with a view of the job is gone, no view is left.
    have hlost : ∀ w, (s.pc w).view id ≠ .none → gone w = true → ∀ v, (t.pc v).view id = .none := by
      intro w hw hg v
      rw [hview]
      by_cases hgv : gone v = true
      · rw [if_pos hgv]
      · rw [if_neg hgv]
        by_contra hv
        exact hgv (hs.view_unique hv hw ▸ hg)
    cases stage with
    | held w =>
      obtain ⟨hfl, hatt, hw⟩ := hst
      by_cases hg : gone w = true
      · simp only [Retry.Job.drop, Retry.Stage.drop, hg, if_true]
        exact ⟨hfl, hlost w (by rw [hw]; decide) hg⟩
      · simp only [Retry.Job.drop, Retry.Stage.drop, hg, if_false, Bool.false_eq_true]
        exact ⟨hfl, hatt, by rw [hview, if_neg hg, hw]⟩
    | called w ok =>
      obtain ⟨hfl, hatt, hw⟩ := hst
      by_cases hg : gone w = true
      · simp only [Retry.Job.drop, Retry.Stage.drop, hg, if_true]
        exact ⟨hfl, hlost w (by rw [hw]; simp) hg⟩
      · simp only [Retry.Job.drop, Retry.Stage.drop, hg, if_false, Bool.false_eq_true]
        exact ⟨hfl, hatt, by rw [hview, if_neg hg, hw]⟩
    | lost =>
      refine ⟨hst.1, fun w => ?_⟩
      rw [hview, hst.2 w]
      split <;> rfl
    | waiting | delivered | dead | rejected => exact hst

variable [DecidableEq ω]

def outcomeEvent (w : ω) (job : Job F) : Except DeliveryError Unit → Retry.Event ω
  | .ok _ => .succeed w
  | .error _ => if job.maxAttempts ≤ job.attempts then .exhaust w else .retry w

/-- The step of the life of `id` that a label is. -/
def lifeEvent (id : Uuid) : Label F ω → Option (Retry.Event ω)
  | .insertJob id' _ _ maxAttempts _ => if id' = id then some (.submit maxAttempts) else none
  | .requeueDead id' _ requeued => if id' = id ∧ requeued = true then some .revive else none
  | .claimDueJobs w _ jobs => if id ∈ jobs.map Job.id then some (.claim w) else none
  | .deliver w job res => if job.id = id then some (.call w (succeeded res)) else none
  | .recordOutcome w job res => if job.id = id then some (outcomeEvent w job res) else none
  | .recordFailed w job => if job.id = id then some (.drop fun v => v = w) else none
  | .stop w => some (.drop fun v => v = w)
  | .crash => some (.drop fun _ => true)
  | .nextPoll _ | .spawnWorkers => none

theorem view_setPc {id : Uuid} {s : State F ω} {w : ω} {pc : Pc F}
    (h : pc.view id = (s.pc w).view id) (v : ω) :
    ((s.setPc w pc).pc v).view id = (s.pc v).view id := by
  by_cases hv : v = w
  · rw [hv, State.setPc_self, h]
  · rw [State.setPc_ne s pc hv]

theorem view_batch_cons {id : Uuid} {job : Job F} {rest : List (Job F)}
    {res : Except DeliveryError Unit} (h : job.id ≠ id) :
    (Pc.outcome job res rest).view id = (Pc.batch (job :: rest)).view id := by
  have h' : ¬id = job.id := fun e => h e.symm
  simp [Pc.view, h, h']

theorem view_batch_rest {id : Uuid} {job : Job F} {rest : List (Job F)}
    {res : Except DeliveryError Unit} (h : job.id ≠ id) :
    (Pc.batch rest).view id = (Pc.outcome job res rest).view id := by
  simp [Pc.view, h]

theorem Tracks.stutter {id : Uuid} {s t : State F ω} {l : Label F ω}
    {a : Option (Retry.Job ω)} (h : Tracks id s a) (hst : Step s l t)
    (hl : lifeEvent id l = none) : Tracks id t a := by
  cases hst with
  | insertJob id' destination payload maxAttempts now t' hins =>
    have hne : ¬id' = id := by simpa [lifeEvent] using hl
    refine h.frame ?_ (fun _ => rfl)
    show t'.get? id = s.jobs.get? id
    rw [Table.get?_insert? hins]
    exact if_neg hne
  | requeueDead id' now =>
    refine h.frame ?_ (fun _ => rfl)
    show (requeueDead s.jobs id' now).2.get? id = s.jobs.get? id
    rw [get?_requeueDead]
    by_cases hk : id = id'
    · subst hk
      have hfst : ¬(requeueDead s.jobs id now).1 = true := by simpa [lifeEvent] using hl
      rw [requeueDead_fst] at hfst
      rw [if_pos rfl]
      cases hg : s.jobs.get? id with
      | none => rfl
      | some r =>
        have hr : ¬r.status = .dead := fun e => hfst ⟨r, hg, e⟩
        rw [Option.map_some, if_neg hr]
    · rw [if_neg hk]
  | claimDueJobs w now fault rows res t' hidle hsel hclaim =>
    have hk : id ∉ (claimed res).map Job.id := by
      intro hk
      rw [lifeEvent, if_pos hk] at hl
      cases hl
    refine h.frame ((claimDueJobs_spec hsel hclaim).2.2 id hk) (view_setPc ?_)
    show (Pc.batch (claimed res)).view id = (s.pc w).view id
    rw [hidle]
    exact if_neg hk
  | deliver w job rest resp hpc =>
    have hne : ¬job.id = id := by simpa [lifeEvent] using hl
    exact h.frame rfl (view_setPc (by rw [hpc]; exact view_batch_cons hne))
  | recordOutcome w job res rest next now hpc =>
    have hne : ¬job.id = id := by simpa [lifeEvent] using hl
    refine h.frame ?_ (view_setPc ?_)
    · show (recordOutcome s.jobs job res next now).get? id = s.jobs.get? id
      rw [get?_recordOutcome, if_neg fun e => hne e.symm]
    · show (Pc.batch rest).view id = (s.pc w).view id
      rw [hpc]
      exact view_batch_rest hne
  | recordFailed w job res rest hpc =>
    have hne : ¬job.id = id := by simpa [lifeEvent] using hl
    exact h.frame rfl (view_setPc (by rw [hpc]; exact view_batch_rest hne))
  | nextPoll w hpc => exact h.frame rfl (view_setPc (by rw [hpc]; rfl))
  | stop w => cases hl
  | crash => cases hl
  | spawnWorkers hpc => exact h.frame rfl (fun w => by rw [hpc w]; rfl)

theorem Tracks.step {id : Uuid} {s t : State F ω} {l : Label F ω}
    {a : Option (Retry.Job ω)} {e : Retry.Event ω} (h : Tracks id s a) (hs : Owned s)
    (hst : Step s l t) (hl : lifeEvent id l = some e) :
    ∃ b, Retry.Step a e b ∧ Tracks id t b := by
  cases hst with
  | insertJob id' destination payload maxAttempts now t' hins =>
    have hid : id' = id ∧ Retry.Event.submit maxAttempts = e := by simpa [lifeEvent] using hl
    obtain ⟨rfl, rfl⟩ := hid
    have hnone : s.jobs.get? id' = none := Table.get?_of_insert? hins
    cases a with
    | some j =>
      obtain ⟨r, hr, -⟩ := h
      rw [hr] at hnone
      cases hnone
    | none =>
      refine ⟨_, Retry.Step.submit maxAttempts, newRow id' destination payload maxAttempts now,
        ?_, rfl, rfl, rfl⟩
      show t'.get? id' = _
      rw [Table.get?_insert? hins]
      exact if_pos rfl
  | requeueDead id' now =>
    have hid : (id' = id ∧ (requeueDead s.jobs id' now).1 = true) ∧ Retry.Event.revive = e := by
      simpa [lifeEvent] using hl
    obtain ⟨⟨rfl, hfst⟩, rfl⟩ := hid
    obtain ⟨r, hr, hdead⟩ := (requeueDead_fst _ _ _).1 hfst
    obtain ⟨n, f, rfl⟩ := h.of_dead hr hdead
    refine ⟨_, Retry.Step.reviveDead _ n f, asRequeued now r, ?_, rfl, rfl, rfl⟩
    show (requeueDead s.jobs id' now).2.get? id' = _
    rw [get?_requeueDead, if_pos rfl, hr, Option.map_some, if_pos hdead]
  | claimDueJobs w now fault rows res t' hidle hsel hclaim =>
    have hid : id ∈ (claimed res).map Job.id ∧ Retry.Event.claim w = e := by
      by_cases hk : id ∈ (claimed res).map Job.id
      · rw [lifeEvent, if_pos hk] at hl
        exact ⟨hk, Option.some.inj hl⟩
      · rw [lifeEvent, if_neg hk] at hl
        cases hl
    obtain ⟨hk, rfl⟩ := hid
    obtain ⟨job, hjob, rfl⟩ := List.mem_map.1 hk
    obtain ⟨r, hr, hpend, -, hr', -⟩ := (claimDueJobs_spec hsel hclaim).2.1 job hjob
    obtain ⟨n, f, rfl, hatt⟩ := h.of_pending hr hpend
    refine ⟨_, Retry.Step.claim _ n f w, asClaimed now r, hr', rfl, rfl, ?_, ?_⟩
    · show r.attempts + 1 = (n : Int) + 1
      rw [hatt]
    · rw [State.setPc_self]
      exact if_pos hk
  | deliver w job rest resp hpc =>
    have hid : job.id = id ∧ Retry.Event.call w (succeeded (deliver resp)) = e := by
      simpa [lifeEvent] using hl
    obtain ⟨rfl, rfl⟩ := hid
    have hview : (s.pc w).view job.id = .queued := by
      rw [hpc]
      exact if_pos List.mem_cons_self
    obtain ⟨r, hr, hfl, -, -⟩ := hs.backed w job (by rw [hpc]; exact List.mem_cons_self)
    obtain ⟨n, f, rfl, hatt⟩ := h.of_queued hs hview hr
    refine ⟨_, Retry.Step.call _ n f w _, r, hr, rfl, hfl, ?_, ?_⟩
    · show r.attempts = ((n + 1 : Nat) : Int)
      rw [hatt]
      rfl
    · rw [State.setPc_self]
      exact if_pos rfl
  | recordOutcome w job res rest next now hpc =>
    have hid : job.id = id ∧ outcomeEvent w job res = e := by simpa [lifeEvent] using hl
    obtain ⟨rfl, rfl⟩ := hid
    have hview : (s.pc w).view job.id = .called (succeeded res) := by
      rw [hpc]
      exact if_pos rfl
    obtain ⟨r, hr, -, hatt, hmax⟩ := hs.backed w job (by rw [hpc]; exact List.mem_cons_self)
    obtain ⟨n, f, rfl, hn⟩ := h.of_called hs hview hr
    have hrow : (recordOutcome s.jobs job res next now).get? job.id
        = some (asOutcome job res next now r) := by
      rw [get?_recordOutcome, if_pos rfl, hr, Option.map_some]
    cases res with
    | ok u => exact ⟨_, Retry.Step.succeed _ n f w, _, hrow, rfl, rfl⟩
    | error err =>
      by_cases hle : job.maxAttempts ≤ job.attempts
      · rw [outcomeEvent, if_pos hle]
        refine ⟨_, Retry.Step.exhaust _ n f w (by omega), _, hrow, ?_, ?_⟩
        · simp [asOutcome, hle, asDead]
        · simp [AtStage, asOutcome, hle, asDead]
      · rw [outcomeEvent, if_neg hle]
        refine ⟨_, Retry.Step.retry _ n f w (by omega), _, hrow, ?_, ?_⟩
        · simp [asOutcome, hle, asRescheduled]
        · simp [AtStage, asOutcome, hle, asRescheduled, hn]
  | recordFailed w job res rest hpc =>
    have hid : job.id = id ∧ Retry.Event.drop (fun v => decide (v = w)) = e := by
      simpa [lifeEvent] using hl
    obtain ⟨rfl, rfl⟩ := hid
    refine ⟨_, Retry.Step.drop a _, h.drop hs _ rfl fun v => ?_⟩
    by_cases hv : v = w
    · have hnd := hs.exclusive.nodup w
      rw [State.heldIds, hpc] at hnd
      have hrest : job.id ∉ rest.map Job.id := (List.nodup_cons.1 hnd).1
      rw [hv, State.setPc_self, if_pos (by simp)]
      exact if_neg hrest
    · rw [State.setPc_ne _ _ hv, if_neg (by simpa using hv)]
  | nextPoll w hpc => cases hl
  | stop w =>
    cases hl
    refine ⟨_, Retry.Step.drop a _, h.drop hs _ rfl fun v => ?_⟩
    by_cases hv : v = w
    · rw [hv, State.setPc_self, if_pos (by simp)]
      rfl
    · rw [State.setPc_ne _ _ hv, if_neg (by simpa using hv)]
  | crash =>
    cases hl
    exact ⟨_, Retry.Step.drop a _, h.drop hs _ rfl fun v => rfl⟩
  | spawnWorkers hpc => cases hl

variable (F ω) in
/-- The service simulates the life of each of its jobs. -/
theorem simulation (id : Uuid) :
    Simulation (system F ω) (Retry.system ω) (lifeEvent id) (Tracks id) where
  init s hs := ⟨none, rfl, by rw [Tracks, hs.1]; rfl⟩
  stutter _ _ _ _ _ _ h hst hl := h.stutter hst hl
  step _ _ _ _ _ _ hr h hst hl := h.step (owned hr) hst hl

omit [DecidableEq ω] in
theorem outcomeEvent_counts (w : ω) (job : Job F) (res : Except DeliveryError Unit) :
    (outcomeEvent w job res).starts = false ∧ (outcomeEvent w job res).isCall = false := by
  cases res with
  | ok u => exact ⟨rfl, rfl⟩
  | error err =>
    by_cases hle : job.maxAttempts ≤ job.attempts
    · simp [outcomeEvent, hle, Retry.Event.starts, Retry.Event.isCall]
    · simp [outcomeEvent, hle, Retry.Event.starts, Retry.Event.isCall]

theorem deliverCalls_eq (id : Uuid) (h : List (Label F ω)) :
    deliverCalls id h = Retry.calls (h.filterMap (lifeEvent id)) := by
  refine countSince_filterMap (fun l hl => ?_) (fun l e hl => ?_) h
  · cases l <;> simp_all [lifeEvent, Label.starts, Label.delivers]
  · cases l with
    | insertJob id' destination payload maxAttempts now =>
      have hid : id' = id ∧ Retry.Event.submit maxAttempts = e := by simpa [lifeEvent] using hl
      obtain ⟨rfl, rfl⟩ := hid
      exact ⟨by simp [Label.starts, Retry.Event.starts], rfl⟩
    | requeueDead id' now requeued =>
      have hid : (id' = id ∧ requeued = true) ∧ Retry.Event.revive = e := by
        simpa [lifeEvent] using hl
      obtain ⟨⟨rfl, rfl⟩, rfl⟩ := hid
      exact ⟨by simp [Label.starts, Retry.Event.starts], rfl⟩
    | claimDueJobs w now jobs =>
      rw [lifeEvent] at hl
      split at hl <;> cases hl
      exact ⟨rfl, rfl⟩
    | deliver w job res =>
      have hid : job.id = id ∧ Retry.Event.call w (succeeded res) = e := by
        simpa [lifeEvent] using hl
      obtain ⟨rfl, rfl⟩ := hid
      exact ⟨rfl, by simp [Label.delivers, Retry.Event.isCall]⟩
    | recordOutcome w job res =>
      have hid : job.id = id ∧ outcomeEvent w job res = e := by simpa [lifeEvent] using hl
      obtain ⟨rfl, rfl⟩ := hid
      obtain ⟨hstarts, hcall⟩ := outcomeEvent_counts w job res
      exact ⟨hstarts.symm, hcall.symm⟩
    | recordFailed w job =>
      rw [lifeEvent] at hl
      split at hl <;> cases hl
      exact ⟨rfl, rfl⟩
    | nextPoll w | spawnWorkers => cases hl
    | stop w | crash => cases hl; exact ⟨rfl, rfl⟩

end K
end WebhookDelivery
