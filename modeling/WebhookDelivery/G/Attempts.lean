/-
The calls of a delivery, while its tasks keep the visibility timeout.

`process_job` writes back the attempts of its copy plus one, which counts right
only if nobody else writes in between.  In a timely run a task is done before
its claim expires, so no reclaim meets it, and a requeue that is not interrupted
meets a dead letter.  The service then simulates `Run.Retry` for each delivery.
-/
import WebhookDelivery.Run.Retry
import WebhookDelivery.G.Ownership

namespace WebhookDelivery
namespace G

open Sql Run

variable {J : Json}

/-- No crash, and no statement of a tick, a task or a requeue fails. -/
def Label.succeeds : Label J → Bool
  | .tickFailed | .finishFailed _ | .requeueFailed _ | .restart .. => false
  | _ => true

/-- The cutoff of a tick is not past the claim of a live task. -/
def Timely (s : State) : Label J → Prop
  | .reclaim now => ∀ k ∈ s.tasks, staleCutoff s.cfg now ≤ k.claimedAt
  | _ => True

/-- Nothing comes between the two statements of a requeue. -/
def Uninterrupted (s : State) (l : Label J) : Prop :=
  s.requeues = [] ∨ ∃ id now, l = .requeueUpdate id now

variable (J) in
def timely : System State (Label J) :=
  (system J).restrict fun s l => l.succeeds = true ∧ Timely s l ∧ Uninterrupted s l

/-- The requeue that has passed its check, if there is one, is that of a dead
letter. -/
def Checked (s : State) : Prop :=
  s.requeues = [] ∨ ∃ id r, s.requeues = [id] ∧ s.table.get? id = some r ∧
    r.status = .deadLettered

theorem Checked.dead {s : State} (hs : Checked s) {id : String} (hid : id ∈ s.requeues) :
    ∃ r, s.table.get? id = some r ∧ r.status = .deadLettered := by
  rcases hs with hs | ⟨id', r, hs, hr, hst⟩
  · rw [hs] at hid
    exact absurd hid List.not_mem_nil
  · rw [hs, List.mem_singleton] at hid
    exact ⟨r, hid ▸ hr, hst⟩

theorem Checked.step {s t : State} {l : Label J} (hs : Checked s) (hu : Uninterrupted s l)
    (hst : Step s l t) : Checked t := by
  rcases hu with hnil | ⟨id, now, rfl⟩
  · cases hst with
    | requeueCheck id =>
      cases hcheck : requeueCheck id s.table with
      | error e => exact .inl hnil
      | ok u =>
        obtain ⟨r, hr, hdead⟩ := requeueCheck_ok hcheck
        exact .inr ⟨id, r, by rw [hnil]; rfl, hr, hdead⟩
    | requeueUpdate id now hmem =>
      rw [hnil] at hmem
      exact absurd hmem List.not_mem_nil
    | requeueFailed id hmem =>
      rw [hnil] at hmem
      exact absurd hmem List.not_mem_nil
    | restart => exact .inl rfl
    | createWebhook | reclaim | claim | tickFailed | deliverOnce | finish | finishFailed =>
      exact .inl hnil
  · cases hst with
    | requeueUpdate _ _ hmem =>
      rcases hs with hs | ⟨id', r, hs, -, -⟩
      · rw [hs] at hmem
        exact absurd hmem List.not_mem_nil
      · rw [hs, List.mem_singleton] at hmem
        exact .inl (by simp [hs, hmem])

/-- A timely step disturbs no task. -/
theorem Owned.undisturbed {s : State} {l : Label J} (hs : Owned s) (hc : Checked s)
    (ht : Timely s l) {t : State} (hst : Step s l t) : Undisturbed s l := by
  cases hst with
  | reclaim now htick =>
    intro id r hr hstale k hk hid
    obtain ⟨r', hr', -, -, hupd⟩ := hs.backed k hk
    rw [hid, hr] at hr'
    cases hr'
    have hle : staleCutoff s.cfg now ≤ k.claimedAt := ht k hk
    have hlt : r.updatedAt < staleCutoff s.cfg now := (isStale_iff.1 hstale).2
    omega
  | requeueUpdate id now hmem =>
    intro k hk hid
    obtain ⟨r, hr, hdead⟩ := hc.dead hmem
    have hproc := hs.processing hk (hid ▸ hr)
    rw [hdead] at hproc
    cases hproc
  | createWebhook | claim | tickFailed | deliverOnce | finish | finishFailed | requeueCheck
  | requeueFailed | restart => trivial

theorem owned_timely {h : List (Label J)} {s : State} (hs : (timely J).Reaches h s) :
    Owned s ∧ Checked s := by
  have hinit : ∀ s, (timely J).init s → Owned s ∧ Checked s :=
    fun s hs => ⟨owned_init (J := J) hs, .inl hs.2.2.2⟩
  refine hs.invariant (I := fun _ s => Owned s ∧ Checked s) hinit ?_
  intro h s l t _ hI hst
  exact ⟨hI.1.step (hI.1.undisturbed hI.2 hst.1.2.1 hst.2) hst.2, hI.2.step hst.1.2.2 hst.2⟩

/-! ## The simulation -/

/-- The row and the task of a delivery put it at this stage. -/
def AtStage (id : String) (s : State) (r : DeliveryRow) (calls : Nat) :
    Retry.Stage Unit → Prop
  | .waiting => r.status = .pending ∧ r.attempts = calls
  | .held _ => r.status = .processing ∧ r.attempts = calls ∧
      ∃ k ∈ s.tasks, k.id = id ∧ k.pc = .waiting
  | .called _ ok => r.status = .processing ∧ r.attempts + 1 = calls ∧
      ∃ k ∈ s.tasks, k.id = id ∧ ∃ now res, k.pc = .called now res ∧ succeeded res = ok
  | .delivered => r.status = .delivered
  | .dead => r.status = .deadLettered ∧ r.attempts = calls
  | .lost | .rejected => False

def Tracks (id : String) (s : State) : Option (Retry.Job Unit) → Prop
  | none => s.table.get? id = none
  | some j => ∃ r, s.table.get? id = some r ∧ r.maxAttempts = j.maxAttempts ∧
      AtStage id s r j.calls j.stage

theorem Tracks.frame {id : String} {s t : State} {a : Option (Retry.Job Unit)}
    (h : Tracks id s a) (hrow : t.table.get? id = s.table.get? id)
    (htask : ∀ k ∈ s.tasks, k.id = id → k ∈ t.tasks) : Tracks id t a := by
  cases a with
  | none => exact hrow.trans h
  | some j =>
    obtain ⟨r, hr, hmax, hst⟩ := h
    refine ⟨r, hrow.trans hr, hmax, ?_⟩
    obtain ⟨m, stage, n, f⟩ := j
    cases stage with
    | held w =>
      obtain ⟨hproc, hatt, k, hk, hid, hpc⟩ := hst
      exact ⟨hproc, hatt, k, htask k hk hid, hid, hpc⟩
    | called w ok =>
      obtain ⟨hproc, hatt, k, hk, hid, hpc⟩ := hst
      exact ⟨hproc, hatt, k, htask k hk hid, hid, hpc⟩
    | waiting | delivered | dead | lost | rejected => exact hst

/-- The row of a tracked delivery, and its stage. -/
theorem Tracks.row {id : String} {s : State} {a : Option (Retry.Job Unit)} (h : Tracks id s a)
    {r : DeliveryRow} (hr : s.table.get? id = some r) :
    ∃ stage n f, a = some ⟨r.maxAttempts, stage, n, f⟩ ∧ AtStage id s r n stage := by
  cases a with
  | none => rw [Tracks, hr] at h; cases h
  | some j =>
    obtain ⟨r', hr', hmax, hst⟩ := h
    rw [hr] at hr'
    cases hr'
    obtain ⟨m, stage, n, f⟩ := j
    subst hmax
    exact ⟨stage, n, f, rfl, hst⟩

theorem Tracks.task_of_processing {id : String} {s : State} {a : Option (Retry.Job Unit)}
    (h : Tracks id s a) {r : DeliveryRow} (hr : s.table.get? id = some r)
    (hst : r.status = .processing) : ∃ k ∈ s.tasks, k.id = id := by
  obtain ⟨stage, n, f, -, hstage⟩ := h.row hr
  cases stage with
  | held w => exact ⟨_, hstage.2.2.choose_spec.1, hstage.2.2.choose_spec.2.1⟩
  | called w ok => exact ⟨_, hstage.2.2.choose_spec.1, hstage.2.2.choose_spec.2.1⟩
  | waiting | delivered | dead | lost | rejected => simp [AtStage, hst] at hstage

theorem Tracks.of_pending {id : String} {s : State} {a : Option (Retry.Job Unit)}
    (h : Tracks id s a) {r : DeliveryRow} (hr : s.table.get? id = some r)
    (hst : r.status = .pending) :
    ∃ n f, a = some ⟨r.maxAttempts, .waiting, n, f⟩ ∧ r.attempts = n := by
  obtain ⟨stage, n, f, ha, hstage⟩ := h.row hr
  cases stage <;> simp [AtStage, hst] at hstage
  exact ⟨n, f, ha, hstage⟩

theorem Tracks.of_dead {id : String} {s : State} {a : Option (Retry.Job Unit)}
    (h : Tracks id s a) {r : DeliveryRow} (hr : s.table.get? id = some r)
    (hst : r.status = .deadLettered) :
    ∃ n f, a = some ⟨r.maxAttempts, .dead, n, f⟩ ∧ r.attempts = n := by
  obtain ⟨stage, n, f, ha, hstage⟩ := h.row hr
  cases stage <;> simp [AtStage, hst] at hstage
  exact ⟨n, f, ha, hstage⟩

/-- A task that waits for its permit. -/
theorem Tracks.of_waiting {s : State} {k : Task} {a : Option (Retry.Job Unit)}
    (h : Tracks k.job.id s a) (hs : Owned s) (hk : k ∈ s.tasks) (hpc : k.pc = .waiting)
    {r : DeliveryRow} (hr : s.table.get? k.job.id = some r) :
    ∃ n f, a = some ⟨r.maxAttempts, .held (), n, f⟩ ∧ r.attempts = n := by
  have hproc := hs.processing hk hr
  obtain ⟨stage, n, f, ha, hstage⟩ := h.row hr
  cases stage with
  | held w => exact ⟨n, f, ha, hstage.2.1⟩
  | called w ok =>
    obtain ⟨-, -, k', hk', hid, now, res, hpc', -⟩ := hstage
    rw [hs.unique hk' hk hid, hpc] at hpc'
    cases hpc'
  | waiting | delivered | dead | lost | rejected => simp [AtStage, hproc] at hstage

/-- A task whose call has returned. -/
theorem Tracks.of_called {s : State} {k : Task} {a : Option (Retry.Job Unit)}
    (h : Tracks k.job.id s a) (hs : Owned s) (hk : k ∈ s.tasks) {now : Int}
    {res : Except String Unit} (hpc : k.pc = .called now res) {r : DeliveryRow}
    (hr : s.table.get? k.job.id = some r) :
    ∃ n f, a = some ⟨r.maxAttempts, .called () (succeeded res), n, f⟩ ∧ r.attempts + 1 = n := by
  have hproc := hs.processing hk hr
  obtain ⟨stage, n, f, ha, hstage⟩ := h.row hr
  cases stage with
  | held w =>
    obtain ⟨-, -, k', hk', hid, hpc'⟩ := hstage
    rw [hs.unique hk' hk hid, hpc] at hpc'
    cases hpc'
  | called w ok =>
    obtain ⟨-, hatt, k', hk', hid, now', res', hpc', hok⟩ := hstage
    rw [hs.unique hk' hk hid, hpc] at hpc'
    cases hpc'
    subst hok
    exact ⟨n, f, ha, hatt⟩
  | waiting | delivered | dead | lost | rejected => simp [AtStage, hproc] at hstage

def outcomeEvent (job : ClaimedJob) : Except String Unit → Retry.Event Unit
  | .ok _ => .succeed ()
  | .error _ => if job.maxAttempts ≤ job.attempts + 1 then .exhaust () else .retry ()

/-- The step of the life of `id` that a label is. -/
def lifeEvent (id : String) : Label J → Option (Retry.Event Unit)
  | .createWebhook cfg _ _ (.ok resp) =>
    if resp.id = id then some (.submit cfg.maxAttempts) else none
  | .claim _ jobs => if id ∈ jobs.map ClaimedJob.id then some (.claim ()) else none
  | .deliverOnce job _ res => if job.id = id then some (.call () (succeeded res)) else none
  | .finish job _ res => if job.id = id then some (outcomeEvent job res) else none
  | .requeueUpdate id' _ => if id' = id then some .revive else none
  | _ => none

theorem Tracks.stutter {id : String} {s t : State} {l : Label J}
    {a : Option (Retry.Job Unit)} (h : Tracks id s a) (hu : Undisturbed s l)
    (hok : l.succeeds = true) (hst : Step s l t) (hl : lifeEvent id l = none) :
    Tracks id t a := by
  cases hst with
  | createWebhook payload check id' now fault res t' hcreate =>
    refine h.frame ?_ (fun _ hk _ => hk)
    rcases createWebhook_spec _ _ _ _ _ _ _ hcreate with ⟨e, rfl, rfl⟩ | ⟨req, rfl, rfl, hins⟩
    · rfl
    · have hne : ¬id' = id := by simpa [lifeEvent] using hl
      exact (Table.get?_insert? hins id).trans (if_neg hne)
  | reclaim now htick =>
    refine h.frame ((get?_reclaim s.cfg now s.table id).trans ?_) (fun _ hk _ => hk)
    cases hr : s.table.get? id with
    | none => rfl
    | some r =>
      -- A stale row would be in processing, so it would have a task.
      have hfresh : ¬isStale (staleCutoff s.cfg now) r = true := by
        intro hstale
        obtain ⟨k, hk, hid⟩ := h.task_of_processing hr (isStale_iff.1 hstale).1
        exact hu id r hr hstale k hk hid
      rw [Option.map_some, if_neg hfresh]
  | claim now rows jobs htick hsel hjobs =>
    have hne : ¬id ∈ jobs.map ClaimedJob.id := by
      intro hmem
      rw [lifeEvent, if_pos hmem] at hl
      cases hl
    exact h.frame ((claim_spec hsel hjobs).2.2 id hne) (fun _ hk _ => List.mem_append_left _ hk)
  | tickFailed => cases hok
  | deliverOnce pre post job claimedAt now check resp htasks hperm =>
    have hne : ¬job.id = id := by simpa [lifeEvent] using hl
    refine h.frame rfl (fun k hk hid => ?_)
    rw [htasks, List.mem_append, List.mem_cons] at hk
    rw [List.mem_append, List.mem_cons]
    rcases hk with hk | rfl | hk
    · exact .inl hk
    · exact absurd hid hne
    · exact .inr (.inr hk)
  | finish pre post job claimedAt now delay res htasks =>
    have hne : ¬job.id = id := by simpa [lifeEvent] using hl
    refine h.frame ((get?_finish job now delay res s.table id).trans (if_neg fun e => hne e.symm))
      (fun k hk hid => ?_)
    rw [htasks, List.mem_append, List.mem_cons] at hk
    rw [List.mem_append]
    rcases hk with hk | rfl | hk
    · exact .inl hk
    · exact absurd hid hne
    · exact .inr hk
  | finishFailed => cases hok
  | requeueCheck id' => exact h.frame rfl (fun _ hk _ => hk)
  | requeueUpdate id' now hmem =>
    have hne : ¬id' = id := by simpa [lifeEvent] using hl
    exact h.frame ((get?_requeue id' now s.table id).trans (if_neg fun e => hne e.symm))
      (fun _ hk _ => hk)
  | requeueFailed => cases hok
  | restart => cases hok

theorem Tracks.step {id : String} {s t : State} {l : Label J} {a : Option (Retry.Job Unit)}
    {e : Retry.Event Unit} (h : Tracks id s a) (hs : Owned s) (hc : Checked s)
    (hsnap : Snapshots s) (hst : Step s l t) (hl : lifeEvent id l = some e) :
    ∃ b, Retry.Step a e b ∧ Tracks id t b := by
  cases hst with
  | createWebhook payload check id' now fault res t' hcreate =>
    rcases createWebhook_spec _ _ _ _ _ _ _ hcreate with ⟨err, rfl, rfl⟩ | ⟨req, rfl, rfl, hins⟩
    · cases hl
    · have hid : id' = id ∧ Retry.Event.submit s.cfg.maxAttempts = e := by
        simpa [lifeEvent] using hl
      obtain ⟨rfl, rfl⟩ := hid
      have hnone := Table.get?_of_insert? hins
      cases a with
      | some j =>
        obtain ⟨r, hr, -⟩ := h
        have hkey : s.table.get? id' = none := hnone
        rw [hr] at hkey
        cases hkey
      | none =>
        have hrow := (Table.get?_insert? hins id').trans (if_pos rfl)
        exact ⟨_, Retry.Step.submit s.cfg.maxAttempts, _, hrow, rfl, rfl, rfl⟩
  | claim now rows jobs htick hsel hjobs =>
    have hid : id ∈ jobs.map ClaimedJob.id ∧ Retry.Event.claim () = e := by
      by_cases hk : id ∈ jobs.map ClaimedJob.id
      · rw [lifeEvent, if_pos hk] at hl
        exact ⟨hk, Option.some.inj hl⟩
      · rw [lifeEvent, if_neg hk] at hl
        cases hl
    obtain ⟨hk, rfl⟩ := hid
    obtain ⟨job, hjob, rfl⟩ := List.mem_map.1 hk
    obtain ⟨r, hr, hpend, -, -, hr'⟩ := (claim_spec hsel hjobs).2.1 job hjob
    obtain ⟨n, f, rfl, hatt⟩ := h.of_pending hr hpend
    refine ⟨_, Retry.Step.claim _ n f (), asClaimed now r, hr', rfl, rfl, hatt,
      .spawn now job, ?_, rfl, rfl⟩
    exact List.mem_append_right _ (List.mem_map_of_mem hjob)
  | deliverOnce pre post job claimedAt now check resp htasks hperm =>
    have hid : job.id = id ∧
        Retry.Event.call () (succeeded (deliverOnce check resp)) = e := by
      simpa [lifeEvent] using hl
    obtain ⟨rfl, rfl⟩ := hid
    have hk : (⟨job, claimedAt, .waiting⟩ : Task) ∈ s.tasks := htasks ▸ by simp
    obtain ⟨r, hr, hproc, -, -⟩ := hs.backed _ hk
    obtain ⟨n, f, rfl, hatt⟩ := Tracks.of_waiting (k := ⟨job, claimedAt, .waiting⟩) h hs hk rfl hr
    refine ⟨_, Retry.Step.call _ n f () _, r, hr, rfl, hproc, ?_, ?_⟩
    · show r.attempts + 1 = ((n + 1 : Nat) : Int)
      omega
    · exact ⟨⟨job, claimedAt, .called now _⟩, by simp, rfl, now, _, rfl, rfl⟩
  | finish pre post job claimedAt now delay res htasks =>
    have hid : job.id = id ∧ outcomeEvent job res = e := by simpa [lifeEvent] using hl
    obtain ⟨rfl, rfl⟩ := hid
    have hk : (⟨job, claimedAt, .called now res⟩ : Task) ∈ s.tasks := htasks ▸ by simp
    obtain ⟨r, hr, -, hatt, -⟩ := hs.backed _ hk
    have hatt : r.attempts = job.attempts := hatt
    have hmax : r.maxAttempts = job.maxAttempts := by
      obtain ⟨r', hr', -, -, hmax⟩ := hsnap _ hk
      rw [hr] at hr'
      cases hr'
      exact hmax
    obtain ⟨n, f, rfl, hn⟩ :=
      Tracks.of_called (k := ⟨job, claimedAt, .called now res⟩) h hs hk rfl hr
    have hrow := get?_finish_self hr now delay res
    have hsame := (same_asFinished job now delay res r).maxAttempts
    cases res with
    | ok u => exact ⟨_, Retry.Step.succeed _ n f (), _, hrow, hsame, rfl⟩
    | error err =>
      by_cases hle : job.maxAttempts ≤ job.attempts + 1
      · rw [outcomeEvent, if_pos hle]
        refine ⟨_, Retry.Step.exhaust _ n f () (by omega), _, hrow, hsame, ?_, ?_⟩
        · simp [asFinished, hle]
        · simp only [asFinished, hle, if_true]
          omega
      · rw [outcomeEvent, if_neg hle]
        refine ⟨_, Retry.Step.retry _ n f () (by omega), _, hrow, hsame, ?_, ?_⟩
        · simp [asFinished, hle]
        · simp only [asFinished, hle, if_false]
          omega
  | requeueUpdate id' now hmem =>
    have hid : id' = id ∧ Retry.Event.revive = e := by simpa [lifeEvent] using hl
    obtain ⟨rfl, rfl⟩ := hid
    obtain ⟨r, hr, hdead⟩ := hc.dead hmem
    obtain ⟨n, f, rfl, -⟩ := h.of_dead hr hdead
    refine ⟨_, Retry.Step.reviveDead _ n f, asRequeued now r, ?_, rfl, rfl, rfl⟩
    refine (get?_requeue id' now s.table id').trans ?_
    rw [if_pos rfl, hr, Option.map_some]
  | reclaim | tickFailed | finishFailed | requeueCheck | requeueFailed | restart => cases hl

theorem simulation (id : String) :
    Simulation (timely J) (Retry.system Unit) (lifeEvent id) (Tracks id) where
  init s hs := ⟨none, rfl, by rw [Tracks, hs.1]; rfl⟩
  stutter _ _ _ _ _ hr h hst hl := by
    obtain ⟨howned, hchecked⟩ := owned_timely hr
    exact h.stutter (howned.undisturbed hchecked hst.1.2.1 hst.2) hst.1.1 hst.2 hl
  step _ _ _ _ _ _ hr h hst hl :=
    h.step (owned_timely hr).1 (owned_timely hr).2 (snapshots hr.of_restrict) hst.2 hl

/-! ## The counts -/

theorem outcomeEvent_counts (job : ClaimedJob) (res : Except String Unit) :
    (outcomeEvent job res).starts = false ∧ (outcomeEvent job res).isCall = false ∧
      (outcomeEvent job res).isFailure = false := by
  unfold outcomeEvent
  cases res with
  | ok u => exact ⟨rfl, rfl, rfl⟩
  | error err =>
    simp only
    split <;> exact ⟨rfl, rfl, rfl⟩

/-- A label that is no step of the life of `id` does not count. -/
theorem uncounted {id : String} {l : Label J} (hl : lifeEvent id l = none) :
    l.starts id = false ∧ l.delivers id = false ∧ l.fails id = false := by
  cases l with
  | createWebhook cfg payload now res =>
    cases res with
    | error e => exact ⟨rfl, rfl, rfl⟩
    | ok resp =>
      have hne : ¬resp.id = id := by simpa [lifeEvent] using hl
      simp [Label.starts, Label.accepts, Label.requeues, Label.delivers, Label.fails, hne]
  | deliverOnce job now res =>
    have hne : ¬job.id = id := by simpa [lifeEvent] using hl
    simp [Label.starts, Label.accepts, Label.requeues, Label.delivers, Label.fails, hne]
  | requeueUpdate id' now =>
    have hne : ¬id' = id := by simpa [lifeEvent] using hl
    simp [Label.starts, Label.accepts, Label.requeues, Label.delivers, Label.fails, hne]
  | reclaim | claim | tickFailed | finish | finishFailed | requeueCheck | requeueFailed
  | restart => exact ⟨rfl, rfl, rfl⟩

/-- A step of the life of `id` counts as its label does. -/
theorem counted {id : String} {l : Label J} {e : Retry.Event Unit}
    (hl : lifeEvent id l = some e) :
    l.starts id = e.starts ∧ l.delivers id = e.isCall ∧ l.fails id = e.isFailure := by
  cases l with
  | createWebhook cfg payload now res =>
    cases res with
    | error err => cases hl
    | ok resp =>
      have hid : resp.id = id ∧ Retry.Event.submit cfg.maxAttempts = e := by
        simpa [lifeEvent] using hl
      obtain ⟨rfl, rfl⟩ := hid
      exact ⟨by simp [Label.starts, Label.accepts, Retry.Event.starts], rfl, rfl⟩
  | claim now jobs =>
    by_cases hk : id ∈ jobs.map ClaimedJob.id
    · rw [lifeEvent, if_pos hk] at hl
      cases hl
      exact ⟨rfl, rfl, rfl⟩
    · rw [lifeEvent, if_neg hk] at hl
      cases hl
  | deliverOnce job now res =>
    have hid : job.id = id ∧ Retry.Event.call () (succeeded res) = e := by
      simpa [lifeEvent] using hl
    obtain ⟨rfl, rfl⟩ := hid
    exact ⟨rfl, by simp [Label.delivers, Retry.Event.isCall],
      by simp [Label.fails, Retry.Event.isFailure]⟩
  | finish job delay res =>
    have hid : job.id = id ∧ outcomeEvent job res = e := by simpa [lifeEvent] using hl
    obtain ⟨rfl, rfl⟩ := hid
    obtain ⟨hstarts, hcall, hfail⟩ := outcomeEvent_counts job res
    exact ⟨hstarts.symm, hcall.symm, hfail.symm⟩
  | requeueUpdate id' now =>
    have hid : id' = id ∧ Retry.Event.revive = e := by simpa [lifeEvent] using hl
    obtain ⟨rfl, rfl⟩ := hid
    exact ⟨by simp [Label.starts, Label.requeues, Retry.Event.starts], rfl, rfl⟩
  | reclaim | tickFailed | finishFailed | requeueCheck | requeueFailed | restart => cases hl

theorem deliverCalls_eq (id : String) (h : List (Label J)) :
    deliverCalls id h = Retry.calls (h.filterMap (lifeEvent id)) :=
  countSince_filterMap (fun _ hl => ⟨(uncounted hl).1, (uncounted hl).2.1⟩)
    (fun _ _ hl => ⟨(counted hl).1, (counted hl).2.1⟩) h

theorem deliverCalls_le {h : List (Label J)} {s : State} (hs : (timely J).Reaches h s)
    {id : String} {r : DeliveryRow} (hr : s.table.get? id = some r) :
    (deliverCalls id h : Int) ≤ max 1 r.maxAttempts := by
  obtain ⟨a, ha, ht⟩ := (simulation id).reaches hs
  obtain ⟨stage, n, f, rfl, -⟩ := ht.row hr
  rw [deliverCalls_eq]
  exact Retry.calls_le ha

/-- What holds of a state `s` that the timely history `h` has led to. -/
structure Kept (h : List (Label J)) (s : State) : Prop where
  oneTask : (s.tasks.map Task.id).Nodup
  taskRow : ∀ k ∈ s.tasks, ∃ r, s.table.get? k.id = some r ∧ r.status = .processing ∧
    k.job.attempts = r.attempts
  callsBounded : ∀ id r, s.table.get? id = some r →
    (deliverCalls id h : Int) ≤ max 1 r.maxAttempts
  deadExhausted : ∀ id r, s.table.get? id = some r → r.status = .deadLettered →
    (failedCalls id h : Int) = max 1 r.maxAttempts ∧ r.attempts = failedCalls id h
  deliveredFinal : ∀ id r, s.table.get? id = some r → r.status = .delivered →
    ∀ h' t, (timely J).Path s h' t → t.table.get? id = some r

/-- The worker ticks at the very end of the timeout of the first claim, and then the call
fails and is recorded. -/
def retried : List (Label Json.text) :=
  .finish (hookRow 3).job 500 (.error "request failed: timeout") ::
    .deliverOnce (hookRow 3).job 5 (.error "request failed: timeout") ::
    .claim 60000 [] :: .reclaim 60000 :: claiming 3

end G
end WebhookDelivery
