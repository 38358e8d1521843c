/-
The `g` service keeps a ledger.

A row may be claimed twice, a task may write over another's outcome and a
requeue may revive a delivery that is not dead.  What a request fixed is still
never written again, and every final statement of a task has the attempt of that
task behind it, so the service simulates `Run.Ledger` in every run.
-/
import WebhookDelivery.Run.Ledger
import WebhookDelivery.G.Durability

namespace WebhookDelivery
namespace G

open Sql Run

variable {J : Json}

/-! ## Rows as entries -/

/-- The columns a request fixes. -/
structure Submitted where
  destination : String
  payload : String
  maxAttempts : Int
  createdAt : Int

def DeliveryRow.submitted (r : DeliveryRow) : Submitted where
  destination := r.destination
  payload := r.payload
  maxAttempts := r.maxAttempts
  createdAt := r.createdAt

theorem DeliveryRow.Same.submitted {r r' : DeliveryRow} (h : r.Same r') :
    r'.submitted = r.submitted := by
  simp only [DeliveryRow.submitted, h.destination, h.payload, h.maxAttempts, h.createdAt]

/-- A dead-lettered row shows the error it was closed with. -/
def DeliveryRow.stage (r : DeliveryRow) : Ledger.Stage (Option String) :=
  match r.status with
  | .pending | .processing => .waiting
  | .delivered => .delivered
  | .deadLettered => .dead r.lastError

def DeliveryRow.entry (r : DeliveryRow) : Ledger.Entry Submitted (Option String) where
  record := r.submitted
  stage := r.stage

/-- What a task sends: the destination and the payload of its copy. -/
def Carries (b : Submitted) (m : String × String) : Prop :=
  m = (b.destination, b.payload)

abbrev Book := Ledger.Book String Submitted (String × String) (Option String)

abbrev BookEvent := Ledger.Event String Submitted (String × String) (Option String)

def shown : Except String Unit → Except (Option String) Unit
  | .ok _ => .ok ()
  | .error err => .error (some err)

def ClaimedJob.attempt (job : ClaimedJob) (res : Except String Unit) :
    Ledger.Attempt String (String × String) (Option String) where
  key := job.id
  message := (job.destination, job.payload)
  result := shown res

/-- What the final statement of a task does to the entry of its job. -/
def ClaimedJob.close (job : ClaimedJob) : Except String Unit → BookEvent
  | .ok _ => .deliver job.id
  | .error err =>
    if job.maxAttempts ≤ job.attempts + 1 then .bury job.id (some err) else .reopen job.id

/-- The event a label is, if it is one. -/
def Label.event : Label J → Option BookEvent
  | .createWebhook cfg (.ok req) now (.ok resp) =>
    some (.accept resp.id
      (newRow resp.id req.destination (J.toString req.data) cfg.maxAttempts now).submitted)
  | .deliverOnce job _ res => some (.attempt (job.attempt res))
  | .finish job _ res => some (job.close res)
  | .requeueUpdate id _ => some (.reopen id)
  | _ => none

/-- A book that agrees with the service. -/
structure Mirrors (s : State) (a : Book) : Prop where
  entry : ∀ id, a.entry id = (s.table.get? id).map DeliveryRow.entry
  outcomes : ∀ k ∈ s.tasks, ∀ now res, k.pc = .called now res → k.job.attempt res ∈ a.attempts
  requeues : ∀ id ∈ s.requeues, ∃ r, s.table.get? id = some r

/-- The entry of a row that is there. -/
theorem Mirrors.entry_of_row {s : State} {a : Book} (hs : Mirrors s a) {id : String}
    {r : DeliveryRow} (hr : s.table.get? id = some r) : a.entry id = some r.entry := by
  rw [hs.entry id, hr, Option.map_some]

/-- One row is written, and its entry goes to the stage of the event. -/
theorem Mirrors.put {s : State} {a : Book} (hs : Mirrors s a) {t : Deliveries} {id : String}
    {r : DeliveryRow} {f : DeliveryRow → DeliveryRow} {stage : Ledger.Stage (Option String)}
    (hrow : ∀ k, t.get? k = if k = id then (s.table.get? id).map f else s.table.get? k)
    (hr : s.table.get? id = some r) (hf : (f r).entry = ⟨r.submitted, stage⟩) (k : String) :
    (a.put id r.submitted stage).entry k = (t.get? k).map DeliveryRow.entry := by
  rw [Ledger.Book.put_entry, hrow k]
  by_cases hk : k = id
  · rw [if_pos hk, if_pos hk, hr, Option.map_some, Option.map_some, hf]
  · rw [if_neg hk, if_neg hk, hs.entry k]

/-- A write that leaves the stages alone moves no entry. -/
theorem map_entry {t t' : Deliveries} {id : String} {p : DeliveryRow → Bool}
    {f : DeliveryRow → DeliveryRow}
    (hrow : t'.get? id = (t.get? id).map fun r => if p r then f r else r)
    (hf : ∀ r, p r = true → (f r).entry = r.entry) :
    (t'.get? id).map DeliveryRow.entry = (t.get? id).map DeliveryRow.entry := by
  rw [hrow, Option.map_map]
  refine congrArg (fun g => (t.get? id).map g) (funext fun r => ?_)
  by_cases hp : p r = true
  · simp only [Function.comp_apply, if_pos hp, hf r hp]
  · simp only [Function.comp_apply, if_neg hp]

/-- The requeues after a step have passed a check or are still pending. -/
theorem Step.requeues {s t : State} {l : Label J} (hst : Step s l t) {id : String}
    (hid : id ∈ t.requeues) : id ∈ s.requeues ∨ ∃ r, s.table.get? id = some r := by
  cases hst with
  | requeueCheck id' =>
    have hid : id ∈ afterCheck id' s.requeues (G.requeueCheck id' s.table) := hid
    cases hc : G.requeueCheck id' s.table with
    | error e =>
      rw [hc] at hid
      exact .inl hid
    | ok u =>
      rw [hc] at hid
      rcases List.mem_cons.1 hid with rfl | hid
      · obtain ⟨r, hr, -⟩ := requeueCheck_ok hc
        exact .inr ⟨r, hr⟩
      · exact .inl hid
  | requeueUpdate id' now hmem | requeueFailed id' hmem => exact .inl (List.mem_of_mem_erase hid)
  | restart cfg now => exact absurd hid List.not_mem_nil
  | createWebhook | reclaim | claim | tickFailed | deliverOnce | finish | finishFailed =>
    exact .inl hid

/-- After a step the book agrees again if its entries do and it has the attempt
of the step. -/
theorem Mirrors.after {s t : State} {a b : Book} {l : Label J} (hs : Mirrors s a)
    (hst : Step s l t) (hentry : ∀ id, b.entry id = (t.table.get? id).map DeliveryRow.entry)
    (hold : ∀ x ∈ a.attempts, x ∈ b.attempts)
    (hnew : ∀ job now res, l = .deliverOnce job now res → job.attempt res ∈ b.attempts) :
    Mirrors t b where
  entry := hentry
  outcomes k hk now res hpc := by
    rcases hst.tasks hk with hk | ⟨now', jobs, -, -, hspawn⟩ | ⟨now', res', hl, hpc', -⟩
    · exact hold _ (hs.outcomes k hk now res hpc)
    · rw [hspawn] at hpc
      cases hpc
    · rw [hpc'] at hpc
      cases hpc
      exact hnew k.job now res hl
  requeues id hid := by
    have hrow : ∃ r, s.table.get? id = some r := by
      rcases hst.requeues hid with hid | hrow
      · exact hs.requeues id hid
      · exact hrow
    obtain ⟨r, hr⟩ := hrow
    obtain ⟨r', hr', -⟩ := hst.same hr
    exact ⟨r', hr'⟩

/-- The final statement of a task is an event that its attempt allows. -/
theorem Mirrors.record {s : State} {a : Book} (hs : Mirrors s a) {job : ClaimedJob}
    {res : Except String Unit} {r : DeliveryRow} (hr : s.table.get? job.id = some r)
    (hmem : job.attempt res ∈ a.attempts) (now delay : Int) :
    ∃ b, Ledger.Step Carries a (job.close res) b ∧ b.attempts = a.attempts ∧
      ∀ id, b.entry id = ((finish job now delay res s.table).get? id).map DeliveryRow.entry := by
  have hentry := hs.entry_of_row hr
  have hrow := get?_finish job now delay res s.table
  cases res with
  | ok u => exact ⟨_, .deliver a _ r.entry _ hentry hmem, rfl, hs.put hrow hr rfl⟩
  | error err =>
    by_cases hle : job.maxAttempts ≤ job.attempts + 1
    · rw [ClaimedJob.close, if_pos hle]
      refine ⟨_, .bury a _ r.entry _ _ hentry hmem, rfl, hs.put hrow hr ?_⟩
      simp only [asFinished, if_pos hle]
      rfl
    · rw [ClaimedJob.close, if_neg hle]
      refine ⟨_, .reopen a _ r.entry hentry, rfl, hs.put hrow hr ?_⟩
      simp only [asFinished, if_neg hle]
      rfl

variable (J) in
/-- Every run of the service is one of a ledger. -/
theorem ledger : Simulation (system J) (Ledger.system Carries) Label.event Mirrors where
  init s hs := by
    obtain ⟨htable, -, htasks, hrequeues⟩ := hs
    refine ⟨⟨fun _ => none, []⟩, ⟨rfl, fun _ => rfl⟩, fun id => ?_, fun k hk => ?_,
      fun id hid => ?_⟩
    · rw [htable]
      rfl
    · rw [htasks] at hk
      exact absurd hk List.not_mem_nil
    · rw [hrequeues] at hid
      exact absurd hid List.not_mem_nil
  stutter h s l t a _ hs hst hl := by
    refine hs.after hst (fun id => ?_) (fun _ hx => hx) (fun job now res e => ?_)
    · rw [hs.entry id]
      cases hst with
      | createWebhook payload check id' now fault res t' hcreate =>
        rcases createWebhook_spec _ _ _ _ _ _ _ hcreate with ⟨e, -, rfl⟩ | ⟨req, rfl, rfl, -⟩
        · rfl
        · cases hl
      | reclaim now htick =>
        refine (map_entry (get?_reclaim s.cfg now s.table id) fun r hp => ?_).symm
        simp only [DeliveryRow.entry, DeliveryRow.stage, (isStale_iff.1 hp).1, asReclaimed]
        rfl
      | claim now rows jobs htick hsel hjobs =>
        obtain ⟨-, hin, hout⟩ := claim_spec hsel hjobs
        show _ = ((claim now (rows.map DeliveryRow.id) s.table).get? id).map DeliveryRow.entry
        by_cases hk : id ∈ jobs.map ClaimedJob.id
        · obtain ⟨job, hjob, rfl⟩ := List.mem_map.1 hk
          obtain ⟨r, hr, hpend, -, -, hr'⟩ := hin job hjob
          rw [hr, hr', Option.map_some, Option.map_some]
          simp only [DeliveryRow.entry, DeliveryRow.stage, hpend, asClaimed]
          rfl
        · rw [hout id hk]
      | restart cfg now =>
        refine (map_entry (get?_resetProcessing now s.table id) fun r hp => ?_).symm
        have hproc : r.status = .processing := by simpa [isProcessing] using hp
        simp only [DeliveryRow.entry, DeliveryRow.stage, hproc, asReclaimed]
        rfl
      | deliverOnce | finish | requeueUpdate => cases hl
      | tickFailed | finishFailed | requeueCheck | requeueFailed => rfl
    · subst e
      cases hl
  step h s l t a e hreach hs hst hl := by
    cases hst' : hst with
    | createWebhook payload check id now fault res t' hcreate =>
      rcases createWebhook_spec _ _ _ _ _ _ _ hcreate with ⟨e, rfl, -⟩ | ⟨req, rfl, rfl, hins⟩
      · cases payload <;> cases hl
      · obtain rfl := Option.some.inj hl
        have hnone : s.table.get? id = none := Table.get?_of_insert? hins
        refine ⟨_, .accept a id _ ((hs.entry id).trans (by rw [hnone]; rfl)), ?_⟩
        refine hs.after hst (fun k => ?_) (fun _ hx => hx) (fun _ _ _ e => by cases e)
        have hrow : t'.get? k = if id = k then some _ else s.table.get? k :=
          Table.get?_insert? hins k
        show _ = (t'.get? k).map DeliveryRow.entry
        rw [Ledger.Book.put_entry, hrow]
        by_cases hk : k = id
        · rw [if_pos hk, if_pos hk.symm]
          rfl
        · rw [if_neg hk, if_neg fun e => hk e.symm, hs.entry k]
    | deliverOnce pre post job claimedAt now check resp htasks hperm =>
      obtain rfl := Option.some.inj hl
      obtain ⟨r, hr, hdest, hpay, -⟩ :=
        snapshots hreach ⟨job, claimedAt, .waiting⟩ (htasks ▸ by simp)
      refine ⟨_, .attempt a _ r.entry (hs.entry_of_row hr) (Prod.ext hdest.symm hpay.symm), ?_⟩
      refine hs.after hst hs.entry (fun _ hx => List.mem_cons_of_mem _ hx) (fun _ _ _ e => ?_)
      cases e
      exact List.mem_cons_self
    | finish pre post job claimedAt now delay res htasks =>
      obtain rfl := Option.some.inj hl
      have hk : (⟨job, claimedAt, .called now res⟩ : Task) ∈ s.tasks := htasks ▸ by simp
      obtain ⟨r, hr, -⟩ := snapshots hreach _ hk
      obtain ⟨b, hstep, hatt, hentry⟩ := hs.record hr (hs.outcomes _ hk now res rfl) now delay
      exact ⟨b, hstep, hs.after hst hentry (fun _ hx => hatt ▸ hx) (fun _ _ _ e => by cases e)⟩
    | requeueUpdate id now hmem =>
      obtain rfl := Option.some.inj hl
      obtain ⟨r, hr⟩ := hs.requeues id hmem
      refine ⟨_, .reopen a id r.entry (hs.entry_of_row hr), ?_⟩
      exact hs.after hst (hs.put (get?_requeue id now s.table) hr rfl) (fun _ hx => hx)
        (fun _ _ _ e => by cases e)
    | reclaim | claim | tickFailed | finishFailed | requeueCheck | requeueFailed | restart =>
      cases hl

/-! ## What is kept, and what is sent -/

/-- What the history of a run and the state it has led to say about each other.
That an accepted delivery stays, and that a delivered one was sent, is `Durable`. -/
structure Honest (h : List (Label J)) (s : State) : Prop where
  once : ∀ id, h.countP (Label.accepts id) = if (s.table.get? id).isSome then 1 else 0
  sent : ∀ h₁ h₀ job now res, h = h₁ ++ .deliverOnce job now res :: h₀ →
    ∃ cfg req t status,
      .createWebhook cfg (.ok req) t (.ok { id := job.id, status := status }) ∈ h₀ ∧
      job.destination = req.destination ∧ job.payload = J.toString req.data
  delivered : ∀ id r, s.table.get? id = some r → r.status = .delivered →
    ∃ job now, .deliverOnce job now (.ok ()) ∈ h ∧ job.id = id
  dead : ∀ id r, s.table.get? id = some r → r.status = .deadLettered →
    ∃ job now err, .deliverOnce job now (.error err) ∈ h ∧ job.id = id ∧ r.lastError = some err

/-- What the label of an event has to be. -/
def Label.Source (l : Label J) : BookEvent → Prop
  | .accept id b => ∃ cfg req now status,
      l = .createWebhook cfg (.ok req) now (.ok { id := id, status := status }) ∧
        b = (newRow id req.destination (J.toString req.data) cfg.maxAttempts now).submitted
  | .attempt a => ∃ job now res, l = .deliverOnce job now res ∧ a = job.attempt res
  | .refuse .. => False
  | .deliver _ | .bury .. | .reopen _ => True

theorem Label.source {l : Label J} {e : BookEvent} (he : l.event = some e) : l.Source e := by
  cases l with
  | createWebhook cfg payload now res =>
    cases payload with
    | error x => cases he
    | ok req =>
      cases res with
      | error x => cases he
      | ok resp =>
        cases he
        exact ⟨cfg, req, now, resp.status, rfl, rfl⟩
  | deliverOnce job now res =>
    cases he
    exact ⟨job, now, res, rfl, rfl⟩
  | finish job delay res =>
    obtain rfl := Option.some.inj he
    cases res with
    | ok u => trivial
    | error err =>
      simp only [ClaimedJob.close]
      split <;> trivial
  | requeueUpdate id now =>
    cases he
    trivial
  | reclaim | claim | tickFailed | finishFailed | requeueCheck | requeueFailed | restart =>
    cases he

/-- The request behind an acceptance. -/
theorem created_of_accept {h : List (Label J)} {id : String} {b : Submitted}
    (hb : .accept id b ∈ h.filterMap Label.event) : ∃ cfg req now status,
      .createWebhook cfg (.ok req) now (.ok { id := id, status := status }) ∈ h ∧
      b = (newRow id req.destination (J.toString req.data) cfg.maxAttempts now).submitted := by
  obtain ⟨l, hl, he⟩ := List.mem_filterMap.1 hb
  obtain ⟨cfg, req, now, status, rfl, hrec⟩ := Label.source he
  exact ⟨cfg, req, now, status, hl, hrec⟩

/-- The call behind an attempt. -/
theorem called_of_attempt {h : List (Label J)} {id : String} {m : String × String}
    {result : Except (Option String) Unit}
    (ha : .attempt ⟨id, m, result⟩ ∈ h.filterMap Label.event) :
    ∃ job now res, .deliverOnce job now res ∈ h ∧ job.id = id ∧ shown res = result := by
  obtain ⟨l, hl, he⟩ := List.mem_filterMap.1 ha
  obtain ⟨job, now, res, rfl, heq⟩ := Label.source he
  exact ⟨job, now, res, hl, (congrArg Ledger.Attempt.key heq).symm,
    (congrArg Ledger.Attempt.result heq).symm⟩

/-- A step that accepts is the insert of a request. -/
theorem Step.accepts_event {s t : State} {l : Label J} (hst : Step s l t) (id : String) :
    ((l.event).bind (Ledger.Event.accepted id)).isSome = l.accepts id := by
  cases l with
  | createWebhook cfg payload now res =>
    cases res with
    | error e => cases payload <;> rfl
    | ok resp =>
      cases payload with
      | error e =>
        cases hst with
        | createWebhook _ check id' _ fault _ t' hcreate => cases hcreate
      | ok req => by_cases hid : resp.id = id <;> simp [Label.event, Ledger.Event.accepted,
          Label.accepts, hid]
  | finish job delay res =>
    cases res with
    | ok u => rfl
    | error err =>
      simp only [Label.event, ClaimedJob.close, Label.accepts]
      split <;> rfl
  | reclaim | claim | tickFailed | deliverOnce | finishFailed | requeueCheck | requeueUpdate
  | requeueFailed | restart => rfl

theorem length_accepted {h : List (Label J)} {s : State} (hs : (system J).Reaches h s)
    (id : String) : ((h.filterMap Label.event).filterMap (Ledger.Event.accepted id)).length
      = h.countP (Label.accepts id) := by
  rw [List.filterMap_filterMap, List.length_filterMap_eq_countP]
  induction hs with
  | init h0 => rfl
  | step hr hst ih => rw [List.countP_cons, List.countP_cons, ih, hst.accepts_event]

/-- An id is accepted once, and exactly if its row is there. -/
theorem accepts_once {h : List (Label J)} {s : State} (hs : (system J).Reaches h s) (id : String) :
    h.countP (Label.accepts id) = if (s.table.get? id).isSome then 1 else 0 := by
  obtain ⟨a, ha, hm⟩ := (ledger J).reaches hs
  rw [← length_accepted hs, Ledger.accepted_eq ha, hm.entry id]
  cases s.table.get? id <;> rfl

/-- A row is what an accepted request has made. -/
theorem created_of_row {h : List (Label J)} {s : State} (hs : (system J).Reaches h s)
    {id : String} {r : DeliveryRow} (hr : s.table.get? id = some r) : ∃ cfg req now status,
      .createWebhook cfg (.ok req) now (.ok { id := id, status := status }) ∈ h ∧
      r.submitted
        = (newRow id req.destination (J.toString req.data) cfg.maxAttempts now).submitted := by
  obtain ⟨a, ha, hm⟩ := (ledger J).reaches hs
  exact created_of_accept (Ledger.accepted_of_entry ha (hm.entry_of_row hr))

/-- A delivered row has a call behind it that succeeded. -/
theorem delivered_by_call {h : List (Label J)} {s : State} (hs : (system J).Reaches h s)
    {id : String} {r : DeliveryRow} (hr : s.table.get? id = some r) (hdel : r.status = .delivered) :
    ∃ job now, .deliverOnce job now (.ok ()) ∈ h ∧ job.id = id := by
  obtain ⟨a, ha, hm⟩ := (ledger J).reaches hs
  have hj := Ledger.justified ha id r.entry (hm.entry_of_row hr)
  simp only [DeliveryRow.entry, DeliveryRow.stage, hdel, Ledger.Justified] at hj
  obtain ⟨m, hm⟩ := hj
  obtain ⟨job, now, res, hmem, hid, hres⟩ := called_of_attempt hm
  cases res with
  | ok u => exact ⟨job, now, hmem, hid⟩
  | error err => cases hres

/-- A dead letter shows the error of a call of it. -/
theorem dead_by_call {h : List (Label J)} {s : State} (hs : (system J).Reaches h s)
    {id : String} {r : DeliveryRow} (hr : s.table.get? id = some r)
    (hdead : r.status = .deadLettered) :
    ∃ job now err, .deliverOnce job now (.error err) ∈ h ∧ job.id = id ∧
      r.lastError = some err := by
  obtain ⟨a, ha, hm⟩ := (ledger J).reaches hs
  have hj := Ledger.justified ha id r.entry (hm.entry_of_row hr)
  simp only [DeliveryRow.entry, DeliveryRow.stage, hdead, Ledger.Justified] at hj
  rcases hj with ⟨m, hm⟩ | hrefused
  · obtain ⟨job, now, res, hmem, hid, hres⟩ := called_of_attempt hm
    cases res with
    | ok u => cases hres
    | error err => exact ⟨job, now, err, hmem, hid, (Except.error.inj hres).symm⟩
  · obtain ⟨l, -, he⟩ := List.mem_filterMap.1 hrefused
    exact (Label.source he).elim

/-- A call sends what was accepted before it. -/
theorem accepted_before_call {h₁ h₀ : List (Label J)} {job : ClaimedJob} {now : Int}
    {res : Except String Unit} {s : State}
    (hs : (system J).Reaches (h₁ ++ .deliverOnce job now res :: h₀) s) : ∃ cfg req t status,
      .createWebhook cfg (.ok req) t (.ok { id := job.id, status := status }) ∈ h₀ ∧
      job.destination = req.destination ∧ job.payload = J.toString req.data := by
  obtain ⟨a, ha, -⟩ := (ledger J).reaches hs
  have hcons : (Label.deliverOnce job now res :: h₀ : List (Label J)).filterMap Label.event
      = .attempt (job.attempt res) :: h₀.filterMap Label.event := List.filterMap_cons_some rfl
  rw [List.filterMap_append, hcons] at ha
  obtain ⟨b, hb, hcar⟩ := Ledger.attempt_carries ha
  obtain ⟨cfg, req, t, status, hmem, rfl⟩ := created_of_accept hb
  exact ⟨cfg, req, t, status, hmem, congrArg Prod.fst hcar, congrArg Prod.snd hcar⟩

/-- A call sends what its row still has. -/
theorem row_of_call {h : List (Label J)} {s : State} (hs : (system J).Reaches h s)
    {job : ClaimedJob} {now : Int} {res : Except String Unit}
    (hmem : .deliverOnce job now res ∈ h) :
    ∃ r, s.table.get? job.id = some r ∧ r.destination = job.destination ∧
      r.payload = job.payload := by
  obtain ⟨h₀, s₀, s₁, h₁, -, hs₀, hst, hpath⟩ := hs.takes hmem
  refine hpath.keeps (P := fun s => ∃ r, s.table.get? job.id = some r ∧
    r.destination = job.destination ∧ r.payload = job.payload) (fun s l t hP hl => ?_) ?_
  · obtain ⟨r, hr, hdest, hpay⟩ := hP
    obtain ⟨r', hr', hsame⟩ := Step.same hl hr
    exact ⟨r', hr', hsame.destination.trans hdest, hsame.payload.trans hpay⟩
  · cases hst with
    | deliverOnce pre post job claimedAt now check resp htasks hperm =>
      obtain ⟨r, hr, hdest, hpay, -⟩ := snapshots hs₀ ⟨job, claimedAt, .waiting⟩ (htasks ▸ by simp)
      exact ⟨r, hr, hdest, hpay⟩

/-- In every run, with any races, crashes and failures, each delivery was
accepted once, every call carries what was accepted before it, and a delivery is
delivered only after a call that succeeded, and dead-lettered only after one
that failed with the error it shows. -/
theorem hooks_honest {h : List (Label J)} {s : State} (hs : (system J).Reaches h s) :
    Honest h s where
  once := accepts_once hs
  sent h₁ h₀ job now res hh := by
    subst hh
    exact accepted_before_call hs
  delivered _ _ hr hdel := delivered_by_call hs hr hdel
  dead _ _ hr hdead := dead_by_call hs hr hdead

theorem hooks_honest_delivered : Honest
    (.finish (hookRow 3).job 0 (.ok ()) :: .deliverOnce (hookRow 3).job 5 (.ok ()) :: claiming 3)
    (one (asFinished (hookRow 3).job 5 0 (.ok ()) (asClaimed 0 (hookRow 3))) none [] []) := by
  have h₀ : (system Json.text).Reaches (claiming 3)
      (one (asClaimed 0 (hookRow 3)) none [.spawn 0 (hookRow 3).job] []) :=
    (claimed_reached 3 (C := fun _ _ => True) trivial trivial trivial).of_restrict
  have h₁ := h₀.step (Step.deliverOnce _ [] [] (hookRow 3).job 0 5 (.ok ())
    (.status 200 "200 OK" "") rfl (by decide))
  exact hooks_honest (h₁.step (Step.finish _ [] [] (hookRow 3).job 0 5 0 (.ok ()) rfl))

end G
end WebhookDelivery
