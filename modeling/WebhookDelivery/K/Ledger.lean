/-
The `k` service keeps a ledger.

The columns that `insert_job` fixes are never written again, so the row of a job
is the record it was accepted with next to a stage.  A worker's copy agrees with
that record, and the outcome it writes is that of the call it has just made.
With this the service simulates `Run.Ledger`, in every run and whatever the
crashes, and inherits what the ledger guarantees.
-/
import WebhookDelivery.Run.Ledger
import WebhookDelivery.K.Safety
import WebhookDelivery.Text.Ascii
import WebhookDelivery.Text.Hex

namespace WebhookDelivery
namespace K

open Sql Run
open Text (utf8 asciiString hexEncode)

variable {F : Formats} {ω : Type}

/-! ## The request of a call -/

/-- A key and a message, to a code. -/
abbrev Hmac := List UInt8 → List UInt8 → List UInt8

def signBody (hmac : Hmac) (secret : String) (body : List UInt8) : String :=
  "sha256=" ++ asciiString (hexEncode (hmac (utf8 secret) body))

structure Request where
  url : String
  contentType : String
  webhookId : Uuid
  webhookSignature : String
  body : List UInt8

/-- The request `deliver` makes for a destination and a payload. -/
def deliverRequest (hmac : Hmac) (secret : String) (id : Uuid) (destination : String)
    (payload : F.Value) : Request :=
  let body := utf8 (F.toString payload)
  { url := destination
    contentType := "application/json"
    webhookId := id
    webhookSignature := signBody hmac secret body
    body := body }

/-- The request `deliver` makes for a job. -/
def Job.request (hmac : Hmac) (secret : String) (job : Job F) : Request :=
  deliverRequest hmac secret job.id job.destination job.payload

/-! ## Rows as entries -/

variable (F) in
/-- The columns a submission fixes. -/
structure Submitted where
  destination : String
  payload : String
  maxAttempts : Int
  createdAt : F.Stamp

def JobRow.submitted (r : JobRow F) : Submitted F where
  destination := r.destination
  payload := r.payload
  maxAttempts := r.maxAttempts
  createdAt := r.createdAt

/-- A dead row shows the error it was closed with. -/
def JobRow.stage (r : JobRow F) : Ledger.Stage (Option String) :=
  match r.status with
  | .pending | .inFlight => .waiting
  | .delivered => .delivered
  | .dead => .dead r.lastError

def JobRow.entry (r : JobRow F) : Ledger.Entry (Submitted F) (Option String) where
  record := r.submitted
  stage := r.stage

/-- What a worker sends: the destination and the payload it has read. -/
def Carries (b : Submitted F) (m : String × F.Value) : Prop :=
  m.1 = b.destination ∧ F.fromStr b.payload = some m.2

abbrev Book (F : Formats) := Ledger.Book Uuid (Submitted F) (String × F.Value) (Option String)

abbrev BookEvent (F : Formats) := Ledger.Event Uuid (Submitted F) (String × F.Value) (Option String)

def shown : Except DeliveryError Unit → Except (Option String) Unit
  | .ok _ => .ok ()
  | .error e => .error (some e.text)

def Job.attempt (job : Job F) (res : Except DeliveryError Unit) :
    Ledger.Attempt Uuid (String × F.Value) (Option String) where
  key := job.id
  message := (job.destination, job.payload)
  result := shown res

/-- The event a label is, if it is one. -/
def Label.event : Label F ω → Option (BookEvent F)
  | .insertJob id destination payload maxAttempts now =>
    some (.accept id (newRow id destination payload maxAttempts now).submitted)
  | .requeueDead id _ requeued => if requeued then some (.reopen id) else none
  | .deliver _ job res => some (.attempt (job.attempt res))
  | .recordOutcome _ job (.ok _) => some (.deliver job.id)
  | .recordOutcome _ job (.error e) =>
    if job.maxAttempts ≤ job.attempts then some (.bury job.id (some e.text))
    else some (.reopen job.id)
  | .claimDueJobs .. | .recordFailed .. | .nextPoll _ | .stop _ | .crash | .spawnWorkers => none

/-- A book that agrees with the service. -/
structure Mirrors (s : State F ω) (a : Book F) : Prop where
  entry : ∀ id, a.entry id = (s.jobs.get? id).map JobRow.entry
  copies : ∀ w, ∀ job ∈ (s.pc w).held, ∃ r, s.jobs.get? job.id = some r ∧
    Carries r.submitted (job.destination, job.payload)
  outcomes : ∀ w job res rest, s.pc w = .outcome job res rest → job.attempt res ∈ a.attempts

/-- The columns `rowToJob` reads, and the error, which it copies. -/
theorem rowToJob_read {row : JobRow F} {job : Job F} (h : rowToJob row = .ok job) :
    F.fromStr row.payload = some job.payload ∧ F.parseTs row.updatedAt = some job.updatedAt ∧
      job.lastError = row.lastError := by
  unfold rowToJob at h
  cases hp : F.fromStr row.payload with
  | none => simp [hp, parse, bind, Except.bind] at h
  | some p =>
    cases hn : F.parseTs row.nextAttemptAt with
    | none => simp [hp, hn, parse, bind, Except.bind] at h
    | some n =>
      cases hc : F.parseTs row.createdAt with
      | none => simp [hp, hn, hc, parse, bind, Except.bind] at h
      | some c =>
        cases hu : F.parseTs row.updatedAt with
        | none => simp [hp, hn, hc, hu, parse, bind, Except.bind] at h
        | some u =>
          simp only [hp, hn, hc, hu, parse, bind, Except.bind, pure, Except.pure,
            Except.ok.injEq] at h
          subst h
          exact ⟨rfl, rfl, rfl⟩

theorem rowToJob_carries {row : JobRow F} {job : Job F} (h : rowToJob row = .ok job) :
    Carries row.submitted (job.destination, job.payload) :=
  ⟨(rowToJob_ok h).2.1, (rowToJob_read h).1⟩

/-! ## The simulation -/

/-- The record of a row that is there is kept by every statement. -/
theorem Mirrors.copy {s : State F ω} {a : Book F} (hs : Mirrors s a) {t : Jobs F}
    (hkeep : ∀ id r, s.jobs.get? id = some r →
      ∃ r', t.get? id = some r' ∧ r'.submitted = r.submitted) {w : ω} {job : Job F}
    (hjob : job ∈ (s.pc w).held) :
    ∃ r, t.get? job.id = some r ∧ Carries r.submitted (job.destination, job.payload) := by
  obtain ⟨r, hr, hcar⟩ := hs.copies w job hjob
  obtain ⟨r', hr', hsub⟩ := hkeep _ r hr
  exact ⟨r', hr', hsub ▸ hcar⟩

/-- One row is written, and its entry goes to the stage of the event. -/
theorem Mirrors.put {s : State F ω} {a : Book F} (hs : Mirrors s a) {t : Jobs F} {id : Uuid}
    {r : JobRow F} {f : JobRow F → JobRow F} {stage : Ledger.Stage (Option String)}
    (hrow : ∀ k, t.get? k = if k = id then (s.jobs.get? id).map f else s.jobs.get? k)
    (hr : s.jobs.get? id = some r) (hf : (f r).entry = ⟨r.submitted, stage⟩) (k : Uuid) :
    (a.put id r.submitted stage).entry k = (t.get? k).map JobRow.entry := by
  rw [Ledger.Book.put_entry, hrow k]
  by_cases hk : k = id
  · rw [if_pos hk, if_pos hk, hr, Option.map_some, Option.map_some, hf]
  · rw [if_neg hk, if_neg hk, hs.entry k]

/-- The entry of a row that is there. -/
theorem Mirrors.entry_of_row {s : State F ω} {a : Book F} (hs : Mirrors s a) {id : Uuid}
    {r : JobRow F} (hr : s.jobs.get? id = some r) : a.entry id = some r.entry := by
  rw [hs.entry id, hr, Option.map_some]

variable [DecidableEq ω]

/-- A row that is there keeps the columns of its submission. -/
theorem Step.submitted {s t : State F ω} {l : Label F ω} (hst : Step s l t) {id : Uuid}
    {r : JobRow F} (hr : s.jobs.get? id = some r) :
    ∃ r', t.jobs.get? id = some r' ∧ r'.submitted = r.submitted := by
  obtain ⟨r', hr', hrow⟩ := hst.row hr
  refine ⟨r', hr', ?_⟩
  cases hrow with
  | kept | requeueDead | claimDueJobs => rfl
  | recordOutcome w job res next now =>
    unfold asOutcome
    split
    · rfl
    · split <;> rfl

/-- The jobs a worker holds after a step are among those it held, or have just
been claimed. -/
theorem Step.held {s t : State F ω} {l : Label F ω} (hst : Step s l t) {w : ω} {job : Job F}
    (hjob : job ∈ (t.pc w).held) :
    job ∈ (s.pc w).held ∨ ∃ r, t.jobs.get? job.id = some r ∧
      Carries r.submitted (job.destination, job.payload) := by
  have hset : ∀ (v : ω) (jobs : Jobs F) (pc : Pc F),
      (∀ job ∈ pc.held, job ∈ (s.pc v).held) →
      job ∈ ((State.setPc { s with jobs := jobs } v pc).pc w).held → job ∈ (s.pc w).held := by
    intro v jobs pc hsub hmem
    by_cases hw : w = v
    · subst hw
      rw [State.setPc_self] at hmem
      exact hsub job hmem
    · rw [State.setPc_ne _ _ hw] at hmem
      exact hmem
  cases hst with
  | insertJob | requeueDead => exact .inl hjob
  | claimDueJobs v now fault rows res t' hidle hsel hclaim =>
    by_cases hw : w = v
    · subst hw
      rw [State.setPc_self] at hjob
      obtain ⟨r, -, -, -, hr', hj⟩ := (claimDueJobs_spec hsel hclaim).2.1 job hjob
      exact .inr ⟨_, hr', rowToJob_carries hj⟩
    · rw [State.setPc_ne _ _ hw] at hjob
      exact .inl hjob
  | deliver v job' rest resp hpc =>
    exact .inl (hset v s.jobs _ (fun _ h => by rw [hpc]; exact h) hjob)
  | recordOutcome v job' res rest next now hpc =>
    exact .inl (hset v _ _ (fun _ h => by rw [hpc]; exact List.mem_cons_of_mem _ h) hjob)
  | recordFailed v job' res rest hpc =>
    exact .inl (hset v s.jobs _ (fun _ h => by rw [hpc]; exact List.mem_cons_of_mem _ h) hjob)
  | nextPoll v hpc => exact .inl (hset v s.jobs _ (fun _ h => absurd h List.not_mem_nil) hjob)
  | stop v => exact .inl (hset v s.jobs _ (fun _ h => absurd h List.not_mem_nil) hjob)
  | crash | spawnWorkers => exact absurd hjob List.not_mem_nil

/-- A worker with the outcome of a call had it before, or has just made the call. -/
theorem Step.outcome {s t : State F ω} {l : Label F ω} (hst : Step s l t) {w : ω} {job : Job F}
    {res : Except DeliveryError Unit} {rest : List (Job F)} (hpc : t.pc w = .outcome job res rest) :
    s.pc w = .outcome job res rest ∨ l = .deliver w job res := by
  have hset : ∀ (v : ω) (jobs : Jobs F) (pc : Pc F), (∀ job res rest, pc ≠ .outcome job res rest) →
      (State.setPc { s with jobs := jobs } v pc).pc w = .outcome job res rest →
      s.pc w = .outcome job res rest := by
    intro v jobs pc hne hmem
    by_cases hw : w = v
    · subst hw
      rw [State.setPc_self] at hmem
      exact absurd hmem (hne job res rest)
    · rw [State.setPc_ne _ _ hw] at hmem
      exact hmem
  cases hst with
  | insertJob | requeueDead => exact .inl hpc
  | claimDueJobs v | recordOutcome v | recordFailed v | nextPoll v | stop v =>
    exact .inl (hset v _ _ (fun _ _ _ h => by cases h) hpc)
  | deliver v job' rest' resp hv =>
    by_cases hw : w = v
    · subst hw
      rw [State.setPc_self] at hpc
      cases hpc
      exact .inr rfl
    · rw [State.setPc_ne _ _ hw] at hpc
      exact .inl hpc
  | crash | spawnWorkers => cases hpc

/-- After a step the book agrees again if its entries do and it has the attempt
of the step. -/
theorem Mirrors.after {s t : State F ω} {a b : Book F} {l : Label F ω} (hs : Mirrors s a)
    (hst : Step s l t) (hentry : ∀ id, b.entry id = (t.jobs.get? id).map JobRow.entry)
    (hold : ∀ x ∈ a.attempts, x ∈ b.attempts)
    (hnew : ∀ w job res, l = .deliver w job res → job.attempt res ∈ b.attempts) :
    Mirrors t b where
  entry := hentry
  copies w job hjob := by
    rcases hst.held hjob with hjob | hclaimed
    · exact hs.copy (fun id r hr => hst.submitted hr) hjob
    · exact hclaimed
  outcomes w job res rest hpc := by
    rcases hst.outcome hpc with hpc | hl
    · exact hold _ (hs.outcomes w job res rest hpc)
    · exact hnew w job res hl

/-- A claim moves no entry: a job in flight is still waiting for its outcome. -/
theorem entry_claimDueJobs {t t' : Jobs F} {fault : Option Statement} {now : F.DateTime} {n : Int}
    {rows : List (JobRow F)} {res : Except DbError (List (Job F))}
    (hsel : SelectsDue t now n rows) (h : claimDueJobs fault now rows t = (res, t')) (id : Uuid) :
    (t'.get? id).map JobRow.entry = (t.get? id).map JobRow.entry := by
  obtain ⟨-, hin, hout⟩ := claimDueJobs_spec hsel h
  by_cases hk : id ∈ (claimed res).map Job.id
  · obtain ⟨job, hjob, rfl⟩ := List.mem_map.1 hk
    obtain ⟨r, hr, hpend, -, hr', -⟩ := hin job hjob
    rw [hr, hr', Option.map_some, Option.map_some]
    simp only [JobRow.entry, JobRow.stage, hpend, asClaimed]
    rfl
  · rw [hout id hk]

omit [DecidableEq ω] in
/-- The outcome of a call is an event that the call allows. -/
theorem Mirrors.record {s : State F ω} {a : Book F} (hs : Mirrors s a) {w : ω} {job : Job F}
    {res : Except DeliveryError Unit} {rest : List (Job F)} (hpc : s.pc w = .outcome job res rest)
    (next now : F.DateTime) :
    ∃ e b, (Label.recordOutcome w job res).event = some e ∧ Ledger.Step Carries a e b ∧
      b.attempts = a.attempts ∧
      ∀ id, b.entry id = ((recordOutcome s.jobs job res next now).get? id).map JobRow.entry := by
  have hjob : job ∈ (s.pc w).held := by
    rw [hpc]
    exact List.mem_cons_self
  obtain ⟨r, hr, -⟩ := hs.copies w job hjob
  have hentry := hs.entry_of_row hr
  have hmem := hs.outcomes w job res rest hpc
  have hrow := get?_recordOutcome s.jobs job res next now
  cases res with
  | ok u => exact ⟨_, _, rfl, .deliver a _ r.entry _ hentry hmem, rfl, hs.put hrow hr rfl⟩
  | error e =>
    by_cases hle : job.maxAttempts ≤ job.attempts
    · refine ⟨_, _, if_pos hle, .bury a _ r.entry _ _ hentry hmem, rfl, hs.put hrow hr ?_⟩
      rw [asOutcome, if_pos hle]
      rfl
    · refine ⟨_, _, if_neg hle, .reopen a _ r.entry hentry, rfl, hs.put hrow hr ?_⟩
      rw [asOutcome, if_neg hle]
      rfl

variable (F ω) in
/-- Every run of the service is one of a ledger. -/
theorem ledger : Simulation (system F ω) (Ledger.system Carries) Label.event Mirrors where
  init s hs := by
    refine ⟨⟨fun _ => none, []⟩, ⟨rfl, fun _ => rfl⟩, fun id => ?_, fun w job hjob => ?_, ?_⟩
    · rw [hs.1]
      rfl
    · rw [hs.2 w] at hjob
      exact absurd hjob List.not_mem_nil
    · intro w job res rest hpc
      rw [hs.2 w] at hpc
      cases hpc
  stutter h s l t a _ hs hst hl := by
    refine hs.after hst (fun id => ?_) (fun _ hx => hx) (fun w job res e => ?_)
    · rw [hs.entry id]
      cases hst with
      | insertJob | deliver => cases hl
      | requeueDead id' now =>
        have hfail : (requeueDead s.jobs id' now).1 ≠ true := fun e => by
          simp [Label.event, e] at hl
        refine congrArg (Option.map JobRow.entry) ?_
        refine (get?_requeueDead s.jobs id' now id).trans ?_ |>.symm
        by_cases hid : id = id'
        · subst hid
          rw [if_pos rfl]
          cases hr : s.jobs.get? id with
          | none => rfl
          | some r =>
            have hdead : r.status ≠ .dead :=
              fun e => hfail ((requeueDead_fst s.jobs id now).2 ⟨r, hr, e⟩)
            rw [Option.map_some, if_neg hdead]
        · exact if_neg hid
      | claimDueJobs w now fault rows res t' hidle hsel hclaim =>
        exact (entry_claimDueJobs hsel hclaim id).symm
      | recordOutcome w job res rest next now hpc =>
        obtain ⟨e, b, he, -⟩ := hs.record hpc next now
        rw [he] at hl
        cases hl
      | recordFailed | nextPoll | stop | crash | spawnWorkers => rfl
    · subst e
      cases hl
  step h s l t a e _ hs hst hl := by
    cases hst' : hst with
    | insertJob id destination payload maxAttempts now t' hins =>
      obtain rfl := Option.some.inj hl
      have hnone : s.jobs.get? id = none := Table.get?_of_insert? hins
      refine ⟨_, .accept a id _ ((hs.entry id).trans (by rw [hnone]; rfl)), ?_⟩
      refine hs.after hst (fun k => ?_) (fun _ hx => hx) (fun _ _ _ e => by cases e)
      have hrow : t'.get? k = if id = k then some _ else s.jobs.get? k :=
        Table.get?_insert? hins k
      show _ = (t'.get? k).map JobRow.entry
      rw [Ledger.Book.put_entry, hrow]
      by_cases hk : k = id
      · rw [if_pos hk, if_pos hk.symm]
        rfl
      · rw [if_neg hk, if_neg fun e => hk e.symm, hs.entry k]
    | requeueDead id now =>
      by_cases hok : (requeueDead s.jobs id now).1 = true
      · obtain ⟨r, hr, hdead⟩ := (requeueDead_fst s.jobs id now).1 hok
        rw [Label.event, if_pos hok] at hl
        obtain rfl := Option.some.inj hl
        refine ⟨_, .reopen a id r.entry (hs.entry_of_row hr), ?_⟩
        refine hs.after hst (hs.put (get?_requeueDead s.jobs id now) hr ?_) (fun _ hx => hx)
          (fun _ _ _ e => by cases e)
        rw [if_pos hdead]
        rfl
      · rw [Label.event, if_neg hok] at hl
        cases hl
    | deliver w job rest resp hpc =>
      obtain rfl := Option.some.inj hl
      obtain ⟨r, hr, hcar⟩ := hs.copies w job (by rw [hpc]; exact List.mem_cons_self)
      refine ⟨_, .attempt a _ r.entry (hs.entry_of_row hr) hcar, ?_⟩
      refine hs.after hst hs.entry (fun _ hx => List.mem_cons_of_mem _ hx) (fun _ _ _ e => ?_)
      cases e
      exact List.mem_cons_self
    | recordOutcome w job res rest next now hpc =>
      obtain ⟨e', b, he, hstep, hatt, hentry⟩ := hs.record hpc next now
      rw [he] at hl
      obtain rfl := Option.some.inj hl
      exact ⟨b, hstep, hs.after hst hentry (fun _ hx => hatt ▸ hx) (fun _ _ _ e => by cases e)⟩
    | claimDueJobs | recordFailed | nextPoll | stop | crash | spawnWorkers => cases hl

/-! ## What is kept, and what is sent -/

def Label.inserts (id : Uuid) : Label F ω → Bool
  | .insertJob id' .. => id' = id
  | _ => false

/-- What the history of a run and the state it has led to say about each other. -/
structure Honest (h : List (Label F ω)) (s : State F ω) : Prop where
  stored : ∀ id destination payload maxAttempts now,
    .insertJob id destination payload maxAttempts now ∈ h →
    ∃ r, s.jobs.get? id = some r ∧ r.destination = destination ∧
      r.payload = F.toString payload ∧ r.maxAttempts = maxAttempts ∧ r.createdAt = F.fmtTs now
  once : ∀ id, h.countP (Label.inserts id) = if (s.jobs.get? id).isSome then 1 else 0
  sent : ∀ h₁ h₀ w job res, h = h₁ ++ .deliver w job res :: h₀ →
    ∃ destination payload maxAttempts now sent,
      .insertJob job.id destination payload maxAttempts now ∈ h₀ ∧
      F.fromStr (F.toString payload) = some sent ∧
      ∀ hmac secret, job.request hmac secret = deliverRequest hmac secret job.id destination sent
  delivered : ∀ id r, s.jobs.get? id = some r → r.status = .delivered →
    ∃ w job, .deliver w job (.ok ()) ∈ h ∧ job.id = id
  dead : ∀ id r, s.jobs.get? id = some r → r.status = .dead →
    ∃ w job e, .deliver w job (.error e) ∈ h ∧ job.id = id ∧ r.lastError = some e.text

/-- What the label of an event has to be. -/
def Label.Source (l : Label F ω) : BookEvent F → Prop
  | .accept id b => ∃ destination payload maxAttempts now,
      l = .insertJob id destination payload maxAttempts now ∧
        b = (newRow id destination payload maxAttempts now).submitted
  | .attempt a => ∃ w job res, l = .deliver w job res ∧ a = job.attempt res
  | .refuse .. => False
  | .deliver _ | .bury .. | .reopen _ => True

omit [DecidableEq ω] in
theorem Label.source {l : Label F ω} {e : BookEvent F} (he : l.event = some e) : l.Source e := by
  cases l with
  | insertJob id destination payload maxAttempts now =>
    cases he
    exact ⟨destination, payload, maxAttempts, now, rfl, rfl⟩
  | deliver w job res =>
    cases he
    exact ⟨w, job, res, rfl, rfl⟩
  | requeueDead id now requeued => cases requeued <;> cases he; trivial
  | recordOutcome w job res =>
    cases res with
    | ok u => cases he; trivial
    | error err =>
      simp only [Label.event] at he
      split at he <;> cases he <;> trivial
  | claimDueJobs | recordFailed | nextPoll | stop | crash | spawnWorkers => cases he

omit [DecidableEq ω] in
/-- The insert behind an acceptance. -/
theorem inserted_of_accept {h : List (Label F ω)} {id : Uuid} {b : Submitted F}
    (hb : .accept id b ∈ h.filterMap Label.event) : ∃ destination payload maxAttempts now,
      .insertJob id destination payload maxAttempts now ∈ h ∧
      b = (newRow id destination payload maxAttempts now).submitted := by
  obtain ⟨l, hl, he⟩ := List.mem_filterMap.1 hb
  obtain ⟨destination, payload, maxAttempts, now, rfl, hrec⟩ := Label.source he
  exact ⟨destination, payload, maxAttempts, now, hl, hrec⟩

omit [DecidableEq ω] in
/-- The call behind an attempt. -/
theorem delivered_of_attempt {h : List (Label F ω)} {id : Uuid} {m : String × F.Value}
    {result : Except (Option String) Unit}
    (ha : .attempt ⟨id, m, result⟩ ∈ h.filterMap Label.event) :
    ∃ w job res, .deliver w job res ∈ h ∧ job.id = id ∧ shown res = result := by
  obtain ⟨l, hl, he⟩ := List.mem_filterMap.1 ha
  obtain ⟨w, job, res, rfl, heq⟩ := Label.source he
  exact ⟨w, job, res, hl, (congrArg Ledger.Attempt.key heq).symm,
    (congrArg Ledger.Attempt.result heq).symm⟩

omit [DecidableEq ω] in
theorem length_accepted (h : List (Label F ω)) (id : Uuid) :
    ((h.filterMap Label.event).filterMap (Ledger.Event.accepted id)).length
      = h.countP (Label.inserts id) := by
  rw [List.filterMap_filterMap, List.length_filterMap_eq_countP]
  refine List.countP_congr fun l _ => ?_
  cases he : l.event with
  | none =>
    cases l with
    | insertJob => cases he
    | _ => simp [Label.inserts]
  | some e =>
    have hsource := Label.source he
    cases e with
    | accept id' b =>
      obtain ⟨_, _, _, _, rfl, -⟩ := hsource
      by_cases hid : id' = id <;> simp [Ledger.Event.accepted, Label.inserts, hid]
    | refuse => exact hsource.elim
    | attempt | deliver | bury | reopen =>
      cases l with
      | insertJob => cases he
      | _ => simp [Ledger.Event.accepted, Label.inserts]

/-- The row of an inserted job stays as it was submitted. -/
theorem inserted_stays {h : List (Label F ω)} {s : State F ω} (hs : (system F ω).Reaches h s)
    {id : Uuid} {destination : String} {payload : F.Value} {maxAttempts : Int} {now : F.DateTime}
    (hmem : .insertJob id destination payload maxAttempts now ∈ h) :
    ∃ r, s.jobs.get? id = some r ∧ r.destination = destination ∧
      r.payload = F.toString payload ∧ r.maxAttempts = maxAttempts ∧ r.createdAt = F.fmtTs now := by
  obtain ⟨a, ha, hm⟩ := (ledger F ω).reaches hs
  obtain ⟨e, he, hrec⟩ := Ledger.entry_of_accepted ha
    (List.mem_filterMap.2 ⟨_, hmem, rfl⟩ : .accept id _ ∈ h.filterMap Label.event)
  obtain ⟨r, hr, rfl⟩ := Option.map_eq_some_iff.1 ((hm.entry id).symm.trans he)
  have hsub : r.submitted = (newRow id destination payload maxAttempts now).submitted := hrec
  cases r
  cases hsub
  exact ⟨_, hr, rfl, rfl, rfl, rfl⟩

/-- A dead job shows the error of a call of it that failed. -/
theorem dead_failed {h : List (Label F ω)} {s : State F ω} (hs : (system F ω).Reaches h s)
    {id : Uuid} {r : JobRow F} (hr : s.jobs.get? id = some r) (hdead : r.status = .dead) :
    ∃ w job e, .deliver w job (.error e) ∈ h ∧ job.id = id ∧ r.lastError = some e.text := by
  obtain ⟨a, ha, hm⟩ := (ledger F ω).reaches hs
  have hj := Ledger.justified ha id r.entry (hm.entry_of_row hr)
  simp only [JobRow.entry, JobRow.stage, hdead, Ledger.Justified] at hj
  rcases hj with ⟨m, hm⟩ | hrefused
  · obtain ⟨w, job, res, hmem, hid, hres⟩ := delivered_of_attempt hm
    cases res with
    | ok u => cases hres
    | error e => exact ⟨w, job, e, hmem, hid, (Except.error.inj hres).symm⟩
  · obtain ⟨l, -, he⟩ := List.mem_filterMap.1 hrefused
    exact (Label.source he).elim

/-- In every run, with any crashes and failures, the jobs are what was accepted,
every call of `deliver` sends what was accepted before it, a job is delivered
only after a call that succeeded, and dead only after one that failed with the
error it shows. -/
theorem jobs_honest {h : List (Label F ω)} {s : State F ω}
    (hs : (system F ω).Reaches h s) : Honest h s := by
  obtain ⟨a, ha, hm⟩ := (ledger F ω).reaches hs
  constructor
  · exact fun id destination payload maxAttempts now hmem => inserted_stays hs hmem
  · intro id
    rw [← length_accepted, Ledger.accepted_eq ha, hm.entry id]
    cases s.jobs.get? id <;> rfl
  · intro h₁ h₀ w job res hh
    subst hh
    have hcons : (Label.deliver w job res :: h₀).filterMap Label.event
        = .attempt (job.attempt res) :: h₀.filterMap Label.event :=
      List.filterMap_cons_some rfl
    rw [List.filterMap_append, hcons] at ha
    obtain ⟨b, hb, hdest, hpay⟩ := Ledger.attempt_carries ha
    obtain ⟨destination, payload, maxAttempts, now, hmem, rfl⟩ := inserted_of_accept hb
    have hdest : job.destination = destination := hdest
    refine ⟨destination, payload, maxAttempts, now, job.payload, hmem, hpay, fun hmac secret => ?_⟩
    rw [← hdest]
    rfl
  · intro id r hr hdel
    have hj := Ledger.justified ha id r.entry (hm.entry_of_row hr)
    simp only [JobRow.entry, JobRow.stage, hdel, Ledger.Justified] at hj
    obtain ⟨m, hm⟩ := hj
    obtain ⟨w, job, res, hmem, hid, hres⟩ := delivered_of_attempt hm
    cases res with
    | ok u => exact ⟨w, job, hmem, hid⟩
    | error e => cases hres
  · exact fun id r hr hdead => dead_failed hs hr hdead

/-! ## A job that is delivered -/

def deliveredRun : List (Label Formats.millis Unit) :=
  [.recordOutcome () claimedJob (.ok ()), .deliver () claimedJob (.ok ()),
    .claimDueJobs () epoch [claimedJob], .spawnWorkers, .insertJob 1 "http://a.test" "{}" 2 epoch]

def deliveredState : State Formats.millis Unit where
  jobs := markDelivered claimedState.jobs 1 epoch
  pc _ := .batch []

theorem deliveredState_reached : (system Formats.millis Unit).Reaches deliveredRun
    deliveredState := by
  have h₁ := claimedState_reached.step
    (Step.deliver claimedState () claimedJob [] (.status 200) rfl)
  exact h₁.step (Step.recordOutcome _ () claimedJob (.ok ()) [] epoch epoch rfl)

theorem jobs_honest_delivered : Honest deliveredRun deliveredState :=
  jobs_honest deliveredState_reached

end K
end WebhookDelivery
