/-
The `k` service as a transition system.

The workers of `worker_loop`, the requests that insert and requeue jobs, and
crashes interleave freely over one table.  A worker holds the jobs of its batch
in memory, so a worker that stops and a process that crashes drop them.  The
call of `deliver` and its return are one step: what happens to the table in
between is what happens before the outcome is recorded.
-/
import WebhookDelivery.Run.System
import WebhookDelivery.K.Db

namespace WebhookDelivery
namespace K

open Sql Run

variable (F : Formats)

/-- Where a worker is in `worker_loop`. -/
inductive Pc
  | stopped
  | idle
  | batch (jobs : List (Job F))
  | outcome (job : Job F) (res : Except DeliveryError Unit) (rest : List (Job F))

variable {F}

/-- The jobs claimed and not yet recorded. -/
def Pc.held : Pc F → List (Job F)
  | .stopped | .idle => []
  | .batch jobs => jobs
  | .outcome job _ rest => job :: rest

variable (F) in
structure State (ω : Type) where
  jobs : Jobs F
  pc : ω → Pc F

variable (F) in
inductive Label (ω : Type)
  | insertJob (id : Uuid) (destination : String) (payload : F.Value) (maxAttempts : Int)
      (now : F.DateTime)
  | requeueDead (id : Uuid) (now : F.DateTime) (requeued : Bool)
  | claimDueJobs (w : ω) (now : F.DateTime) (jobs : List (Job F))
  | deliver (w : ω) (job : Job F) (res : Except DeliveryError Unit)
  | recordOutcome (w : ω) (job : Job F) (res : Except DeliveryError Unit)
  | recordFailed (w : ω) (job : Job F)
  | nextPoll (w : ω)
  | stop (w : ω)
  | crash
  | spawnWorkers

variable {ω : Type} [DecidableEq ω]

def State.setPc (s : State F ω) (w : ω) (pc : Pc F) : State F ω :=
  { s with pc := fun v => if v = w then pc else s.pc v }

@[simp] theorem State.setPc_self (s : State F ω) (w : ω) (pc : Pc F) :
    (s.setPc w pc).pc w = pc := if_pos rfl

theorem State.setPc_ne (s : State F ω) {v w : ω} (pc : Pc F) (h : v ≠ w) :
    (s.setPc w pc).pc v = s.pc v := if_neg h

/-- `claim_due_jobs` failing is an empty batch to the loop. -/
def claimed : Except DbError (List (Job F)) → List (Job F)
  | .ok jobs => jobs
  | .error _ => []

/-- The write at the end of `handle_one`.  The time of the next attempt is the
clock plus a jittered `backoff`. -/
def recordOutcome (t : Jobs F) (job : Job F) (res : Except DeliveryError Unit)
    (nextAttemptAt now : F.DateTime) : Jobs F :=
  match res with
  | .ok _ => markDelivered t job.id now
  | .error e =>
    if job.maxAttempts ≤ job.attempts then markDead t job.id e.text now
    else rescheduleJob t job.id nextAttemptAt e.text now

inductive Step : State F ω → Label F ω → State F ω → Prop
  | insertJob (s : State F ω) (id : Uuid) (destination : String) (payload : F.Value)
      (maxAttempts : Int) (now : F.DateTime) (t : Jobs F) :
      insertJob s.jobs id destination payload maxAttempts now = some t →
      Step s (.insertJob id destination payload maxAttempts now) { s with jobs := t }
  | requeueDead (s : State F ω) (id : Uuid) (now : F.DateTime) :
      Step s (.requeueDead id now (requeueDead s.jobs id now).1)
        { s with jobs := (requeueDead s.jobs id now).2 }
  | claimDueJobs (s : State F ω) (w : ω) (now : F.DateTime) (fault : Option Statement)
      (rows : List (JobRow F)) (res : Except DbError (List (Job F))) (t : Jobs F) :
      s.pc w = .idle → SelectsDue s.jobs now 8 rows →
      claimDueJobs fault now rows s.jobs = (res, t) →
      Step s (.claimDueJobs w now (claimed res)) (State.setPc { s with jobs := t } w
        (.batch (claimed res)))
  | deliver (s : State F ω) (w : ω) (job : Job F) (rest : List (Job F)) (resp : Response) :
      s.pc w = .batch (job :: rest) →
      Step s (.deliver w job (deliver resp)) (s.setPc w (.outcome job (deliver resp) rest))
  | recordOutcome (s : State F ω) (w : ω) (job : Job F) (res : Except DeliveryError Unit)
      (rest : List (Job F)) (nextAttemptAt now : F.DateTime) :
      s.pc w = .outcome job res rest →
      Step s (.recordOutcome w job res)
        (State.setPc { s with jobs := recordOutcome s.jobs job res nextAttemptAt now } w
          (.batch rest))
  | recordFailed (s : State F ω) (w : ω) (job : Job F) (res : Except DeliveryError Unit)
      (rest : List (Job F)) :
      s.pc w = .outcome job res rest →
      Step s (.recordFailed w job) (s.setPc w (.batch rest))
  | nextPoll (s : State F ω) (w : ω) :
      s.pc w = .batch [] → Step s (.nextPoll w) (s.setPc w .idle)
  | stop (s : State F ω) (w : ω) : Step s (.stop w) (s.setPc w .stopped)
  | crash (s : State F ω) : Step s .crash { s with pc := fun _ => .stopped }
  | spawnWorkers (s : State F ω) : (∀ w, s.pc w = .stopped) →
      Step s .spawnWorkers { s with pc := fun _ => .idle }

variable (F ω) in
/-- The service on a fresh database, before its workers are spawned. -/
def system : System (State F ω) (Label F ω) where
  init s := s.jobs = Table.empty ∧ ∀ w, s.pc w = .stopped
  step := Step

/-! ## What a history says about a job -/

/-- The label inserts the job or requeues it. -/
def Label.starts (id : Uuid) : Label F ω → Bool
  | .insertJob id' .. => id' = id
  | .requeueDead id' _ requeued => decide (id' = id) && requeued
  | _ => false

def Label.delivers (id : Uuid) : Label F ω → Bool
  | .deliver _ job _ => job.id = id
  | _ => false

/-- The calls of `deliver` for the job since its insertion or last successful
requeue. -/
def deliverCalls (id : Uuid) (h : List (Label F ω)) : Nat :=
  countSince (Label.starts id) (Label.delivers id) h

end K
end WebhookDelivery
