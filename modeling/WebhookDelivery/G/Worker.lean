/-
The `g` service as a transition system.

One worker loop ticks, and each job it claims becomes a task of its own.  A task
waits for a permit without bound, makes its call and writes the outcome.  The
two statements of a tick and the two of a requeue are separate steps, and the
tasks, the requests and the ticks interleave freely.  The call of `deliver_once`
and its return are one step: nothing reads the result before the task does.

`claimedAt` is the clock reading of the tick that claimed a job.  The source
does not keep it; the claims about time are stated with it.
-/
import WebhookDelivery.Run.System
import WebhookDelivery.G.Routes

namespace WebhookDelivery
namespace G

open Sql Run

variable {J : Json}

/-- Where a task is in `process_job`: before its permit, or before its final
statement, with the clock reading and the result of the call. -/
inductive TaskPc
  | waiting
  | called (now : Int) (res : Except String Unit)

structure Task where
  job : ClaimedJob
  claimedAt : Int
  pc : TaskPc

def Task.id (k : Task) : String := k.job.id

/-- The task holds one of the permits. -/
def Task.hasPermit (k : Task) : Bool :=
  match k.pc with
  | .waiting => false
  | .called .. => true

def Task.spawn (now : Int) (job : ClaimedJob) : Task :=
  { job := job, claimedAt := now, pc := .waiting }

/-- `tick` is the clock reading of a tick that has reclaimed and not yet claimed,
`requeues` the ids whose requeue has passed its check and not yet updated. -/
structure State where
  cfg : Config
  table : Deliveries
  tick : Option Int
  tasks : List Task
  requeues : List String

variable (J) in
inductive Label
  | createWebhook (cfg : Config) (payload : Except Rejection (WebhookRequest J)) (now : Int)
      (res : Except ApiError EnqueueResponse)
  | reclaim (now : Int)
  | claim (now : Int) (jobs : List ClaimedJob)
  | tickFailed
  | deliverOnce (job : ClaimedJob) (now : Int) (res : Except String Unit)
  | finish (job : ClaimedJob) (delay : Int) (res : Except String Unit)
  | finishFailed (job : ClaimedJob)
  | requeueCheck (id : String) (answer : Except ApiError Unit)
  | requeueUpdate (id : String) (now : Int)
  | requeueFailed (id : String)
  | restart (cfg : Config) (now : Int)

/-- The pending requeues after the check of another. -/
def afterCheck (id : String) (requeues : List String) : Except ApiError Unit → List String
  | .ok _ => id :: requeues
  | .error _ => requeues

inductive Step : State → Label J → State → Prop
  | createWebhook (s : State) (payload : Except Rejection (WebhookRequest J))
      (check : Except String Unit) (id : String) (now : Int) (fault : Option String)
      (res : Except ApiError EnqueueResponse) (t : Deliveries) :
      createWebhook s.cfg payload check id now fault s.table = (res, t) →
      Step s (.createWebhook s.cfg payload now res) { s with table := t }
  | reclaim (s : State) (now : Int) :
      s.tick = none →
      Step s (.reclaim now) { s with table := reclaim s.cfg now s.table, tick := some now }
  | claim (s : State) (now : Int) (rows : List DeliveryRow) (jobs : List ClaimedJob) :
      s.tick = some now → SelectsDue s.table now s.cfg.batchSize rows →
      jobs.Perm (rows.map DeliveryRow.job) →
      Step s (.claim now jobs)
        { s with
          table := claim now (rows.map DeliveryRow.id) s.table, tick := none,
          tasks := s.tasks ++ jobs.map (Task.spawn now) }
  | tickFailed (s : State) : Step s .tickFailed { s with tick := none }
  | deliverOnce (s : State) (pre post : List Task) (job : ClaimedJob) (claimedAt now : Int)
      (check : Except String Unit) (resp : Response) :
      s.tasks = pre ++ ⟨job, claimedAt, .waiting⟩ :: post →
      s.tasks.countP Task.hasPermit < s.cfg.maxConcurrentDeliveries →
      Step s (.deliverOnce job now (deliverOnce check resp))
        { s with tasks := pre ++ ⟨job, claimedAt, .called now (deliverOnce check resp)⟩ :: post }
  | finish (s : State) (pre post : List Task) (job : ClaimedJob) (claimedAt now delay : Int)
      (res : Except String Unit) :
      s.tasks = pre ++ ⟨job, claimedAt, .called now res⟩ :: post →
      Step s (.finish job delay res)
        { s with table := finish job now delay res s.table, tasks := pre ++ post }
  | finishFailed (s : State) (pre post : List Task) (job : ClaimedJob) (claimedAt now : Int)
      (res : Except String Unit) :
      s.tasks = pre ++ ⟨job, claimedAt, .called now res⟩ :: post →
      Step s (.finishFailed job) { s with tasks := pre ++ post }
  | requeueCheck (s : State) (id : String) :
      Step s (.requeueCheck id (requeueCheck id s.table))
        { s with requeues := afterCheck id s.requeues (requeueCheck id s.table) }
  | requeueUpdate (s : State) (id : String) (now : Int) :
      id ∈ s.requeues →
      Step s (.requeueUpdate id now)
        { s with table := requeue id now s.table, requeues := s.requeues.erase id }
  | requeueFailed (s : State) (id : String) :
      id ∈ s.requeues → Step s (.requeueFailed id) { s with requeues := s.requeues.erase id }
  | restart (s : State) (cfg : Config) (now : Int) :
      Step s (.restart cfg now)
        { cfg := cfg, table := resetProcessing now s.table, tick := none, tasks := [],
          requeues := [] }

variable (J) in
/-- The service on a fresh database. -/
def system : System State (Label J) where
  init s := s.table = Table.empty ∧ s.tick = none ∧ s.tasks = [] ∧ s.requeues = []
  step := Step

/-! ## What a history says about a delivery -/

def Label.accepts (id : String) : Label J → Bool
  | .createWebhook _ _ _ (.ok resp) => resp.id = id
  | _ => false

def Label.requeues (id : String) : Label J → Bool
  | .requeueUpdate id' _ => id' = id
  | _ => false

/-- The label begins a life of the delivery. -/
def Label.starts (id : String) (l : Label J) : Bool := l.accepts id || l.requeues id

def Label.delivers (id : String) : Label J → Bool
  | .deliverOnce job _ _ => job.id = id
  | _ => false

def Label.fails (id : String) : Label J → Bool
  | .deliverOnce job _ res => decide (job.id = id) && !succeeded res
  | _ => false

/-- The calls of `deliver_once` for a delivery since its insertion or last
requeue, and the failed ones among them. -/
def deliverCalls (id : String) (h : List (Label J)) : Nat :=
  countSince (Label.starts id) (Label.delivers id) h

def failedCalls (id : String) (h : List (Label J)) : Nat :=
  countSince (Label.starts id) (Label.fails id) h

end G
end WebhookDelivery
