/-
The `d` service as a transition system.

One worker loop, the submissions and any number of `redeliver` calls share one
connection behind a mutex.  `move_to_dlq` and `redeliver` make two statements
under one lock, each of which commits by itself: between them `lock` names who
holds it, and every other statement waits.  `redeliver` has read its entry
before, under an acquisition of its own.

A statement that fails changes nothing, and ends what was under way as the
source does.  A crash may fall between any two statements.  `issued` holds the
ids `Uuid::new_v4` has given out; it never gives one out twice.
-/
import WebhookDelivery.Run.System
import WebhookDelivery.D.Db

namespace WebhookDelivery
namespace D

open Sql Run

/-- Where the worker is in `run_worker`: before the statement named, with the
rest of its batch.  `deleting` is inside `move_to_dlq`, which has made its entry. -/
inductive Pc (F : Formats)
  | fetching
  | batch (jobs : List (WebhookJob F))
  | marking (job : WebhookJob F) (rest : List (WebhookJob F))
  | retrying (job : WebhookJob F) (attempts : Nat) (rest : List (WebhookJob F))
  | moving (job : WebhookJob F) (error : String) (rest : List (WebhookJob F))
  | deleting (job : WebhookJob F) (entryId : Uuid) (rest : List (WebhookJob F))

/-- Where a call is in `redeliver`. -/
inductive Call (F : Formats)
  | idle
  | found (entryId : Uuid) (entry : DqlEntry F)
  | inserted (entryId : Uuid) (job : WebhookJob F)

inductive Holder (κ : Type)
  | worker
  | call (k : κ)

structure State (F : Formats) (κ : Type) where
  db : Db
  cfg : Config
  issued : List Uuid
  lock : Option (Holder κ)
  pc : Pc F
  call : κ → Call F

inductive Label (F : Formats) (κ : Type)
  | enqueue (job : WebhookJob F)
  | fetchDue (now : Int) (jobs : List (WebhookJob F))
  | block (job : WebhookJob F) (error : String)
  | send (job : WebhookJob F) (resp : Response)
  | markDelivered (job : WebhookJob F)
  | recordAttempt (job : WebhookJob F) (attempts : Nat) (next : Int)
  | insertDlq (job : WebhookJob F) (entryId : Uuid)
  | deleteJob (job : WebhookJob F)
  | workerFailed
  | endPass
  | getDlq (k : κ) (entryId : Uuid) (found : Bool)
  | insertJob (k : κ) (entryId : Uuid) (job : WebhookJob F)
  | deleteDlq (k : κ) (entryId : Uuid) (job : WebhookJob F)
  | callFailed (k : κ)
  | restart (cfg : Config)

variable {F : Formats} {κ : Type}

/-- `handle_failure`, up to the statement it decides on. -/
def handleFailure (job : WebhookJob F) (error : String) (rest : List (WebhookJob F)) : Pc F :=
  let attempts := (job.attempts + 1) % 2 ^ 32
  if job.maxAttempts ≤ attempts then .moving { job with attempts := attempts } error rest
  else .retrying job attempts rest

/-- `process_job` after its send. -/
def afterSend (job : WebhookJob F) (resp : Response) (rest : List (WebhookJob F)) : Pc F :=
  match resp.error with
  | none => .marking job rest
  | some error => handleFailure job error rest

/-- The jobs the worker still has to do with. -/
def Pc.jobs : Pc F → List (WebhookJob F)
  | .fetching => []
  | .batch jobs => jobs
  | .marking job rest | .retrying job _ rest | .moving job _ rest | .deleting job _ rest =>
    job :: rest

/-- Where the worker goes on after its statement has failed. -/
def Pc.afterFailure : Pc F → Pc F
  | .fetching => .batch []
  | .batch jobs => .batch jobs
  | .marking _ rest | .retrying _ _ rest | .moving _ _ rest | .deleting _ _ rest => .batch rest

/-- The lock after the worker's statement has failed: `move_to_dlq` drops its
guard when it returns. -/
def Pc.released (pc : Pc F) (lock : Option (Holder κ)) : Option (Holder κ) :=
  match pc with
  | .deleting .. => none
  | _ => lock

/-- The lock after a statement of the call has failed. -/
def Call.released (call : Call F) (lock : Option (Holder κ)) : Option (Holder κ) :=
  match call with
  | .inserted .. => none
  | _ => lock

variable [DecidableEq κ]

def State.setCall (s : State F κ) (k : κ) (call : Call F) : State F κ :=
  { s with call := fun k' => if k' = k then call else s.call k' }

@[simp] theorem State.setCall_self (s : State F κ) (k : κ) (call : Call F) :
    (s.setCall k call).call k = call := if_pos rfl

theorem State.setCall_ne (s : State F κ) {k k' : κ} (call : Call F) (h : k' ≠ k) :
    (s.setCall k call).call k' = s.call k' := if_neg h

inductive Step : State F κ → Label F κ → State F κ → Prop
  | enqueue (s : State F κ) (req : WebhookRequest F) (id : Uuid) (now : Int) (db : Db) :
      s.lock = none → id ∉ s.issued →
      enqueue s.db (.new req id s.cfg.maxAttempts now) = some db →
      Step s (.enqueue (.new req id s.cfg.maxAttempts now))
        { s with db := db, issued := id :: s.issued }
  | fetchDue (s : State F κ) (now : Int) (jobs : List (WebhookJob F)) :
      s.pc = .fetching → s.lock = none → FetchesDue F s.db now 10 (some jobs) →
      Step s (.fetchDue now jobs) { s with pc := .batch jobs }
  | block (s : State F κ) (job : WebhookJob F) (rest : List (WebhookJob F)) (err : String) :
      s.pc = .batch (job :: rest) →
      Step s (.block job err) { s with pc := .moving job s!"blocked: {err}" rest }
  | send (s : State F κ) (job : WebhookJob F) (rest : List (WebhookJob F)) (resp : Response) :
      s.pc = .batch (job :: rest) →
      Step s (.send job resp) { s with pc := afterSend job resp rest }
  | markDelivered (s : State F κ) (job : WebhookJob F) (rest : List (WebhookJob F)) :
      s.pc = .marking job rest → s.lock = none →
      Step s (.markDelivered job) { s with db := markDelivered s.db job.id, pc := .batch rest }
  | recordAttempt (s : State F κ) (job : WebhookJob F) (attempts : Nat)
      (rest : List (WebhookJob F)) (next : Int) :
      s.pc = .retrying job attempts rest → s.lock = none →
      Step s (.recordAttempt job attempts next)
        { s with db := recordAttempt F s.db job.id attempts (some next), pc := .batch rest }
  | insertDlq (s : State F κ) (job : WebhookJob F) (error : String) (rest : List (WebhookJob F))
      (entryId : Uuid) (now : Int) (db : Db) :
      s.pc = .moving job error rest → s.lock = none → entryId ∉ s.issued →
      insertDlq s.db entryId job error now = some db →
      Step s (.insertDlq job entryId)
        { s with
          db := db, issued := entryId :: s.issued, lock := some .worker,
          pc := .deleting job entryId rest }
  | deleteJob (s : State F κ) (job : WebhookJob F) (entryId : Uuid)
      (rest : List (WebhookJob F)) :
      s.pc = .deleting job entryId rest →
      Step s (.deleteJob job)
        { s with db := deleteJob s.db job.id, lock := none, pc := .batch rest }
  | workerFailed (s : State F κ) :
      Step s .workerFailed { s with lock := s.pc.released s.lock, pc := s.pc.afterFailure }
  | endPass (s : State F κ) :
      s.pc = .batch [] → Step s .endPass { s with pc := .fetching }
  | getDlq (s : State F κ) (k : κ) (entryId : Uuid) (entry : DqlEntry F) :
      s.call k = .idle → s.lock = none → getDlq F s.db entryId = some (some entry) →
      Step s (.getDlq k entryId true) (s.setCall k (.found entryId entry))
  | notFound (s : State F κ) (k : κ) (entryId : Uuid) :
      s.call k = .idle → s.lock = none → getDlq F s.db entryId = some none →
      Step s (.getDlq k entryId false) s
  | insertJob (s : State F κ) (k : κ) (entryId : Uuid) (entry : DqlEntry F) (id : Uuid)
      (now : Int) (db : Db) :
      s.call k = .found entryId entry → s.lock = none → id ∉ s.issued →
      D.enqueue s.db (redelivered entry id s.cfg.maxAttempts now) = some db →
      Step s (.insertJob k entryId (redelivered entry id s.cfg.maxAttempts now))
        (State.setCall { s with db := db, issued := id :: s.issued, lock := some (.call k) } k
          (.inserted entryId (redelivered entry id s.cfg.maxAttempts now)))
  | deleteDlq (s : State F κ) (k : κ) (entryId : Uuid) (job : WebhookJob F) :
      s.call k = .inserted entryId job →
      Step s (.deleteDlq k entryId job)
        (State.setCall { s with db := deleteDlq s.db entryId, lock := none } k .idle)
  | callFailed (s : State F κ) (k : κ) :
      Step s (.callFailed k)
        (State.setCall { s with lock := (s.call k).released s.lock } k .idle)
  | restart (s : State F κ) (cfg : Config) :
      Step s (.restart cfg)
        { s with cfg := cfg, lock := none, pc := .fetching, call := fun _ => .idle }

/-- The rows of `jobs` after a step, from those before it. -/
def Label.rowAfter (l : Label F κ) (row : Uuid → Option JobRow) (id : Uuid) : Option JobRow :=
  match l with
  | .enqueue job | .insertJob _ _ job => if job.id = id then some job.row else row id
  | .markDelivered job => if id = job.id then (row job.id).map asDelivered else row id
  | .recordAttempt job attempts next =>
    if id = job.id then (row job.id).map (asAttempted F attempts (some next)) else row id
  | .deleteJob job => if id = job.id then none else row id
  | _ => row id

/-- What a step does to the rows of `jobs`. -/
theorem Step.job_eq {s t : State F κ} {l : Label F κ} (hst : Step s l t) (id : Uuid) :
    t.db.job id = l.rowAfter s.db.job id := by
  cases hst with
  | enqueue req id' now db hlock hnew hins => exact (enqueue_some hins id).2.1
  | insertJob k e entry id' now db hcall hlock hnew hins => exact (enqueue_some hins id).2.1
  | markDelivered job rest hpc hlock =>
    exact job_update s.db job.id asDelivered (fun _ => rfl) id
  | recordAttempt job attempts rest next hpc hlock =>
    exact job_update s.db job.id (asAttempted F attempts (some next)) (fun _ => rfl) id
  | insertDlq job error rest e now db hpc hlock hnew hins =>
    show db.job id = s.db.job id
    rw [Db.job, (insertDlq_some hins id).2.2, Db.job]
  | deleteJob job e rest hpc => exact job_deleteJob s.db job.id id
  | fetchDue | block | send | workerFailed | endPass | getDlq | notFound | deleteDlq
  | callFailed | restart => rfl

variable (F κ) in
/-- The service on a fresh database. -/
def system : System (State F κ) (Label F κ) where
  init s := s.db = Db.empty ∧ s.issued = [] ∧ s.lock = none ∧ s.pc = .fetching ∧
    ∀ k, s.call k = .idle
  step := Step

end D
end WebhookDelivery
