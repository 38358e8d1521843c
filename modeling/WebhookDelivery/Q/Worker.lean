/-
The `q` service as a transition system.

The workers of `Worker::run`, the submissions and the replays interleave freely
over one database.  A batch is a snapshot: its deliveries are what `list_due`
read, however old that is when `process` comes to them.  The checks of `process`
touch no state, so each is one step with the statement that follows it:
`deadLetter` when it fails, `claim` when it passes.

`dbFail` is a database call that fails; the worker carries on as the source
does.  `restart` is a crash at any point and the start of a new process.
-/
import WebhookDelivery.Run.System
import WebhookDelivery.Q.Db

namespace WebhookDelivery
namespace Q

open Sql Run

/-- Where a worker is in `Worker::run`. -/
inductive Pc
  | down
  | polling
  | batch (ds : List Delivery)
  | claimed (d : Delivery) (rest : List Delivery)
  | sent (d : Delivery) (out : Outcome) (rest : List Delivery)

/-- The delivery claimed and not yet recorded. -/
def Pc.held : Pc → Option Delivery
  | .down | .polling | .batch _ => none
  | .claimed d _ | .sent d _ _ => some d

/-- Every snapshot the worker still has to do with. -/
def Pc.snapshots : Pc → List Delivery
  | .down | .polling => []
  | .batch ds => ds
  | .claimed d rest | .sent d _ rest => d :: rest

/-- How `run` goes on after a database call has failed. -/
def Pc.afterFailure : Pc → Pc
  | .down => .polling
  | .polling => .batch []
  | .batch ds => .batch ds.tail
  | .claimed d rest => .claimed d rest
  | .sent _ _ rest => .batch rest

structure State (ω : Type) where
  db : Db
  cfg : Config
  pc : ω → Pc

inductive Label (ω : Type)
  | insert (d : NewDelivery) (now : Int)
  | replay (id : Uuid) (now : Int) (accepted : Bool)
  | start (w : ω) (now : Int)
  | listDue (w : ω) (now : Int) (ds : List Delivery)
  | refuse (w : ω) (d : Delivery) (check : Check)
  | claim (w : ω) (d : Delivery) (now : Int) (won : Bool)
  | send (w : ω) (d : Delivery) (attempt : Nat) (out : Outcome)
  | record (w : ω) (d : Delivery) (out : Outcome)
  | dbFail (w : ω)
  | endPass (w : ω) (now : Int)
  | restart (cfg : Config)

variable {ω : Type}

def State.staleMs (s : State ω) : Int := asI64 s.cfg.staleInFlightMs

/-- The random choices and clock readings of one outcome write. -/
structure Draw where
  rnd : Nat
  entryId : Uuid
  clock : Int
  now : Int

/-- What is added up to the time of the next attempt. -/
def retrySum (cfg : Config) (c : Draw) (attempt : Nat) : Int :=
  c.clock + asI64 (nextDelayMs attempt cfg.baseRetryDelayMs cfg.maxRetryDelayMs c.rnd)

def retryAt (cfg : Config) (c : Draw) (attempt : Nat) : Int := wrapI64 (retrySum cfg c attempt)

/-- The end of `process`, once the outcome of the send is known. -/
def recordOutcome (cfg : Config) (c : Draw) (db : Db) (d : Delivery) :
    Outcome → Except DbError Db
  | .delivered => .ok (markDelivered db d.id c.now)
  | .retryable err =>
    let attempt := d.attempts + 1
    if d.maxAttempts ≤ attempt then
      (deadLetter db d.id err c.entryId c.now).map Prod.snd
    else
      .ok (scheduleRetry db d.id (retryAt cfg c attempt) err c.now)
  | .permanent err => (deadLetter db d.id err c.entryId c.now).map Prod.snd

variable [DecidableEq ω]

def State.setPc (s : State ω) (w : ω) (pc : Pc) : State ω :=
  { s with pc := fun v => if v = w then pc else s.pc v }

@[simp] theorem State.setPc_self (s : State ω) (w : ω) (pc : Pc) : (s.setPc w pc).pc w = pc :=
  if_pos rfl

theorem State.setPc_ne (s : State ω) {v w : ω} (pc : Pc) (h : v ≠ w) :
    (s.setPc w pc).pc v = s.pc v := if_neg h

/-- What holds of the place of a worker held before, if the place of `w` is the
only one that has changed and it can have it from the old one. -/
theorem State.of_setPc {P : Pc → Prop} {s : State ω} {w : ω} (db : Db) (pc : Pc)
    (hpc : P pc → P (s.pc w)) (v : ω)
    (h : P ((State.setPc { s with db := db } w pc).pc v)) : P (s.pc v) := by
  by_cases hv : v = w
  · subst hv
    rw [State.setPc_self] at h
    exact hpc h
  · rw [State.setPc_ne _ _ hv] at h
    exact h

inductive Step : State ω → Label ω → State ω → Prop
  | insert (s : State ω) (d : NewDelivery) (now : Int) (db : Db) :
      insert s.db d now = .ok db → Step s (.insert d now) { s with db := db }
  | replay (s : State ω) (id : Uuid) (now : Int) :
      Step s (.replay id now (replayDeadLetter s.db id now).1)
        { s with db := (replayDeadLetter s.db id now).2 }
  | start (s : State ω) (w : ω) (now : Int) :
      s.pc w = .down →
      Step s (.start w now)
        (State.setPc { s with db := resetStaleInFlight s.db now s.staleMs } w .polling)
  | listDue (s : State ω) (w : ω) (now : Int) (ds : List Delivery) :
      s.pc w = .polling → ListsDue s.db now 20 (.ok ds) →
      Step s (.listDue w now ds) (s.setPc w (.batch ds))
  | refuse (s : State ω) (w : ω) (d : Delivery) (rest : List Delivery) (check : Check)
      (reason : String) (c : Draw) (entry : Option DlqEntry) (db : Db) :
      s.pc w = .batch (d :: rest) → check.reason = some reason →
      deadLetter s.db d.id reason c.entryId c.now = .ok (entry, db) →
      Step s (.refuse w d check) (State.setPc { s with db := db } w (.batch rest))
  | claim (s : State ω) (w : ω) (d : Delivery) (rest : List Delivery) (now : Int) :
      s.pc w = .batch (d :: rest) →
      Step s (.claim w d now (claim s.db d.id now).1)
        (State.setPc { s with db := (claim s.db d.id now).2 } w
          (if (claim s.db d.id now).1 then .claimed d rest else .batch rest))
  | send (s : State ω) (w : ω) (d : Delivery) (rest : List Delivery) (resp : Response) :
      s.pc w = .claimed d rest →
      Step s (.send w d (d.attempts + 1) resp.outcome) (s.setPc w (.sent d resp.outcome rest))
  | record (s : State ω) (w : ω) (d : Delivery) (out : Outcome) (rest : List Delivery)
      (c : Draw) (db : Db) :
      s.pc w = .sent d out rest → recordOutcome s.cfg c s.db d out = .ok db →
      Step s (.record w d out) (State.setPc { s with db := db } w (.batch rest))
  | dbFail (s : State ω) (w : ω) : Step s (.dbFail w) (s.setPc w (s.pc w).afterFailure)
  | endPass (s : State ω) (w : ω) (now : Int) :
      s.pc w = .batch [] → Step s (.endPass w now) (s.setPc w .polling)
  | restart (s : State ω) (cfg : Config) :
      Step s (.restart cfg) { s with cfg := cfg, pc := fun _ => .down }

variable (ω) in
/-- The service on a fresh database, before its workers run. -/
def system : System (State ω) (Label ω) where
  init s := s.db = Db.empty ∧ ∀ w, s.pc w = .down
  step := Step

/-- No crash, and no database call fails. -/
def Label.succeeds : Label ω → Bool
  | .dbFail _ | .restart _ => false
  | _ => true

/-- No check of `process` fails. -/
def Label.checksPass : Label ω → Bool
  | .refuse .. => false
  | _ => true

/-! ## What a history says about a delivery -/

/-- The label inserts the delivery or replays it. -/
def Label.starts (id : Uuid) : Label ω → Bool
  | .insert d _ => d.id = id
  | .replay id' _ accepted => decide (id' = id) && accepted
  | _ => false

def Label.replays (id : Uuid) : Label ω → Bool
  | .replay id' _ accepted => decide (id' = id) && accepted
  | _ => false

def Label.sends (id : Uuid) : Label ω → Bool
  | .send _ d _ _ => d.id = id
  | _ => false

/-- The sends made for a delivery since its insertion or last accepted replay. -/
def sends (id : Uuid) (h : List (Label ω)) : Nat :=
  countSince (Label.starts id) (Label.sends id) h

/-- The accepted replays of a delivery. -/
def replays (id : Uuid) (h : List (Label ω)) : Nat := h.countP (Label.replays id)

end Q
end WebhookDelivery
