/-
The process counters of `q`.

`Metrics` is shared by the handlers and the workers and lives as long as the process.
A counter is raised after the database call it goes with, whatever has come of the call,
and by a handler only if its client has waited.  So the counters lag behind the tables,
and what keeps them apart can be told at every moment.
-/
import Mathlib.Data.Fintype.Option
import WebhookDelivery.Run.Meter
import WebhookDelivery.Q.Completeness

namespace WebhookDelivery
namespace Q

open Sql Run

inductive Counter
  | submitted
  | delivered
  | deadLettered
  | permanentFailures
  | retryableFailures
  deriving DecidableEq

/-- What `process` raises between the send and the write of its outcome. -/
def Outcome.early : Outcome → List Counter
  | .permanent _ => [.permanentFailures]
  | .delivered | .retryable _ => []

/-- What it raises after the write. -/
def Delivery.late (d : Delivery) : Outcome → List Counter
  | .delivered => [.delivered]
  | .retryable _ =>
    if d.maxAttempts ≤ d.attempts + 1 then [.deadLettered] else [.retryableFailures]
  | .permanent _ => [.deadLettered]

def Pc.late : Pc → List Counter
  | .sent d out _ => d.late out
  | _ => []

theorem submitted_late (d : Delivery) (out : Outcome) : (d.late out).count .submitted = 0 := by
  cases out with
  | delivered => rfl
  | permanent err => rfl
  | retryable err =>
    by_cases hlast : d.maxAttempts ≤ d.attempts + 1 <;> simp [Delivery.late, hlast]

section Process

variable {ω : Type}

/-- The worker that takes the step; the handlers take the others. -/
def Label.worker : Label ω → Option ω
  | .insert .. | .replay .. | .restart _ => none
  | .start w _ | .listDue w _ _ | .refuse w _ _ | .claim w _ _ _ | .send w _ _ _
  | .record w _ _ | .dbFail w | .endPass w _ => some w

/-- The counters a step leaves its party to raise.  A failed call of `dead_letter` or
`mark_delivered` is counted like one that succeeded. -/
inductive Raises (s : State ω) : Label ω → List Counter → Prop
  | insert (d : NewDelivery) (now : Int) : Raises s (.insert d now) [.submitted]
  | replay (id : Uuid) (now : Int) (accepted : Bool) : Raises s (.replay id now accepted) []
  | start (w : ω) (now : Int) : Raises s (.start w now) []
  | listDue (w : ω) (now : Int) (ds : List Delivery) : Raises s (.listDue w now ds) []
  | refuse (w : ω) (d : Delivery) (check : Check) : Raises s (.refuse w d check) [.deadLettered]
  | claim (w : ω) (d : Delivery) (now : Int) (won : Bool) : Raises s (.claim w d now won) []
  | send (w : ω) (d : Delivery) (n : Nat) (out : Outcome) : Raises s (.send w d n out) out.early
  | record (w : ω) (d : Delivery) (out : Outcome) : Raises s (.record w d out) (d.late out)
  | dbFail (w : ω) : Raises s (.dbFail w) (s.pc w).late
  | refuseFail (w : ω) (d : Delivery) (rest : List Delivery) :
      s.pc w = .batch (d :: rest) → Raises s (.dbFail w) [.deadLettered]
  | endPass (w : ω) (now : Int) : Raises s (.endPass w now) []

/-- The counters, with the handlers as the one party that is no worker. -/
abbrev Metrics (ω : Type) := Meter (Option ω) Counter

structure Metered (ω : Type) where
  service : State ω
  metrics : Metrics ω

inductive Metrics.Event (ω : Type)
  | serve (l : Label ω) (cs : List Counter)
  | inc (p : Option ω) (c : Counter)
  | disconnect

def Metrics.Event.meter : Metrics.Event ω → Meter.Event (Option ω) Counter
  | .serve l cs => .note l.worker cs
  | .inc p c => .inc p c
  | .disconnect => .forget none .submitted

variable [DecidableEq ω]

/-- `fetch_add` wraps.  A worker goes on when it has counted; a handler whose client
disconnects after the insert counts nothing. -/
inductive Metered.Step : Metered ω → Metrics.Event ω → Metered ω → Prop
  | serve (m : Metered ω) (l : Label ω) (cs : List Counter) (t : State ω) (n : Metrics ω) :
      Q.Step m.service l t → Raises m.service l cs →
      (∀ w, l.worker = some w → m.metrics.due (some w) = []) →
      Meter.Step (2 ^ 64) m.metrics (.note l.worker cs) n →
      Metered.Step m (.serve l cs) ⟨t, n⟩
  | inc (m : Metered ω) (p : Option ω) (c : Counter) (n : Metrics ω) :
      Meter.Step (2 ^ 64) m.metrics (.inc p c) n →
      Metered.Step m (.inc p c) ⟨m.service, n⟩
  | disconnect (m : Metered ω) (n : Metrics ω) :
      Meter.Step (2 ^ 64) m.metrics (.forget none .submitted) n →
      Metered.Step m .disconnect ⟨m.service, n⟩

variable (ω) in
/-- The life of one process.  It starts on the tables that some run has left. -/
def process : System (Metered ω) (Metrics.Event ω) where
  init m := (∃ h, (system ω).Reaches h m.service) ∧ (∀ w, m.service.pc w = .down) ∧
    m.metrics = .zero
  step := Metered.Step

theorem meter_path {m₀ m : Metered ω} {h : List (Metrics.Event ω)}
    (hpath : (process ω).Path m₀ h m) :
    (Meter.system (2 ^ 64)).Path m₀.metrics (h.map Metrics.Event.meter) m.metrics := by
  induction hpath with
  | nil => exact .nil
  | cons _ hst ih =>
    cases hst with
    | serve l cs t n hstep hraises hready hmeter => exact .cons ih hmeter
    | inc p c n hmeter => exact .cons ih hmeter
    | disconnect n hmeter => exact .cons ih hmeter

/-- What a step leaves to raise. -/
def Metrics.Event.raised : Metrics.Event ω → List Counter
  | .serve _ cs => cs
  | .inc .. | .disconnect => []

/-- What is never counted. -/
def Metrics.Event.missed : Metrics.Event ω → List Counter
  | .disconnect => [.submitted]
  | .serve .. | .inc .. => []

/-- What is counted of a database call that has failed. -/
def Metrics.Event.failed : Metrics.Event ω → List Counter
  | .serve (.dbFail _) cs => cs
  | _ => []

/-- What a send that has returned is counted as.  A retryable failure of the last attempt
is counted as a dead letter, and not as a retryable failure. -/
def Metrics.Event.answered : Metrics.Event ω → List Counter
  | .serve (.send _ d _ out) _ => out.early ++ d.late out
  | _ => []

/-! ## One step -/

theorem rows_insert {db db' : Db} {d : NewDelivery} {now : Int} (h : insert db d now = .ok db') :
    db'.deliveries.rows.length = db.deliveries.rows.length + 1 ∧
      db'.deadLetters = db.deadLetters := by
  obtain ⟨-, t, hins, rfl⟩ := insert_table h
  refine ⟨?_, rfl⟩
  show t.rows.length = _
  rw [Table.rows_of_insert? hins, List.length_append, List.length_singleton]

theorem rows_deadLetter {db db' : Db} {id entryId : Uuid} {err : String} {now : Int}
    {e : Option DlqEntry} (h : deadLetter db id err entryId now = .ok (e, db'))
    (hrow : (db.row id).isSome) :
    db'.deliveries.rows.length = db.deliveries.rows.length ∧
      db'.deadLetters.rows.length = db.deadLetters.rows.length + 1 := by
  rcases deadLetter_spec h with ⟨hnone, -⟩ | ⟨r, attempts, -, -, hrows, hentries⟩
  · rw [hnone] at hrow
    cases hrow
  · refine ⟨?_, ?_⟩
    · rw [hrows]
      exact List.length_map _
    · rw [hentries, List.length_append, List.length_singleton]

theorem rows_recordOutcome {cfg : Config} {c : Draw} {db db' : Db} {d : Delivery}
    {out : Outcome} (h : recordOutcome cfg c db d out = .ok db') (hrow : (db.row d.id).isSome) :
    db'.deliveries.rows.length = db.deliveries.rows.length ∧
      db'.deadLetters.rows.length =
        db.deadLetters.rows.length + (d.late out).count .deadLettered := by
  have hbury : ∀ err, (deadLetter db d.id err c.entryId c.now).map Prod.snd = .ok db' →
      db'.deliveries.rows.length = db.deliveries.rows.length ∧
        db'.deadLetters.rows.length = db.deadLetters.rows.length + 1 := by
    intro err hmap
    cases hdl : deadLetter db d.id err c.entryId c.now with
    | error e =>
      rw [hdl] at hmap
      cases hmap
    | ok p =>
      rw [hdl] at hmap
      cases hmap
      exact rows_deadLetter hdl hrow
  cases out with
  | delivered =>
    cases h
    exact ⟨List.length_map _, rfl⟩
  | retryable err =>
    by_cases hlast : d.maxAttempts ≤ d.attempts + 1
    · simp only [recordOutcome, if_pos hlast] at h
      rw [Delivery.late, if_pos hlast]
      exact hbury err h
    · simp only [recordOutcome, if_neg hlast] at h
      cases h
      rw [Delivery.late, if_neg hlast]
      exact ⟨List.length_map _, rfl⟩
  | permanent err => exact hbury err h

omit [DecidableEq ω] in
theorem Raises.length_le {s : State ω} {l : Label ω} {cs : List Counter} (h : Raises s l cs) :
    cs.length ≤ 1 := by
  have hlate : ∀ (d : Delivery) (out : Outcome), (d.late out).length ≤ 1 := by
    intro d out
    cases out with
    | delivered | permanent err => exact Nat.le_refl 1
    | retryable err =>
      by_cases hlast : d.maxAttempts ≤ d.attempts + 1 <;> simp [Delivery.late, hlast]
  cases h with
  | insert | refuse | refuseFail => exact Nat.le_refl 1
  | replay | start | listDue | claim | endPass => exact Nat.zero_le 1
  | send w d n out => cases out <;> simp [Outcome.early]
  | record w d out => exact hlate d out
  | dbFail w =>
    cases hpc : s.pc w with
    | sent d out rest => exact hlate d out
    | down | polling | batch | claimed => exact Nat.zero_le 1

omit [DecidableEq ω] in
theorem Limited.isSome {s : State ω} (hs : Limited s) {w : ω} {d : Delivery}
    (hd : d ∈ (s.pc w).snapshots) : (s.db.row d.id).isSome := by
  obtain ⟨r, hr, -⟩ := hs.snapshots w d hd
  rw [hr]
  rfl

variable [Fintype ω]

/-- What is left to count after the outcome writes under way. -/
def State.unwritten (s : State ω) (c : Counter) : Nat := ∑ w, (s.pc w).late.count c

theorem unwritten_setPc (s : State ω) (db : Db) (w : ω) (pc : Pc) (c : Counter) :
    (State.setPc { s with db := db } w pc).unwritten c + (s.pc w).late.count c =
      s.unwritten c + pc.late.count c := by
  have hpc : (State.setPc { s with db := db } w pc).pc = Function.update s.pc w pc := by
    funext v
    exact (Function.update_apply ..).symm
  rw [State.unwritten, hpc]
  exact sum_update_add (fun pc : Pc => pc.late.count c) s.pc w pc

/-- A step that starts and ends with no write of `w` under way. -/
theorem unwritten_same {s : State ω} (db : Db) {w : ω} {pc : Pc} (c : Counter)
    (hold : (s.pc w).late = []) (hnew : pc.late = []) :
    (State.setPc { s with db := db } w pc).unwritten c = s.unwritten c := by
  have hsum := unwritten_setPc s db w pc c
  rw [hold, hnew] at hsum
  exact hsum

/-- How a step of the service and the counters it leaves to raise change the sums. -/
structure Moves (s : State ω) (l : Label ω) (cs : List Counter) (t : State ω) : Prop where
  rows : t.db.deliveries.rows.length = s.db.deliveries.rows.length + cs.count .submitted
  entries : t.db.deadLetters.rows.length +
    (Metrics.Event.serve l cs).failed.count .deadLettered =
      s.db.deadLetters.rows.length + cs.count .deadLettered
  sends : ∀ c, c ≠ .submitted → c ≠ .deadLettered →
    cs.count c + t.unwritten c = s.unwritten c + (Metrics.Event.serve l cs).answered.count c

theorem late_afterFailure (pc : Pc) : pc.afterFailure.late = [] := by
  cases pc <;> rfl

theorem submitted_late_pc (pc : Pc) : pc.late.count .submitted = 0 := by
  cases pc with
  | sent d out rest => exact submitted_late d out
  | down | polling | batch | claimed => rfl

theorem Step.moves {s t : State ω} {l : Label ω} {cs : List Counter} (hs : Limited s)
    (hst : Step s l t) (hr : Raises s l cs) : Moves s l cs t := by
  cases hst with
  | insert d now db hins =>
    cases hr
    obtain ⟨hrows, hentries⟩ := rows_insert hins
    exact ⟨hrows, by rw [hentries]; rfl, fun c hsub _ => by
      simp [State.unwritten, Metrics.Event.answered, Ne.symm hsub]⟩
  | replay id now =>
    cases hr
    exact ⟨List.length_map _, rfl, fun c _ _ => Nat.zero_add _⟩
  | start w now hpc =>
    cases hr
    refine ⟨List.length_map _, rfl, fun c _ _ => (Nat.zero_add _).trans ?_⟩
    exact unwritten_same _ c (by rw [hpc]; rfl) rfl
  | listDue w now ds hpc hlist =>
    cases hr
    refine ⟨rfl, rfl, fun c _ _ => (Nat.zero_add _).trans ?_⟩
    exact unwritten_same s.db c (by rw [hpc]; rfl) rfl
  | refuse w d rest check reason c entry db hpc hcheck hdl =>
    cases hr
    obtain ⟨hrows, hentries⟩ := rows_deadLetter hdl
      (hs.isSome (w := w) (by rw [hpc]; exact List.mem_cons_self))
    refine ⟨hrows, hentries, fun c _ hdead => ?_⟩
    rw [unwritten_same db c (by rw [hpc]; rfl) rfl, List.count_eq_zero.2 (by simpa using hdead)]
    exact Nat.zero_add _
  | claim w d rest now hpc =>
    cases hr
    refine ⟨List.length_map _, rfl, fun c _ _ => (Nat.zero_add _).trans ?_⟩
    refine unwritten_same _ c (by rw [hpc]; rfl) ?_
    split <;> rfl
  | send w d rest resp hpc =>
    cases hr
    have hearly : resp.outcome.early.count .submitted = 0 ∧
        resp.outcome.early.count .deadLettered = 0 := by
      cases resp.outcome <;> exact ⟨rfl, rfl⟩
    refine ⟨by rw [hearly.1]; rfl, by rw [hearly.2]; rfl, fun c _ _ => ?_⟩
    have hsum : (s.setPc w (.sent d resp.outcome rest)).unwritten c + (s.pc w).late.count c =
        s.unwritten c + (d.late resp.outcome).count c := unwritten_setPc s s.db w _ c
    have hlate : (s.pc w).late.count c = 0 := by
      rw [hpc]
      rfl
    show _ + (s.setPc w (.sent d resp.outcome rest)).unwritten c = s.unwritten c +
      (resp.outcome.early ++ d.late resp.outcome).count c
    rw [List.count_append]
    omega
  | record w d out rest draw db hpc hrec =>
    cases hr
    obtain ⟨hrows, hentries⟩ := rows_recordOutcome hrec
      (hs.isSome (w := w) (by rw [hpc]; exact List.mem_cons_self))
    refine ⟨by rw [submitted_late]; exact hrows, hentries, fun c _ _ => ?_⟩
    have hsum := unwritten_setPc s db w (.batch rest) c
    rw [hpc] at hsum
    exact (Nat.add_comm _ _).trans hsum
  | dbFail w =>
    cases hr with
    | dbFail w =>
      refine ⟨by rw [submitted_late_pc]; rfl, rfl, fun c _ _ => ?_⟩
      have hsum := unwritten_setPc s s.db w (s.pc w).afterFailure c
      rw [late_afterFailure] at hsum
      exact (Nat.add_comm _ _).trans hsum
    | refuseFail w d rest hpc =>
      refine ⟨rfl, rfl, fun c _ hdead => ?_⟩
      rw [List.count_eq_zero.2 (by simpa using hdead), Nat.zero_add]
      exact unwritten_same s.db c (by rw [hpc]; rfl) (late_afterFailure _)
  | endPass w now hpc =>
    cases hr
    refine ⟨rfl, rfl, fun c _ _ => (Nat.zero_add _).trans ?_⟩
    exact unwritten_same s.db c (by rw [hpc]; rfl) rfl
  | restart cfg => cases hr

/-! ## The life of a process -/

/-- The counters of a process, `h` after its start.  Each of the submissions and of the
dead letters of its time is counted, will be, or is one of those a client or a database
call spoiled, and each send that has returned is counted, or will be, as what `answered`
says of it.  A worker is never behind by more than one. -/
structure Tallied (m₀ : Metered ω) (h : List (Metrics.Event ω)) (m : Metered ω) : Prop where
  submitted :
    m.metrics.value .submitted + m.metrics.owed .submitted +
        (h.flatMap Metrics.Event.missed).count .submitted +
        m₀.service.db.deliveries.rows.length ≡
      m.service.db.deliveries.rows.length [MOD 2 ^ 64]
  deadLettered :
    m.metrics.value .deadLettered + m.metrics.owed .deadLettered +
        m₀.service.db.deadLetters.rows.length ≡
      m.service.db.deadLetters.rows.length +
        (h.flatMap Metrics.Event.failed).count .deadLettered [MOD 2 ^ 64]
  sends : ∀ c, c ≠ .submitted → c ≠ .deadLettered →
    m.metrics.value c + m.metrics.owed c + m.service.unwritten c ≡
      (h.flatMap Metrics.Event.answered).count c [MOD 2 ^ 64]
  behind : ∀ w, (m.metrics.due (some w)).length ≤ 1

/-- The sums over a run of a process. -/
structure Summed (m₀ : Metered ω) (h : List (Metrics.Event ω)) (m : Metered ω) : Prop where
  limited : Limited m.service
  rows : m.service.db.deliveries.rows.length =
    m₀.service.db.deliveries.rows.length + (h.flatMap Metrics.Event.raised).count .submitted
  entries : m.service.db.deadLetters.rows.length +
      (h.flatMap Metrics.Event.failed).count .deadLettered =
    m₀.service.db.deadLetters.rows.length +
      (h.flatMap Metrics.Event.raised).count .deadLettered
  sends : ∀ c, c ≠ .submitted → c ≠ .deadLettered →
    (h.flatMap Metrics.Event.raised).count c + m.service.unwritten c =
      m₀.service.unwritten c + (h.flatMap Metrics.Event.answered).count c

theorem Summed.serve {m₀ m : Metered ω} {h : List (Metrics.Event ω)} (hm : Summed m₀ h m)
    {l : Label ω} {cs : List Counter} {t : State ω} (n : Metrics ω)
    (hst : Step m.service l t) (hr : Raises m.service l cs) :
    Summed m₀ (.serve l cs :: h) ⟨t, n⟩ := by
  have hmoves := Step.moves hm.limited hst hr
  refine ⟨hm.limited.step hst, ?_, ?_, fun c hsub hdead => ?_⟩
  · have hrows := hmoves.rows
    rw [hm.rows] at hrows
    rw [List.flatMap_cons, List.count_append]
    show t.db.deliveries.rows.length = _ + (cs.count .submitted + _)
    omega
  · have hentries := hmoves.entries
    have hbefore := hm.entries
    rw [List.flatMap_cons, List.flatMap_cons, List.count_append, List.count_append]
    show t.db.deadLetters.rows.length + _ = _ + (cs.count .deadLettered + _)
    omega
  · have hsends := hmoves.sends c hsub hdead
    have hbefore := hm.sends c hsub hdead
    rw [List.flatMap_cons, List.flatMap_cons, List.count_append, List.count_append]
    show cs.count c + _ + t.unwritten c = _
    omega

theorem summed {m₀ m : Metered ω} {h : List (Metrics.Event ω)} (hl : Limited m₀.service)
    (hpath : (process ω).Path m₀ h m) : Summed m₀ h m := by
  induction hpath with
  | nil => exact ⟨hl, rfl, rfl, fun c _ _ => Nat.add_comm _ _⟩
  | cons hpath hst ih =>
    cases hst with
    | serve l cs t n hstep hraises hready hmeter => exact ih.serve n hstep hraises
    | inc p c n hmeter => exact ⟨ih.limited, ih.rows, ih.entries, ih.sends⟩
    | disconnect n hmeter => exact ⟨ih.limited, ih.rows, ih.entries, ih.sends⟩

omit [Fintype ω] in
theorem behind {m₀ m : Metered ω} {h : List (Metrics.Event ω)} (hzero : m₀.metrics = .zero)
    (hpath : (process ω).Path m₀ h m) (w : ω) : (m.metrics.due (some w)).length ≤ 1 := by
  induction hpath with
  | nil =>
    rw [hzero]
    exact Nat.zero_le 1
  | @cons h m e m' hpath hst ih =>
    have hset : ∀ (p : Option ω) (cs : List Counter), (p = some w → cs.length ≤ 1) →
        (Function.update m.metrics.due p cs (some w)).length ≤ 1 := by
      intro p cs hcs
      by_cases hp : some w = p
      · rw [hp, Function.update_self]
        exact hcs hp.symm
      · rw [Function.update_of_ne hp]
        exact ih
    cases hst with
    | serve l cs t n hstep hraises hready hmeter =>
      cases hmeter with
      | note =>
        refine hset _ _ fun hl => ?_
        rw [hl, hready w hl]
        exact hraises.length_le
    | inc p c n hmeter =>
      cases hmeter with
      | inc _ _ cs hdue =>
        refine hset p cs fun hp => ?_
        rw [hp] at hdue
        rw [hdue] at ih
        exact Nat.le_of_succ_le ih
    | disconnect n hmeter =>
      cases hmeter with
      | forget _ _ cs hdue => exact hset none cs fun hp => by cases hp

/-- At every moment of the life of a process its counters are those of the tables and
of the sends, but for what is still to be counted and for what was spoiled. -/
theorem metrics_tallied {m₀ m : Metered ω} {h : List (Metrics.Event ω)}
    (hstart : (process ω).init m₀) (hpath : (process ω).Path m₀ h m) : Tallied m₀ h m := by
  obtain ⟨⟨h₀, hreach⟩, hdown, hzero⟩ := hstart
  have hsum := summed (limited hreach) hpath
  have hraised : ∀ h : List (Metrics.Event ω),
      (h.map Metrics.Event.meter).flatMap Meter.Event.notes =
        h.flatMap Metrics.Event.raised := by
    intro h
    rw [List.flatMap_map]
    exact List.flatMap_congr fun e _ => by cases e <;> rfl
  have hmissed : ∀ h : List (Metrics.Event ω),
      (h.map Metrics.Event.meter).flatMap Meter.Event.forgets =
        h.flatMap Metrics.Event.missed := by
    intro h
    rw [List.flatMap_map]
    exact List.flatMap_congr fun e _ => by cases e <;> rfl
  -- What the meter says, from a start at zero.
  have hbalance : ∀ c, m.metrics.value c + m.metrics.owed c +
      (h.flatMap Metrics.Event.missed).count c ≡
        (h.flatMap Metrics.Event.raised).count c [MOD 2 ^ 64] := by
    intro c
    have hmeter := Meter.balance (meter_path hpath) c
    rw [hraised, hmissed, hzero, Meter.owed_zero] at hmeter
    simpa [Meter.zero] using hmeter
  have hcounted : ∀ c, c ≠ .submitted →
      m.metrics.value c + m.metrics.owed c ≡
        (h.flatMap Metrics.Event.raised).count c [MOD 2 ^ 64] := by
    intro c hc
    have hnone : (h.flatMap Metrics.Event.missed).count c = 0 := by
      refine List.count_eq_zero.2 fun hmem => ?_
      obtain ⟨e, -, he⟩ := List.mem_flatMap.1 hmem
      cases e with
      | serve | inc => exact absurd he List.not_mem_nil
      | disconnect => exact hc (List.mem_singleton.1 he)
    have hb := hbalance c
    rwa [hnone, Nat.add_zero] at hb
  refine ⟨?_, ?_, fun c hsub hdead => ?_, behind hzero hpath⟩
  · rw [hsum.rows.trans (Nat.add_comm _ _)]
    exact (hbalance .submitted).add_right _
  · rw [hsum.entries.trans (Nat.add_comm _ _)]
    exact (hcounted .deadLettered (by decide)).add_right _
  · have hstart : m₀.service.unwritten c = 0 :=
      Finset.sum_eq_zero fun w _ => by rw [hdown w]; rfl
    have hsends := hsum.sends c hsub hdead
    rw [hstart, Nat.zero_add] at hsends
    rw [← hsends]
    exact (hcounted c hsub).add_right _

end Process

/-! ## A refused hook -/

/-- The hook is counted as submitted, and refused by a worker that has not counted it. -/
theorem metrics_tallied_refused : ∃ m : Metered Bool,
    m.metrics.value .submitted = 1 ∧ m.metrics.due (some false) = [.deadLettered] ∧
      Tallied ⟨duo Db.empty .down .down, .zero⟩
        [.serve (.refuse false hookRead lookupFailed) [.deadLettered],
          .serve (.listDue false 0 [hookRead]) [], .serve (.start false 0) [],
          .inc none .submitted, .serve (.insert hook 0) [.submitted]] m := by
  have hdown : ∀ w, (duo Db.empty .down .down).pc w = .down := fun w => by cases w <;> rfl
  have hstart : (process Bool).init ⟨duo Db.empty .down .down, .zero⟩ :=
    ⟨⟨[], .init ⟨rfl, hdown⟩⟩, hdown, rfl⟩
  have hlist : ListsDue listed.db 0 20 (.ok [hookRead]) :=
    ⟨[newRow hook 0], ⟨_, List.Perm.refl _, List.pairwise_singleton _ _, rfl⟩, rfl⟩
  have p₀ : (process Bool).Path ⟨duo Db.empty .down .down, .zero⟩ []
      ⟨duo Db.empty .down .down, .zero⟩ := .nil
  have p₁ := p₀.cons (Metered.Step.serve _ _ _ _ _ (Step.insert _ hook 0 listed.db rfl)
    (.insert hook 0) (fun w hw => by cases hw) (.note _ _ _))
  have p₂ := p₁.cons (Metered.Step.inc _ none .submitted _ (.inc _ _ _ [] rfl))
  have p₃ := p₂.cons (Metered.Step.serve _ _ _ _ _ (Step.start _ false 0 rfl)
    (.start false 0) (fun w hw => by cases hw; rfl) (.note _ _ _))
  have p₄ := p₃.cons (Metered.Step.serve _ _ _ _ _ (Step.listDue _ false 0 [hookRead] rfl hlist)
    (.listDue false 0 _) (fun w hw => by cases hw; rfl) (.note _ _ _))
  have p₅ := p₄.cons (Metered.Step.serve _ _ _ _ _
    (Step.refuse _ false hookRead [] lookupFailed _ noDraw _ refusedDb rfl rfl rfl)
    (.refuse false hookRead lookupFailed) (fun w hw => by cases hw; rfl) (.note _ _ _))
  exact ⟨_, rfl, rfl, metrics_tallied hstart p₅⟩

end Q
end WebhookDelivery
