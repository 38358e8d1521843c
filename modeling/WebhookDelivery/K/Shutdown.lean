/-
The graceful stop of the `k` service.

`main` serves requests until ctrl-c, cancels the token and waits for its workers, for a
bounded time.  A worker looks at the token before each claim and while it sleeps, and
never inside a batch.  `Process` puts these places of the loop over the service, so that
every run of it is one of the service; what the cancellation adds is how little a worker
still does, and that a stop for which all workers were joined takes no job with it.
-/
import WebhookDelivery.Run.Progress
import WebhookDelivery.K.Claiming
import WebhookDelivery.K.Stranded

namespace WebhookDelivery
namespace K

open Sql Run

variable (F : Formats)

/-- Where a worker is in `worker_loop`. -/
inductive LoopPc
  | out
  | top
  | claiming
  | waiting
  | handling
deriving DecidableEq

/-- Where `main` is: `joining` is from the cancellation on. -/
inductive MainPc
  | down
  | serving
  | joining
deriving DecidableEq

structure Process (ω : Type) where
  service : State F ω
  loop : ω → LoopPc
  main : MainPc

/-- `pass` and `leave` are the two answers of `is_cancelled`; `wake` is the token ending
the sleep. -/
inductive Event (ω : Type)
  | service (l : Label F ω)
  | pass (w : ω)
  | leave (w : ω)
  | wake (w : ω)
  | cancel
  | exit

variable {F} {ω : Type}

/-- When the process takes a step of the service.  No request is served once the token is
cancelled: `axum::serve` has returned by then. -/
def Process.Allows (p : Process F ω) : Label F ω → Prop
  | .insertJob .. | .requeueDead .. => p.main = .serving
  | .claimDueJobs w .. => p.loop w = .claiming
  | .deliver w .. | .recordOutcome w .. | .recordFailed w _ => p.loop w = .handling
  | .nextPoll w => p.loop w = .handling ∨ p.loop w = .waiting
  | .stop w => p.loop w ≠ .out
  | .crash => p.main ≠ .down
  | .spawnWorkers => p.main = .down

variable [DecidableEq ω]

def Process.setLoop (p : Process F ω) (w : ω) (c : LoopPc) : Process F ω :=
  { p with loop := fun v => if v = w then c else p.loop v }

/-- Where the loops and `main` are after a step of the service. -/
def Process.after (p : Process F ω) : Label F ω → Process F ω
  | .insertJob .. | .requeueDead .. => p
  | .claimDueJobs w _ jobs => p.setLoop w (if jobs.isEmpty then .waiting else .handling)
  | .deliver w .. | .recordOutcome w .. | .recordFailed w _ => p.setLoop w .handling
  | .nextPoll w => p.setLoop w .top
  | .stop w => p.setLoop w .out
  | .crash => { p with loop := fun _ => .out, main := .down }
  | .spawnWorkers => { p with loop := fun _ => .top, main := .serving }

inductive Process.Step : Process F ω → Event F ω → Process F ω → Prop
  | service (p : Process F ω) (l : Label F ω) (t : State F ω) :
      p.Allows l → K.Step p.service l t → Step p (.service l) { p.after l with service := t }
  | pass (p : Process F ω) (w : ω) :
      p.loop w = .top → p.main = .serving → Step p (.pass w) (p.setLoop w .claiming)
  | leave (p : Process F ω) (w : ω) :
      p.loop w = .top → p.main = .joining →
      Step p (.leave w) { p.setLoop w .out with service := p.service.setPc w .stopped }
  | wake (p : Process F ω) (w : ω) :
      p.loop w = .waiting → p.main = .joining →
      Step p (.wake w) { p.setLoop w .out with service := p.service.setPc w .stopped }
  | cancel (p : Process F ω) :
      p.main = .serving → Step p .cancel { p with main := .joining }
  | exit (p : Process F ω) :
      p.main = .joining → (∀ w, p.loop w = .out) → Step p .exit { p with main := .down }

variable (F ω) in
/-- The service and the processes that run it one after the other. -/
def processes : System (Process F ω) (Event F ω) where
  init p := (system F ω).init p.service ∧ (∀ w, p.loop w = .out) ∧ p.main = .down
  step := Process.Step

/-- The step of the service behind an event. -/
def Event.label : Event F ω → Option (Label F ω)
  | .service l => some l
  | .leave w | .wake w => some (.stop w)
  | .pass _ | .cancel | .exit => none

@[simp] theorem Process.setLoop_self (p : Process F ω) (w : ω) (c : LoopPc) :
    (p.setLoop w c).loop w = c := if_pos rfl

theorem Process.setLoop_ne (p : Process F ω) {v w : ω} (c : LoopPc) (h : v ≠ w) :
    (p.setLoop w c).loop v = p.loop v := if_neg h

/-! ## The loops and the service agree -/

/-- The places of the service that go with a place of the loop. -/
def LoopPc.Fits : LoopPc → Pc F → Prop
  | .out, .stopped | .top, .idle | .claiming, .idle | .waiting, .batch [] => True
  | .handling, .batch jobs => jobs.length ≤ 8
  | .handling, .outcome _ _ rest => rest.length < 8
  | _, _ => False

structure Process.Settled (p : Process F ω) : Prop where
  fits : ∀ w, (p.loop w).Fits (p.service.pc w)
  down : p.main = .down → ∀ w, p.loop w = .out

omit [DecidableEq ω] in
theorem Process.Settled.up {p : Process F ω} (hp : p.Settled) {w : ω} {c : LoopPc}
    (hw : p.loop w = c) (hc : c ≠ .out) : p.main ≠ .down :=
  fun hmain => hc (hw.symm.trans (hp.down hmain w))

/-- A worker moves on, in the loop and in the service. -/
theorem Process.Settled.set {p : Process F ω} (hp : p.Settled) {w : ω} {c : LoopPc} {pc : Pc F}
    (jobs : Jobs F) (hup : p.main ≠ .down) (hfit : c.Fits pc) :
    Process.Settled { p.setLoop w c with
      service := State.setPc { p.service with jobs := jobs } w pc } := by
  refine ⟨fun v => ?_, fun hdown => absurd hdown hup⟩
  show ((p.setLoop w c).loop v).Fits ((State.setPc { p.service with jobs := jobs } w pc).pc v)
  by_cases hv : v = w
  · rw [hv, p.setLoop_self, State.setPc_self]
    exact hfit
  · rw [p.setLoop_ne c hv, State.setPc_ne _ _ hv]
    exact hp.fits v

theorem LoopPc.Fits.held {c : LoopPc} {pc : Pc F} (h : c.Fits pc) (hc : c ≠ .handling) :
    pc.held = [] := by
  cases pc with
  | stopped | idle => rfl
  | batch jobs =>
    cases jobs with
    | nil => rfl
    | cons job jobs =>
      cases c with
      | handling => exact absurd rfl hc
      | out | top | claiming | waiting => exact h.elim
  | outcome job res rest =>
    cases c with
    | handling => exact absurd rfl hc
    | out | top | claiming | waiting => exact h.elim

omit [DecidableEq ω] in
/-- A worker that is not in a batch has no job. -/
theorem Process.Settled.not_mem_heldIds {p : Process F ω} (hp : p.Settled) {w : ω} {c : LoopPc}
    (hw : p.loop w = c) (hc : c ≠ .handling) (id : Uuid) : id ∉ p.service.heldIds w := by
  rw [State.heldIds, (hp.fits w).held (hw ▸ hc)]
  exact List.not_mem_nil

/-- What fits the head of the loop fits the claim. -/
theorem LoopPc.Fits.claiming {pc : Pc F} (h : LoopPc.top.Fits pc) : LoopPc.claiming.Fits pc := by
  cases pc with
  | idle => trivial
  | stopped | batch | outcome => exact h

theorem claimed_length_le {fault : Option Statement} {now : F.DateTime}
    {rows : List (JobRow F)} {t t' : Jobs F} {res : Except DbError (List (Job F))}
    (hsel : SelectsDue t now 8 rows) (h : claimDueJobs fault now rows t = (res, t')) :
    (claimed res).length ≤ 8 := by
  cases res with
  | error e => exact Nat.zero_le 8
  | ok jobs =>
    have hlen : jobs.length = min 8 (dueRows t now).length := claimed_length hsel h
    rw [claimed, hlen]
    exact Nat.min_le_left 8 _

theorem fits_claimed {jobs : List (Job F)} (hlen : jobs.length ≤ 8) :
    (if jobs.isEmpty then LoopPc.waiting else .handling).Fits (.batch jobs) := by
  cases jobs with
  | nil => trivial
  | cons job jobs => exact hlen

theorem Process.Settled.step {p q : Process F ω} {e : Event F ω} (hp : p.Settled)
    (hst : Step p e q) : q.Settled := by
  have hhandling : ∀ {w : ω} {pc : Pc F}, p.loop w = .handling → p.service.pc w = pc →
      LoopPc.handling.Fits pc := fun hloop hpc => hpc ▸ hloop ▸ hp.fits _
  cases hst with
  | service l t hallow hst =>
    cases hst with
    | insertJob | requeueDead => exact ⟨hp.fits, hp.down⟩
    | claimDueJobs w now fault rows res t' hidle hsel hclaim =>
      exact hp.set t' (hp.up hallow (by decide)) (fits_claimed (claimed_length_le hsel hclaim))
    | deliver w job rest resp hpc =>
      have hlen := hhandling hallow hpc
      exact hp.set _ (hp.up hallow (by decide)) hlen
    | recordOutcome w job res rest next now hpc =>
      have hlen := hhandling hallow hpc
      exact hp.set _ (hp.up hallow (by decide)) (Nat.le_of_lt hlen)
    | recordFailed w job res rest hpc =>
      have hlen := hhandling hallow hpc
      exact hp.set _ (hp.up hallow (by decide)) (Nat.le_of_lt hlen)
    | nextPoll w hpc =>
      have hup : p.main ≠ .down := by
        rcases hallow with hloop | hloop
        · exact hp.up hloop (by decide)
        · exact hp.up hloop (by decide)
      exact hp.set _ hup trivial
    | stop w => exact hp.set _ (hp.up rfl hallow) trivial
    | crash => exact ⟨fun _ => trivial, fun _ _ => rfl⟩
    | spawnWorkers hall => exact ⟨fun _ => trivial, fun hmain => by cases hmain⟩
  | pass w hloop hmain =>
    refine ⟨fun v => ?_, fun hdown => ?_⟩
    · by_cases hv : v = w
      · rw [hv, p.setLoop_self]
        exact LoopPc.Fits.claiming (hloop ▸ hp.fits w)
      · rw [p.setLoop_ne _ hv]
        exact hp.fits v
    · cases hmain.symm.trans hdown
  | leave w hloop hmain => exact hp.set _ (hp.up hloop (by decide)) trivial
  | wake w hloop hmain => exact hp.set _ (hp.up hloop (by decide)) trivial
  | cancel hmain => exact ⟨hp.fits, fun hdown => by cases hdown⟩
  | exit hmain hout => exact ⟨hp.fits, fun _ => hout⟩

theorem settled {h : List (Event F ω)} {p : Process F ω} (hp : (processes F ω).Reaches h p) :
    p.Settled := by
  refine hp.invariant (I := fun _ p => p.Settled) (fun p hinit => ?_)
    (fun _ _ _ _ _ hI hst => hI.step hst)
  refine ⟨fun w => ?_, fun _ => hinit.2.1⟩
  rw [hinit.1.2 w, hinit.2.1 w]
  trivial

/-- What an event is to the service. -/
theorem Process.Step.service_step {p q : Process F ω} {e : Event F ω} (hst : Step p e q) :
    (e.label = none ∧ q.service = p.service) ∨
      ∃ l, e.label = some l ∧ K.Step p.service l q.service := by
  cases hst with
  | service l t hallow hst => exact .inr ⟨l, rfl, hst⟩
  | leave w | wake w => exact .inr ⟨.stop w, rfl, K.Step.stop p.service w⟩
  | pass | cancel | exit => exact .inl ⟨rfl, rfl⟩

/-- A run of the processes is a run of the service. -/
theorem Process.reaches {h : List (Event F ω)} {p : Process F ω}
    (hp : (processes F ω).Reaches h p) :
    (system F ω).Reaches (h.filterMap Event.label) p.service := by
  induction hp with
  | init hinit => exact .init hinit.1
  | @step h p e q hp hst ih =>
    rcases hst.service_step with ⟨hnone, hsame⟩ | ⟨l, hl, hstep⟩
    · rw [List.filterMap_cons_none hnone]
      exact ih.of_eq hsame.symm
    · rw [List.filterMap_cons_some hl]
      exact ih.step hstep

/-! ## What a worker still does -/

/-- The worker that the step is a turn of. -/
def Label.worker : Label F ω → Option ω
  | .claimDueJobs w .. | .deliver w .. | .recordOutcome w .. | .recordFailed w _ | .nextPoll w
  | .stop w => some w
  | .insertJob .. | .requeueDead .. | .crash | .spawnWorkers => none

def Event.worker : Event F ω → Option ω
  | .service l => l.worker
  | .pass w | .leave w | .wake w => some w
  | .cancel | .exit => none

def Event.turns (w : ω) (e : Event F ω) : Bool := decide (e.worker = some w)

def Event.claims (w : ω) : Event F ω → Bool
  | .service (.claimDueJobs v ..) => decide (v = w)
  | _ => false

def Event.calls (w : ω) : Event F ω → Bool
  | .service (.deliver v ..) => decide (v = w)
  | _ => false

/-- Where a worker is, in the loop and in the service. -/
def Process.place (p : Process F ω) (w : ω) : LoopPc × Pc F := (p.loop w, p.service.pc w)

/-- What a turn does to the place of a worker once no worker goes on to a claim. -/
inductive Turn (w : ω) : Event F ω → LoopPc × Pc F → LoopPc × Pc F → Prop
  | claim (now : F.DateTime) (jobs : List (Job F)) : jobs.length ≤ 8 →
      Turn w (.service (.claimDueJobs w now jobs)) (.claiming, .idle)
        (if jobs.isEmpty then .waiting else .handling, .batch jobs)
  | deliver (job : Job F) (res : Except DeliveryError Unit) (rest : List (Job F)) :
      Turn w (.service (.deliver w job res)) (.handling, .batch (job :: rest))
        (.handling, .outcome job res rest)
  | record (job : Job F) (res : Except DeliveryError Unit) (rest : List (Job F)) :
      Turn w (.service (.recordOutcome w job res)) (.handling, .outcome job res rest)
        (.handling, .batch rest)
  | recordFailed (job : Job F) (res : Except DeliveryError Unit) (rest : List (Job F)) :
      Turn w (.service (.recordFailed w job)) (.handling, .outcome job res rest)
        (.handling, .batch rest)
  | next (c : LoopPc) : c = .handling ∨ c = .waiting →
      Turn w (.service (.nextPoll w)) (c, .batch []) (.top, .idle)
  | out (e : Event F ω) (c : LoopPc) (pc : Pc F) : c ≠ .out → e.claims w = false →
      e.calls w = false → Turn w e (c, pc) (.out, .stopped)

theorem Process.place_set (p : Process F ω) (jobs : Jobs F) (v : ω) (c : LoopPc) (pc : Pc F)
    (w : ω) :
    Process.place { p.setLoop v c with
      service := State.setPc { p.service with jobs := jobs } v pc } w =
      if w = v then (c, pc) else p.place w := by
  by_cases hw : w = v
  · rw [if_pos hw, hw]
    exact congrArg₂ Prod.mk (p.setLoop_self v c) (State.setPc_self _ v pc)
  · rw [if_neg hw]
    exact congrArg₂ Prod.mk (p.setLoop_ne c hw) (State.setPc_ne _ pc hw)

/-- Once `main` no longer serves, a worker moves by a turn of its own, or is killed. -/
theorem Process.Step.turn {p q : Process F ω} {e : Event F ω} (hst : Step p e q)
    (hmain : p.main ≠ .serving) (hspawn : e ≠ .service .spawnWorkers) (w : ω) :
    (e.worker = some w ∧ Turn w e (p.place w) (q.place w)) ∨
      (e.worker ≠ some w ∧ (q.place w = p.place w ∨ q.place w = (.out, .stopped))) := by
  -- A step that moves `v` is a turn of `v` and nothing to another.
  have hmove : ∀ {v : ω} {c : LoopPc} {pc : Pc F} {jobs : Jobs F}, e.worker = some v →
      Turn v e (p.place v) (c, pc) →
      q = { p.setLoop v c with service := State.setPc { p.service with jobs := jobs } v pc } →
      (e.worker = some w ∧ Turn w e (p.place w) (q.place w)) ∨
        (e.worker ≠ some w ∧ (q.place w = p.place w ∨ q.place w = (.out, .stopped))) := by
    rintro v c pc jobs hv hturn rfl
    rw [p.place_set]
    by_cases hw : w = v
    · subst hw
      rw [if_pos rfl]
      exact .inl ⟨hv, hturn⟩
    · rw [if_neg hw, hv]
      exact .inr ⟨fun h => hw (Option.some.inj h).symm, .inl rfl⟩
  have hplace : ∀ {v : ω} {c : LoopPc} {pc : Pc F}, p.loop v = c → p.service.pc v = pc →
      p.place v = (c, pc) := fun hc hpc => congrArg₂ Prod.mk hc hpc
  cases hst with
  | service l t hallow hst =>
    cases hst with
    | insertJob | requeueDead => exact absurd hallow hmain
    | claimDueJobs v now fault rows res t' hidle hsel hclaim =>
      refine hmove rfl ?_ rfl
      rw [hplace hallow hidle]
      exact .claim now (claimed res) (claimed_length_le hsel hclaim)
    | deliver v job rest resp hpc =>
      refine hmove rfl ?_ rfl
      rw [hplace hallow hpc]
      exact .deliver job _ rest
    | recordOutcome v job res rest next now hpc =>
      refine hmove rfl ?_ rfl
      rw [hplace hallow hpc]
      exact .record job res rest
    | recordFailed v job res rest hpc =>
      refine hmove rfl ?_ rfl
      rw [hplace hallow hpc]
      exact .recordFailed job res rest
    | nextPoll v hpc =>
      refine hmove rfl ?_ rfl
      rw [hplace rfl hpc]
      exact .next _ hallow
    | stop v => exact hmove rfl (.out _ _ _ hallow rfl rfl) rfl
    | crash => exact .inr ⟨(fun h => by cases h), .inr rfl⟩
    | spawnWorkers hall => exact absurd rfl hspawn
  | pass v hloop hserving => exact absurd hserving hmain
  | leave v hloop hjoin => exact hmove rfl (.out _ _ _ (by rw [hloop]; decide) rfl rfl) rfl
  | wake v hloop hjoin => exact hmove rfl (.out _ _ _ (by rw [hloop]; decide) rfl rfl) rfl
  | cancel hserving => exact absurd hserving hmain
  | exit hjoin hout => exact .inr ⟨(fun h => by cases h), .inl rfl⟩

/-- The claims, the calls and the turns that are left to a worker. -/
def claimsLeft : LoopPc × Pc F → Nat
  | (.claiming, _) => 1
  | _ => 0

def callsLeft : LoopPc × Pc F → Nat
  | (.claiming, _) => 8
  | (.handling, pc) => pc.uncalled.length
  | _ => 0

def turnsLeft : LoopPc × Pc F → Nat
  | (.out, _) => 0
  | (.top, _) => 1
  | (.waiting, _) => 2
  | (.claiming, _) => 19
  | (.handling, .outcome _ _ rest) => 2 * rest.length + 3
  | (.handling, pc) => 2 * pc.uncalled.length + 2

theorem Turn.claimsLeft {w : ω} {e : Event F ω} {a b : LoopPc × Pc F} (h : Turn w e a b) :
    claimsLeft b + (if e.claims w then 1 else 0) ≤ claimsLeft a := by
  cases h with
  | claim now jobs hlen => cases jobs <;> simp [K.claimsLeft, Event.claims]
  | deliver | record | recordFailed => exact Nat.le_refl _
  | next c hc => exact Nat.zero_le _
  | out e c pc hc hclaims hcalls =>
    rw [hclaims]
    exact Nat.zero_le _

theorem Turn.callsLeft {w : ω} {e : Event F ω} {a b : LoopPc × Pc F} (h : Turn w e a b) :
    callsLeft b + (if e.calls w then 1 else 0) ≤ callsLeft a := by
  cases h with
  | claim now jobs hlen =>
    cases jobs with
    | nil => exact Nat.zero_le 8
    | cons job jobs => exact hlen
  | deliver job res rest => simp [K.callsLeft, Event.calls, Pc.uncalled]
  | record | recordFailed => exact Nat.le_refl _
  | next c hc => exact Nat.zero_le _
  | out e c pc hc hclaims hcalls =>
    rw [hcalls]
    exact Nat.zero_le _

theorem Turn.turnsLeft {w : ω} {e : Event F ω} {a b : LoopPc × Pc F} (h : Turn w e a b) :
    turnsLeft b + 1 ≤ turnsLeft a := by
  cases h with
  | claim now jobs hlen =>
    cases jobs with
    | nil => show 2 + 1 ≤ 19; omega
    | cons job jobs =>
      show 2 * (jobs.length + 1) + 2 + 1 ≤ 19
      rw [List.length_cons] at hlen
      omega
  | deliver job res rest =>
    show 2 * rest.length + 3 + 1 ≤ 2 * (rest.length + 1) + 2
    omega
  | record job res rest | recordFailed job res rest =>
    show 2 * rest.length + 2 + 1 ≤ 2 * rest.length + 3
    omega
  | next c hc =>
    rcases hc with rfl | rfl
    · show 1 + 1 ≤ 2
      omega
    · show 1 + 1 ≤ 2
      omega
  | out e c pc hc hclaims hcalls =>
    cases c with
    | out => exact absurd rfl hc
    | top | claiming | waiting => exact Nat.succ_le_succ (Nat.zero_le _)
    | handling => cases pc <;> exact Nat.succ_le_succ (Nat.zero_le _)

theorem Process.Step.main_ne {p q : Process F ω} {e : Event F ω} (hst : Step p e q)
    (hmain : p.main ≠ .serving) (hspawn : e ≠ .service .spawnWorkers) : q.main ≠ .serving := by
  cases hst with
  | service l t hallow hst =>
    cases hst with
    | crash => exact fun h => by cases h
    | spawnWorkers => exact absurd rfl hspawn
    | _ => exact hmain
  | cancel | exit => exact fun h => by cases h
  | pass | leave | wake => exact hmain

/-- What every turn pays for out of what is left bounds what a worker does after the
cancellation. -/
theorem Process.paid {w : ω} {left : LoopPc × Pc F → Nat} {hit : Event F ω → Bool}
    (hturn : ∀ e a b, Turn w e a b → left b + (if hit e then 1 else 0) ≤ left a)
    (hown : ∀ e, hit e = true → e.worker = some w) (hout : left (.out, .stopped) = 0)
    {p q : Process F ω} {h : List (Event F ω)} (hp : p.Settled) (hmain : p.main ≠ .serving)
    (hpath : ((processes F ω).restrict fun _ e => e ≠ .service .spawnWorkers).Path p h q) :
    (q.Settled ∧ q.main ≠ .serving) ∧ left (q.place w) + h.countP hit ≤ left (p.place w) := by
  refine hpath.paid_turns (f := fun p => p.place w)
    (P := fun p => p.Settled ∧ p.main ≠ .serving) hout ?_ ⟨hp, hmain⟩
  rintro s e t ⟨hs, hno⟩ ⟨hspawn, hst⟩
  refine ⟨⟨hs.step hst, hst.main_ne hno hspawn⟩, ?_⟩
  rcases hst.turn hno hspawn w with ⟨-, hmoved⟩ | ⟨hother, hsame⟩
  · exact .inl (hturn e _ _ hmoved)
  · exact .inr ⟨Bool.eq_false_iff.2 fun hhit => hother (hown e hhit), hsame⟩

omit [DecidableEq ω] in
theorem Process.Settled.callsLeft_le {p : Process F ω} (hp : p.Settled) (w : ω) :
    callsLeft (p.place w) ≤ 8 := by
  have hfit := hp.fits w
  unfold callsLeft Process.place
  cases hloop : p.loop w with
  | out | top | waiting => exact Nat.zero_le 8
  | claiming => exact Nat.le_refl 8
  | handling =>
    rw [hloop] at hfit
    cases hpc : p.service.pc w with
    | stopped | idle => exact Nat.zero_le 8
    | batch jobs =>
      rw [hpc] at hfit
      exact hfit
    | outcome job res rest =>
      rw [hpc] at hfit
      exact Nat.le_of_lt hfit

omit [DecidableEq ω] in
theorem Process.Settled.turnsLeft_le {p : Process F ω} (hp : p.Settled) (w : ω) :
    turnsLeft (p.place w) ≤ 19 := by
  have hfit := hp.fits w
  have hplace : p.place w = (p.loop w, p.service.pc w) := rfl
  rw [hplace]
  cases hloop : p.loop w with
  | out | top | waiting | claiming => exact of_decide_eq_true rfl
  | handling =>
    rw [hloop] at hfit
    cases hpc : p.service.pc w with
    | stopped | idle => exact of_decide_eq_true rfl
    | batch jobs =>
      rw [hpc] at hfit
      have hlen : jobs.length ≤ 8 := hfit
      show 2 * jobs.length + 2 ≤ 19
      omega
    | outcome job res rest =>
      rw [hpc] at hfit
      have hlen : rest.length < 8 := hfit
      show 2 * rest.length + 3 ≤ 19
      omega

/-- A worker that is still in the loop can take a turn, and need not die for it. -/
theorem Process.Settled.moves {p : Process F ω} (hp : p.Settled) (hjoin : p.main = .joining)
    {w : ω} (hw : p.loop w ≠ .out) (now : F.DateTime) :
    ∃ e q, e.worker = some w ∧ e ≠ .service (.stop w) ∧ Step p e q := by
  have hfit := hp.fits w
  have hserve : ∀ {l : Label F ω} {t : State F ω}, K.Step p.service l t → p.Allows l →
      l.worker = some w → l ≠ .stop w →
      ∃ e q, e.worker = some w ∧ e ≠ .service (.stop w) ∧ Step p e q :=
    fun {l t} hst hallow hl hne =>
      ⟨.service l, _, hl, fun h => hne (Event.service.inj h), .service p l t hallow hst⟩
  cases hloop : p.loop w with
  | out => exact absurd hloop hw
  | top => exact ⟨_, _, rfl, (fun h => by cases h), .leave p w hloop hjoin⟩
  | waiting => exact ⟨_, _, rfl, (fun h => by cases h), .wake p w hloop hjoin⟩
  | claiming =>
    cases hpc : p.service.pc w with
    | idle =>
      have hsel : SelectsDue p.service.jobs now 8 _ := orderBy_ordered JobRow.nextAttemptAt 8 _
      exact hserve (.claimDueJobs _ w now none _ _ _ hpc hsel rfl) hloop rfl fun h => by cases h
    | stopped | batch | outcome =>
      rw [hloop, hpc] at hfit
      exact hfit.elim
  | handling =>
    cases hpc : p.service.pc w with
    | stopped | idle =>
      rw [hloop, hpc] at hfit
      exact hfit.elim
    | batch jobs =>
      cases jobs with
      | nil => exact hserve (.nextPoll _ w hpc) (.inl hloop) rfl fun h => by cases h
      | cons job rest =>
        exact hserve (.deliver _ w job rest (.status 200) hpc) hloop rfl fun h => by cases h
    | outcome job res rest =>
      exact hserve (.recordOutcome _ w job res rest now now hpc) hloop rfl fun h => by cases h

theorem Event.worker_of_claims {w : ω} {e : Event F ω} (h : e.claims w = true) :
    e.worker = some w := by
  unfold Event.claims at h
  split at h
  · exact congrArg some (of_decide_eq_true h)
  · cases h

theorem Event.worker_of_calls {w : ω} {e : Event F ω} (h : e.calls w = true) :
    e.worker = some w := by
  unfold Event.calls at h
  split at h
  · exact congrArg some (of_decide_eq_true h)
  · cases h

/-- Once the token is cancelled, a worker claims at most once more, and not at all unless it
had passed the check; it makes at most eight calls and takes at most nineteen turns, whatever
its calls answer; and until it has left the loop its next turn is open to it, so that the
wait of `main` ends. -/
theorem shutdown_bounded {h h' : List (Event F ω)} {p q : Process F ω}
    (hp : (processes F ω).Reaches h p) (hjoin : p.main = .joining)
    (hpath : ((processes F ω).restrict fun _ e => e ≠ .service .spawnWorkers).Path p h' q)
    (w : ω) :
    h'.countP (Event.claims w) ≤ 1 ∧
      (p.loop w ≠ .claiming → h'.countP (Event.claims w) = 0) ∧
      h'.countP (Event.calls w) ≤ 8 ∧ h'.countP (Event.turns w) ≤ 19 ∧
      (q.main = .joining → q.loop w ≠ .out → F.DateTime →
        ∃ e u, e.worker = some w ∧ e ≠ .service (.stop w) ∧ Process.Step q e u) := by
  have hsettled := settled hp
  have hserving : p.main ≠ .serving := by rw [hjoin]; decide
  have hclaims : claimsLeft (q.place w) + h'.countP (Event.claims w) ≤ claimsLeft (p.place w) :=
    (Process.paid (fun _ _ _ => Turn.claimsLeft) (fun _ => Event.worker_of_claims) rfl hsettled
      hserving hpath).2
  have hcalls : callsLeft (q.place w) + h'.countP (Event.calls w) ≤ callsLeft (p.place w) :=
    (Process.paid (fun _ _ _ => Turn.callsLeft) (fun _ => Event.worker_of_calls) rfl hsettled
      hserving hpath).2
  have hturn : ∀ (e : Event F ω) a b, Turn w e a b →
      turnsLeft b + (if Event.turns w e then 1 else 0) ≤ turnsLeft a := by
    intro e a b hturn
    have hpay := hturn.turnsLeft
    split <;> omega
  obtain ⟨⟨hq, -⟩, hturns⟩ : (q.Settled ∧ q.main ≠ .serving) ∧
      turnsLeft (q.place w) + h'.countP (Event.turns w) ≤ turnsLeft (p.place w) :=
    Process.paid hturn (fun _ => of_decide_eq_true) rfl hsettled hserving hpath
  have hone : claimsLeft (p.place w) ≤ 1 := by
    unfold claimsLeft
    split <;> omega
  have hnone (hloop : p.loop w ≠ .claiming) : claimsLeft (p.place w) = 0 := by
    unfold claimsLeft Process.place
    split
    · rename_i heq
      exact absurd (congrArg Prod.fst heq) hloop
    · rfl
  have height := hsettled.callsLeft_le w
  have hnineteen := hsettled.turnsLeft_le w
  refine ⟨by omega, fun hloop => ?_, by omega, by omega,
    fun hjoin hw now => hq.moves hjoin hw now⟩
  have hzero := hnone hloop
  omega

/-- Before anything is started. -/
def downProcess : Process Formats.millis Unit where
  service := ⟨Table.empty, fun _ => .stopped⟩
  loop _ := .out
  main := .down

theorem downProcess_started : (processes Formats.millis Unit).Reaches [.service .spawnWorkers]
    ⟨⟨Table.empty, fun _ => .idle⟩, fun _ => .top, .serving⟩ := by
  have hdown : (processes Formats.millis Unit).Reaches [] downProcess :=
    .init ⟨⟨rfl, fun _ => rfl⟩, fun _ => rfl, rfl⟩
  exact hdown.step (.service _ _ _ rfl (.spawnWorkers _ fun _ => rfl))

/-- The token is cancelled when the worker has passed the check, with one job to claim. -/
def cancelledProcess : Process Formats.millis Unit where
  service := ⟨⟨[newRow 1 "http://a.test" "{}" 2 epoch], List.nodup_singleton _⟩, fun _ => .idle⟩
  loop _ := .claiming
  main := .joining

theorem cancelledProcess_reached : (processes Formats.millis Unit).Reaches
    [.cancel, .pass (), .service (.insertJob 1 "http://a.test" "{}" 2 epoch),
      .service .spawnWorkers] cancelledProcess := by
  have hstored := downProcess_started.step
    (.service _ (.insertJob 1 "http://a.test" "{}" 2 epoch) _ rfl
      (.insertJob _ 1 "http://a.test" "{}" 2 epoch cancelledProcess.service.jobs rfl))
  exact (hstored.step (.pass _ () rfl rfl)).step (.cancel _ rfl)

/-- What the worker does from there on; the latest event is the first. -/
def lastBatch : List (Event Formats.millis Unit) :=
  [.leave (), .service (.nextPoll ()), .service (.recordOutcome () claimedJob (.ok ())),
    .service (.deliver () claimedJob (.ok ())), .service (.claimDueJobs () epoch [claimedJob])]

/-- It claims the job that is there, delivers it and leaves, and no more than that. -/
theorem shutdown_bounded_claiming : ∃ q : Process Formats.millis Unit,
    ((processes Formats.millis Unit).restrict fun _ e => e ≠ .service .spawnWorkers).Path
      cancelledProcess lastBatch q ∧ q.loop () = .out ∧
      lastBatch.countP (Event.claims ()) = 1 ∧ lastBatch.countP (Event.calls ()) = 1 ∧
      lastBatch.countP (Event.claims ()) ≤ 1 ∧ lastBatch.countP (Event.calls ()) ≤ 8 ∧
      lastBatch.countP (Event.turns ()) ≤ 19 := by
  let rows : List (JobRow Formats.millis) := [newRow 1 "http://a.test" "{}" 2 epoch]
  have hsel : SelectsDue cancelledProcess.service.jobs epoch 8 rows :=
    ⟨rows, List.Perm.refl _, List.pairwise_singleton _ _, rfl⟩
  have hclaimed : ((processes Formats.millis Unit).restrict
      fun _ e => e ≠ .service .spawnWorkers).Path cancelledProcess
      [.service (.claimDueJobs () epoch [claimedJob])]
      ⟨claimedState, fun _ => .handling, .joining⟩ :=
    System.Path.nil.cons ⟨(fun h => by cases h),
      .service cancelledProcess (.claimDueJobs () epoch [claimedJob]) claimedState rfl
        (.claimDueJobs _ () epoch none rows (.ok [claimedJob]) claimedState.jobs rfl hsel rfl)⟩
  have hcalled := hclaimed.cons ⟨(fun h => by cases h),
    .service _ (.deliver () claimedJob (.ok ())) _ rfl
      (.deliver _ () claimedJob [] (.status 200) rfl)⟩
  have hrecorded := hcalled.cons ⟨(fun h => by cases h),
    .service _ (.recordOutcome () claimedJob (.ok ())) _ rfl
      (.recordOutcome _ () claimedJob (.ok ()) [] epoch epoch rfl)⟩
  have hpolled := hrecorded.cons ⟨(fun h => by cases h),
    .service _ (.nextPoll ()) _ (.inl rfl) (.nextPoll _ () rfl)⟩
  have hleft := hpolled.cons ⟨(fun h => by cases h), .leave _ () rfl rfl⟩
  obtain ⟨hclaims, -, hcalls, hturns, -⟩ :=
    shutdown_bounded cancelledProcess_reached rfl hleft ()
  exact ⟨_, hleft, rfl, rfl, rfl, hclaims, hcalls, hturns⟩

/-! ## What a stop loses -/

def Event.Claims (id : Uuid) (e : Event F ω) : Prop := ∃ l, e.label = some l ∧ l.Claims id

/-- The event takes the job from the worker with no outcome stored: the write has failed,
the worker has died, or the process. -/
def Event.Loses (w : ω) (id : Uuid) : Event F ω → Prop
  | .service (.recordFailed v job) => v = w ∧ job.id = id
  | .service (.stop v) => v = w
  | .service .crash => True
  | _ => False

/-- `h₁` is what has happened since the last claim of the job, which `w` made. -/
def TakenSince (h : List (Event F ω)) (w : ω) (id : Uuid) (h₁ : List (Event F ω)) : Prop :=
  ∃ now jobs h₀, h = h₁ ++ .service (.claimDueJobs w now jobs) :: h₀ ∧
    id ∈ jobs.map Job.id ∧ ∀ e ∈ h₁, ¬e.Claims id

/-- The worker that claimed the job last has lost it since. -/
def LostBy (h : List (Event F ω)) (id : Uuid) : Prop :=
  ∃ w h₁, TakenSince h w id h₁ ∧ ∃ e ∈ h₁, e.Loses w id

omit [DecidableEq ω] in
theorem TakenSince.cons {h h₁ : List (Event F ω)} {w : ω} {id : Uuid} {e : Event F ω}
    (ht : TakenSince h w id h₁) (he : ¬e.Claims id) : TakenSince (e :: h) w id (e :: h₁) := by
  obtain ⟨now, jobs, h₀, rfl, hid, hnone⟩ := ht
  refine ⟨now, jobs, h₀, rfl, hid, fun e' he' => ?_⟩
  rcases List.mem_cons.1 he' with rfl | he'
  · exact he
  · exact hnone e' he'

/-- A worker that leaves the loop has no job then: what takes a job from its worker is
one of the losses. -/
theorem Process.Step.loses {p q : Process F ω} {e : Event F ω} (hp : p.Settled)
    (hst : Step p e q) {l : Label F ω} (hl : e.label = some l) {w : ω} {id : Uuid}
    (hid : id ∈ p.service.heldIds w) (hdrops : l.Abandons w id) : e.Loses w id := by
  cases hst with
  | service l' t hallow hst =>
    obtain rfl : l' = l := Option.some.inj hl
    cases l' with
    | recordFailed v job => exact hdrops
    | stop v => exact hdrops
    | crash => trivial
    | _ => exact hdrops.elim
  | leave v hloop hjoin =>
    obtain rfl : Label.stop v = l := Option.some.inj hl
    obtain rfl : v = w := hdrops
    exact absurd hid (hp.not_mem_heldIds hloop (by decide) id)
  | wake v hloop hjoin =>
    obtain rfl : Label.stop v = l := Option.some.inj hl
    obtain rfl : v = w := hdrops
    exact absurd hid (hp.not_mem_heldIds hloop (by decide) id)
  | pass | cancel | exit => cases hl

/-- A job in flight is with the worker that claimed it last, or that worker has lost it. -/
theorem held_or_lost {h : List (Event F ω)} {p : Process F ω}
    (hp : (processes F ω).Reaches h p) {id : Uuid} {r : JobRow F}
    (hr : p.service.jobs.get? id = some r) (hflight : r.status = .inFlight) :
    (∃ w h₁, id ∈ p.service.heldIds w ∧ TakenSince h w id h₁) ∨ LostBy h id := by
  induction hp generalizing r with
  | init hinit =>
    rw [hinit.1.1] at hr
    cases hr
  | @step h p e q hp hst ih =>
    by_cases hclaims : e.Claims id
    · obtain ⟨l, hl, hid⟩ := hclaims
      cases hst with
      | service l' t hallow hst =>
        obtain rfl : l' = l := Option.some.inj hl
        cases hst with
        | claimDueJobs w now fault rows res t' hidle hsel hclaim =>
          refine .inl ⟨w, [], ?_, now, _, h, rfl, hid, fun _ he => absurd he List.not_mem_nil⟩
          show id ∈ (State.setPc { p.service with jobs := t' } w _).heldIds w
          rw [heldIds_setPc, if_pos rfl]
          exact hid
        | _ => exact hid.elim
      | leave w | wake w =>
        obtain rfl : Label.stop w = l := Option.some.inj hl
        exact hid.elim
      | pass | cancel | exit => cases hl
    · rcases hst.service_step with ⟨hnone, hsame⟩ | ⟨l, hl, hstep⟩
      · rw [hsame] at hr ⊢
        rcases ih hr hflight with ⟨w, h₁, hid, htaken⟩ | ⟨w, h₁, htaken, e', he', hlost⟩
        · exact .inl ⟨w, e :: h₁, hid, htaken.cons hclaims⟩
        · exact .inr ⟨w, e :: h₁, htaken.cons hclaims, e', List.mem_cons_of_mem e he', hlost⟩
      · have hno : ¬l.Claims id := fun h => hclaims ⟨l, hl, h⟩
        rcases ih (hstep.inFlight_of hr hflight hno) hflight with
          ⟨w, h₁, hid, htaken⟩ | ⟨w, h₁, htaken, e', he', hlost⟩
        · have howned := owned (Process.reaches hp)
          rcases hstep.lets_go howned hid with ⟨hin, -⟩ | ⟨-, hdrops⟩ | ⟨v, job, res, rfl, rfl⟩
          · exact .inl ⟨w, e :: h₁, hin, htaken.cons hclaims⟩
          · exact .inr ⟨w, e :: h₁, htaken.cons hclaims, e, List.mem_cons_self,
              hst.loses (settled hp) hl hid hdrops⟩
          · generalize hu : q.service = u at hstep hr
            cases hstep with
            | recordOutcome _ _ _ rest next now hpc =>
              exact absurd hflight (not_inFlight_recorded hr)
        · exact .inr ⟨w, e :: h₁, htaken.cons hclaims, e', List.mem_cons_of_mem e he', hlost⟩

/-- When `main` returns from joining its workers, every job still in flight had been lost
before: the worker that claimed it last could not store its outcome, or died, or did so
with an earlier process.  The stop itself takes no job, and no row changes with it. -/
theorem clean_exit {h : List (Event F ω)} {p q : Process F ω}
    (hp : (processes F ω).Reaches h p) (hst : Process.Step p .exit q) :
    q.service.jobs = p.service.jobs ∧
      ∀ id r, q.service.jobs.get? id = some r → r.status = .inFlight → LostBy h id := by
  cases hst with
  | exit hjoin hout =>
    refine ⟨rfl, fun id r hr hflight => ?_⟩
    rcases held_or_lost hp hr hflight with ⟨w, h₁, hid, -⟩ | hlost
    · exact absurd hid ((settled hp).not_mem_heldIds (hout w) (by decide) id)
    · exact hlost

/-- A worker that dies with its job leaves it in flight, and the stop finds it so. -/
theorem clean_exit_died : LostBy
    [.cancel, .service (.stop ()), .service (.claimDueJobs () epoch (claimedState.pc ()).held),
      .pass (), .service (.insertJob 1 "http://a.test" "{}" 2 epoch), .service .spawnWorkers]
    1 := by
  let rows : List (JobRow Formats.millis) := [newRow 1 "http://a.test" "{}" 2 epoch]
  let t : Jobs Formats.millis := ⟨rows, List.nodup_singleton _⟩
  have hsel : SelectsDue t epoch 8 rows :=
    ⟨rows, List.Perm.refl _, List.pairwise_singleton _ _, rfl⟩
  have h₁ := downProcess_started.step
    (.service _ (.insertJob 1 "http://a.test" "{}" 2 epoch) _ rfl
      (.insertJob _ 1 "http://a.test" "{}" 2 epoch t rfl))
  have h₂ := h₁.step (.pass _ () rfl rfl)
  have h₃ := h₂.step (.service _ (.claimDueJobs () epoch (claimedState.pc ()).held) _ rfl
    (.claimDueJobs _ () epoch none rows (.ok (claimedState.pc ()).held) claimedState.jobs rfl hsel
      rfl))
  have h₄ := h₃.step (.service _ (.stop ()) _ (fun h => by cases h) (.stop _ ()))
  have h₅ := h₄.step (.cancel _ rfl)
  exact (clean_exit h₅ (.exit _ rfl fun _ => rfl)).2 1
    (asClaimed epoch (newRow 1 "http://a.test" "{}" 2 epoch)) rfl rfl

end K
end WebhookDelivery
