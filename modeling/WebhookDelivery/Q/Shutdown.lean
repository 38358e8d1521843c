/-
The graceful stop of the `q` service.

`run` serves until a signal comes, tells its workers one after the other to stop, and waits
for all of them, for as long as it takes.  A worker looks at what it was told before each
pass and while it sleeps, and never inside a pass.  Requests are answered all the while.
`Server` puts these places over the service, so that every run of it is one of the service.
-/
import WebhookDelivery.Run.Progress
import WebhookDelivery.Q.Custody
import WebhookDelivery.Q.Metrics

namespace WebhookDelivery
namespace Q

open Sql Run

/-- Where a worker is in `Worker::run`. -/
inductive LoopPc
  | out
  | resetting
  | top
  | pass
  | asleep
deriving DecidableEq

/-- Where `run` is: `stopping` is from the signal on, or from an error of the listener. -/
inductive MainPc
  | down
  | serving
  | stopping
deriving DecidableEq

/-- The next thing the worker does is a call of the database. -/
def Pc.callsDb : Pc → Bool
  | .down | .polling | .batch (_ :: _) | .sent .. => true
  | .batch [] | .claimed .. => false

/-- The places of the service that go with a place of the loop. -/
def LoopPc.Fits : LoopPc → Pc → Prop
  | .out, .down | .out, .polling | .resetting, .down | .top, .polling | .asleep, .polling
  | .pass, .polling => True
  | .pass, .batch ds => ds.length ≤ 20
  | .pass, .claimed _ rest | .pass, .sent _ _ rest => rest.length < 20
  | _, _ => False

structure Server (ω : Type) where
  service : State ω
  loop : ω → LoopPc
  told : ω → Bool
  main : MainPc

namespace Server

/-- `check` and `leave` are the two ways on for a worker that looks at its flag, and `wake` is the
end of its sleep. -/
inductive Event (ω : Type)
  | service (l : Label ω)
  | check (w : ω)
  | leave (w : ω)
  | wake (w : ω)
  | signal
  | tell (w : ω)
  | exit
  | kill
  | boot (cfg : Config)

variable {ω : Type}

/-- When the server takes a step of the service. -/
def Allows (p : Server ω) : Label ω → Prop
  | .insert .. | .replay .. => p.main ≠ .down
  | .start w _ => p.loop w = .resetting
  | .listDue w .. | .refuse w .. | .claim w .. | .send w .. | .record w .. | .endPass w _ =>
    p.loop w = .pass
  | .dbFail w => (p.loop w = .resetting ∨ p.loop w = .pass) ∧ (p.service.pc w).callsDb = true
  | .restart _ => False

variable [DecidableEq ω]

def setLoop (p : Server ω) (w : ω) (c : LoopPc) : Server ω :=
  { p with loop := fun v => if v = w then c else p.loop v }

/-- Where the loops are after a step of the service. -/
def after (p : Server ω) : Label ω → Server ω
  | .start w _ => p.setLoop w .top
  | .listDue w .. | .refuse w .. | .claim w .. | .send w .. | .record w .. => p.setLoop w .pass
  | .dbFail w => p.setLoop w (if p.loop w = .resetting then .top else .pass)
  | .endPass w _ => p.setLoop w .asleep
  | .insert .. | .replay .. | .restart _ => p

/-- The service with no worker left of the last process. -/
def stopped (s : State ω) (cfg : Config) : State ω := { s with cfg := cfg, pc := fun _ => .down }

inductive Step : Server ω → Event ω → Server ω → Prop
  | service (p : Server ω) (l : Label ω) (t : State ω) :
      p.Allows l → Q.Step p.service l t → Step p (.service l) { p.after l with service := t }
  | check (p : Server ω) (w : ω) :
      p.loop w = .top → p.told w = false → Step p (.check w) (p.setLoop w .pass)
  | leave (p : Server ω) (w : ω) :
      p.loop w = .top ∨ p.loop w = .asleep → p.told w = true →
      Step p (.leave w) (p.setLoop w .out)
  | wake (p : Server ω) (w : ω) :
      p.loop w = .asleep → Step p (.wake w) (p.setLoop w .top)
  | signal (p : Server ω) :
      p.main = .serving → Step p .signal { p with main := .stopping }
  | tell (p : Server ω) (w : ω) :
      p.main = .stopping →
      Step p (.tell w) { p with told := fun v => if v = w then true else p.told v }
  | exit (p : Server ω) :
      p.main = .stopping → (∀ w, p.told w = true) → (∀ w, p.loop w = .out) →
      Step p .exit { p with main := .down }
  | kill (p : Server ω) :
      p.main ≠ .down →
      Step p .kill { p with
        service := stopped p.service p.service.cfg, loop := fun _ => .out, main := .down }
  | boot (p : Server ω) (cfg : Config) :
      p.main = .down →
      Step p (.boot cfg)
        { service := stopped p.service cfg, loop := fun _ => .resetting,
          told := fun _ => false, main := .serving }

variable (ω) in
/-- The service and the processes that run it one after the other. -/
def servers : System (Server ω) (Event ω) where
  init p := (system ω).init p.service ∧ (∀ w, p.loop w = .out) ∧ p.main = .down
  step := Step

theorem setLoop_self (p : Server ω) (w : ω) (c : LoopPc) : (p.setLoop w c).loop w = c :=
  if_pos rfl

theorem setLoop_ne (p : Server ω) {v w : ω} (c : LoopPc) (h : v ≠ w) :
    (p.setLoop w c).loop v = p.loop v := if_neg h

/-! ## The loops and the service agree -/

structure Settled (p : Server ω) : Prop where
  fits : ∀ w, (p.loop w).Fits (p.service.pc w)
  down : p.main = .down → ∀ w, p.loop w = .out

omit [DecidableEq ω] in
theorem Settled.up {p : Server ω} (hp : p.Settled) {w : ω} {c : LoopPc} (hw : p.loop w = c)
    (hc : c ≠ .out) : p.main ≠ .down :=
  fun hmain => hc (hw.symm.trans (hp.down hmain w))

/-- A worker moves on, in the loop and in the service. -/
theorem Settled.set {p : Server ω} (hp : p.Settled) {w : ω} {c : LoopPc} {pc : Pc} (db : Db)
    (hup : p.main ≠ .down) (hfit : c.Fits pc) :
    Settled { p.setLoop w c with service := State.setPc { p.service with db := db } w pc } := by
  refine ⟨fun v => ?_, fun hdown => absurd hdown hup⟩
  show ((p.setLoop w c).loop v).Fits ((State.setPc { p.service with db := db } w pc).pc v)
  by_cases hv : v = w
  · rw [hv, p.setLoop_self, State.setPc_self]
    exact hfit
  · rw [p.setLoop_ne c hv, State.setPc_ne _ _ hv]
    exact hp.fits v

theorem Settled.setLoop {p : Server ω} (hp : p.Settled) {w : ω} {c : LoopPc}
    (hup : p.main ≠ .down) (hfit : c.Fits (p.service.pc w)) : (p.setLoop w c).Settled := by
  refine ⟨fun v => ?_, fun hdown => absurd hdown hup⟩
  by_cases hv : v = w
  · rw [hv, p.setLoop_self]
    exact hfit
  · rw [p.setLoop_ne c hv]
    exact hp.fits v

omit [DecidableEq ω] in
theorem fits_afterFailure {p : Server ω} (hp : p.Settled) {w : ω}
    (hw : p.loop w = .resetting ∨ p.loop w = .pass) (hdb : (p.service.pc w).callsDb = true) :
    (if p.loop w = .resetting then LoopPc.top else .pass).Fits (p.service.pc w).afterFailure := by
  have hfit := hp.fits w
  rcases hw with hw | hw
  · rw [hw] at hfit ⊢
    cases hpc : p.service.pc w with
    | down => trivial
    | polling | batch | claimed | sent =>
      rw [hpc] at hfit
      exact hfit.elim
  · rw [hw] at hfit ⊢
    cases hpc : p.service.pc w with
    | down =>
      rw [hpc] at hfit
      exact hfit.elim
    | polling => exact Nat.zero_le 20
    | batch ds =>
      rw [hpc] at hfit
      have hlen : ds.length ≤ 20 := hfit
      show ds.tail.length ≤ 20
      rw [List.length_tail]
      omega
    | claimed d rest =>
      rw [hpc] at hdb
      cases hdb
    | sent d out rest =>
      rw [hpc] at hfit
      exact Nat.le_of_lt hfit

theorem polling_of {c : LoopPc} {pc : Pc} (hfit : c.Fits pc) (hc : c = .top ∨ c = .asleep) :
    pc = .polling := by
  rcases hc with rfl | rfl <;> cases pc <;> first | rfl | exact hfit.elim

theorem Settled.step {p q : Server ω} {e : Event ω} (hp : p.Settled) (hst : Step p e q) :
    q.Settled := by
  have hpass : ∀ {w : ω} {pc : Pc}, p.loop w = .pass → p.service.pc w = pc →
      LoopPc.pass.Fits pc := fun hloop hpc => hpc ▸ hloop ▸ hp.fits _
  cases hst with
  | service l t hallow hst =>
    cases hst with
    | insert | replay => exact ⟨hp.fits, hp.down⟩
    | start w now hpc => exact hp.set _ (hp.up hallow (by decide)) trivial
    | listDue w now ds hpc hlist => exact hp.set _ (hp.up hallow (by decide)) hlist.length_le
    | refuse w d rest check reason c entry db hpc hcheck hdl =>
      have hlen : (d :: rest).length ≤ 20 := hpass hallow hpc
      exact hp.set db (hp.up hallow (by decide)) (Nat.le_of_succ_le hlen)
    | claim w d rest now hpc =>
      have hlen : (d :: rest).length ≤ 20 := hpass hallow hpc
      refine hp.set _ (hp.up hallow (by decide)) ?_
      split
      · exact hlen
      · exact Nat.le_of_succ_le hlen
    | send w d rest resp hpc =>
      have hlen : rest.length < 20 := hpass hallow hpc
      exact hp.set _ (hp.up hallow (by decide)) hlen
    | record w d out rest c db hpc hrec =>
      have hlen : rest.length < 20 := hpass hallow hpc
      exact hp.set db (hp.up hallow (by decide)) (Nat.le_of_lt hlen)
    | dbFail w =>
      obtain ⟨hloop, hdb⟩ := hallow
      have hup : p.main ≠ .down := by
        rcases hloop with hw | hw
        · exact hp.up hw (by decide)
        · exact hp.up hw (by decide)
      exact hp.set _ hup (fits_afterFailure hp hloop hdb)
    | endPass w now hpc => exact hp.set _ (hp.up hallow (by decide)) trivial
    | restart cfg => exact hallow.elim
  | check w htop hno =>
    have hpolling := polling_of (hp.fits w) (.inl htop)
    exact hp.setLoop (hp.up htop (by decide)) (hpolling ▸ trivial)
  | leave w hloop htold =>
    have hpolling := polling_of (hp.fits w) hloop
    have hup : p.main ≠ .down := by
      rcases hloop with hw | hw
      · exact hp.up hw (by decide)
      · exact hp.up hw (by decide)
    exact hp.setLoop hup (hpolling ▸ trivial)
  | wake w hloop =>
    have hpolling := polling_of (hp.fits w) (.inr hloop)
    exact hp.setLoop (hp.up hloop (by decide)) (hpolling ▸ trivial)
  | signal hmain => exact ⟨hp.fits, fun h => by cases h⟩
  | tell w hmain => exact ⟨hp.fits, hp.down⟩
  | exit hmain htold hout => exact ⟨hp.fits, fun _ => hout⟩
  | kill hmain => exact ⟨fun _ => trivial, fun _ _ => rfl⟩
  | boot cfg hmain => exact ⟨fun _ => trivial, fun h => by cases h⟩

theorem settled {h : List (Event ω)} {p : Server ω} (hp : (servers ω).Reaches h p) :
    p.Settled := by
  refine hp.invariant (I := fun _ p => p.Settled) (fun p hinit => ?_)
    (fun _ _ _ _ _ hI hst => hI.step hst)
  refine ⟨fun w => ?_, fun _ => hinit.2.1⟩
  rw [hinit.1.2 w, hinit.2.1 w]
  trivial

/-- The step of the service behind an event. -/
def Event.label (p : Server ω) : Event ω → Option (Label ω)
  | .service l => some l
  | .kill => some (.restart p.service.cfg)
  | .boot cfg => some (.restart cfg)
  | .check _ | .leave _ | .wake _ | .signal | .tell _ | .exit => none

theorem Step.service_step {p q : Server ω} {e : Event ω} (hst : Step p e q) :
    (e.label p = none ∧ q.service = p.service) ∨
      ∃ l, e.label p = some l ∧ Q.Step p.service l q.service := by
  cases hst with
  | service l t hallow hst => exact .inr ⟨l, rfl, hst⟩
  | kill hmain => exact .inr ⟨_, rfl, Q.Step.restart p.service p.service.cfg⟩
  | boot cfg hmain => exact .inr ⟨_, rfl, Q.Step.restart p.service cfg⟩
  | check | leave | wake | signal | tell | exit => exact .inl ⟨rfl, rfl⟩

/-- A run of the servers is a run of the service. -/
theorem reaches {h : List (Server ω × Event ω)} {p : Server ω}
    (hp : (servers ω).logged.Reaches h p) :
    (system ω).Reaches (h.filterMap fun e => e.2.label e.1) p.service := by
  induction hp with
  | init hinit => exact .init hinit.1
  | @step h p e q hp hst ih =>
    obtain ⟨p', e⟩ := e
    obtain ⟨heq, hst⟩ := hst
    obtain rfl : p' = p := heq
    let f (e : Server ω × Event ω) : Option (Label ω) := e.2.label e.1
    rcases Step.service_step hst with ⟨hnone, hsame⟩ | ⟨l, hl, hstep⟩
    · have hskip : f (p', e) = none := hnone
      rw [List.filterMap_cons_none hskip]
      exact ih.of_eq hsame.symm
    · have hlabel : f (p', e) = some l := hl
      rw [List.filterMap_cons_some hlabel]
      exact ih.step hstep

/-! ## What a worker still does -/

/-- The worker that the event is a turn of. -/
def Event.worker : Event ω → Option ω
  | .service l => l.worker
  | .check w | .leave w | .wake w => some w
  | .signal | .tell _ | .exit | .kill | .boot _ => none

def Event.turns (w : ω) (e : Event ω) : Bool := decide (e.worker = some w)

def Event.lists (w : ω) : Event ω → Bool
  | .service (.listDue v ..) => decide (v = w)
  | _ => false

def Event.sends (w : ω) : Event ω → Bool
  | .service (.send v ..) => decide (v = w)
  | _ => false

/-- Where a worker is, in the loop and in the service. -/
def place (p : Server ω) (w : ω) : LoopPc × Pc := (p.loop w, p.service.pc w)

/-- The batches, the sends and the turns that are left to a worker. -/
def listsLeft : LoopPc × Pc → Nat
  | (.pass, .polling) => 1
  | _ => 0

def sendsLeft : LoopPc × Pc → Nat
  | (.pass, .polling) => 20
  | (.pass, .batch ds) => ds.length
  | (.pass, .claimed _ rest) => rest.length + 1
  | (.pass, .sent _ _ rest) => rest.length
  | _ => 0

def turnsLeft : LoopPc × Pc → Nat
  | (.top, _) => 1
  | (.asleep, _) | (.resetting, _) => 2
  | (.pass, .polling) => 64
  | (.pass, .batch ds) => 3 * ds.length + 3
  | (.pass, .claimed _ rest) => 3 * rest.length + 5
  | (.pass, .sent _ _ rest) => 3 * rest.length + 4
  | _ => 0

/-- What is left before a turn pays for the turn and for what is left after it. -/
structure Pays (w : ω) (e : Event ω) (a b : LoopPc × Pc) : Prop where
  lists : listsLeft b + (if e.lists w then 1 else 0) ≤ listsLeft a
  sends : sendsLeft b + (if e.sends w then 1 else 0) ≤ sendsLeft a
  turns : turnsLeft b + 1 ≤ turnsLeft a

theorem place_set (p : Server ω) (db : Db) (v : ω) (c : LoopPc) (pc : Pc) (w : ω) :
    place { p.setLoop v c with service := State.setPc { p.service with db := db } v pc } w =
      if w = v then (c, pc) else p.place w := by
  by_cases hw : w = v
  · rw [if_pos hw, hw]
    exact congrArg₂ Prod.mk (p.setLoop_self v c) (State.setPc_self _ v pc)
  · rw [if_neg hw]
    exact congrArg₂ Prod.mk (p.setLoop_ne c hw) (State.setPc_ne _ pc hw)

theorem place_setLoop (p : Server ω) (v : ω) (c : LoopPc) (w : ω) :
    place (p.setLoop v c) w = if w = v then (c, p.service.pc v) else p.place w := by
  by_cases hw : w = v
  · rw [if_pos hw, hw]
    exact congrArg₂ Prod.mk (p.setLoop_self v c) rfl
  · rw [if_neg hw]
    exact congrArg₂ Prod.mk (p.setLoop_ne c hw) rfl

theorem pays_dbFail {v : ω} {c : LoopPc} {pc : Pc} (hfit : c.Fits pc)
    (hc : c = .resetting ∨ c = .pass) (hdb : pc.callsDb = true) :
    Pays v (.service (.dbFail v)) (c, pc)
      (if c = .resetting then .top else .pass, pc.afterFailure) := by
  rcases hc with rfl | rfl
  · cases pc with
    | down => exact ⟨Nat.le_refl _, Nat.le_refl _, Nat.le_refl _⟩
    | polling | batch | claimed | sent => exact hfit.elim
  · cases pc with
    | down => exact hfit.elim
    | polling => exact ⟨Nat.zero_le _, Nat.zero_le _, of_decide_eq_true rfl⟩
    | batch ds =>
      cases ds with
      | nil => cases hdb
      | cons d rest =>
        refine ⟨Nat.le_refl _, Nat.le_succ _, ?_⟩
        show 3 * rest.length + 3 + 1 ≤ 3 * (rest.length + 1) + 3
        omega
    | claimed d rest => cases hdb
    | sent d out rest => exact ⟨Nat.le_refl _, Nat.le_refl _, Nat.le_refl _⟩

/-- A worker that was told to stop moves by a turn that is paid for, or is killed. -/
theorem Step.pays {p q : Server ω} {e : Event ω} (hst : Step p e q) (hp : p.Settled) {w : ω}
    (htold : p.told w = true) (hboot : ∀ cfg, e ≠ .boot cfg) :
    (e.worker = some w ∧ Pays w e (p.place w) (q.place w)) ∨
      (e.worker ≠ some w ∧ (q.place w = p.place w ∨ q.place w = (.out, .down))) := by
  -- A step that moves `v` is a turn of `v` and nothing to another.
  have hmove : ∀ {v : ω} {b : LoopPc × Pc}, e.worker = some v →
      q.place w = (if w = v then b else p.place w) → (v = w → Pays v e (p.place v) b) →
      (e.worker = some w ∧ Pays w e (p.place w) (q.place w)) ∨
        (e.worker ≠ some w ∧ (q.place w = p.place w ∨ q.place w = (.out, .down))) := by
    intro v b hv hq hpays
    rw [hq]
    by_cases hw : w = v
    · subst hw
      rw [if_pos rfl]
      exact .inl ⟨hv, hpays rfl⟩
    · rw [if_neg hw, hv]
      exact .inr ⟨fun h => hw (Option.some.inj h).symm, .inl rfl⟩
  have hplace : ∀ {v : ω} {c : LoopPc} {pc : Pc}, p.loop v = c → p.service.pc v = pc →
      p.place v = (c, pc) := fun hc hpc => congrArg₂ Prod.mk hc hpc
  cases hst with
  | service l t hallow hst =>
    cases hst with
    | insert | replay => exact .inr ⟨(fun h => by cases h), .inl rfl⟩
    | start v now hpc =>
      refine hmove rfl (p.place_set ..) fun _ => ?_
      rw [hplace hallow hpc]
      exact ⟨Nat.le_refl _, Nat.le_refl _, Nat.le_refl _⟩
    | listDue v now ds hpc hlist =>
      refine hmove rfl (p.place_set ..) fun _ => ?_
      rw [hplace hallow hpc]
      have hlen : ds.length ≤ 20 := hlist.length_le
      refine ⟨?_, hlen, ?_⟩
      · simp [listsLeft, Event.lists]
      · show 3 * ds.length + 3 + 1 ≤ 64
        omega
    | refuse v d rest check reason c entry db hpc hcheck hdl =>
      refine hmove rfl (p.place_set ..) fun _ => ?_
      rw [hplace hallow hpc]
      refine ⟨Nat.le_refl _, Nat.le_succ _, ?_⟩
      show 3 * rest.length + 3 + 1 ≤ 3 * (rest.length + 1) + 3
      omega
    | claim v d rest now hpc =>
      refine hmove rfl (p.place_set ..) fun _ => ?_
      rw [hplace hallow hpc]
      split
      · refine ⟨Nat.le_refl _, Nat.le_refl _, ?_⟩
        show 3 * rest.length + 5 + 1 ≤ 3 * (rest.length + 1) + 3
        omega
      · refine ⟨Nat.le_refl _, Nat.le_succ _, ?_⟩
        show 3 * rest.length + 3 + 1 ≤ 3 * (rest.length + 1) + 3
        omega
    | send v d rest resp hpc =>
      refine hmove rfl (p.place_set p.service.db ..) fun _ => ?_
      rw [hplace hallow hpc]
      refine ⟨Nat.le_refl _, ?_, Nat.le_refl _⟩
      simp [sendsLeft, Event.sends]
    | record v d out rest c db hpc hrec =>
      refine hmove rfl (p.place_set ..) fun _ => ?_
      rw [hplace hallow hpc]
      exact ⟨Nat.le_refl _, Nat.le_refl _, Nat.le_refl _⟩
    | dbFail v =>
      exact hmove rfl (p.place_set ..) fun _ => pays_dbFail (hp.fits v) hallow.1 hallow.2
    | endPass v now hpc =>
      refine hmove rfl (p.place_set ..) fun _ => ?_
      rw [hplace hallow hpc]
      exact ⟨Nat.le_refl _, Nat.le_refl _, Nat.le_refl _⟩
    | restart cfg => exact hallow.elim
  | check v htop hno =>
    refine hmove rfl (p.place_setLoop ..) fun hv => ?_
    rw [hv, htold] at hno
    cases hno
  | leave v hloop hv =>
    refine hmove rfl (p.place_setLoop ..) fun _ => ?_
    rcases hloop with hloop | hloop
    · rw [hplace hloop rfl]
      exact ⟨Nat.zero_le _, Nat.zero_le _, Nat.le_refl 1⟩
    · rw [hplace hloop rfl]
      exact ⟨Nat.zero_le _, Nat.zero_le _, Nat.le_succ 1⟩
  | wake v hloop =>
    refine hmove rfl (p.place_setLoop ..) fun _ => ?_
    rw [hplace hloop (polling_of (hp.fits v) (.inr hloop))]
    exact ⟨Nat.le_refl _, Nat.le_refl _, Nat.le_refl _⟩
  | signal | tell | exit => exact .inr ⟨(fun h => by cases h), .inl rfl⟩
  | kill hmain => exact .inr ⟨(fun h => by cases h), .inr rfl⟩
  | boot cfg hmain => exact absurd rfl (hboot cfg)

theorem Step.told {p q : Server ω} {e : Event ω} (hst : Step p e q) {w : ω}
    (htold : p.told w = true) (hboot : ∀ cfg, e ≠ .boot cfg) : q.told w = true := by
  cases hst with
  | service l t hallow hst =>
    have hsame : (p.after l).told = p.told := by cases l <;> rfl
    exact (congrFun hsame w).trans htold
  | tell v hmain =>
    show (if w = v then true else p.told w) = true
    rw [htold]
    exact ite_self true
  | boot cfg hmain => exact absurd rfl (hboot cfg)
  | check | leave | wake | signal | exit | kill => exact htold

variable (ω) in
/-- One process to its end. -/
def tillBoot : System (Server ω) (Event ω) :=
  (servers ω).restrict fun _ e => ∀ cfg, e ≠ .boot cfg

/-- What each turn pays for bounds what a worker does once it was told to stop. -/
theorem paid {w : ω} {left : LoopPc × Pc → Nat} {hit : Event ω → Bool}
    (hpays : ∀ {e a b}, Pays w e a b → left b + (if hit e then 1 else 0) ≤ left a)
    (hown : ∀ {e}, hit e = true → e.worker = some w) (hout : left (.out, .down) = 0)
    {p q : Server ω} {h : List (Event ω)} (hp : p.Settled) (htold : p.told w = true)
    (hpath : (tillBoot ω).Path p h q) :
    (q.Settled ∧ q.told w = true) ∧ left (q.place w) + h.countP hit ≤ left (p.place w) := by
  refine hpath.paid_turns (f := fun p => p.place w)
    (P := fun p => p.Settled ∧ p.told w = true) hout ?_ ⟨hp, htold⟩
  rintro s e t ⟨hs, hs'⟩ ⟨hboot, hst⟩
  refine ⟨⟨hs.step hst, Step.told hst hs' hboot⟩, ?_⟩
  rcases Step.pays hst hs hs' hboot with ⟨-, hpaid⟩ | ⟨hother, hsame⟩
  · exact .inl (hpays hpaid)
  · exact .inr ⟨Bool.eq_false_iff.2 fun hhit => hother (hown hhit), hsame⟩

omit [DecidableEq ω] in
/-- What is left to a worker at most, wherever it is. -/
theorem Settled.left_le {p : Server ω} (hp : p.Settled) (w : ω) :
    listsLeft (p.place w) ≤ 1 ∧ sendsLeft (p.place w) ≤ 20 ∧ turnsLeft (p.place w) ≤ 64 := by
  have hfit := hp.fits w
  have hplace : p.place w = (p.loop w, p.service.pc w) := rfl
  rw [hplace]
  cases hloop : p.loop w with
  | out | top | asleep | resetting => exact of_decide_eq_true rfl
  | pass =>
    rw [hloop] at hfit
    cases hpc : p.service.pc w with
    | down | polling => exact of_decide_eq_true rfl
    | batch ds =>
      rw [hpc] at hfit
      have hlen : ds.length ≤ 20 := hfit
      refine ⟨Nat.zero_le 1, hlen, ?_⟩
      show 3 * ds.length + 3 ≤ 64
      omega
    | claimed d rest =>
      rw [hpc] at hfit
      have hlen : rest.length < 20 := hfit
      refine ⟨Nat.zero_le 1, hlen, ?_⟩
      show 3 * rest.length + 5 ≤ 64
      omega
    | sent d out rest =>
      rw [hpc] at hfit
      have hlen : rest.length < 20 := hfit
      refine ⟨Nat.zero_le 1, Nat.le_of_lt hlen, ?_⟩
      show 3 * rest.length + 4 ≤ 64
      omega

/-- A worker that was told to stop and is still there can take a turn. -/
theorem Settled.moves {p : Server ω} (hp : p.Settled) {w : ω} (htold : p.told w = true)
    (hw : p.loop w ≠ .out) : ∃ e q, e.worker = some w ∧ Step p e q := by
  have hfit := hp.fits w
  have hserve : ∀ {l : Label ω} {t : State ω}, Q.Step p.service l t → p.Allows l →
      l.worker = some w → ∃ e q, e.worker = some w ∧ Step p e q :=
    fun {l t} hst hallow hl => ⟨.service l, _, hl, .service p l t hallow hst⟩
  -- A call of the database that is due may succeed or not; that it fails is always open.
  have hfails : (p.loop w = .resetting ∨ p.loop w = .pass) →
      (p.service.pc w).callsDb = true → ∃ e q, e.worker = some w ∧ Step p e q :=
    fun hloop hdb => hserve (.dbFail _ w) ⟨hloop, hdb⟩ rfl
  cases hloop : p.loop w with
  | out => exact absurd hloop hw
  | top => exact ⟨_, _, rfl, .leave p w (.inl hloop) htold⟩
  | asleep => exact ⟨_, _, rfl, .leave p w (.inr hloop) htold⟩
  | resetting =>
    cases hpc : p.service.pc w with
    | down => exact hserve (.start _ w 0 hpc) hloop rfl
    | polling | batch | claimed | sent =>
      rw [hloop, hpc] at hfit
      exact hfit.elim
  | pass =>
    cases hpc : p.service.pc w with
    | down =>
      rw [hloop, hpc] at hfit
      exact hfit.elim
    | polling | sent => exact hfails (.inr hloop) (by rw [hpc]; rfl)
    | batch ds =>
      cases ds with
      | nil => exact hserve (.endPass _ w 0 hpc) hloop rfl
      | cons d rest => exact hserve (.claim _ w d rest 0 hpc) hloop rfl
    | claimed d rest => exact hserve (.send _ w d rest (.status 200) hpc) hloop rfl

theorem Event.worker_of_lists {w : ω} {e : Event ω} (h : e.lists w = true) :
    e.worker = some w := by
  unfold Event.lists at h
  split at h
  · exact congrArg some (of_decide_eq_true h)
  · cases h

theorem Event.worker_of_sends {w : ω} {e : Event ω} (h : e.sends w = true) :
    e.worker = some w := by
  unfold Event.sends at h
  split at h
  · exact congrArg some (of_decide_eq_true h)
  · cases h

/-- Once a worker was told to stop it lists one more batch at most, and none unless it had
passed the check and has not listed since; it makes at most twenty sends and takes at most 64
turns, whatever its calls answer and however many requests come in; and as long as it is
there its next turn is open to it, so that the wait of `run` ends. -/
theorem stop_bounded {h h' : List (Event ω)} {p q : Server ω} (hp : (servers ω).Reaches h p)
    {w : ω} (htold : p.told w = true) (hpath : (tillBoot ω).Path p h' q) :
    h'.countP (Event.lists w) ≤ 1 ∧
      (p.loop w ≠ .pass ∨ p.service.pc w ≠ .polling → h'.countP (Event.lists w) = 0) ∧
      h'.countP (Event.sends w) ≤ 20 ∧ h'.countP (Event.turns w) ≤ 64 ∧
      (q.loop w ≠ .out → ∃ e u, e.worker = some w ∧ Step q e u) := by
  have hsettled := settled hp
  have hlists : listsLeft (q.place w) + h'.countP (Event.lists w) ≤ listsLeft (p.place w) :=
    (paid Pays.lists Event.worker_of_lists rfl hsettled htold hpath).2
  have hsends : sendsLeft (q.place w) + h'.countP (Event.sends w) ≤ sendsLeft (p.place w) :=
    (paid Pays.sends Event.worker_of_sends rfl hsettled htold hpath).2
  have hturn : ∀ {e : Event ω} {a b}, Pays w e a b →
      turnsLeft b + (if Event.turns w e then 1 else 0) ≤ turnsLeft a := by
    intro e a b hpays
    have hpay := hpays.turns
    split <;> omega
  obtain ⟨⟨hq, hstill⟩, hturns⟩ : (q.Settled ∧ q.told w = true) ∧
      turnsLeft (q.place w) + h'.countP (Event.turns w) ≤ turnsLeft (p.place w) :=
    paid hturn of_decide_eq_true rfl hsettled htold hpath
  obtain ⟨hone, htwenty, hall⟩ := hsettled.left_le w
  refine ⟨by omega, fun hpast => ?_, by omega, by omega, hq.moves hstill⟩
  have hzero : listsLeft (p.place w) = 0 := by
    unfold listsLeft place
    split
    · rename_i heq
      obtain ⟨hloop, hpc⟩ := Prod.mk.inj heq
      rcases hpast with hne | hne
      · exact absurd hloop hne
      · exact absurd hpc hne
    · rfl
  omega

/-- Before anything is started. -/
def idle : Server Unit where
  service := ⟨Db.empty, quick, fun _ => .down⟩
  loop _ := .out
  told _ := false
  main := .down

theorem idle_booted : (servers Unit).Reaches [.boot quick]
    ⟨stopped idle.service quick, fun _ => .resetting, fun _ => false, .serving⟩ := by
  have hidle : (servers Unit).Reaches [] idle := .init ⟨⟨rfl, fun _ => rfl⟩, fun _ => rfl, rfl⟩
  exact hidle.step (.boot idle quick rfl)

/-- A worker is told to stop when it has looked at its flag, with the hook to list. -/
def toldServer : Server Unit where
  service := ⟨Op.run Db.empty (.insert hook 0), quick, fun _ => .polling⟩
  loop _ := .pass
  told _ := true
  main := .stopping

theorem toldServer_reached : (servers Unit).Reaches
    [.tell (), .signal, .check (), .service (.start () 0), .service (.insert hook 0),
      .boot quick] toldServer := by
  have hstored := idle_booted.step (.service _ (.insert hook 0) _ (fun h => by cases h)
    (.insert _ hook 0 _ rfl))
  have hstarted := hstored.step (.service _ (.start () 0) _ rfl (.start _ () 0 rfl))
  exact ((hstarted.step (.check _ () rfl rfl)).step (.signal _ rfl)).step (.tell _ () rfl)

/-- What the worker does from there on; the latest event is the first. -/
def lastPass : List (Event Unit) :=
  [.leave (), .service (.endPass () 0), .service (.record () hookRead .delivered),
    .service (.send () hookRead 1 .delivered), .service (.claim () hookRead 0 true),
    .service (.listDue () 0 [hookRead])]

/-- It lists the batch, sends the hook and returns, and no more than that. -/
theorem stop_bounded_listing : ∃ q : Server Unit,
    (tillBoot Unit).Path toldServer lastPass q ∧ q.loop () = .out ∧
      lastPass.countP (Event.lists ()) = 1 ∧ lastPass.countP (Event.sends ()) = 1 ∧
      lastPass.countP (Event.lists ()) ≤ 1 ∧ lastPass.countP (Event.sends ()) ≤ 20 ∧
      lastPass.countP (Event.turns ()) ≤ 64 := by
  have hlisted : (tillBoot Unit).Path toldServer [.service (.listDue () 0 [hookRead])]
      { toldServer with service := toldServer.service.setPc () (.batch [hookRead]) } :=
    System.Path.nil.cons ⟨(fun _ h => by cases h),
      .service _ (.listDue () 0 [hookRead]) _ rfl (.listDue _ () 0 [hookRead] rfl
        ⟨[newRow hook 0], ⟨_, List.Perm.refl _, List.pairwise_singleton _ _, rfl⟩, rfl⟩)⟩
  have hclaimed := hlisted.cons ⟨(fun _ h => by cases h), .service _ (.claim () hookRead 0 true) _
    rfl (.claim _ () hookRead [] 0 rfl)⟩
  have hsent := hclaimed.cons ⟨(fun _ h => by cases h), .service _ (.send () hookRead 1 .delivered)
    _ rfl (.send _ () hookRead [] (.status 200) rfl)⟩
  have hrecorded := hsent.cons ⟨(fun _ h => by cases h), .service _
    (.record () hookRead .delivered) _ rfl (.record _ () hookRead .delivered [] noDraw _ rfl rfl)⟩
  have hended := hrecorded.cons ⟨(fun _ h => by cases h), .service _ (.endPass () 0) _ rfl
    (.endPass _ () 0 rfl)⟩
  have hleft := hended.cons ⟨(fun _ h => by cases h), .leave _ () (.inr rfl) rfl⟩
  obtain ⟨hlists, -, hsends, hturns, -⟩ := stop_bounded toldServer_reached rfl hleft
  exact ⟨_, hleft, rfl, rfl, rfl, hlists, hsends, hturns⟩

/-! ## What a stop loses -/

def Event.takes (id : Uuid) : Event ω → Bool
  | .service l => l.takes id
  | _ => false

/-- The event takes the delivery from the worker with no outcome stored: the write has failed,
or the process was killed. -/
def Drops (w : ω) (id : Uuid) (e : Server ω × Event ω) : Prop :=
  match e.2 with
  | .service l => Loses w id (e.1.service, l)
  | .kill => True
  | _ => False

/-- `h₁` is what has happened since the last claim of the delivery, which `w` made. -/
def TakenSince (h : List (Server ω × Event ω)) (w : ω) (id : Uuid)
    (h₁ : List (Server ω × Event ω)) : Prop :=
  ∃ p₀ d now h₀, h = h₁ ++ (p₀, .service (.claim w d now true)) :: h₀ ∧ d.id = id ∧
    ∀ e ∈ h₁, e.2.takes id = false

/-- The worker that claimed the delivery last has dropped it since. -/
def DroppedSince (h : List (Server ω × Event ω)) (id : Uuid) : Prop :=
  ∃ w h₁, TakenSince h w id h₁ ∧ ∃ e ∈ h₁, Drops w id e

omit [DecidableEq ω] in
theorem TakenSince.cons {h h₁ : List (Server ω × Event ω)} {w : ω} {id : Uuid}
    {e : Server ω × Event ω} (ht : TakenSince h w id h₁) (he : e.2.takes id = false) :
    TakenSince (e :: h) w id (e :: h₁) := by
  obtain ⟨p₀, d, now, h₀, rfl, hid, hnone⟩ := ht
  exact ⟨p₀, d, now, h₀, rfl, hid, List.forall_mem_cons.2 ⟨he, hnone⟩⟩

omit [DecidableEq ω] in
theorem DroppedSince.cons {h : List (Server ω × Event ω)} {id : Uuid}
    {e : Server ω × Event ω} (ht : DroppedSince h id) (he : e.2.takes id = false) :
    DroppedSince (e :: h) id := by
  obtain ⟨w, h₁, htaken, e', he', hdrops⟩ := ht
  exact ⟨w, e :: h₁, htaken.cons he, e', List.mem_cons_of_mem e he', hdrops⟩

omit [DecidableEq ω] in
/-- A worker that has returned has no delivery. -/
theorem Settled.not_held {p : Server ω} (hp : p.Settled) {w : ω} (hw : p.loop w = .out)
    (id : Uuid) : id ∉ p.service.heldIds w := by
  have hfit := hp.fits w
  rw [hw] at hfit
  unfold State.heldIds
  cases hpc : p.service.pc w with
  | down | polling => exact List.not_mem_nil
  | batch | claimed | sent =>
    rw [hpc] at hfit
    exact hfit.elim

/-- A delivery in flight is with the worker that claimed it last, or that worker has dropped
it. -/
theorem held_or_dropped {h : List (Server ω × Event ω)} {p : Server ω}
    (hp : (servers ω).logged.Reaches h p) {id : Uuid} {r : DeliveryRow}
    (hr : p.service.db.row id = some r) (hflight : r.status = .inFlight) :
    (∃ w h₁, id ∈ p.service.heldIds w ∧ TakenSince h w id h₁) ∨ DroppedSince h id := by
  induction hp with
  | init hinit =>
    rw [hinit.1.1] at hr
    cases hr
  | @step h p e q hp hst ih =>
    obtain ⟨p', e⟩ := e
    obtain ⟨heq, hst⟩ := hst
    obtain rfl : p' = p := heq
    have hsettled := settled hp.of_logged
    cases hst with
    | service l t hallow hstep =>
      cases htakes : l.takes id with
      | true =>
        obtain ⟨w, d, rfl, hid, hheld⟩ := Q.Step.taken hstep htakes hr
        exact .inl ⟨w, [], hheld, p', d, r.updatedAt, h, rfl, hid,
          fun e he => absurd he List.not_mem_nil⟩
      | false =>
        rcases ih (hstep.inFlight_of hr hflight htakes) with ⟨w, h₁, hheld, htaken⟩ | hdropped
        · by_cases hloses : Loses w id (p'.service, l)
          · exact .inr ⟨w, _ :: h₁, htaken.cons htakes, _, List.mem_cons_self, hloses⟩
          · exact .inl ⟨w, _ :: h₁, hstep.keeps_held hr hflight hheld hloses,
              htaken.cons htakes⟩
        · exact .inr (hdropped.cons htakes)
    | kill hmain =>
      rcases ih hr with ⟨w, h₁, -, htaken⟩ | hdropped
      · exact .inr ⟨w, _ :: h₁, htaken.cons rfl, _, List.mem_cons_self, trivial⟩
      · exact .inr (hdropped.cons rfl)
    | boot cfg hmain =>
      rcases ih hr with ⟨w, h₁, hheld, -⟩ | hdropped
      · exact absurd hheld (hsettled.not_held (hsettled.down hmain w) id)
      · exact .inr (hdropped.cons rfl)
    | check | leave | wake | signal | tell | exit =>
      rcases ih hr with ⟨w, h₁, hheld, htaken⟩ | hdropped
      · exact .inl ⟨w, _ :: h₁, hheld, htaken.cons rfl⟩
      · exact .inr (hdropped.cons rfl)

/-- When `run` has waited for its workers and returns, every delivery still in flight had been
dropped before: the worker that claimed it last could not store its outcome, or an earlier
process was killed.  The stop itself takes no delivery, and no row changes with it. -/
theorem stop_loses_nothing {h : List (Server ω × Event ω)} {p q : Server ω}
    (hp : (servers ω).logged.Reaches h p) (hst : Step p .exit q) :
    q.service.db = p.service.db ∧
      ∀ id r, q.service.db.row id = some r → r.status = .inFlight → DroppedSince h id := by
  cases hst with
  | exit hmain htold hout =>
    refine ⟨rfl, fun id r hr hflight => ?_⟩
    rcases held_or_dropped hp hr hflight with ⟨w, h₁, hheld, -⟩ | hdropped
    · exact absurd hheld ((settled hp.of_logged).not_held (hout w) id)
    · exact hdropped

/-- The hook is answered, and the write of the outcome fails. -/
theorem stop_loses_nothing_hook : ∃ h p, (servers Unit).logged.Reaches h p ∧
    p.main = .stopping ∧ DroppedSince h 1 := by
  have h₁ := idle_booted.step (.service _ (.insert hook 0) _ (fun h => by cases h)
    (.insert _ hook 0 _ rfl))
  have h₂ := h₁.step (.service _ (.start () 0) _ rfl (.start _ () 0 rfl))
  have h₃ := h₂.step (.check _ () rfl rfl)
  have h₄ := h₃.step (.service _ (.listDue () 0 [hookRead]) _ rfl
    (.listDue _ () 0 [hookRead] rfl
      ⟨[newRow hook 0], ⟨_, List.Perm.refl _, List.pairwise_singleton _ _, rfl⟩, rfl⟩))
  have h₅ := h₄.step (.service _ (.claim () hookRead 0 true) _ rfl (.claim _ () hookRead [] 0 rfl))
  have h₆ := h₅.step (.service _ (.send () hookRead 1 .delivered) _ rfl
    (.send _ () hookRead [] (.status 200) rfl))
  have h₇ := h₆.step (.service _ (.dbFail ()) _ ⟨.inr rfl, rfl⟩ (.dbFail _ ()))
  have h₈ := h₇.step (.service _ (.endPass () 0) _ rfl (.endPass _ () 0 rfl))
  have h₉ := ((h₈.step (.signal _ rfl)).step (.tell _ () rfl)).step (.leave _ () (.inr rfl) rfl)
  obtain ⟨h, -, hlogged⟩ := h₉.logged
  exact ⟨h, _, hlogged, rfl, (stop_loses_nothing hlogged
    (.exit _ rfl (fun _ => rfl) fun _ => rfl)).2 1 (asClaimed 0 (newRow hook 0)) rfl rfl⟩

end Server
end Q
end WebhookDelivery
