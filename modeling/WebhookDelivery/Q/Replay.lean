/-
The replay endpoint of `q` while calls of it race.

`replay` finds an entry, and then updates the delivery that the entry names, and anything
may happen between the two.  An entry stays when it has been used, so calls may come
through old entries, and any number of them through one.  The `UPDATE` asks for a dead
letter, and this alone makes each answer 202 use up one time that the delivery was
dead-lettered.
-/
import WebhookDelivery.Run.Progress
import WebhookDelivery.Q.Completeness
import WebhookDelivery.Q.DeadLetters

namespace WebhookDelivery
namespace Q

open Sql Run

variable {ω κ : Type}

/-! ## The calls -/

/-- The service, the key that its process was started with, and the delivery that each
call has found. -/
structure Replaying (ω κ : Type) where
  service : State ω
  adminKey : String
  call : κ → Option Uuid

/-- What the service does of itself, or a statement of a call. -/
inductive Replaying.Event (ω κ : Type)
  | serve (l : Label ω)
  | lookup (k : κ) (headers : HeaderMap) (entryId : Uuid) (res : Except ApiError Uuid)
  | update (k : κ) (id : Uuid) (now : Int) (res : Except ApiError Uuid)
  | failed (k : κ)
  | restart (cfg : Config) (adminKey : String)

/-- The step of the service behind an event. -/
def Replaying.Event.label : Replaying.Event ω κ → Option (Label ω)
  | .serve l => some l
  | .update _ id now res => some (.replay id now res.isOk)
  | .restart cfg _ => some (.restart cfg)
  | .lookup .. | .failed _ => none

/-- Replays and restarts have events of their own. -/
def Label.Internal : Label ω → Prop
  | .replay .. | .restart _ => False
  | _ => True

/-! ## What a run tells of them -/

/-- An outcome, or the refusal of a destination, is written over a dead letter. -/
def Label.overwrites (id : Uuid) (s : State ω) : Label ω → Bool
  | .refuse _ d _ | .record _ d _ => decide (d.id = id) && s.db.isDeadLettered id
  | _ => false

/-- The answer is 202, and the delivery is requeued. -/
def Replaying.Event.answers (id : Uuid) : Replaying.Event ω κ → Bool
  | .update _ _ _ (.ok r) => r = id
  | _ => false

/-- A dead letter is overwritten. -/
def overwritten (id : Uuid) (x : Replaying ω κ × Replaying.Event ω κ) : Bool :=
  x.2.label.any fun l => l.overwrites id x.1.service

/-- The event is one of the call, or ends it. -/
def Replaying.Event.Touches (k : κ) : Replaying.Event ω κ → Prop
  | .lookup j .. | .update j .. | .failed j => j = k
  | .restart .. => True
  | .serve _ => False

/-- The last thing that the call has done is to find the delivery, by an entry of it, for
a request that shows the admin key. -/
def LookedUp (h : List (Replaying ω κ × Replaying.Event ω κ)) (k : κ) (id : Uuid) : Prop :=
  ∃ h₁ m headers e h₀, h = h₁ ++ (m, .lookup k headers e.id (.ok id)) :: h₀ ∧
    (∀ x ∈ h₁, ¬x.2.Touches k) ∧ bearerToken headers = some m.adminKey ∧
    e ∈ m.service.db.deadLetters.rows ∧ e.deliveryId = id

theorem LookedUp.cons {h : List (Replaying ω κ × Replaying.Event ω κ)} {k : κ} {id : Uuid}
    (hl : LookedUp h k id) {x : Replaying ω κ × Replaying.Event ω κ} (hx : ¬x.2.Touches k) :
    LookedUp (x :: h) k id := by
  obtain ⟨h₁, m, headers, e, h₀, rfl, hno, hrest⟩ := hl
  refine ⟨x :: h₁, m, headers, e, h₀, rfl, fun y hy => ?_, hrest⟩
  rcases List.mem_cons.1 hy with rfl | hy
  · exact hx
  · exact hno y hy

/-! ## Steps -/

variable [DecidableEq ω] [DecidableEq κ]

def Replaying.setCall (m : Replaying ω κ) (k : κ) (found : Option Uuid) : Replaying ω κ :=
  { m with call := fun j => if j = k then found else m.call j }

omit [DecidableEq ω] in
theorem Replaying.setCall_self (m : Replaying ω κ) (k : κ) (found : Option Uuid) :
    (m.setCall k found).call k = found := if_pos rfl

omit [DecidableEq ω] in
theorem Replaying.setCall_ne (m : Replaying ω κ) {j k : κ} (found : Option Uuid) (h : j ≠ k) :
    (m.setCall k found).call j = m.call j := if_neg h

/-- `text` is the `Display` of a `DbError`. -/
inductive Replaying.Step (text : DbError → String) :
    Replaying ω κ → Replaying.Event ω κ → Replaying ω κ → Prop
  | serve (m : Replaying ω κ) (l : Label ω) (t : State ω) :
      l.Internal → Q.Step m.service l t →
      Replaying.Step text m (.serve l) { m with service := t }
  | lookup (m : Replaying ω κ) (k : κ) (headers : HeaderMap) (entryId : Uuid) :
      m.call k = none →
      Replaying.Step text m
        (.lookup k headers entryId (replayLookup text headers m.adminKey m.service.db entryId))
        (m.setCall k (replayLookup text headers m.adminKey m.service.db entryId).toOption)
  | update (m : Replaying ω κ) (k : κ) (id : Uuid) (now : Int) :
      m.call k = some id →
      Replaying.Step text m (.update k id now (replayUpdate m.service.db id now).1)
        (Replaying.setCall
          { m with service := { m.service with db := (replayUpdate m.service.db id now).2 } }
          k none)
  | failed (m : Replaying ω κ) (k : κ) : Replaying.Step text m (.failed k) (m.setCall k none)
  | restart (m : Replaying ω κ) (cfg : Config) (adminKey : String) (t : State ω) :
      Q.Step m.service (.restart cfg) t →
      Replaying.Step text m (.restart cfg adminKey)
        { service := t, adminKey := adminKey, call := fun _ => none }

variable (ω κ) in
def replaying (text : DbError → String) : System (Replaying ω κ) (Replaying.Event ω κ) where
  init m := (system ω).init m.service ∧ ∀ k, m.call k = none
  step := Replaying.Step text

/-! ## One statement -/

theorem requireAdmin_ok {headers : HeaderMap} {adminKey : String}
    (h : requireAdmin headers adminKey = .ok ()) : bearerToken headers = some adminKey := by
  unfold requireAdmin adminAuthorized at h
  cases hb : bearerToken headers with
  | none => simp [hb] at h
  | some token =>
    simp only [hb, constantTimeEq, decide_eq_true_eq] at h
    split at h
    · rename_i hbytes
      rw [asBytes_inj hbytes]
    · cases h

/-- A lookup that finds a delivery. -/
theorem replayLookup_ok {text : DbError → String} {headers : HeaderMap} {adminKey : String}
    {db : Db} {entryId id : Uuid} (h : replayLookup text headers adminKey db entryId = .ok id) :
    bearerToken headers = some adminKey ∧
      ∃ e ∈ db.deadLetters.rows, e.id = entryId ∧ e.deliveryId = id := by
  unfold replayLookup at h
  cases hadmin : requireAdmin headers adminKey with
  | error e => simp [hadmin] at h
  | ok =>
    simp only [hadmin] at h
    refine ⟨requireAdmin_ok hadmin, ?_⟩
    unfold findDlqEntry at h
    cases hget : db.deadLetters.get? entryId with
    | none => simp [hget] at h
    | some e =>
      simp only [hget] at h
      cases hatt : getI32 e.attempts with
      | error err => simp [hatt] at h
      | ok n =>
        simp only [hatt] at h
        exact ⟨e, Table.mem_of_get? hget, Table.key_of_get? hget, Except.ok.inj h⟩

theorem replayUpdate_snd (db : Db) (id : Uuid) (now : Int) :
    (replayUpdate db id now).2 = (replayDeadLetter db id now).2 := by
  unfold replayUpdate
  split
  · rename_i db' heq
    rw [heq]
  · rename_i db' heq
    rw [heq]

theorem replayUpdate_isOk (db : Db) (id : Uuid) (now : Int) :
    (replayUpdate db id now).1.isOk = (replayDeadLetter db id now).1 := by
  unfold replayUpdate
  split
  · rename_i db' heq
    rw [heq]
    rfl
  · rename_i db' heq
    rw [heq]
    rfl

theorem accepted_eq (db : Db) (id : Uuid) (now : Int) :
    (replayDeadLetter db id now).1 = db.isDeadLettered id := by
  rw [Bool.eq_iff_iff, replayDeadLetter_fst, Db.isDeadLettered]
  cases db.row id <;> simp

/-- An answer 202 names the delivery, which was dead-lettered. -/
theorem replayUpdate_ok {db : Db} {id r : Uuid} {now : Int}
    (h : (replayUpdate db id now).1 = .ok r) : r = id ∧ db.isDeadLettered id = true := by
  have hacc : (replayDeadLetter db id now).1 = true := by
    rw [← replayUpdate_isOk, h]
    rfl
  constructor
  · unfold replayUpdate at h
    split at h
    · exact (Except.ok.inj h).symm
    · cases h
  · rw [← accepted_eq db id now]
    exact hacc

/-- The service takes the step of the event, or none. -/
theorem Replaying.Step.service {text : DbError → String} {m m' : Replaying ω κ}
    {e : Replaying.Event ω κ} (hst : Replaying.Step text m e m') :
    (e.label = none ∧ m'.service = m.service) ∨
      ∃ l, e.label = some l ∧ Q.Step m.service l m'.service := by
  cases hst with
  | serve l t hl hst => exact .inr ⟨l, rfl, hst⟩
  | lookup k headers entryId hcall => exact .inl ⟨rfl, rfl⟩
  | failed k => exact .inl ⟨rfl, rfl⟩
  | restart cfg adminKey t hst => exact .inr ⟨_, rfl, hst⟩
  | update k id now hcall =>
    refine .inr ⟨_, rfl, ?_⟩
    show Q.Step m.service _ { m.service with db := (replayUpdate m.service.db id now).2 }
    rw [replayUpdate_isOk, replayUpdate_snd]
    exact Q.Step.replay m.service id now

/-- A run with its calls is a run of the service. -/
theorem Replaying.reaches {text : DbError → String} {h : List (Replaying.Event ω κ)}
    {m : Replaying ω κ} (hm : (replaying ω κ text).Reaches h m) :
    (system ω).Reaches (h.filterMap Replaying.Event.label) m.service := by
  induction hm with
  | init hinit => exact .init hinit.1
  | @step h m e m' _ hst ih =>
    rcases Replaying.Step.service hst with ⟨hl, hsame⟩ | ⟨l, hl, hst⟩
    · rw [List.filterMap_cons_none hl, hsame]
      exact ih
    · rw [List.filterMap_cons_some hl]
      exact ih.step hst

/-! ## The balance -/

def Db.dead (db : Db) (id : Uuid) : Nat := if db.isDeadLettered id then 1 else 0

theorem dead_congr {db db' : Db} {id : Uuid} (h : db'.isDeadLettered id = db.isDeadLettered id) :
    db'.dead id = db.dead id := by
  rw [Db.dead, Db.dead, h]

/-- A write that makes a dead letter of the row, or a live one, whatever it was. -/
theorem dead_of_map {db db' : Db} {id : Uuid} {f : DeliveryRow → DeliveryRow} {b : Bool}
    (hrow : db'.row id = (db.row id).map f)
    (hf : ∀ r, (f r).status = .deadLetter ↔ b = true) :
    db'.dead id = if (db.row id).isSome ∧ b = true then 1 else 0 := by
  rw [Db.dead, Db.isDeadLettered, hrow]
  cases db.row id with
  | none => simp
  | some r => simp [hf r]

theorem dead_replayed (db : Db) (id : Uuid) (now : Int) :
    (replayDeadLetter db id now).2.dead id = 0 := by
  have hrow := row_replayDeadLetter db id now id
  rw [if_pos rfl] at hrow
  refine (dead_of_map (b := false) hrow fun r => ?_).trans (by simp)
  by_cases hdead : r.status = .deadLetter
  · simp [hdead, asReplayed]
  · simp [hdead]

/-- Each entry more, and each dead letter less, is accounted for by the label. -/
theorem Step.balance {s t : State ω} {l : Label ω} (hst : Q.Step s l t) (id : Uuid) :
    t.db.entries id + s.db.dead id = s.db.entries id + t.db.dead id +
      (if l.replays id then 1 else 0) + if l.overwrites id s then 1 else 0 := by
  have hframe : t.db.entries id = s.db.entries id →
      t.db.isDeadLettered id = s.db.isDeadLettered id →
      t.db.entries id + s.db.dead id = s.db.entries id + t.db.dead id + 0 + 0 := by
    intro hent hdead
    rw [hent, dead_congr hdead]
    rfl
  -- A write over the row takes with it what the row was, and leaves an entry for what it is.
  have hwrite : ∀ {k : Uuid} {f : DeliveryRow → DeliveryRow} {b : Bool},
      t.db.row id = (if id = k then (s.db.row k).map f else s.db.row id) →
      t.db.entries id = s.db.entries id +
        (if id = k ∧ (s.db.row k).isSome ∧ b = true then 1 else 0) →
      (∀ r, (f r).status = .deadLetter ↔ b = true) →
      t.db.entries id + s.db.dead id = s.db.entries id + t.db.dead id + 0 +
        if (decide (k = id) && s.db.isDeadLettered id) = true then 1 else 0 := by
    intro k f b hrow hent hf
    by_cases hk : id = k
    · subst hk
      rw [if_pos rfl] at hrow
      have hdead := dead_of_map hrow hf
      simp only [true_and, decide_true, Bool.true_and] at hent ⊢
      show _ = _ + _ + 0 + s.db.dead id
      omega
    · rw [if_neg hk] at hrow
      rw [if_neg fun h => hk h.1] at hent
      rw [decide_eq_false fun e => hk e.symm, Bool.false_and, if_neg Bool.false_ne_true]
      exact hframe hent (isDeadLettered_congr hrow)
  cases hst with
  | insert d now db hins =>
    obtain ⟨hnone, hrow, hent⟩ := row_insert hins id
    refine hframe hent ?_
    by_cases hid : d.id = id
    · subst hid
      rw [if_pos rfl] at hrow
      show db.isDeadLettered d.id = _
      rw [isDeadLettered_eq hrow, Db.isDeadLettered, hnone]
      rfl
    · exact isDeadLettered_congr (hrow.trans (if_neg hid))
  | replay k now =>
    show s.db.entries id + s.db.dead id =
      s.db.entries id + (replayDeadLetter s.db k now).2.dead id +
      (if (decide (k = id) && (replayDeadLetter s.db k now).1) = true then 1 else 0) + 0
    by_cases hk : k = id
    · subst hk
      rw [dead_replayed, accepted_eq, decide_eq_true rfl, Bool.true_and]
      rfl
    · rw [decide_eq_false hk, Bool.false_and, if_neg Bool.false_ne_true]
      exact hframe rfl (isDeadLettered_congr
        ((row_replayDeadLetter s.db k now id).trans (if_neg fun e => hk e.symm)))
  | start w now hpc =>
    refine hframe rfl ?_
    refine isDeadLettered_map (row_resetStaleInFlight s.db now s.staleMs id) fun r _ => ?_
    by_cases hstale : isStale now s.staleMs r = true
    · rw [if_pos hstale, (isStale_iff.1 hstale).1]
      simp [asReset]
    · rw [if_neg hstale]
  | refuse w d rest check reason c entry db hpc hcheck hdl =>
    obtain ⟨hrow, hent⟩ := deadLetter_ok hdl id
    have hent : db.entries id = s.db.entries id +
        if id = d.id ∧ (s.db.row d.id).isSome ∧ true = true then 1 else 0 := by
      simpa using hent
    exact hwrite hrow hent fun r => iff_of_true rfl rfl
  | claim w d rest now hpc =>
    refine hframe rfl ?_
    have hrow := row_claim s.db d.id now id
    by_cases hid : id = d.id
    · refine isDeadLettered_map (hrow.trans (by rw [if_pos hid, hid])) fun r _ => ?_
      by_cases hp : r.status = .pending
      · rw [if_pos hp, hp]
        simp [asClaimed]
      · rw [if_neg hp]
    · exact isDeadLettered_congr (hrow.trans (if_neg hid))
  | record w d out rest c db hpc hrec =>
    obtain ⟨hrow, hent⟩ := recordOutcome_ok hrec id
    exact hwrite hrow hent fun r => buries_iff s.cfg c d out r
  | listDue | send | dbFail | endPass | restart => exact hframe rfl rfl

/-! ## Whole runs -/

/-- A call that has found a delivery has looked it up. -/
theorem Replaying.Step.lookedUp {text : DbError → String} {m m' : Replaying ω κ}
    {e : Replaying.Event ω κ} {h : List (Replaying ω κ × Replaying.Event ω κ)}
    (hst : Replaying.Step text m e m')
    (hI : ∀ k id, m.call k = some id → LookedUp h k id) :
    ∀ k id, m'.call k = some id → LookedUp ((m, e) :: h) k id := by
  intro k id hk
  cases hst with
  | serve l t hl hst => exact (hI k id hk).cons fun htouch => htouch
  | lookup j headers entryId hfree =>
    by_cases hkj : k = j
    · subst hkj
      rw [Replaying.setCall_self] at hk
      cases hres : replayLookup text headers m.adminKey m.service.db entryId with
      | error err =>
        rw [hres] at hk
        cases hk
      | ok found =>
        rw [hres] at hk
        obtain rfl := Option.some.inj hk
        obtain ⟨hkey, entry, hentry, rfl, hid⟩ := replayLookup_ok hres
        exact ⟨[], m, headers, entry, h, rfl, fun _ hx => absurd hx List.not_mem_nil, hkey,
          hentry, hid⟩
    · rw [Replaying.setCall_ne m _ hkj] at hk
      exact (hI k id hk).cons fun htouch => hkj htouch.symm
  | update j found now hcall =>
    by_cases hkj : k = j
    · rw [hkj, Replaying.setCall_self] at hk
      cases hk
    · rw [Replaying.setCall_ne _ _ hkj] at hk
      exact (hI k id hk).cons fun htouch => hkj htouch.symm
  | failed j =>
    by_cases hkj : k = j
    · rw [hkj, Replaying.setCall_self] at hk
      cases hk
    · rw [Replaying.setCall_ne m _ hkj] at hk
      exact (hI k id hk).cons fun htouch => hkj htouch.symm
  | restart cfg adminKey t hst => cases hk

theorem lookedUp_of_reaches {text : DbError → String}
    {h : List (Replaying ω κ × Replaying.Event ω κ)} {m : Replaying ω κ}
    (hm : (replaying ω κ text).logged.Reaches h m) :
    ∀ k id, m.call k = some id → LookedUp h k id := by
  induction hm with
  | init hinit =>
    intro k id hk
    rw [hinit.2 k] at hk
    cases hk
  | @step h m x m' _ hst ih =>
    obtain ⟨m₀, e⟩ := x
    obtain ⟨hsame, hst⟩ := hst
    obtain rfl : m₀ = m := hsame
    exact Replaying.Step.lookedUp hst ih

/-- The balance, with the calls. -/
theorem Replaying.Step.balance {text : DbError → String} {m m' : Replaying ω κ}
    {e : Replaying.Event ω κ} (hst : Replaying.Step text m e m') (id : Uuid) :
    m'.service.db.entries id + m.service.db.dead id =
      m.service.db.entries id + m'.service.db.dead id + (if e.answers id then 1 else 0) +
        if overwritten id (m, e) then 1 else 0 := by
  cases hst with
  | serve l t hl hst =>
    have hno : l.replays id = false := by
      cases l with
      | replay => exact hl.elim
      | _ => rfl
    have hbal := hst.balance id
    rw [hno] at hbal
    exact hbal
  | update k found now hcall =>
    have hbal := (Q.Step.replay m.service found now).balance id
    rw [← replayUpdate_snd, ← replayUpdate_isOk] at hbal
    have hanswer : Label.replays id
        (.replay found now (replayUpdate m.service.db found now).1.isOk : Label ω) =
        Replaying.Event.answers (ω := ω) id
          (.update k found now (replayUpdate m.service.db found now).1) := by
      cases hres : (replayUpdate m.service.db found now).1 with
      | error err => simp [Label.replays, Replaying.Event.answers, Except.isOk, Except.toBool]
      | ok r =>
        obtain rfl := (replayUpdate_ok hres).1
        simp [Label.replays, Replaying.Event.answers, Except.isOk, Except.toBool]
    rw [hanswer] at hbal
    exact hbal
  | restart cfg adminKey t hst => exact hst.balance id
  | lookup | failed => rfl

/-- What holds of the calls of a run. -/
structure Audited (h : List (Replaying ω κ × Replaying.Event ω κ)) (m : Replaying ω κ) :
    Prop where
  run : (system ω).Reaches ((h.map Prod.snd).filterMap Replaying.Event.label) m.service
  asked : ∀ h₁ m₁ k id now r h₀, h = h₁ ++ (m₁, .update k id now (.ok r)) :: h₀ →
    r = id ∧ m₁.service.db.isDeadLettered id = true ∧ LookedUp h₀ k id
  balanced : ∀ id, m.service.db.entries id =
    h.countP (fun x => x.2.answers id) + h.countP (overwritten id) + m.service.db.dead id

/-- In every run, with any calls that race, workers that fail and crashes at which the admin
key may change, each answer 202 has a lookup of its own behind it, made for the admin through
an entry of the delivery, and finds the delivery dead-lettered.  And the entries of a
delivery are its answers 202, the outcomes that have overwritten a dead letter, and the dead
letter that it is. -/
theorem replays_audited {text : DbError → String}
    {h : List (Replaying ω κ × Replaying.Event ω κ)} {m : Replaying ω κ}
    (hm : (replaying ω κ text).logged.Reaches h m) : Audited h m where
  run := Replaying.reaches hm.of_logged
  asked h₁ m₁ k id now r h₀ hh := by
    subst hh
    obtain ⟨m₀, m₂, hm₀, ⟨hsame, hst⟩, -⟩ := hm.cut
    obtain rfl : m₁ = m₀ := hsame
    generalize hres : (.ok r : Except ApiError Uuid) = res at hst
    cases hst with
    | update _ _ _ hcall =>
      obtain ⟨hr, hdead⟩ := replayUpdate_ok hres.symm
      exact ⟨hr, hdead, lookedUp_of_reaches hm₀ k id hcall⟩
  balanced id := by
    induction hm with
    | init hinit =>
      rw [hinit.1.1]
      rfl
    | @step h m x m' _ hst ih =>
      obtain ⟨m₀, e⟩ := x
      obtain ⟨hsame, hst⟩ := hst
      obtain rfl : m₀ = m := hsame
      have hst : Replaying.Step text m₀ e m' := hst
      have hbal := Replaying.Step.balance hst id
      simp only [List.countP_cons]
      omega

/-! ## Two calls through one entry -/

/-- A run without calls. -/
theorem replaying_of_reaches {text : DbError → String} {h : List (Label ω)} {s : State ω}
    (hs : (system ω).Reaches h s) (hint : ∀ l ∈ h, l.Internal) (adminKey : String) :
    (replaying ω κ text).Reaches (h.map .serve)
      { service := s, adminKey := adminKey, call := fun _ => none } := by
  induction hs with
  | init hinit => exact .init ⟨hinit, fun _ => rfl⟩
  | @step h s l t _ hst ih =>
    have hrest := ih fun l hl => hint l (List.mem_cons_of_mem _ hl)
    exact hrest.step (.serve _ l t (hint l List.mem_cons_self) hst)

def bearing (token : String) : HeaderMap
  | .authorization => [.text s!"Bearer {token}"]
  | _ => []

/-- Both calls find the hook, and the second one to update it is told that it is no dead
letter. -/
def raced : List (Replaying.Event Bool Bool) :=
  [.update true 1 0 (.error (.notFound "delivery is not dead-lettered")),
    .update false 1 0 (.ok 1), .lookup true (bearing "key") 7 (.ok 1),
    .lookup false (bearing "key") 7 (.ok 1)]

theorem replays_audited_raced : ∃ h m, Audited (κ := Bool) h m ∧
    h.map Prod.snd = raced ++ (.refuse false hookRead lookupFailed :: listing).map .serve := by
  let text : DbError → String := fun _ => "db"
  have hint : ∀ l ∈ .refuse false hookRead lookupFailed :: listing, l.Internal := by
    intro l hl
    simp only [listing, List.mem_cons, List.not_mem_nil, or_false] at hl
    rcases hl with rfl | rfl | rfl | rfl | rfl | rfl <;> trivial
  have r₀ : (replaying Bool Bool text).Reaches _ _ :=
    replaying_of_reaches refused_reached hint "key"
  have r₁ := r₀.step (Replaying.Step.lookup _ false (bearing "key") 7 rfl)
  have r₂ := r₁.step (Replaying.Step.lookup _ true (bearing "key") 7 rfl)
  have r₃ := r₂.step (Replaying.Step.update _ false 1 0 rfl)
  have r₄ := r₃.step (Replaying.Step.update _ true 1 0 rfl)
  obtain ⟨h, hevents, hlogged⟩ := r₄.logged
  exact ⟨h, _, replays_audited hlogged, hevents⟩

end Q
end WebhookDelivery
