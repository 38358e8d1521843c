/-
The `q` service keeps a ledger.

Its workers act on copies of any age, check destinations again before each send
and may record an outcome over another worker's.  None of that touches what a
submission fixed, and each write of an outcome has the send or the check of its
own worker behind it, so the service simulates `Run.Ledger` in every run.
-/
import WebhookDelivery.Run.Ledger
import WebhookDelivery.Q.Completeness
import WebhookDelivery.Q.Labels

namespace WebhookDelivery
namespace Q

open Sql Run

variable {ω : Type}

/-! ## Rows as entries -/

/-- The columns a submission fixes. -/
structure Submitted where
  idempotencyKey : Option String
  destination : String
  payload : List UInt8
  maxAttempts : Int
  createdAt : Int

def DeliveryRow.submitted (r : DeliveryRow) : Submitted where
  idempotencyKey := r.idempotencyKey
  destination := r.destination
  payload := r.payload
  maxAttempts := r.maxAttempts
  createdAt := r.createdAt

theorem DeliveryRow.Same.submitted {r r' : DeliveryRow} (h : r.Same r') :
    r'.submitted = r.submitted := by
  simp only [DeliveryRow.submitted, h.idempotencyKey, h.destination, h.payload, h.maxAttempts,
    h.createdAt]

/-- A dead letter shows the error it was closed with. -/
def DeliveryRow.stage (r : DeliveryRow) : Ledger.Stage (Option String) :=
  match r.status with
  | .pending | .inFlight => .waiting
  | .delivered => .delivered
  | .deadLetter => .dead r.lastError

def DeliveryRow.ledgerEntry (r : DeliveryRow) : Ledger.Entry Submitted (Option String) where
  record := r.submitted
  stage := r.stage

/-- What a worker sends: the destination and the payload of its copy. -/
def Carries (b : Submitted) (m : String × List UInt8) : Prop :=
  m = (b.destination, b.payload)

abbrev Book := Ledger.Book Uuid Submitted (String × List UInt8) (Option String)

abbrev BookEvent := Ledger.Event Uuid Submitted (String × List UInt8) (Option String)

def shown : Outcome → Except (Option String) Unit
  | .delivered => .ok ()
  | .retryable err | .permanent err => .error (some err)

def Delivery.attempt (d : Delivery) (out : Outcome) :
    Ledger.Attempt Uuid (String × List UInt8) (Option String) where
  key := d.id
  message := (d.destination, d.payload)
  result := shown out

/-- What an outcome write does to the entry of `d`. -/
def Delivery.close (d : Delivery) : Outcome → BookEvent
  | .delivered => .deliver d.id
  | .retryable err =>
    if d.maxAttempts ≤ d.attempts + 1 then .bury d.id (some err) else .reopen d.id
  | .permanent err => .bury d.id (some err)

/-- The event a label is, if it is one. -/
def Label.event : Label ω → Option BookEvent
  | .insert d now => some (.accept d.id (newRow d now).submitted)
  | .replay id _ accepted => if accepted then some (.reopen id) else none
  | .refuse _ d check => check.reason.map fun reason => .refuse d.id (some reason)
  | .send _ d _ out => some (.attempt (d.attempt out))
  | .record _ d out => some (d.close out)
  | .start .. | .listDue .. | .claim .. | .dbFail _ | .endPass .. | .restart _ => none

/-- A book that agrees with the service. -/
structure Mirrors (s : State ω) (a : Book) : Prop where
  entry : ∀ id, a.entry id = (s.db.row id).map DeliveryRow.ledgerEntry
  copies : ∀ w, ∀ d ∈ (s.pc w).snapshots, ∃ r, s.db.row d.id = some r ∧
    Carries r.submitted (d.destination, d.payload)
  outcomes : ∀ w d out rest, s.pc w = .sent d out rest → d.attempt out ∈ a.attempts

/-- The entry of a row that is there. -/
theorem Mirrors.entry_of_row {s : State ω} {a : Book} (hs : Mirrors s a) {id : Uuid}
    {r : DeliveryRow} (hr : s.db.row id = some r) : a.entry id = some r.ledgerEntry := by
  rw [hs.entry id, hr, Option.map_some]

/-- One row is written, and its entry goes to the stage of the event. -/
theorem Mirrors.put {s : State ω} {a : Book} (hs : Mirrors s a) {db : Db} {id : Uuid}
    {r : DeliveryRow} {f : DeliveryRow → DeliveryRow} {stage : Ledger.Stage (Option String)}
    (hrow : ∀ k, db.row k = if k = id then (s.db.row id).map f else s.db.row k)
    (hr : s.db.row id = some r) (hf : (f r).ledgerEntry = ⟨r.submitted, stage⟩) (k : Uuid) :
    (a.put id r.submitted stage).entry k = (db.row k).map DeliveryRow.ledgerEntry := by
  rw [Ledger.Book.put_entry, hrow k]
  by_cases hk : k = id
  · rw [if_pos hk, if_pos hk, hr, Option.map_some, Option.map_some, hf]
  · rw [if_neg hk, if_neg hk, hs.entry k]

/-- A write that leaves the stages alone moves no entry. -/
theorem map_ledgerEntry {db db' : Db} {id : Uuid} {p : DeliveryRow → Bool}
    {f : DeliveryRow → DeliveryRow}
    (hrow : db'.row id = (db.row id).map fun r => if p r then f r else r)
    (hf : ∀ r, p r = true → (f r).ledgerEntry = r.ledgerEntry) :
    (db'.row id).map DeliveryRow.ledgerEntry = (db.row id).map DeliveryRow.ledgerEntry := by
  rw [hrow, Option.map_map]
  refine congrArg (fun g => (db.row id).map g) (funext fun r => ?_)
  by_cases hp : p r = true
  · simp only [Function.comp_apply, if_pos hp, hf r hp]
  · simp only [Function.comp_apply, if_neg hp]

variable [DecidableEq ω]

/-- After a step the book agrees again if its entries do and it has the attempt
of the step. -/
theorem Mirrors.after {s t : State ω} {a b : Book} {l : Label ω} (hs : Mirrors s a)
    (hst : Step s l t) (hentry : ∀ id, b.entry id = (t.db.row id).map DeliveryRow.ledgerEntry)
    (hold : ∀ x ∈ a.attempts, x ∈ b.attempts)
    (hnew : ∀ w d n out, l = .send w d n out → d.attempt out ∈ b.attempts) : Mirrors t b where
  entry := hentry
  copies w d hd := by
    have hcopy : ∃ r, s.db.row d.id = some r ∧
        Carries r.submitted (d.destination, d.payload) := by
      rcases hst.snapshots hd with hd | ⟨r, -, -, -, hr, -, -, hmap⟩
      · exact hs.copies w d hd
      · obtain ⟨-, hdest, hpay, -⟩ := mapDelivery_ok hmap
        exact ⟨r, hr, Prod.ext hdest hpay⟩
    obtain ⟨r, hr, hcar⟩ := hcopy
    obtain ⟨r', hr', hsame⟩ := hst.same hr
    exact ⟨r', hr', hsame.submitted ▸ hcar⟩
  outcomes w d out rest hpc := by
    rcases hst.sent hpc with hpc | hl
    · exact hold _ (hs.outcomes w d out rest hpc)
    · exact hnew w d _ out hl

omit [DecidableEq ω] in
/-- An outcome write is an event that the send allows. -/
theorem Mirrors.record {s : State ω} {a : Book} (hs : Mirrors s a) {w : ω} {d : Delivery}
    {out : Outcome} {rest : List Delivery} (hpc : s.pc w = .sent d out rest) {c : Draw} {db : Db}
    (hrec : recordOutcome s.cfg c s.db d out = .ok db) :
    ∃ b, Ledger.Step Carries a (d.close out) b ∧ b.attempts = a.attempts ∧
      ∀ id, b.entry id = (db.row id).map DeliveryRow.ledgerEntry := by
  obtain ⟨r, hr, -⟩ := hs.copies w d (by rw [hpc]; exact List.mem_cons_self)
  have hentry := hs.entry_of_row hr
  have hmem := hs.outcomes w d out rest hpc
  have hrow : ∀ k, db.row k = if k = d.id then (s.db.row d.id).map (asOutcome s.cfg c d out)
      else s.db.row k := fun k => (recordOutcome_ok hrec k).1
  cases out with
  | delivered => exact ⟨_, .deliver a _ r.ledgerEntry _ hentry hmem, rfl, hs.put hrow hr rfl⟩
  | permanent err => exact ⟨_, .bury a _ r.ledgerEntry _ _ hentry hmem, rfl, hs.put hrow hr rfl⟩
  | retryable err =>
    by_cases hle : d.maxAttempts ≤ d.attempts + 1
    · rw [Delivery.close, if_pos hle]
      refine ⟨_, .bury a _ r.ledgerEntry _ _ hentry hmem, rfl, hs.put hrow hr ?_⟩
      rw [asOutcome, if_pos hle]
      rfl
    · rw [Delivery.close, if_neg hle]
      refine ⟨_, .reopen a _ r.ledgerEntry hentry, rfl, hs.put hrow hr ?_⟩
      rw [asOutcome, if_neg hle]
      rfl

variable (ω) in
/-- Every run of the service is one of a ledger. -/
theorem ledger : Simulation (system ω) (Ledger.system Carries) Label.event Mirrors where
  init s hs := by
    refine ⟨⟨fun _ => none, []⟩, ⟨rfl, fun _ => rfl⟩, fun id => ?_, fun w d hd => ?_, ?_⟩
    · rw [hs.1]
      rfl
    · rw [hs.2 w] at hd
      exact absurd hd List.not_mem_nil
    · intro w d out rest hpc
      rw [hs.2 w] at hpc
      cases hpc
  stutter h s l t a _ hs hst hl := by
    refine hs.after hst (fun id => ?_) (fun _ hx => hx) (fun w d n out e => ?_)
    · rw [hs.entry id]
      cases hst with
      | insert | send | record => cases hl
      | refuse w d rest check reason c entry db hpc hcheck hdl =>
        rw [Label.event, hcheck] at hl
        cases hl
      | replay id' now =>
        have hfail : (replayDeadLetter s.db id' now).1 ≠ true := fun e => by
          simp [Label.event, e] at hl
        refine congrArg (Option.map DeliveryRow.ledgerEntry) ?_
        refine (row_replayDeadLetter s.db id' now id).trans ?_ |>.symm
        by_cases hid : id = id'
        · subst hid
          rw [if_pos rfl]
          cases hr : s.db.row id with
          | none => rfl
          | some r =>
            have hdead : r.status ≠ .deadLetter :=
              fun e => hfail ((replayDeadLetter_fst s.db id now).2 ⟨r, hr, e⟩)
            rw [Option.map_some, if_neg hdead]
        · exact if_neg hid
      | start w now hpc =>
        refine (map_ledgerEntry (row_resetStaleInFlight s.db now s.staleMs id) fun r hp => ?_).symm
        simp only [DeliveryRow.ledgerEntry, DeliveryRow.stage, (isStale_iff.1 hp).1, asReset]
        rfl
      | claim w d rest now hpc =>
        have hrow := row_claim s.db d.id now id
        by_cases hid : id = d.id
        · subst hid
          rw [if_pos rfl] at hrow
          refine (map_ledgerEntry (p := fun r => decide (r.status = .pending))
            (f := asClaimed now) (hrow.trans (by simp)) fun r hp => ?_).symm
          simp only [DeliveryRow.ledgerEntry, DeliveryRow.stage, of_decide_eq_true hp, asClaimed]
          rfl
        · exact congrArg _ (hrow.trans (if_neg hid)).symm
      | listDue | dbFail | endPass | restart => rfl
    · subst e
      cases hl
  step h s l t a e _ hs hst hl := by
    cases hst' : hst with
    | insert d now db hins =>
      obtain rfl := Option.some.inj hl
      obtain ⟨hnone, -, -⟩ := row_insert hins d.id
      refine ⟨_, .accept a d.id _ ((hs.entry d.id).trans (by rw [hnone]; rfl)), ?_⟩
      refine hs.after hst (fun k => ?_) (fun _ hx => hx) (fun _ _ _ _ e => by cases e)
      show _ = (db.row k).map DeliveryRow.ledgerEntry
      rw [Ledger.Book.put_entry, (row_insert hins k).2.1]
      by_cases hk : k = d.id
      · rw [if_pos hk, if_pos hk.symm]
        rfl
      · rw [if_neg hk, if_neg fun e => hk e.symm, hs.entry k]
    | replay id now =>
      by_cases hok : (replayDeadLetter s.db id now).1 = true
      · obtain ⟨r, hr, hdead⟩ := (replayDeadLetter_fst s.db id now).1 hok
        rw [Label.event, if_pos hok] at hl
        obtain rfl := Option.some.inj hl
        refine ⟨_, .reopen a id r.ledgerEntry (hs.entry_of_row hr), ?_⟩
        refine hs.after hst (hs.put (row_replayDeadLetter s.db id now) hr ?_) (fun _ hx => hx)
          (fun _ _ _ _ e => by cases e)
        rw [if_pos hdead]
        rfl
      · rw [Label.event, if_neg hok] at hl
        cases hl
    | refuse w d rest check reason c entry db hpc hcheck hdl =>
      rw [Label.event, hcheck, Option.map_some] at hl
      obtain rfl := Option.some.inj hl
      obtain ⟨r, hr, -⟩ := hs.copies w d (by rw [hpc]; exact List.mem_cons_self)
      refine ⟨_, .refuse a d.id r.ledgerEntry _ (hs.entry_of_row hr), ?_⟩
      exact hs.after hst (hs.put (fun k => (deadLetter_ok hdl k).1) hr rfl) (fun _ hx => hx)
        (fun _ _ _ _ e => by cases e)
    | send w d rest resp hpc =>
      obtain rfl := Option.some.inj hl
      obtain ⟨r, hr, hcar⟩ := hs.copies w d (by rw [hpc]; exact List.mem_cons_self)
      refine ⟨_, .attempt a _ r.ledgerEntry (hs.entry_of_row hr) hcar, ?_⟩
      refine hs.after hst hs.entry (fun _ hx => List.mem_cons_of_mem _ hx) (fun _ _ _ _ e => ?_)
      cases e
      exact List.mem_cons_self
    | record w d out rest c db hpc hrec =>
      obtain rfl := Option.some.inj hl
      obtain ⟨b, hstep, hatt, hentry⟩ := hs.record hpc hrec
      exact ⟨b, hstep, hs.after hst hentry (fun _ hx => hatt ▸ hx) (fun _ _ _ _ e => by cases e)⟩
    | start | listDue | claim | dbFail | endPass | restart => cases hl

/-! ## What is kept, and what is sent -/

def Label.inserts (id : Uuid) : Label ω → Bool
  | .insert d _ => d.id = id
  | _ => false

/-- The history closes the delivery with the error: a send of it failed so, or a
check refused its destination. -/
def FailedWith (h : List (Label ω)) (id : Uuid) (err : Option String) : Prop :=
  (∃ w d n out, .send w d n out ∈ h ∧ d.id = id ∧ shown out = .error err) ∨
    ∃ w d check, .refuse w d check ∈ h ∧ d.id = id ∧ check.reason.isSome ∧ check.reason = err

/-- What the history of a run and the state it has led to say about each other. -/
structure Honest (h : List (Label ω)) (s : State ω) : Prop where
  stored : ∀ d now, .insert d now ∈ h → ∃ r, s.db.row d.id = some r ∧
    r.submitted = (newRow d now).submitted
  once : ∀ id, h.countP (Label.inserts id) = if (s.db.row id).isSome then 1 else 0
  sent : ∀ h₁ h₀ w d n out, h = h₁ ++ .send w d n out :: h₀ →
    ∃ d₀ now, .insert d₀ now ∈ h₀ ∧ d₀.id = d.id ∧ d₀.destination = d.destination ∧
      d₀.payload = d.payload
  delivered : ∀ id r, s.db.row id = some r → r.status = .delivered →
    ∃ w d n, .send w d n .delivered ∈ h ∧ d.id = id
  dead : ∀ id r, s.db.row id = some r → r.status = .deadLetter → FailedWith h id r.lastError
  entries : ∀ e ∈ s.db.deadLetters.rows, FailedWith h e.deliveryId e.lastError

/-- What the label of an event has to be. -/
def Label.Source (l : Label ω) : BookEvent → Prop
  | .accept id b => ∃ d now, l = .insert d now ∧ d.id = id ∧ b = (newRow d now).submitted
  | .attempt a => ∃ w d n out, l = .send w d n out ∧ a = d.attempt out
  | .refuse id err => ∃ w d check, l = .refuse w d check ∧ d.id = id ∧ check.reason.isSome ∧
      check.reason = err
  | .deliver _ | .bury .. | .reopen _ => True

omit [DecidableEq ω] in
theorem Label.source {l : Label ω} {e : BookEvent} (he : l.event = some e) : l.Source e := by
  cases l with
  | insert d now =>
    cases he
    exact ⟨d, now, rfl, rfl, rfl⟩
  | send w d n out =>
    cases he
    exact ⟨w, d, n, out, rfl, rfl⟩
  | replay id now accepted => cases accepted <;> cases he; trivial
  | refuse w d check =>
    obtain ⟨reason, hreason, rfl⟩ := Option.map_eq_some_iff.1 he
    exact ⟨w, d, check, rfl, rfl, by rw [hreason]; rfl, hreason⟩
  | record w d out =>
    obtain rfl := Option.some.inj he
    cases out with
    | delivered | permanent err => trivial
    | retryable err =>
      simp only [Delivery.close]
      split <;> trivial
  | start | listDue | claim | dbFail | endPass | restart => cases he

omit [DecidableEq ω] in
/-- The insert behind an acceptance. -/
theorem inserted_of_accept {h : List (Label ω)} {id : Uuid} {b : Submitted}
    (hb : .accept id b ∈ h.filterMap Label.event) :
    ∃ d now, .insert d now ∈ h ∧ d.id = id ∧ b = (newRow d now).submitted := by
  obtain ⟨l, hl, he⟩ := List.mem_filterMap.1 hb
  obtain ⟨d, now, rfl, hid, hrec⟩ := Label.source he
  exact ⟨d, now, hl, hid, hrec⟩

omit [DecidableEq ω] in
/-- The send behind an attempt. -/
theorem sent_of_attempt {h : List (Label ω)} {id : Uuid} {m : String × List UInt8}
    {result : Except (Option String) Unit}
    (ha : .attempt ⟨id, m, result⟩ ∈ h.filterMap Label.event) :
    ∃ w d n out, .send w d n out ∈ h ∧ d.id = id ∧ shown out = result := by
  obtain ⟨l, hl, he⟩ := List.mem_filterMap.1 ha
  obtain ⟨w, d, n, out, rfl, heq⟩ := Label.source he
  exact ⟨w, d, n, out, hl, (congrArg Ledger.Attempt.key heq).symm,
    (congrArg Ledger.Attempt.result heq).symm⟩

omit [DecidableEq ω] in
/-- What the ledger knows of a dead entry. -/
theorem failedWith_of_justified {h : List (Label ω)} {id : Uuid} {err : Option String}
    (hj : Ledger.Justified (h.filterMap Label.event) id (.dead err)) : FailedWith h id err := by
  rcases hj with ⟨m, hm⟩ | hrefused
  · exact .inl (sent_of_attempt hm)
  · obtain ⟨l, hl, he⟩ := List.mem_filterMap.1 hrefused
    obtain ⟨w, d, check, rfl, hid, hsome, hreason⟩ := Label.source he
    exact .inr ⟨w, d, check, hl, hid, hsome, hreason⟩

omit [DecidableEq ω] in
theorem FailedWith.cons {h : List (Label ω)} {id : Uuid} {err : Option String}
    (hf : FailedWith h id err) (l : Label ω) : FailedWith (l :: h) id err := by
  rcases hf with ⟨w, d, n, out, hmem, hrest⟩ | ⟨w, d, check, hmem, hrest⟩
  · exact .inl ⟨w, d, n, out, List.mem_cons_of_mem l hmem, hrest⟩
  · exact .inr ⟨w, d, check, List.mem_cons_of_mem l hmem, hrest⟩

omit [DecidableEq ω] in
theorem length_accepted (h : List (Label ω)) (id : Uuid) :
    ((h.filterMap Label.event).filterMap (Ledger.Event.accepted id)).length
      = h.countP (Label.inserts id) := by
  rw [List.filterMap_filterMap, List.length_filterMap_eq_countP]
  refine List.countP_congr fun l _ => ?_
  cases he : l.event with
  | none =>
    cases l with
    | insert => cases he
    | _ => simp [Label.inserts]
  | some e =>
    have hsource := Label.source he
    cases e with
    | accept id' b =>
      obtain ⟨d, now, rfl, rfl, -⟩ := hsource
      by_cases hid : d.id = id <;> simp [Ledger.Event.accepted, Label.inserts, hid]
    | refuse id' err =>
      obtain ⟨w, d, check, rfl, -⟩ := hsource
      simp [Ledger.Event.accepted, Label.inserts]
    | attempt | deliver | bury | reopen =>
      cases l with
      | insert => cases he
      | _ => simp [Ledger.Event.accepted, Label.inserts]

/-! ## Entries of the dead-letter table -/

/-- An entry is one that was there, or the step has just closed its delivery
with the error of the entry. -/
theorem Step.entry {s t : State ω} {l : Label ω} (hst : Step s l t) {e : DlqRow}
    (he : e ∈ t.db.deadLetters.rows) :
    e ∈ s.db.deadLetters.rows ∨
      (∃ w d check, l = .refuse w d check ∧ d.id = e.deliveryId ∧ check.reason.isSome ∧
        check.reason = e.lastError) ∨
      ∃ w d out rest, s.pc w = .sent d out rest ∧ d.id = e.deliveryId ∧
        shown out = .error e.lastError := by
  have hdead : ∀ {id : Uuid} {err : String} {entryId : Uuid} {now : Int}
      {entry : Option DlqEntry} {db : Db}, deadLetter s.db id err entryId now = .ok (entry, db) →
      e ∈ db.deadLetters.rows → e ∈ s.db.deadLetters.rows ∨
        (id = e.deliveryId ∧ e.lastError = some err) := by
    intro id err entryId now entry db hdl hmem
    rcases deadLetter_spec hdl with ⟨-, rfl⟩ | ⟨r, attempts, hr, -, -, hrows⟩
    · exact .inl hmem
    · rw [hrows] at hmem
      rcases List.mem_append.1 hmem with hmem | hmem
      · exact .inl hmem
      · obtain rfl := List.mem_singleton.1 hmem
        exact .inr ⟨(Table.key_of_get? hr).symm, rfl⟩
  cases hst with
  | insert d now db hins =>
    obtain ⟨-, t', -, rfl⟩ := insert_table hins
    exact .inl he
  | refuse w d rest check reason c entry db hpc hcheck hdl =>
    rcases hdead hdl he with he | ⟨hid, herr⟩
    · exact .inl he
    · exact .inr (.inl ⟨w, d, check, rfl, hid, by rw [hcheck]; rfl, by rw [hcheck, herr]⟩)
  | record w d out rest c db hpc hrec =>
    have hbury : ∀ err, shown out = .error (some err) →
        (deadLetter s.db d.id err c.entryId c.now).map Prod.snd = .ok db →
        e ∈ s.db.deadLetters.rows ∨ (d.id = e.deliveryId ∧ shown out = .error e.lastError) := by
      intro err hout hmap
      cases hdl : deadLetter s.db d.id err c.entryId c.now with
      | error x => rw [hdl] at hmap; cases hmap
      | ok res =>
        obtain ⟨entry, db₁⟩ := res
        rw [hdl] at hmap
        cases hmap
        rcases hdead hdl he with he | ⟨hid, herr⟩
        · exact .inl he
        · exact .inr ⟨hid, by rw [hout, herr]⟩
    have hcases : e ∈ s.db.deadLetters.rows ∨
        (d.id = e.deliveryId ∧ shown out = .error e.lastError) := by
      cases out with
      | delivered =>
        obtain rfl := Except.ok.inj hrec
        exact .inl he
      | permanent err => exact hbury err rfl hrec
      | retryable err =>
        simp only [recordOutcome] at hrec
        split at hrec
        · exact hbury err rfl hrec
        · obtain rfl := Except.ok.inj hrec
          exact .inl he
    rcases hcases with he | ⟨hid, hout⟩
    · exact .inl he
    · exact .inr (.inr ⟨w, d, out, rest, hpc, hid, hout⟩)
  | replay | start | listDue | claim | send | dbFail | endPass | restart => exact .inl he

/-- An outcome that a worker has is that of a send it has made. -/
theorem sent_of_outcome {h : List (Label ω)} {s : State ω} (hs : (system ω).Reaches h s) :
    ∀ w d out rest, s.pc w = .sent d out rest → ∃ n, .send w d n out ∈ h := by
  refine hs.invariant (I := fun h s => ∀ w d out rest, s.pc w = .sent d out rest →
    ∃ n, .send w d n out ∈ h) (fun s hinit w d out rest hpc => ?_)
    (fun h s l t _ hI hst w d out rest hpc => ?_)
  · rw [hinit.2 w] at hpc
    cases hpc
  · rcases hst.sent hpc with hpc | rfl
    · obtain ⟨n, hn⟩ := hI w d out rest hpc
      exact ⟨n, List.mem_cons_of_mem l hn⟩
    · exact ⟨_, List.mem_cons_self⟩

theorem entries_failed {h : List (Label ω)} {s : State ω} (hs : (system ω).Reaches h s) :
    ∀ e ∈ s.db.deadLetters.rows, FailedWith h e.deliveryId e.lastError := by
  refine hs.invariant (I := fun h s => ∀ e ∈ s.db.deadLetters.rows,
    FailedWith h e.deliveryId e.lastError) (fun s hinit e he => ?_)
    (fun h s l t hr hI hst e he => ?_)
  · rw [hinit.1] at he
    exact absurd he List.not_mem_nil
  · rcases hst.entry he with he | ⟨w, d, check, rfl, hrest⟩ | ⟨w, d, out, rest, hpc, hrest⟩
    · exact (hI e he).cons l
    · exact .inr ⟨w, d, check, List.mem_cons_self, hrest⟩
    · obtain ⟨n, hn⟩ := sent_of_outcome hr w d out rest hpc
      exact .inl ⟨w, d, n, out, List.mem_cons_of_mem l hn, hrest⟩

/-- In every run, with any races, crashes and database failures, the deliveries
are what was submitted, every send carries what was submitted before it, and
each row or entry that says how a delivery has ended has the send or the check
behind it that ended it so. -/
theorem deliveries_honest {h : List (Label ω)} {s : State ω} (hs : (system ω).Reaches h s) :
    Honest h s := by
  obtain ⟨a, ha, hm⟩ := (ledger ω).reaches hs
  constructor
  · intro d now hmem
    obtain ⟨e, he, hrec⟩ := Ledger.entry_of_accepted ha
      (List.mem_filterMap.2 ⟨_, hmem, rfl⟩ : .accept d.id _ ∈ h.filterMap Label.event)
    obtain ⟨r, hr, rfl⟩ := Option.map_eq_some_iff.1 ((hm.entry d.id).symm.trans he)
    exact ⟨r, hr, hrec⟩
  · intro id
    rw [← length_accepted, Ledger.accepted_eq ha, hm.entry id]
    cases s.db.row id <;> rfl
  · intro h₁ h₀ w d n out hh
    subst hh
    have hcons : (Label.send w d n out :: h₀).filterMap Label.event
        = .attempt (d.attempt out) :: h₀.filterMap Label.event := List.filterMap_cons_some rfl
    rw [List.filterMap_append, hcons] at ha
    obtain ⟨b, hb, hcar⟩ := Ledger.attempt_carries ha
    obtain ⟨d₀, now, hmem, hid, rfl⟩ := inserted_of_accept hb
    exact ⟨d₀, now, hmem, hid, (congrArg Prod.fst hcar).symm, (congrArg Prod.snd hcar).symm⟩
  · intro id r hr hdel
    have hj := Ledger.justified ha id r.ledgerEntry (hm.entry_of_row hr)
    simp only [DeliveryRow.ledgerEntry, DeliveryRow.stage, hdel, Ledger.Justified] at hj
    obtain ⟨m, hm⟩ := hj
    obtain ⟨w, d, n, out, hmem, hid, hout⟩ := sent_of_attempt hm
    cases out with
    | delivered => exact ⟨w, d, n, hmem, hid⟩
    | retryable err | permanent err => cases hout
  · intro id r hr hdead
    have hj := Ledger.justified ha id r.ledgerEntry (hm.entry_of_row hr)
    simp only [DeliveryRow.ledgerEntry, DeliveryRow.stage, hdead] at hj
    exact failedWith_of_justified hj
  · exact entries_failed hs

theorem deliveries_honest_refused : Honest (.refuse false hookRead lookupFailed :: listing)
    (duo refusedDb (.batch []) (.batch [hookRead])) :=
  deliveries_honest refused_reached

end Q
end WebhookDelivery
