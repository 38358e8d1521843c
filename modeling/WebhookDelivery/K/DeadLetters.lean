/-
The dead-letter queue of the `k` service.

It is not a table of its own but the rows with status `dead`.  `mark_dead` puts a
row there that one worker holds, and `requeue_dead` takes it out if it is still
there, in one statement.  So requeues and exhausted jobs balance in every run,
and a listed job is one whose budget is spent.
-/
import WebhookDelivery.K.Ledger
import WebhookDelivery.K.Recovery

namespace WebhookDelivery
namespace K

open Sql Run

variable {F : Formats} {ω : Type}

/-! ## `list_dead` -/

def isDeadRow (r : JobRow F) : Bool := decide (r.status = .dead)

/-- `rows` is an answer of the `SELECT` in `list_dead`. -/
def SelectsDead (t : Jobs F) (n : Int) (rows : List (JobRow F)) : Prop :=
  Ordered (fun r => OrderDual.toDual r.updatedAt) n (t.select isDeadRow) rows

/-- `list_dead` on the rows its `SELECT` returned: one row that does not decode
fails the whole call. -/
def listDead : List (JobRow F) → Except DbError (List (Job F))
  | [] => .ok []
  | r :: rows =>
    match rowToJob r with
    | .error e => .error e
    | .ok job =>
      match listDead rows with
      | .error e => .error e
      | .ok jobs => .ok (job :: jobs)

variable (F) in
/-- The view of a job in the dead-letter queue. -/
structure DlqEntry where
  id : Uuid
  destination : String
  attempts : Int
  lastError : Option String
  updatedAt : F.DateTime

/-- `DlqEntry::from`. -/
def Job.dlqEntry (job : Job F) : DlqEntry F where
  id := job.id
  destination := job.destination
  attempts := job.attempts
  lastError := job.lastError
  updatedAt := job.updatedAt

/-! ## Burials and requeues -/

/-- The row of `id` is in the queue. -/
def IsDead (id : Uuid) (s : State F ω) : Prop := ∃ r, s.jobs.get? id = some r ∧ r.status = .dead

/-- The label is a `mark_dead` of `id`. -/
def Label.buries (id : Uuid) : Label F ω → Bool
  | .recordOutcome _ job (.error _) =>
    decide (job.id = id) && decide (job.maxAttempts ≤ job.attempts)
  | _ => false

/-- The label is a requeue of `id` that has answered `true`. -/
def Label.requeues (id : Uuid) : Label F ω → Bool
  | .requeueDead id' _ requeued => decide (id' = id) && requeued
  | _ => false

def burials (id : Uuid) (h : List (Label F ω)) : Nat := h.countP (Label.buries id)

def requeues (id : Uuid) (h : List (Label F ω)) : Nat := h.countP (Label.requeues id)

theorem isDead_congr {id : Uuid} {s t : State F ω} (hrow : t.jobs.get? id = s.jobs.get? id) :
    IsDead id t ↔ IsDead id s := by
  unfold IsDead
  rw [hrow]

theorem Owned.not_dead {s : State F ω} (hs : Owned s) {w : ω} {job : Job F}
    (hjob : job ∈ (s.pc w).held) : ¬IsDead job.id s := by
  rintro ⟨r, hr, hdead⟩
  obtain ⟨r', hr', hfl, -⟩ := hs.backed w job hjob
  rw [hr] at hr'
  cases hr'
  rw [hdead] at hfl
  cases hfl

variable [DecidableEq ω]

/-- A step buries a job that was not dead, requeues one that was, or leaves the
queue as it is. -/
theorem Step.dead {s t : State F ω} {l : Label F ω} (hst : Step s l t) (howned : Owned s)
    (id : Uuid) :
    (l.buries id = true ∧ l.requeues id = false ∧ ¬IsDead id s ∧ IsDead id t) ∨
      (l.buries id = false ∧ l.requeues id = true ∧ IsDead id s ∧ ¬IsDead id t) ∨
      (l.buries id = false ∧ l.requeues id = false ∧ (IsDead id t ↔ IsDead id s)) := by
  cases hst with
  | insertJob id' destination payload maxAttempts now t' hins =>
    refine .inr (.inr ⟨rfl, rfl, ?_⟩)
    have hrow : t'.get? id = if id' = id then some _ else s.jobs.get? id :=
      Table.get?_insert? hins id
    by_cases hid : id' = id
    · subst hid
      have hnone : s.jobs.get? id' = none := Table.get?_of_insert? hins
      rw [if_pos rfl] at hrow
      constructor
      · rintro ⟨r, hr, hdead⟩
        obtain rfl := Option.some.inj (hrow.symm.trans hr)
        cases hdead
      · rintro ⟨r, hr, -⟩
        rw [hnone] at hr
        cases hr
    · exact isDead_congr (hrow.trans (if_neg hid))
  | requeueDead id' now =>
    have hrow := get?_requeueDead s.jobs id' now id
    by_cases hid : id' = id
    · subst hid
      rw [if_pos rfl] at hrow
      by_cases hok : (K.requeueDead s.jobs id' now).1 = true
      · obtain ⟨r, hr, hdead⟩ := (requeueDead_fst s.jobs id' now).1 hok
        refine .inr (.inl ⟨rfl, by simp [Label.requeues, hok], ⟨r, hr, hdead⟩, ?_⟩)
        rintro ⟨r', hr', hdead'⟩
        rw [hr, Option.map_some, if_pos hdead] at hrow
        obtain rfl := Option.some.inj (hrow.symm.trans hr')
        cases hdead'
      · have hlive : ¬IsDead id' s := fun hdead => hok ((requeueDead_fst s.jobs id' now).2 hdead)
        refine .inr (.inr ⟨rfl, by simpa [Label.requeues] using hok, ?_⟩)
        refine ⟨?_, fun hdead => absurd hdead hlive⟩
        rintro ⟨r', hr', hdead'⟩
        obtain ⟨r, hr, hrr⟩ := Option.map_eq_some_iff.1 (hrow.symm.trans hr')
        split at hrr
        · subst hrr
          cases hdead'
        · exact ⟨r, hr, hrr ▸ hdead'⟩
    · refine .inr (.inr ⟨rfl, by simp [Label.requeues, hid], ?_⟩)
      exact isDead_congr (hrow.trans (if_neg fun e => hid e.symm))
  | claimDueJobs w now fault rows res t' hidle hsel hclaim =>
    refine .inr (.inr ⟨rfl, rfl, ?_⟩)
    obtain ⟨-, hin, hout⟩ := claimDueJobs_spec hsel hclaim
    by_cases hk : id ∈ (claimed res).map Job.id
    · obtain ⟨job, hjob, rfl⟩ := List.mem_map.1 hk
      obtain ⟨r, hr, hpend, -, hr', -⟩ := hin job hjob
      constructor
      · rintro ⟨r₁, hr₁, hdead⟩
        obtain rfl := Option.some.inj (hr'.symm.trans hr₁)
        cases hdead
      · rintro ⟨r₁, hr₁, hdead⟩
        obtain rfl := Option.some.inj (hr.symm.trans hr₁)
        rw [hpend] at hdead
        cases hdead
    · exact isDead_congr (hout id hk)
  | recordOutcome w job res rest next now hpc =>
    have hrow := get?_recordOutcome s.jobs job res next now id
    by_cases hid : job.id = id
    · subst hid
      have hjob : job ∈ (s.pc w).held := by
        rw [hpc]
        exact List.mem_cons_self
      have hlive := howned.not_dead hjob
      obtain ⟨r, hr, -⟩ := howned.backed w job hjob
      rw [if_pos rfl, hr, Option.map_some] at hrow
      cases res with
      | ok u =>
        refine .inr (.inr ⟨rfl, rfl, ?_, fun hdead => absurd hdead hlive⟩)
        rintro ⟨r', hr', hdead⟩
        obtain rfl := Option.some.inj (hrow.symm.trans hr')
        cases hdead
      | error e =>
        by_cases hle : job.maxAttempts ≤ job.attempts
        · refine .inl ⟨by simp [Label.buries, hle], rfl, hlive, _, hrow, ?_⟩
          rw [asOutcome, if_pos hle]
          rfl
        · refine .inr (.inr ⟨by simp [Label.buries, hle], rfl, ?_, fun hdead => absurd hdead hlive⟩)
          rintro ⟨r', hr', hdead⟩
          obtain rfl := Option.some.inj (hrow.symm.trans hr')
          rw [asOutcome, if_neg hle] at hdead
          cases hdead
    · refine .inr (.inr ⟨?_, rfl, isDead_congr (hrow.trans (if_neg fun e => hid e.symm))⟩)
      cases res <;> simp [Label.buries, hid]
  | deliver | recordFailed | nextPoll | stop | crash | spawnWorkers =>
    exact .inr (.inr ⟨rfl, rfl, Iff.rfl⟩)

/-- A job has been buried once more often than requeued if it is dead, and as
often if it is not. -/
theorem burials_eq {h : List (Label F ω)} {s : State F ω} (hs : (system F ω).Reaches h s)
    (id : Uuid) :
    (IsDead id s → burials id h = requeues id h + 1) ∧
      (¬IsDead id s → burials id h = requeues id h) := by
  refine hs.invariant (I := fun h s => (IsDead id s → burials id h = requeues id h + 1) ∧
    (¬IsDead id s → burials id h = requeues id h)) (fun s hinit => ?_)
    (fun h s l t hr hI hst => ?_)
  · refine ⟨?_, fun _ => rfl⟩
    rintro ⟨r, hr, -⟩
    rw [hinit.1] at hr
    cases hr
  · obtain ⟨hdead, hlive⟩ := hI
    have hb : burials id (l :: h) = burials id h + if l.buries id = true then 1 else 0 :=
      List.countP_cons
    have hq : requeues id (l :: h) = requeues id h + if l.requeues id = true then 1 else 0 :=
      List.countP_cons
    rcases Step.dead hst (owned hr) id with ⟨h₁, h₂, h₃, h₄⟩ | ⟨h₁, h₂, h₃, h₄⟩ | ⟨h₁, h₂, hiff⟩
    · rw [hb, hq, h₁, h₂]
      exact ⟨fun _ => congrArg (· + 1) (hlive h₃), fun hn => absurd h₄ hn⟩
    · rw [hb, hq, h₁, h₂]
      exact ⟨fun hd => absurd hd h₄, fun _ => hdead h₃⟩
    · rw [hb, hq, h₁, h₂, hiff]
      exact ⟨hdead, hlive⟩

/-- Only a job that has spent its budget is dead. -/
theorem dead_spent {h : List (Label F ω)} {s : State F ω} (hs : (system F ω).Reaches h s) :
    ∀ id r, s.jobs.get? id = some r → r.status = .dead → r.maxAttempts ≤ r.attempts := by
  refine hs.invariant (I := fun _ s => ∀ id r, s.jobs.get? id = some r → r.status = .dead →
    r.maxAttempts ≤ r.attempts) (fun s hinit id r hr => ?_)
    (fun h s l t hreach hI hst id r' hr' hdead => ?_)
  · rw [hinit.1] at hr
    cases hr
  · rcases hst.row_of hr' with ⟨r, hr, hrow⟩ | ⟨destination, payload, maxAttempts, now, -, rfl⟩
    · cases hrow with
      | kept => exact hI id r' hr hdead
      | requeueDead | claimDueJobs => cases hdead
      | recordOutcome w job res next now r hjob hid =>
        -- The worker's copy has the counters of the row.
        obtain ⟨r₀, hr₀, -, hatt, hmax⟩ := (owned hreach).backed w job hjob
        obtain rfl := Option.some.inj ((hid ▸ hr₀).symm.trans hr)
        cases res with
        | ok u => cases hdead
        | error e =>
          by_cases hlast : job.maxAttempts ≤ job.attempts
          · rw [asOutcome, if_pos hlast]
            show r₀.maxAttempts ≤ r₀.attempts
            rw [hatt, hmax]
            exact hlast
          · rw [asOutcome, if_neg hlast] at hdead
            cases hdead
    · cases hdead

/-! ## The list -/

theorem Readable.asOutcome {r : JobRow F} (h : Readable r) {job : Job F}
    {res : Except DeliveryError Unit} {next now : F.DateTime}
    (hleft : (K.asOutcome job res next now r).status ≠ .pending) :
    Readable (K.asOutcome job res next now r) := by
  cases res with
  | ok u => exact ⟨h.payload, h.nextAttemptAt, h.createdAt⟩
  | error e =>
    by_cases hle : job.maxAttempts ≤ job.attempts
    · simp only [K.asOutcome, if_pos hle]
      exact ⟨h.payload, h.nextAttemptAt, h.createdAt⟩
    · simp only [K.asOutcome, if_neg hle] at hleft
      exact absurd rfl hleft

/-- A row that has left the pending state was read by the claim that took it. -/
theorem claimed_readable {h : List (Label F ω)} {s : State F ω}
    (hs : (system F ω).Reaches h s) :
    ∀ id r, s.jobs.get? id = some r → r.status ≠ .pending → Readable r := by
  refine hs.invariant (I := fun _ s => ∀ id r, s.jobs.get? id = some r → r.status ≠ .pending →
    Readable r) (fun s hinit id r hr => ?_) (fun h s l t hreach hI hst id r' hr' hleft => ?_)
  · rw [hinit.1] at hr
    cases hr
  · rcases hst.row_of hr' with ⟨r, hr, hrow⟩ | ⟨destination, payload, maxAttempts, now, -, rfl⟩
    · cases hrow with
      | kept => exact hI id r' hr hleft
      | requeueDead => exact absurd rfl hleft
      | claimDueJobs w now jobs job r hjob hid hpend hok => exact readable_of_rowToJob hok
      | recordOutcome w job res next now r hjob hid =>
        obtain ⟨r₀, hr₀, hflight, -⟩ := (owned hreach).backed w job hjob
        obtain rfl := Option.some.inj ((hid ▸ hr₀).symm.trans hr)
        exact (hI id r₀ hr (by rw [hflight]; decide)).asOutcome hleft
    · exact absurd rfl hleft

omit [DecidableEq ω] in
/-- Rows that can be read decode, one by one. -/
theorem listDead_ok {rows : List (JobRow F)} (hread : ∀ r ∈ rows, ∃ job, rowToJob r = .ok job) :
    ∃ jobs, listDead rows = .ok jobs ∧ jobs.map Job.id = rows.map JobRow.id ∧
      ∀ job ∈ jobs, ∃ r ∈ rows, rowToJob r = .ok job := by
  induction rows with
  | nil => exact ⟨[], rfl, rfl, fun _ hj => absurd hj List.not_mem_nil⟩
  | cons r rows ih =>
    obtain ⟨job, hjob⟩ := hread r List.mem_cons_self
    obtain ⟨jobs, hjobs, hids, hall⟩ := ih fun r' hr' => hread r' (List.mem_cons_of_mem r hr')
    refine ⟨job :: jobs, by simp only [listDead, hjob, hjobs], ?_, fun job' hmem => ?_⟩
    · rw [List.map_cons, List.map_cons, hids, (rowToJob_ok hjob).1]
    · rcases List.mem_cons.1 hmem with rfl | hmem
      · exact ⟨r, List.mem_cons_self, hjob⟩
      · obtain ⟨r', hr', hdec⟩ := hall job' hmem
        exact ⟨r', List.mem_cons_of_mem r hr', hdec⟩

/-- What a listed job is: dead, spent, and with the error of a call that failed. -/
structure Listed (h : List (Label F ω)) (s : State F ω) (job : Job F) : Prop where
  row : ∃ r, s.jobs.get? job.id = some r ∧ r.status = .dead ∧ rowToJob r = .ok job
  spent : job.maxAttempts ≤ job.attempts
  failed : ∃ w job' e, .deliver w job' (.error e) ∈ h ∧ job'.id = job.id ∧
    job.lastError = some e.text

/-- As long as the stamps of the burials can be read, `list_dead` fails in no state of a run.
It lists as many dead jobs as it may, each once, and leaves out none whose `updated_at` is
later than that of one it lists. -/
theorem list_dead_exact {h : List (Label F ω)} {s : State F ω} (hs : (system F ω).Reaches h s)
    (hstamps : ∀ id r, s.jobs.get? id = some r → r.status = .dead →
      (F.parseTs r.updatedAt).isSome) {n : Int} {rows : List (JobRow F)}
    (hsel : SelectsDead s.jobs n rows) :
    ∃ jobs, listDead rows = .ok jobs ∧ (jobs.map Job.id).Nodup ∧
      jobs.length = (if n < 0 then (s.jobs.select isDeadRow).length
        else min n.toNat (s.jobs.select isDeadRow).length) ∧
      (∀ job ∈ jobs, Listed h s job) ∧
      ∀ id r, s.jobs.get? id = some r → r.status = .dead → id ∉ jobs.map Job.id →
        ∀ job ∈ jobs, ∃ r', s.jobs.get? job.id = some r' ∧ r.updatedAt ≤ r'.updatedAt := by
  have hdead : ∀ r ∈ rows, s.jobs.get? r.id = some r ∧ r.status = .dead := by
    intro r hr
    obtain ⟨hmem, hst⟩ := List.mem_filter.1 (hsel.mem hr)
    exact ⟨Table.get?_of_mem hmem, of_decide_eq_true hst⟩
  have hread : ∀ r ∈ rows, ∃ job, rowToJob r = .ok job := by
    intro r hr
    obtain ⟨hget, hst⟩ := hdead r hr
    have hclaimed : Readable r := claimed_readable hs _ r hget (by rw [hst]; decide)
    exact hclaimed.rowToJob (hstamps _ r hget hst)
  obtain ⟨jobs, hjobs, hids, hall⟩ := listDead_ok hread
  have hrow : ∀ job ∈ jobs, ∃ r ∈ rows, s.jobs.get? job.id = some r ∧ r.status = .dead ∧
      rowToJob r = .ok job := by
    intro job hjob
    obtain ⟨r, hr, hdec⟩ := hall job hjob
    obtain ⟨hget, hst⟩ := hdead r hr
    exact ⟨r, hr, (rowToJob_ok hdec).1 ▸ hget, hst, hdec⟩
  refine ⟨jobs, hjobs, ?_, ?_, fun job hjob => ?_, fun id r hr hst hout job hjob => ?_⟩
  · rw [hids]
    exact hsel.nodup_map (s.jobs.nodup.sublist (List.filter_sublist.map _))
  · rw [← List.length_map (f := Job.id), hids, List.length_map, hsel.length_eq]
  · obtain ⟨r, -, hget, hst, hdec⟩ := hrow job hjob
    obtain ⟨-, -, -, hatt, hmax⟩ := rowToJob_ok hdec
    obtain ⟨w, job', e, hmem, hid, herr⟩ := dead_failed hs hget hst
    refine ⟨⟨r, hget, hst, hdec⟩, ?_, w, job', e, hmem, hid, ?_⟩
    · rw [hatt, hmax]
      exact dead_spent hs job.id r hget hst
    · rw [(rowToJob_read hdec).2.2, herr]
  · obtain ⟨r', hr', hget, -, -⟩ := hrow job hjob
    refine ⟨r', hget, ?_⟩
    have hleft : r ∉ rows := by
      intro hmem
      refine hout ?_
      rw [hids, ← (Table.key_of_get? hr : r.id = id)]
      exact List.mem_map_of_mem hmem
    have hmatch : r ∈ s.jobs.select isDeadRow :=
      List.mem_filter.2 ⟨Table.mem_of_get? hr, decide_eq_true hst⟩
    exact OrderDual.toDual_le_toDual.1 (hsel.le_of_left_out hr' hmatch hleft)

/-! ## A job that is buried -/

/-- A job that may be tried once, as its worker holds it. -/
def onlyJob : Job Formats.millis := { claimedJob with maxAttempts := 1 }

def refused : Except DeliveryError Unit := .error (.http 500)

def buriedRow : JobRow Formats.millis :=
  asDead "destination returned HTTP status 500" epoch
    (asClaimed epoch (newRow 1 "http://a.test" "{}" 1 epoch))

def buriedState : State Formats.millis Unit where
  jobs := ⟨[buriedRow], List.nodup_singleton _⟩
  pc _ := .batch []

def buriedRun : List (Label Formats.millis Unit) :=
  [.recordOutcome () onlyJob refused, .deliver () onlyJob refused,
    .claimDueJobs () epoch [onlyJob], .spawnWorkers, .insertJob 1 "http://a.test" "{}" 1 epoch]

theorem buriedState_reached : (system Formats.millis Unit).Reaches buriedRun buriedState := by
  let rows : List (JobRow Formats.millis) := [newRow 1 "http://a.test" "{}" 1 epoch]
  let t : Jobs Formats.millis := ⟨rows, List.nodup_singleton _⟩
  let t' : Jobs Formats.millis := ⟨rows.map (asClaimed epoch), List.nodup_singleton _⟩
  have h₀ : (system Formats.millis Unit).Reaches [] ⟨Table.empty, fun _ => .stopped⟩ :=
    .init ⟨rfl, fun _ => rfl⟩
  have h₁ := h₀.step (Step.insertJob _ 1 "http://a.test" "{}" 1 epoch t rfl)
  have h₂ := h₁.step (Step.spawnWorkers _ fun _ => rfl)
  have hsel : SelectsDue t epoch 8 rows :=
    ⟨rows, List.Perm.refl _, List.pairwise_singleton _ _, rfl⟩
  have h₃ := h₂.step (Step.claimDueJobs _ () epoch none rows (.ok [onlyJob]) t' rfl hsel rfl)
  have h₄ := h₃.step (Step.deliver _ () onlyJob [] (.status 500) rfl)
  exact h₄.step (Step.recordOutcome _ () onlyJob refused [] epoch epoch rfl)

theorem burials_eq_buried :
    burials 1 buriedRun = requeues 1 buriedRun + 1 :=
  (burials_eq buriedState_reached 1).1 ⟨buriedRow, rfl, rfl⟩

theorem list_dead_exact_buried :
    ∃ jobs, listDead [buriedRow] = .ok jobs ∧ jobs.length = 1 ∧
      ∀ job ∈ jobs, Listed buriedRun buriedState job := by
  have hsel : SelectsDead buriedState.jobs 100 [buriedRow] :=
    ⟨[buriedRow], List.Perm.refl _, List.pairwise_singleton _ _, rfl⟩
  obtain ⟨jobs, hjobs, -, hlen, hall, -⟩ :=
    list_dead_exact buriedState_reached (fun _ _ _ _ => rfl) hsel
  exact ⟨jobs, hjobs, hlen, hall⟩

end K
end WebhookDelivery
