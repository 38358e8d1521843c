/-
What a restart of the `k` service brings back.

A pending row is claimed sooner or later, if the pending rows can be read: the
query takes the oldest due rows first, and each batch that is delivered leaves
fewer rows in front of it.  A row in flight is another matter.  After a restart
no worker holds it, no statement selects it, and so it stays as it is.
-/
import WebhookDelivery.K.Safety

namespace WebhookDelivery
namespace K

open Sql Run

variable {F : Formats} {ω : Type}

/-- A row the service has written. -/
structure Written (r : JobRow F) : Prop where
  payload : ∃ v, r.payload = F.toString v
  nextAttemptAt : ∃ d, r.nextAttemptAt = F.fmtTs d
  createdAt : ∃ d, r.createdAt = F.fmtTs d
  updatedAt : ∃ d, r.updatedAt = F.fmtTs d

theorem written_newRow (id : Uuid) (destination : String) (payload : F.Value)
    (maxAttempts : Int) (now : F.DateTime) :
    Written (newRow id destination payload maxAttempts now) :=
  ⟨⟨_, rfl⟩, ⟨_, rfl⟩, ⟨_, rfl⟩, ⟨_, rfl⟩⟩

theorem Written.asClaimed {r : JobRow F} (h : Written r) (now : F.DateTime) :
    Written (asClaimed now r) :=
  ⟨h.payload, h.nextAttemptAt, h.createdAt, ⟨_, rfl⟩⟩

theorem Written.asRequeued {r : JobRow F} (h : Written r) (now : F.DateTime) :
    Written (asRequeued now r) :=
  ⟨h.payload, ⟨_, rfl⟩, h.createdAt, ⟨_, rfl⟩⟩

theorem Written.asOutcome {r : JobRow F} (h : Written r) (job : Job F)
    (res : Except DeliveryError Unit) (nextAttemptAt now : F.DateTime) :
    Written (asOutcome job res nextAttemptAt now r) := by
  cases res with
  | ok u => exact ⟨h.payload, h.nextAttemptAt, h.createdAt, ⟨_, rfl⟩⟩
  | error e =>
    simp only [K.asOutcome]
    split
    · exact ⟨h.payload, h.nextAttemptAt, h.createdAt, ⟨_, rfl⟩⟩
    · exact ⟨h.payload, ⟨_, rfl⟩, h.createdAt, ⟨_, rfl⟩⟩

def AllWritten (s : State F ω) : Prop := ∀ id r, s.jobs.get? id = some r → Written r

variable [DecidableEq ω]

theorem AllWritten.step {s t : State F ω} {l : Label F ω} (hs : AllWritten s)
    (hst : Step s l t) : AllWritten t := by
  intro id r' hr'
  rcases hst.row_of hr' with ⟨r, hr, hrow⟩ | ⟨destination, payload, maxAttempts, now, -, rfl⟩
  · have hw := hs id r hr
    cases hrow with
    | kept => exact hw
    | requeueDead now => exact hw.asRequeued now
    | claimDueJobs w now => exact hw.asClaimed now
    | recordOutcome w job res next now => exact hw.asOutcome job res next now
  · exact written_newRow id destination payload maxAttempts now

theorem allWritten {h : List (Label F ω)} {s : State F ω} (hs : (system F ω).Reaches h s) :
    AllWritten s := by
  refine hs.invariant (I := fun _ s => AllWritten s) (fun s hinit => ?_)
    (fun _ _ _ _ _ hI hst => hI.step hst)
  intro id r hr
  rw [hinit.1] at hr
  cases hr

/-! ## The service left to itself -/

/-- A requeue, or stopping and starting workers. -/
def Label.byOperator : Label F ω → Bool
  | .requeueDead .. | .stop _ | .crash | .spawnWorkers => true
  | _ => false

variable (F ω) in
def unattended : System (State F ω) (Label F ω) :=
  (system F ω).restrict fun _ l => l.byOperator = false

theorem Step.unattended {s t : State F ω} {l : Label F ω} (hst : Step s l t)
    (hl : l.byOperator = false) : (unattended F ω).step s l t := ⟨hl, hst⟩

/-- Without an operator the row of `id` can become pending, there are workers, and each of
them can then have it returned by `claim_due_jobs`. -/
def Recovers (id : Uuid) (s : State F ω) : Prop :=
  ∃ h t r, (unattended F ω).Path s h t ∧ t.jobs.get? id = some r ∧ r.status = .pending ∧
    Nonempty ω ∧ ∀ w, ∃ h' now jobs u, (unattended F ω).Path t (.claimDueJobs w now jobs :: h') u ∧
      id ∈ jobs.map Job.id

/-- A crash and a start: `Db::connect` runs migrations only, which leave the
rows of `jobs` alone, and `spawn_workers` has every worker begin its loop. -/
def State.restart (s : State F ω) : State F ω := { s with pc := fun _ => .idle }

theorem restart_reached {h : List (Label F ω)} {s : State F ω}
    (hs : (system F ω).Reaches h s) :
    (system F ω).Reaches (.spawnWorkers :: .crash :: h) s.restart :=
  (hs.step (Step.crash s)).step (Step.spawnWorkers _ fun _ => rfl)

omit [DecidableEq ω] in
theorem claimLoop_succeeds {now : F.DateTime} (hnow : (F.parseTs (F.fmtTs now)).isSome)
    (ids : List Uuid) {t : Jobs F} (h : ∀ id ∈ ids, ∃ r, t.get? id = some r ∧ Readable r) :
    ∃ jobs t', claimLoop none now ids t = .ok (jobs, t') := by
  induction ids generalizing t with
  | nil => exact ⟨_, _, rfl⟩
  | cons id ids ih =>
    obtain ⟨r, hr, hread⟩ := h id List.mem_cons_self
    have hget : ∀ k, (t.update (fun r => r.id = id) (asClaimed now)).get? k
        = if k = id then (t.get? id).map (asClaimed now) else t.get? k :=
      Table.get?_update_at t id (asClaimed now) fun _ => rfl
    have hr' : (t.update (fun r => r.id = id) (asClaimed now)).get? id
        = some (asClaimed now r) := by
      rw [hget, if_pos rfl, hr, Option.map_some]
    obtain ⟨job, hjob⟩ := ((readable_asClaimed now r).2 hread).rowToJob hnow
    have hrest : ∀ k ∈ ids, ∃ r, (t.update (fun r => r.id = id) (asClaimed now)).get? k
        = some r ∧ Readable r := by
      intro k hk
      obtain ⟨r₁, hr₁, hread₁⟩ := h k (List.mem_cons_of_mem _ hk)
      rw [hget]
      by_cases hkid : k = id
      · subst hkid
        rw [if_pos rfl, hr₁, Option.map_some]
        exact ⟨_, rfl, (readable_asClaimed now r₁).2 hread₁⟩
      · rw [if_neg hkid]
        exact ⟨r₁, hr₁, hread₁⟩
    obtain ⟨jobs, t', hl⟩ := ih hrest
    refine ⟨job :: jobs, t', ?_⟩
    simp only [claimLoop, reduceCtorEq, if_false, hr', hjob, hl]

/-- A worker that delivers its whole batch is back at the top of its loop. -/
theorem work_off (w : ω) (now : F.DateTime) {jobs : List (Job F)} {s : State F ω}
    (hpc : s.pc w = .batch jobs) :
    ∃ h t, (unattended F ω).Path s h t ∧ t.pc w = .idle ∧
      (∀ k, k ∉ jobs.map Job.id → t.jobs.get? k = s.jobs.get? k) ∧
      ∀ k ∈ jobs.map Job.id, ∀ r, t.jobs.get? k = some r → r.status = .delivered := by
  induction jobs generalizing s with
  | nil =>
    have hpath : (unattended F ω).Path s [.nextPoll w] (s.setPc w .idle) :=
      System.Path.one ((Step.nextPoll s w hpc).unattended rfl)
    refine ⟨_, _, hpath, State.setPc_self .., ?_, ?_⟩
    · intro k _
      rfl
    · intro k hk
      exact absurd hk List.not_mem_nil
  | cons job rest ih =>
    have h₁ := Step.deliver s w job rest (.status 200) hpc
    let s₁ := s.setPc w (.outcome job (deliver (.status 200)) rest)
    have h₂ := Step.recordOutcome s₁ w job _ rest now now (State.setPc_self ..)
    let s₂ := State.setPc
      { s₁ with jobs := recordOutcome s₁.jobs job (deliver (.status 200)) now now } w
      (.batch rest)
    have hrow : ∀ k, s₂.jobs.get? k =
        if k = job.id then (s.jobs.get? job.id).map (asDelivered now) else s.jobs.get? k :=
      get?_recordOutcome s.jobs job (deliver (.status 200)) now now
    obtain ⟨h, t, hpath, hidle, hout, hin⟩ := ih (s := s₂) (State.setPc_self ..)
    have hpath₂ : (unattended F ω).Path s [_, _] s₂ :=
      (System.Path.one (h₁.unattended rfl)).cons (h₂.unattended rfl)
    refine ⟨_, t, hpath₂.trans hpath, hidle, ?_, ?_⟩
    · intro k hk
      rw [List.map_cons, List.mem_cons, not_or] at hk
      rw [hout k hk.2, hrow, if_neg hk.1]
    · intro k hk r hr
      by_cases hkr : k ∈ rest.map Job.id
      · exact hin k hkr r hr
      · have hkj : k = job.id := (List.mem_cons.1 hk).resolve_right hkr
        rw [hout k hkr, hrow, if_pos hkj] at hr
        obtain ⟨r₀, -, rfl⟩ := Option.map_eq_some_iff.1 hr
        rfl

/-- A pending row is claimed once the rows due before it have been worked off.
`ids` names the pending rows, so each batch leaves fewer of them. -/
theorem claimed_of_pending (w : ω) {id : Uuid} {d : F.DateTime} (ids : List Uuid)
    {s : State F ω} {r : JobRow F}
    (hread : ∀ k r, s.jobs.get? k = some r → r.status = .pending → Readable r)
    (hids : ∀ k r, s.jobs.get? k = some r → r.status = .pending → k ∈ ids)
    (hpc : s.pc w = .idle) (hr : s.jobs.get? id = some r) (hst : r.status = .pending)
    (hd : r.nextAttemptAt = F.fmtTs d) :
    ∃ h now jobs t, (unattended F ω).Path s (.claimDueJobs w now jobs :: h) t ∧
      id ∈ jobs.map Job.id := by
  induction hn : ids.length using Nat.strongRecOn generalizing ids s with
  | ind n ih =>
    let rows := orderBy JobRow.nextAttemptAt 8 (s.jobs.select (isDue (F.fmtTs d)))
    have hsel : SelectsDue s.jobs d 8 rows := orderBy_ordered _ _ _
    have hpend : ∀ k ∈ rows.map JobRow.id, ∃ r, s.jobs.get? k = some r ∧ r.status = .pending := by
      intro k hk
      obtain ⟨r', hr', rfl⟩ := List.mem_map.1 hk
      exact ⟨r', (hsel.pending hr').1, (hsel.pending hr').2.1⟩
    have hnow : (F.parseTs (F.fmtTs d)).isSome := hd ▸ (hread id r hr hst).nextAttemptAt
    obtain ⟨jobs, t, hloop⟩ := claimLoop_succeeds hnow (rows.map JobRow.id) (t := s.jobs)
      fun k hk => by
        obtain ⟨r', hr', hst'⟩ := hpend k hk
        exact ⟨r', hr', hread k r' hr' hst'⟩
    have hclaim : claimDueJobs none d rows s.jobs = (.ok jobs, t) := by
      simp [claimDueJobs, hloop]
    obtain ⟨hout, -, hjobs, -⟩ := claimLoop_ok hsel.nodup hloop
    have hstep := Step.claimDueJobs s w d none rows _ t hpc hsel hclaim
    let s₁ := State.setPc { s with jobs := t } w (.batch jobs)
    have hpath₁ : (unattended F ω).Path s [.claimDueJobs w d jobs] s₁ :=
      System.Path.one (hstep.unattended rfl)
    by_cases hmem : id ∈ rows.map JobRow.id
    · exact ⟨[], d, jobs, s₁, hpath₁, hjobs ▸ hmem⟩
    · -- The row was due and left out, so the batch is full.
      have hdue : r ∈ s.jobs.select (isDue (F.fmtTs d)) :=
        List.mem_filter.2 ⟨Table.mem_of_get? hr, isDue_iff.2 ⟨hst, le_of_eq hd⟩⟩
      obtain ⟨k₀, hk₀⟩ : ∃ k, k ∈ rows.map JobRow.id := by
        refine List.exists_mem_of_length_pos ?_
        have hlen := hsel.length_eq
        have hpos := List.length_pos_of_mem hdue
        rw [List.length_map, hlen, if_neg (by decide)]
        have h8 : (8 : Int).toNat = 8 := rfl
        omega
      have hbatch : s₁.pc w = .batch jobs := State.setPc_self ..
      obtain ⟨h, u, hpath₂, hidle, hkeep, hdone⟩ := work_off w d hbatch
      rw [hjobs] at hkeep hdone
      have hsame : ∀ k, k ∉ rows.map JobRow.id → u.jobs.get? k = s.jobs.get? k :=
        fun k hk => (hkeep k hk).trans (hout k hk)
      have hpath : (unattended F ω).Path s (h ++ [.claimDueJobs w d jobs]) u :=
        hpath₁.trans hpath₂
      have hold : ∀ k r', u.jobs.get? k = some r' → r'.status = .pending →
          k ∉ rows.map JobRow.id ∧ s.jobs.get? k = some r' := by
        intro k r' hr' hst'
        have hk : k ∉ rows.map JobRow.id := by
          intro hk
          rw [hdone k hk r' hr'] at hst'
          cases hst'
        exact ⟨hk, hsame k hk ▸ hr'⟩
      have hreadu : ∀ k r', u.jobs.get? k = some r' → r'.status = .pending → Readable r' :=
        fun k r' hr' hst' => hread k r' (hold k r' hr' hst').2 hst'
      have hleft : ∀ k r', u.jobs.get? k = some r' → r'.status = .pending →
          k ∈ ids.erase k₀ := by
        intro k r' hr' hst'
        obtain ⟨hk, hs'⟩ := hold k r' hr' hst'
        have hne : k ≠ k₀ := fun e => hk (e ▸ hk₀)
        exact (List.mem_erase_of_ne hne).2 (hids k r' hs' hst')
      have hk₀ids : k₀ ∈ ids := by
        obtain ⟨r', hr', hst'⟩ := hpend k₀ hk₀
        exact hids k₀ r' hr' hst'
      have hlt : (ids.erase k₀).length < n := by
        have hlen := List.length_erase_of_mem hk₀ids
        have hpos := List.length_pos_of_mem hk₀ids
        omega
      obtain ⟨h', now, jobs', v, hpath', hid⟩ := ih _ hlt (ids.erase k₀) hreadu hleft hidle
        (hsame id hmem ▸ hr) rfl
      exact ⟨_, now, jobs', v, hpath.trans hpath', hid⟩

/-! ## What a restart brings back -/

theorem recovers_of_pending [hω : Nonempty ω] {s : State F ω} (hw : AllWritten s)
    (hread : ∀ k r, s.jobs.get? k = some r → r.status = .pending → Readable r)
    (hidle : ∀ w, s.pc w = .idle) {id : Uuid} {r : JobRow F} (hr : s.jobs.get? id = some r)
    (hst : r.status = .pending) : Recovers id s := by
  refine ⟨[], s, r, .nil, hr, hst, hω, fun w => ?_⟩
  obtain ⟨d, hd⟩ := (hw id r hr).nextAttemptAt
  have hids : ∀ k r, s.jobs.get? k = some r → r.status = .pending →
      k ∈ s.jobs.rows.map JobRow.id := by
    intro k r' hr' _
    exact List.mem_map.2 ⟨r', Table.mem_of_get? hr', Table.key_of_get? hr'⟩
  exact claimed_of_pending w _ hread hids (hidle w) hr hst hd

/-- A row that no claim can return and nobody holds is never returned. -/
theorem not_recovers {s : State F ω} (hidle : ∀ w, s.pc w = .idle) {id : Uuid} {r : JobRow F}
    (hr : s.jobs.get? id = some r) (hread : r.status = .pending → ¬Readable r)
    (hdead : r.status ≠ .dead) : ¬Recovers id s := by
  have hset : Settled id r s := by
    refine ⟨hr, hread, hdead, fun w => ?_⟩
    rw [State.heldIds, hidle w]
    exact List.not_mem_nil
  rintro ⟨h, t, r', hpath, -, -, ⟨w⟩, hclaims⟩
  obtain ⟨h', now, jobs, u, hpath', hid⟩ := hclaims w
  cases hpath' with
  | cons hbefore hclaim =>
    have hthere := (hset.path hpath.of_restrict).path hbefore.of_restrict
    obtain ⟨-, hst⟩ := hclaim
    cases hst with
    | claimDueJobs w now fault rows res t' hpc hsel hclaim =>
      obtain ⟨-, hin, -⟩ := claimDueJobs_spec hsel hclaim
      obtain ⟨job, hjob, rfl⟩ := List.mem_map.1 hid
      obtain ⟨r₁, hr₁, hpend, -, -, hok⟩ := hin job hjob
      obtain rfl := Option.some.inj (hthere.row.symm.trans hr₁)
      exact hthere.unclaimable hpend ((readable_asClaimed now r).1 (readable_of_rowToJob hok))

/-- Every job that is neither delivered nor dead comes back. -/
def Restored (s : State F ω) : Prop :=
  ∀ id r, s.jobs.get? id = some r → r.status ≠ .delivered → r.status ≠ .dead → Recovers id s

/-- A restart restores the jobs if none was in flight, the pending ones can be read, and
workers are started. -/
theorem restored_iff {h : List (Label F ω)} {s : State F ω} (hs : (system F ω).Reaches h s) :
    Restored s.restart ↔ ∀ id r, s.jobs.get? id = some r →
      r.status ≠ .inFlight ∧ (r.status = .pending → Readable r ∧ Nonempty ω) := by
  constructor
  · intro hall id r hr
    refine ⟨fun hst => ?_, fun hst => ?_⟩
    · refine not_recovers (s := s.restart) (fun _ => rfl) hr (fun hpend => ?_)
        (by rw [hst]; decide) (hall id r hr (by rw [hst]; decide) (by rw [hst]; decide))
      rw [hst] at hpend
      cases hpend
    · have hrec := hall id r hr (by rw [hst]; decide) (by rw [hst]; decide)
      refine ⟨by_contra fun hno => ?_, ?_⟩
      · exact not_recovers (s := s.restart) (fun _ => rfl) hr (fun _ => hno)
          (by rw [hst]; decide) hrec
      · obtain ⟨-, -, -, -, -, -, hω, -⟩ := hrec
        exact hω
  · intro hnone id r hr hndel hndead
    have hpend : r.status = .pending := by
      cases hst : r.status with
      | pending => rfl
      | inFlight => exact absurd hst (hnone id r hr).1
      | delivered => exact absurd hst hndel
      | dead => exact absurd hst hndead
    have hω : Nonempty ω := ((hnone id r hr).2 hpend).2
    exact recovers_of_pending (allWritten (restart_reached hs))
      (fun k r' hr' hst' => ((hnone k r' hr').2 hst').1) (fun _ => rfl) hr hpend

/-- The job after a call that failed: its row is pending again, and nobody has it. -/
def retriedState : State Formats.millis Unit where
  jobs := recordOutcome claimedState.jobs claimedJob (deliver (.status 500)) (1000 : Int) epoch
  pc _ := .batch []

theorem retriedState_reached : (system Formats.millis Unit).Reaches
    [.recordOutcome () claimedJob (deliver (.status 500)),
      .deliver () claimedJob (deliver (.status 500)),
      .claimDueJobs () epoch [claimedJob], .spawnWorkers,
      .insertJob 1 "http://a.test" "{}" 2 epoch] retriedState := by
  have hcalled := claimedState_reached.step
    (Step.deliver claimedState () claimedJob [] (.status 500) rfl)
  exact hcalled.step (Step.recordOutcome _ () claimedJob _ [] (1000 : Int) epoch rfl)

/-- A crash after the outcome loses nothing. -/
theorem restored_iff_retried : Restored retriedState.restart := by
  refine (restored_iff retriedState_reached).2 fun id r hr => ?_
  obtain rfl := List.mem_singleton.1 (Table.mem_of_get? hr)
  exact ⟨by decide, fun _ => ⟨⟨rfl, rfl, rfl⟩, ⟨()⟩⟩⟩

/-- A crash between the claim and the outcome loses the job. -/
theorem claimedState_not_restored :
    (∃ h, (system Formats.millis Unit).Reaches h claimedState) ∧
      ¬Restored claimedState.restart := by
  refine ⟨⟨_, claimedState_reached⟩, fun hall => ?_⟩
  have hr : claimedState.restart.jobs.get? 1
      = some (asClaimed epoch (newRow 1 "http://a.test" "{}" 2 epoch)) := rfl
  exact not_recovers (fun _ => rfl) hr (fun hpend => by cases hpend) (by decide)
    (hall 1 _ hr (by decide) (by decide))

end K
end WebhookDelivery
