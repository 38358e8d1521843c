/-
When a job of the `k` service has its turn.

A claim takes the pending jobs that have been due the longest, eight at a time, so a
job that is passed over was behind eight others, and each of these leaves the queue.
A call of a job follows the claim that took it, at most one call each, and a call
that succeeds is the last: the service marks the job delivered, or loses it.
-/
import WebhookDelivery.Run.Progress
import WebhookDelivery.K.Claiming
import WebhookDelivery.K.Ledger
import WebhookDelivery.K.Recovery

namespace WebhookDelivery
namespace K

open Sql Run

variable {F : Formats} {ω : Type}

/-! ## The jobs ahead -/

/-- The pending jobs other than `id` that have been due since `τ` or longer. -/
def ahead (τ : F.Stamp) (id : Uuid) (t : Jobs F) : List (JobRow F) :=
  t.select fun r => decide (r.id ≠ id) && isDue τ r

theorem mem_ahead {τ : F.Stamp} {id : Uuid} {t : Jobs F} {x : JobRow F} :
    x ∈ ahead τ id t ↔
      t.get? x.id = some x ∧ x.id ≠ id ∧ x.status = .pending ∧ x.nextAttemptAt ≤ τ := by
  have hmem : x ∈ t.rows ↔ t.get? x.id = some x :=
    ⟨Table.get?_of_mem, Table.mem_of_get?⟩
  simp [ahead, Table.select, isDue_iff, hmem]

/-- A claim that finds `r` due and leaves it takes eight jobs that are ahead of it. -/
theorem claim_ahead {fault : Option Statement} {now : F.DateTime} {rows : List (JobRow F)}
    {t t' : Jobs F} {jobs : List (Job F)} (hsel : SelectsDue t now 8 rows)
    (hclaim : claimDueJobs fault now rows t = (.ok jobs, t')) {r : JobRow F}
    (hr : t.get? r.id = some r) (hpend : r.status = .pending)
    (hdue : r.nextAttemptAt ≤ F.fmtTs now) (hleft : r.id ∉ jobs.map Job.id) :
    (ahead r.nextAttemptAt r.id t').length + 8 ≤ (ahead r.nextAttemptAt r.id t).length := by
  have hids : jobs.map Job.id = rows.map JobRow.id :=
    (claimLoop_ok hsel.nodup (claimDueJobs_ok hclaim)).2.2.1
  obtain ⟨-, hin, hout⟩ := claimDueJobs_spec hsel hclaim
  have hmatch : r ∈ t.select (isDue (F.fmtTs now)) :=
    List.mem_filter.2 ⟨Table.mem_of_get? hr, isDue_iff.2 ⟨hpend, hdue⟩⟩
  have hrows : r ∉ rows := by
    intro hmem
    exact hleft (hids ▸ List.mem_map_of_mem hmem)
  have height : rows.length = 8 := by
    have hlen := hsel.length_eq
    have hmore : ¬((t.select (isDue (F.fmtTs now))).length : Int) ≤ 8 :=
      fun hle => hrows (hsel.mem_of_length_le hle hmatch)
    rw [if_neg (by decide)] at hlen
    omega
  have hgone : ∀ k ∈ rows.map JobRow.id, ∃ x ∈ ahead r.nextAttemptAt r.id t, x.id = k := by
    intro k hk
    obtain ⟨x, hx, rfl⟩ := List.mem_map.1 hk
    obtain ⟨hget, hxpend, -⟩ := hsel.pending hx
    refine ⟨x, mem_ahead.2 ⟨hget, fun hid => ?_, hxpend, hsel.le_of_left_out hx hmatch hrows⟩, rfl⟩
    rw [hid, hr] at hget
    obtain rfl := Option.some.inj hget
    exact hrows hx
  have hkept : ∀ x ∈ ahead r.nextAttemptAt r.id t',
      x ∈ ahead r.nextAttemptAt r.id t ∧ x.id ∉ rows.map JobRow.id := by
    intro x hx
    obtain ⟨hget, hid, hxpend, hle⟩ := mem_ahead.1 hx
    have hnot : x.id ∉ jobs.map Job.id := by
      intro hk
      obtain ⟨job, hjob, hjid⟩ := List.mem_map.1 hk
      obtain ⟨r', -, -, -, hafter, -⟩ := hin job hjob
      rw [hjid, hget] at hafter
      obtain rfl := Option.some.inj hafter
      cases hxpend
    exact ⟨mem_ahead.2 ⟨(hout x.id hnot).symm.trans hget, hid, hxpend, hle⟩, hids ▸ hnot⟩
  have hlength := Table.length_select_add hsel.nodup hgone fun x hx =>
    ⟨⟨x, (hkept x hx).1, rfl⟩, (hkept x hx).2⟩
  rw [List.length_map, height] at hlength
  exact hlength

/-! ## Being passed over -/

/-- The label is a claim of the job. -/
def Label.Claims (id : Uuid) : Label F ω → Prop
  | .claimDueJobs _ _ jobs => id ∈ jobs.map Job.id
  | _ => False

/-- The label is a claim that takes jobs at a time when `τ` is due. -/
def Label.passes (τ : F.Stamp) : Label F ω → Bool
  | .claimDueJobs _ now jobs => !jobs.isEmpty && decide (τ ≤ F.fmtTs now)
  | _ => false

/-- The step puts no job in the queue that is due at `τ`: the clock has passed `τ`
when it is read for a new job, for a requeue or for the retry of a failed one. -/
def Later (τ : F.Stamp) : Label F ω → State F ω → Prop
  | .insertJob _ _ _ _ now, _ => τ < F.fmtTs now
  | .requeueDead _ now _, _ => τ < F.fmtTs now
  | .recordOutcome _ job _, t => ∀ r, t.jobs.get? job.id = some r → r.status = .pending →
      τ < r.nextAttemptAt
  | _, _ => True

variable [DecidableEq ω]

/-- A pending job that is not claimed stays as it is. -/
theorem Step.pending_row {s t : State F ω} {l : Label F ω} (hst : Step s l t) (howned : Owned s)
    {id : Uuid} {r : JobRow F} (hr : s.jobs.get? id = some r) (hpend : r.status = .pending)
    (hno : ¬l.Claims id) : t.jobs.get? id = some r := by
  obtain ⟨r', hr', hrow⟩ := hst.row hr
  cases hrow with
  | kept => exact hr'
  | requeueDead now r hdead =>
    rw [hpend] at hdead
    cases hdead
  | claimDueJobs w now jobs job r hjob hid => exact absurd (hid ▸ List.mem_map_of_mem hjob) hno
  | recordOutcome w job res next now r hjob hid =>
    obtain ⟨r₀, hr₀, hflight, -⟩ := howned.backed w job hjob
    obtain rfl := Option.some.inj ((hid ▸ hr₀).symm.trans hr)
    rw [hpend] at hflight
    cases hflight

/-- No step but a claim changes who is ahead, unless the clock goes back. -/
theorem Step.ahead_le {s t : State F ω} {l : Label F ω} (hst : Step s l t) {τ : F.Stamp} {id : Uuid}
    (hlater : Later τ l t) : (ahead τ id t.jobs).length ≤ (ahead τ id s.jobs).length := by
  have hof : (∀ x ∈ ahead τ id t.jobs, x ∈ ahead τ id s.jobs) →
      (ahead τ id t.jobs).length ≤ (ahead τ id s.jobs).length := by
    intro hsub
    exact Table.length_select_add List.nodup_nil (fun _ hk => absurd hk List.not_mem_nil)
      fun x hx => ⟨⟨x, hsub x hx, rfl⟩, List.not_mem_nil⟩
  refine hof fun x hx => ?_
  obtain ⟨hget, hid, hpend, hle⟩ := mem_ahead.1 hx
  refine mem_ahead.2 ⟨?_, hid, hpend, hle⟩
  rcases hst.row_of hget with ⟨r, hr, hrow⟩ | ⟨destination, payload, maxAttempts, now, rfl, hnew⟩
  · cases hrow with
    | kept => exact hr
    | requeueDead now => exact absurd hlater (not_lt.2 hle)
    | claimDueJobs w now => cases hpend
    | recordOutcome w job res next now r hjob hjid =>
      exact absurd (hlater _ (hjid ▸ hget) hpend) (not_lt.2 hle)
  · rw [hnew] at hle
    exact absurd hlater (not_lt.2 hle)

/-- A claim that passes a due job over brings it eight places forward. -/
theorem Step.ahead_paid {s t : State F ω} {l : Label F ω} (hst : Step s l t) {id : Uuid}
    {r : JobRow F} (hr : s.jobs.get? id = some r) (hpend : r.status = .pending)
    (hno : ¬l.Claims id) (hlater : Later r.nextAttemptAt l t) :
    (ahead r.nextAttemptAt id t.jobs).length + (if l.passes r.nextAttemptAt then 8 else 0) ≤
      (ahead r.nextAttemptAt id s.jobs).length := by
  by_cases hpass : l.passes r.nextAttemptAt = true
  · rw [if_pos hpass]
    cases hst with
    | claimDueJobs w now fault rows res t' hidle hsel hclaim =>
      simp only [Label.passes, Bool.and_eq_true, decide_eq_true_eq] at hpass
      obtain rfl : r.id = id := Table.key_of_get? hr
      cases res with
      | error e => cases hpass.1
      | ok jobs => exact claim_ahead hsel hclaim hr hpend hpass.2 (hno)
    | insertJob | requeueDead | recordOutcome | deliver | recordFailed | nextPoll | stop | crash
    | spawnWorkers => cases hpass
  · rw [if_neg hpass]
    exact Step.ahead_le hst hlater

/-- How often a pending job is passed over.  While what comes into the queue comes later
than the time the job is due, every claim that takes other jobs at a time when it is due
takes eight of those that were ahead of it, so with `n` of them this happens at most `n / 8`
times.  Claims that fail are not counted; the workers may fail and crash as they like. -/
theorem passed_over_le {h : List (Label F ω)} {s : State F ω} (hs : (system F ω).Reaches h s)
    {id : Uuid} {r : JobRow F} (hr : s.jobs.get? id = some r) (hpend : r.status = .pending)
    {h' : List (Label F ω)} {u : State F ω}
    (hpath : ((system F ω).within fun _ l t => ¬l.Claims id ∧
      Later r.nextAttemptAt l t).Path s h' u) :
    u.jobs.get? id = some r ∧
      8 * h'.countP (Label.passes r.nextAttemptAt) ≤ (ahead r.nextAttemptAt id s.jobs).length := by
  let waiting (s : State F ω) : Prop := Owned s ∧ s.jobs.get? id = some r
  let queue (s : State F ω) : Nat := (ahead r.nextAttemptAt id s.jobs).length
  have hpaid : waiting u ∧ queue u + 8 * h'.countP (Label.passes r.nextAttemptAt) ≤ queue s := by
    refine System.Path.paid (fun s l t hs hst => ?_) hpath ⟨owned hs, hr⟩
    obtain ⟨⟨hno, hlater⟩, hst⟩ := hst
    obtain ⟨howned, hrow⟩ := hs
    exact ⟨⟨howned.step hst, Step.pending_row hst howned hrow hpend hno⟩,
      Step.ahead_paid hst hrow hpend hno hlater⟩
  obtain ⟨⟨-, hrow⟩, hle⟩ := hpaid
  exact ⟨hrow, Nat.le_trans (Nat.le_add_left _ _) hle⟩

def waitingRow (n : Nat) : JobRow Formats.millis :=
  newRow (BitVec.ofNat 128 n) "http://a.test" "{}" 2 epoch

/-- Nine jobs of one time. -/
def crowdedState : State Formats.millis Unit where
  jobs := ⟨(List.range 9).map waitingRow, by decide⟩
  pc _ := .idle

theorem crowd_reached : ∀ n ≤ 9, ∃ h t, (system Formats.millis Unit).Reaches h
    ⟨t, fun _ => .stopped⟩ ∧ t.rows = (List.range n).map waitingRow
  | 0, _ => ⟨[], Table.empty, .init ⟨rfl, fun _ => rfl⟩, rfl⟩
  | n + 1, hn => by
    obtain ⟨h, t, hs, hrows⟩ := crowd_reached n (Nat.le_of_succ_le hn)
    have hfree : t.get? (waitingRow n).id = none := by
      refine Table.get?_eq_none_iff.2 fun x hx => ?_
      rw [hrows] at hx
      obtain ⟨k, hk, rfl⟩ := List.mem_map.1 hx
      have hlt : k < n := List.mem_range.1 hk
      intro hid
      have hnat : k % 2 ^ 128 = n % 2 ^ 128 := congrArg BitVec.toNat hid
      omega
    obtain ⟨t', ht'⟩ := Table.insert?_eq_some_iff.2 hfree
    let s : State Formats.millis Unit := ⟨t, fun _ => .stopped⟩
    refine ⟨_, t', hs.step (Step.insertJob s (waitingRow n).id "http://a.test" "{}" 2 epoch t'
      ht'), ?_⟩
    rw [Table.rows_of_insert? ht', hrows, List.range_succ, List.map_append]
    rfl

/-- Eight of the nine jobs are claimed, and the last is passed over this once. -/
theorem passed_over_le_crowd : ∃ jobs u,
    ((system Formats.millis Unit).within fun _ l t => ¬l.Claims 8 ∧ Later epoch l t).Path
      crowdedState [.claimDueJobs () epoch jobs] u ∧
      [(.claimDueJobs () epoch jobs : Label Formats.millis Unit)].countP
        (Label.passes epoch) = 1 ∧
      u.jobs.get? 8 = some (waitingRow 8) ∧
      8 * 1 ≤ (ahead epoch 8 crowdedState.jobs).length := by
  obtain ⟨h, ⟨rows, hnodup⟩, hs, hrows⟩ := crowd_reached 9 (Nat.le_refl 9)
  obtain rfl : rows = (List.range 9).map waitingRow := hrows
  have hcrowd : (system Formats.millis Unit).Reaches _ crowdedState :=
    hs.step (Step.spawnWorkers _ fun _ => rfl)
  have hsel : SelectsDue crowdedState.jobs epoch 8 ((List.range 8).map waitingRow) :=
    ⟨(List.range 9).map waitingRow, List.Perm.refl _, by decide, rfl⟩
  have hepoch : (Formats.millis.parseTs (Formats.millis.fmtTs epoch)).isSome := rfl
  obtain ⟨jobs, t, hloop⟩ := claimLoop_succeeds hepoch
    (((List.range 8).map waitingRow).map JobRow.id) (t := crowdedState.jobs) fun k hk => by
      obtain ⟨r, hr, rfl⟩ := List.mem_map.1 hk
      obtain ⟨n, -, rfl⟩ := List.mem_map.1 hr
      exact ⟨_, (hsel.pending hr).1, rfl, rfl, rfl⟩
  have hclaim : claimDueJobs none epoch ((List.range 8).map waitingRow) crowdedState.jobs =
      (.ok jobs, t) := by
    unfold claimDueJobs
    rw [if_neg (by decide), hloop]
    rfl
  have hids := (claimLoop_ok hsel.nodup hloop).2.2.1
  have hlen : jobs.length = 8 := by
    have hmap := congrArg List.length hids
    rwa [List.length_map] at hmap
  have hpasses : [(.claimDueJobs () epoch jobs : Label Formats.millis Unit)].countP
      (Label.passes epoch) = 1 := by
    cases jobs with
    | nil => cases hlen
    | cons job rest => rfl
  have hleft : (8 : Uuid) ∉ jobs.map Job.id := by
    rw [hids]
    decide
  have hpath : ((system Formats.millis Unit).within fun _ l t =>
      ¬l.Claims 8 ∧ Later epoch l t).Path crowdedState [.claimDueJobs () epoch jobs] _ :=
    .one ⟨⟨hleft, trivial⟩,
      Step.claimDueJobs crowdedState () epoch none _ _ t rfl hsel hclaim⟩
  obtain ⟨hrow, hle⟩ := passed_over_le hcrowd (r := waitingRow 8) rfl rfl hpath
  exact ⟨jobs, _, hpath, hpasses, hrow, hpasses ▸ hle⟩

/-! ## From the claim to the call -/

/-- The jobs a worker has claimed and not called yet. -/
def Pc.uncalled : Pc F → List (Job F)
  | .stopped | .idle => []
  | .batch jobs => jobs
  | .outcome _ _ rest => rest

/-- The job comes from a claim in the history, of a row that was pending and due
then, and has not been called since. -/
def ClaimedIn (h : List (Label F ω)) (w : ω) (job : Job F) : Prop :=
  ∃ h₂ h₁ now jobs s r, h = h₂ ++ .claimDueJobs w now jobs :: h₁ ∧ job ∈ jobs ∧
    (system F ω).Reaches h₁ s ∧ s.jobs.get? job.id = some r ∧ r.status = .pending ∧
    r.nextAttemptAt ≤ F.fmtTs now ∧ job.attempts = r.attempts + 1 ∧
    ∀ l ∈ h₂, l.delivers job.id = false

omit [DecidableEq ω] in
theorem Pc.uncalled_sublist (pc : Pc F) : pc.uncalled.Sublist pc.held := by
  cases pc with
  | stopped | idle => exact List.Sublist.refl _
  | batch jobs => exact List.Sublist.refl _
  | outcome job res rest => exact List.sublist_cons_self job rest

theorem ClaimedIn.cons {h : List (Label F ω)} {w : ω} {job : Job F} (hc : ClaimedIn h w job)
    {l : Label F ω} (hl : l.delivers job.id = false) : ClaimedIn (l :: h) w job := by
  obtain ⟨h₂, h₁, now, jobs, s, r, rfl, hjob, hs, hr, hpend, hdue, hatt, hnone⟩ := hc
  refine ⟨l :: h₂, h₁, now, jobs, s, r, rfl, hjob, hs, hr, hpend, hdue, hatt, fun l' hl' => ?_⟩
  rcases List.mem_cons.1 hl' with rfl | hl'
  · exact hl
  · exact hnone l' hl'

/-- What the worker of a step has uncalled after it, it had before, and the step
calls none of these, unless it is a claim. -/
theorem Step.uncalled {s t : State F ω} {l : Label F ω} (hst : Step s l t) (howned : Owned s)
    {v : ω} {job : Job F} (hjob : job ∈ (t.pc v).uncalled) :
    (job ∈ (s.pc v).uncalled ∧ l.delivers job.id = false) ∨
      ∃ now jobs r, l = .claimDueJobs v now jobs ∧ job ∈ jobs ∧
        s.jobs.get? job.id = some r ∧ r.status = .pending ∧ r.nextAttemptAt ≤ F.fmtTs now ∧
        job.attempts = r.attempts + 1 := by
  -- What the other workers have is as it was.
  have hset : ∀ {s' : State F ω} {w : ω} {pc : Pc F}, s'.pc = s.pc →
      job ∈ ((s'.setPc w pc).pc v).uncalled → (v = w ∧ job ∈ pc.uncalled) ∨
        (v ≠ w ∧ job ∈ (s.pc v).uncalled) := by
    intro s' w pc hpc hmem
    by_cases hv : v = w
    · rw [hv, State.setPc_self] at hmem
      exact .inl ⟨hv, hmem⟩
    · rw [State.setPc_ne s' pc hv, hpc] at hmem
      exact .inr ⟨hv, hmem⟩
  cases hst with
  | insertJob | requeueDead => exact .inl ⟨hjob, rfl⟩
  | claimDueJobs w now fault rows res t' hidle hsel hclaim =>
    rcases hset rfl hjob with ⟨rfl, hin⟩ | ⟨hv, hin⟩
    · obtain ⟨r, hr, hpend, hdue, -, hdec⟩ := (claimDueJobs_spec hsel hclaim).2.1 job hin
      obtain ⟨-, -, -, hatt, -⟩ := rowToJob_ok hdec
      exact .inr ⟨now, claimed res, r, rfl, hin, hr, hpend, hdue, hatt⟩
    · exact .inl ⟨hin, rfl⟩
  | deliver w job' rest resp hpc =>
    have hheld : (s.heldIds w) = job'.id :: rest.map Job.id := by rw [State.heldIds, hpc]; rfl
    rcases hset rfl hjob with ⟨rfl, hin⟩ | ⟨hv, hin⟩
    · have hin : job ∈ rest := hin
      have hnd := howned.exclusive.nodup v
      rw [hheld] at hnd
      refine .inl ⟨?_, decide_eq_false fun hid => ?_⟩
      · rw [hpc]
        exact List.mem_cons_of_mem job' hin
      · exact (List.nodup_cons.1 hnd).1 (hid ▸ List.mem_map_of_mem hin)
    · refine .inl ⟨hin, decide_eq_false fun hid => ?_⟩
      refine hv (howned.exclusive.unique v w job.id ?_ ?_)
      · exact List.mem_map_of_mem ((Pc.uncalled_sublist (s.pc v)).subset hin)
      · rw [hheld, ← hid]
        exact List.mem_cons_self
  | recordOutcome w job' res rest next now hpc =>
    rcases @hset { s with jobs := _ } w _ rfl hjob with ⟨rfl, hin⟩ | ⟨hv, hin⟩
    · exact .inl ⟨by rw [hpc]; exact hin, rfl⟩
    · exact .inl ⟨hin, rfl⟩
  | recordFailed w job' res rest hpc =>
    rcases hset rfl hjob with ⟨rfl, hin⟩ | ⟨hv, hin⟩
    · exact .inl ⟨by rw [hpc]; exact hin, rfl⟩
    · exact .inl ⟨hin, rfl⟩
  | nextPoll w hpc | stop w =>
    rcases hset rfl hjob with ⟨rfl, hin⟩ | ⟨hv, hin⟩
    · exact absurd hin List.not_mem_nil
    · exact .inl ⟨hin, rfl⟩
  | crash | spawnWorkers => exact absurd hjob List.not_mem_nil

theorem claimedIn {h : List (Label F ω)} {s : State F ω} (hs : (system F ω).Reaches h s) :
    ∀ v, ∀ job ∈ (s.pc v).uncalled, ClaimedIn h v job := by
  refine hs.invariant (I := fun h s => ∀ v, ∀ job ∈ (s.pc v).uncalled, ClaimedIn h v job)
    (fun s hinit v job hjob => ?_) (fun h s l t hr hI hst v job hjob => ?_)
  · rw [hinit.2 v] at hjob
    exact absurd hjob List.not_mem_nil
  · rcases Step.uncalled hst (owned hr) hjob with
      ⟨hin, hno⟩ | ⟨now, jobs, r, rfl, hin, hrow, hpend, hdue, hatt⟩
    · exact (hI v job hin).cons hno
    · exact ⟨[], h, now, jobs, s, r, rfl, hin, hr, hrow, hpend, hdue, hatt,
        fun _ hl => absurd hl List.not_mem_nil⟩

/-- No call goes out before its time, and none twice.  In every run a worker calls a
job after a claim of its own that took it, at a time not before the one its row had
for the next attempt, with the attempts of that row plus one, and no call of the job
lies between the two. -/
theorem calls_on_time (h₁ : List (Label F ω)) {h₀ : List (Label F ω)} {w : ω} {job : Job F}
    {res : Except DeliveryError Unit} {s : State F ω}
    (hs : (system F ω).Reaches (h₁ ++ .deliver w job res :: h₀) s) : ClaimedIn h₀ w job := by
  obtain ⟨s₀, s₁, hs₀, hst, -⟩ := hs.cut
  cases hst with
  | deliver w job rest resp hpc =>
    refine claimedIn hs₀ w job ?_
    rw [hpc]
    exact List.mem_cons_self

/-! ## The last call -/

/-- A call and a start of the job are steps of its life. -/
theorem lifeEvent_of {id : Uuid} {l : Label F ω} :
    (l.delivers id = true → ∃ e, lifeEvent id l = some e ∧ e.isCall = true) ∧
      (l.starts id = true → ∃ e, lifeEvent id l = some e ∧ e.starts = true) := by
  cases l with
  | insertJob id' destination payload maxAttempts now =>
    refine ⟨fun h => (by cases h), fun h => ⟨.submit maxAttempts, ?_, rfl⟩⟩
    exact if_pos (of_decide_eq_true h)
  | requeueDead id' now requeued =>
    refine ⟨fun h => (by cases h), fun h => ⟨.revive, ?_, rfl⟩⟩
    simp only [Label.starts, Bool.and_eq_true, decide_eq_true_eq] at h
    exact if_pos h
  | deliver w job res =>
    refine ⟨fun h => ⟨.call w (succeeded res), ?_, rfl⟩, fun h => (by cases h)⟩
    exact if_pos (of_decide_eq_true h)
  | claimDueJobs | recordOutcome | recordFailed | nextPoll | stop | crash | spawnWorkers =>
    exact ⟨fun h => (by cases h), fun h => (by cases h)⟩

/-- A destination that has answered a call of a job with success gets no other call
of it, whatever fails or crashes afterwards.  The job is not requeued either: it is
delivered, or stays in flight. -/
theorem success_is_last (h₁ : List (Label F ω)) {h₀ : List (Label F ω)} {w : ω} {job : Job F}
    {s : State F ω}
    (hs : (system F ω).Reaches (h₁ ++ .deliver w job (.ok ()) :: h₀) s) :
    (∀ l ∈ h₁, l.delivers job.id = false ∧ l.starts job.id = false) ∧
      ∃ r, s.jobs.get? job.id = some r ∧ (r.status = .delivered ∨ r.status = .inFlight) := by
  obtain ⟨a, ha, htracks⟩ := (simulation F ω job.id).reaches hs
  have hcall : lifeEvent job.id (.deliver w job (.ok ()) : Label F ω) = some (.call w true) :=
    if_pos rfl
  rw [List.filterMap_append, List.filterMap_cons_some hcall] at ha
  obtain ⟨hdone, hnone⟩ := Retry.success_last ha
  refine ⟨fun l hl => ?_, ?_⟩
  · have hfalse : ∀ e, lifeEvent job.id l = some e → e.isCall = false ∧ e.starts = false :=
      fun e he => hnone e (List.mem_filterMap.2 ⟨l, hl, he⟩)
    constructor
    · refine Bool.eq_false_iff.2 fun hdel => ?_
      obtain ⟨e, he, hecall⟩ := lifeEvent_of.1 hdel
      rw [(hfalse e he).1] at hecall
      cases hecall
    · refine Bool.eq_false_iff.2 fun hstart => ?_
      obtain ⟨e, he, hestart⟩ := lifeEvent_of.2 hstart
      rw [(hfalse e he).2] at hestart
      cases hestart
  · cases a with
    | none => exact hdone.elim
    | some j =>
      obtain ⟨r, hr, -, hstage⟩ := htracks
      refine ⟨r, hr, ?_⟩
      rcases hdone with hdel | hlost | ⟨v, hcalled⟩
      · rw [hdel] at hstage
        exact .inl hstage
      · rw [hlost] at hstage
        exact .inr hstage.1
      · rw [hcalled] at hstage
        exact .inr hstage.1

/-! ## Runs of one job -/

theorem calls_on_time_claimed : ClaimedIn
    [.claimDueJobs () epoch [claimedJob], .spawnWorkers,
      .insertJob 1 "http://a.test" "{}" 2 epoch] () claimedJob :=
  calls_on_time [.recordOutcome () claimedJob (.ok ())] deliveredState_reached

theorem success_is_last_delivered :
    ∃ r, deliveredState.jobs.get? 1 = some r ∧ (r.status = .delivered ∨ r.status = .inFlight) :=
  (success_is_last [.recordOutcome () claimedJob (.ok ())] deliveredState_reached).2

end K
end WebhookDelivery
