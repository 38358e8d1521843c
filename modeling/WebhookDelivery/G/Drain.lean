/-
The worker of the `g` service can always finish.

Whatever has happened, crashes and reclaims included, the ticks and the tasks alone
can deliver every row that is not dead-lettered: no row is out of reach of the
worker, and no task waits for a permit that is not given back.  The clock may be at
any time when they start, and has to come to one at which no row has to wait any
longer.
-/
import WebhookDelivery.Run.Progress
import WebhookDelivery.G.Ownership

namespace WebhookDelivery
namespace G

open Sql Run

variable {J : Json}

/-- The row is still to be delivered. -/
def isOpen (r : DeliveryRow) : Bool :=
  decide (r.status = .pending) || decide (r.status = .processing)

theorem isOpen_iff {r : DeliveryRow} :
    isOpen r = true ↔ r.status = .pending ∨ r.status = .processing := by
  simp [isOpen]

/-- A step of the worker at a clock reading from `T` to `L`, with calls that succeed, and
`delay` the draws for the retries. -/
def Label.works (T L : Int) (delay : ClaimedJob → Int) : Label J → Bool
  | .reclaim now => decide (T ≤ now ∧ now ≤ L)
  | .deliverOnce _ now res => decide (T ≤ now ∧ now ≤ L) && succeeded res
  | .finish job d _ => decide (d = delay job)
  | .claim .. => true
  | _ => false

variable (J) in
/-- The worker by itself, its clock between `T` and `L`. -/
def working (T L : Int) (delay : ClaimedJob → Int) : System State (Label J) :=
  (system J).restrict fun _ l => l.works T L delay = true

/-- Nothing has to wait at the clock reading `L`: an open row is due, one in processing
that no task works on is stale, and what a failed call puts off is due as well. -/
structure Ready (L : Int) (delay : ClaimedJob → Int) (s : State) : Prop where
  due : ∀ id r, s.table.get? id = some r → isOpen r = true → r.nextAttemptAt ≤ L
  stale : ∀ id r, s.table.get? id = some r → r.status = .processing →
    (∀ k ∈ s.tasks, k.id ≠ id) → r.updatedAt < staleCutoff s.cfg L
  retries : ∀ k ∈ s.tasks, ∀ now err, k.pc = .called now (.error err) →
    wrapI64 (now + delay k.job) ≤ L

/-- The delivery is dead-lettered, or a call of it has failed and is not recorded. -/
def Doomed (s : State) (id : String) : Prop :=
  (∃ r, s.table.get? id = some r ∧ r.status = .deadLettered) ∨
    ∃ k ∈ s.tasks, k.id = id ∧ ∃ now err, k.pc = .called now (.error err)

/-- What has been done with `s` has doomed no delivery. -/
def Spares (s t : State) : Prop := ∀ id, Doomed t id → Doomed s id

theorem Spares.trans {s t u : State} (hst : Spares s t) (htu : Spares t u) : Spares s u :=
  fun id hid => hst id (htu id hid)

/-- A delivery is not doomed by a step that leaves its row alone, or gives it a status
other than dead-lettered, and starts no call. -/
theorem spares_of {s t : State}
    (hrow : ∀ id r, t.table.get? id = some r → r.status = .deadLettered → Doomed s id)
    (htask : ∀ k ∈ t.tasks, k ∈ s.tasks ∨ k.pc = .waiting) : Spares s t := by
  rintro id (⟨r, hr, hdead⟩ | ⟨k, hk, hid, now, err, hpc⟩)
  · exact hrow id r hr hdead
  · rcases htask k hk with hin | hwait
    · exact .inr ⟨k, hin, hid, now, err, hpc⟩
    · rw [hwait] at hpc
      cases hpc

/-! ## The tasks -/

/-- The state after the task of `job` has finished. -/
def State.finished (s : State) (job : ClaimedJob) (now delay : Int) (res : Except String Unit)
    (tasks : List Task) : State :=
  { s with table := finish job now delay res s.table, tasks := tasks }

/-- The tasks that are left are tasks from before. -/
theorem mem_of_mem_rest {tasks pre post : List Task} {k : Task} (hs : tasks = pre ++ k :: post)
    {k' : Task} (hk : k' ∈ pre ++ post) : k' ∈ tasks := by
  rw [hs]
  rcases List.mem_append.1 hk with hk | hk
  · exact List.mem_append_left _ hk
  · exact List.mem_append_right pre (List.mem_cons_of_mem _ hk)

theorem spares_finished {s : State} (pre post : List Task) {job : ClaimedJob}
    {claimedAt now : Int} {res : Except String Unit} {pc : TaskPc}
    (hs : s.tasks = pre ++ ⟨job, claimedAt, pc⟩ :: post)
    (hpc : succeeded res = false → pc = .called now res) (delay : Int) :
    Spares s (s.finished job now delay res (pre ++ post)) := by
  refine spares_of (fun id r hr hdead => ?_) fun k hk => .inl (mem_of_mem_rest hs hk)
  have hrow := (get?_finish job now delay res s.table id).symm.trans hr
  by_cases hid : id = job.id
  · rw [if_pos hid] at hrow
    obtain ⟨r₀, -, rfl⟩ := Option.map_eq_some_iff.1 hrow
    cases res with
    | ok u => cases hdead
    | error err =>
      refine .inr ⟨⟨job, claimedAt, pc⟩, ?_, hid.symm, now, err, hpc rfl⟩
      rw [hs]
      exact List.mem_append_right pre List.mem_cons_self
  · rw [if_neg hid] at hrow
    exact .inl ⟨r, hrow, hdead⟩

/-- A row that is open after its task has finished was put off. -/
theorem isOpen_asFinished {job : ClaimedJob} {now delay : Int} {res : Except String Unit}
    {r : DeliveryRow} (hopen : isOpen (asFinished job now delay res r) = true) :
    (∃ err, res = .error err) ∧ (asFinished job now delay res r).status = .pending ∧
      (asFinished job now delay res r).nextAttemptAt = wrapI64 (now + delay) := by
  cases res with
  | ok u => cases hopen
  | error err =>
    by_cases hle : job.maxAttempts ≤ job.attempts + 1
    · simp [asFinished, hle, isOpen] at hopen
    · refine ⟨⟨err, rfl⟩, ?_, ?_⟩ <;> simp [asFinished, hle]

theorem Ready.finished {L : Int} {delay : ClaimedJob → Int} {s : State} (h : Ready L delay s)
    (pre post : List Task) {job : ClaimedJob} {claimedAt now : Int} {res : Except String Unit}
    {pc : TaskPc} (hs : s.tasks = pre ++ ⟨job, claimedAt, pc⟩ :: post)
    (hpc : succeeded res = false → pc = .called now res) :
    Ready L delay (s.finished job now (delay job) res (pre ++ post)) := by
  have hget := get?_finish job now (delay job) res s.table
  refine ⟨fun id r hr hopen => ?_, fun id r hr hproc hnone => ?_, fun k hk => ?_⟩
  · have hrow := (hget id).symm.trans hr
    by_cases hid : id = job.id
    · rw [if_pos hid] at hrow
      obtain ⟨r₀, -, rfl⟩ := Option.map_eq_some_iff.1 hrow
      obtain ⟨⟨err, rfl⟩, -, hnext⟩ := isOpen_asFinished hopen
      rw [hnext]
      refine h.retries ⟨job, claimedAt, pc⟩ ?_ now err (hpc rfl)
      rw [hs]
      exact List.mem_append_right pre List.mem_cons_self
    · rw [if_neg hid] at hrow
      exact h.due id r hrow hopen
  · have hrow := (hget id).symm.trans hr
    by_cases hid : id = job.id
    · rw [if_pos hid] at hrow
      obtain ⟨r₀, -, rfl⟩ := Option.map_eq_some_iff.1 hrow
      obtain ⟨-, hpend, -⟩ := isOpen_asFinished (isOpen_iff.2 (.inr hproc))
      rw [hpend] at hproc
      cases hproc
    · rw [if_neg hid] at hrow
      refine h.stale id r hrow hproc fun k hk => ?_
      rw [hs, List.mem_append, List.mem_cons] at hk
      rcases hk with hk | rfl | hk
      · exact hnone k (List.mem_append_left post hk)
      · exact fun e => hid e.symm
      · exact hnone k (List.mem_append_right pre hk)
  · exact h.retries k (mem_of_mem_rest hs hk)

/-- A task that waits, while no other holds a permit, makes its call and finishes. -/
theorem deliver_path {T L : Int} (hTL : T ≤ L) (delay : ClaimedJob → Int) {s : State}
    {job : ClaimedJob} {claimedAt : Int} {rest : List Task}
    (hs : s.tasks = ⟨job, claimedAt, .waiting⟩ :: rest) (hwait : ∀ k ∈ s.tasks, k.pc = .waiting)
    (hpermits : 0 < s.cfg.maxConcurrentDeliveries) :
    ∃ h, (working J T L delay).Path s h (s.finished job T (delay job) (.ok ()) rest) := by
  have hfree : s.tasks.countP Task.hasPermit < s.cfg.maxConcurrentDeliveries := by
    have hzero : s.tasks.countP Task.hasPermit = 0 := by
      rw [List.countP_eq_zero]
      intro k hk
      simp [Task.hasPermit, hwait k hk]
    omega
  have hcall : (working J T L delay).step s (.deliverOnce job T (.ok ()))
      { s with tasks := ⟨job, claimedAt, .called T (.ok ())⟩ :: rest } :=
    ⟨by simp [Label.works, succeeded, hTL],
      Step.deliverOnce s [] rest job claimedAt T (.ok ()) (.status 200 "" "") hs hfree⟩
  have hfinish : (working J T L delay).step
      { s with tasks := ⟨job, claimedAt, .called T (.ok ())⟩ :: rest }
      (.finish job (delay job) (.ok ())) (s.finished job T (delay job) (.ok ()) rest) :=
    ⟨decide_eq_true rfl, Step.finish _ [] rest job claimedAt T (delay job) (.ok ()) rfl⟩
  exact ⟨_, System.Path.nil.cons hcall |>.cons hfinish⟩

/-- The tasks come to an end: those that have called record the result, and the others
call and succeed. -/
theorem clears {T L : Int} (hTL : T ≤ L) {delay : ClaimedJob → Int} {s : State}
    (hready : Ready L delay s) (hpermits : 0 < s.cfg.maxConcurrentDeliveries) :
    ∃ h u, (working J T L delay).Path s h u ∧
      (u.cfg = s.cfg ∧ u.tick = s.tick ∧ Spares s u ∧ Ready L delay u) ∧ u.tasks = [] := by
  let P (v : State) : Prop := v.cfg = s.cfg ∧ v.tick = s.tick ∧ Spares s v ∧ Ready L delay v
  have hmove : ∀ v, P v → 0 < v.tasks.length →
      ∃ h u, (working J T L delay).Path v h u ∧ P u ∧ u.tasks.length < v.tasks.length := by
    rintro v ⟨hcfg, htick, hspares, hv⟩ hlen
    by_cases hwait : ∀ k ∈ v.tasks, k.pc = .waiting
    · cases htasks : v.tasks with
      | nil =>
        rw [htasks] at hlen
        cases hlen
      | cons k rest =>
        obtain ⟨job, claimedAt, pc⟩ := k
        obtain rfl : pc = .waiting := hwait _ (by rw [htasks]; exact List.mem_cons_self)
        obtain ⟨h, hpath⟩ := deliver_path (J := J) hTL delay htasks hwait (hcfg ▸ hpermits)
        have hok : succeeded (.ok () : Except String Unit) = false →
            TaskPc.waiting = .called T (.ok ()) := fun hno => by cases hno
        refine ⟨h, _, hpath, ⟨hcfg, htick, hspares.trans ?_, ?_⟩, Nat.lt_succ_self _⟩
        · exact spares_finished [] rest htasks hok (delay job)
        · exact hv.finished [] rest htasks hok
    · obtain ⟨k, hk, hpc⟩ : ∃ k ∈ v.tasks, k.pc ≠ .waiting := by
        simpa only [not_forall, exists_prop] using hwait
      obtain ⟨job, claimedAt, pc⟩ := k
      obtain ⟨pre, post, htasks⟩ := List.append_of_mem hk
      cases pc with
      | waiting => exact absurd rfl hpc
      | called now res =>
        have hstep : (working J T L delay).step v (.finish job (delay job) res)
            (v.finished job now (delay job) res (pre ++ post)) :=
          ⟨decide_eq_true rfl, Step.finish v pre post job claimedAt now (delay job) res htasks⟩
        refine ⟨_, _, .one hstep, ⟨hcfg, htick, hspares.trans ?_, ?_⟩, ?_⟩
        · exact spares_finished pre post htasks (fun _ => rfl) (delay job)
        · exact hv.finished pre post htasks fun _ => rfl
        · show (pre ++ post).length < v.tasks.length
          rw [htasks]
          simp
  obtain ⟨h, u, hpath, hP, hzero⟩ := System.exists_path_zero (P := P) hmove s
    ⟨rfl, rfl, fun _ hid => hid, hready⟩
  exact ⟨h, u, hpath, hP, List.length_eq_zero_iff.1 hzero⟩

/-- Tasks that all wait deliver: a row that is open afterwards was open before, and had
no task. -/
theorem delivers {T L : Int} (hTL : T ≤ L) {delay : ClaimedJob → Int} (s : State)
    (hready : Ready L delay s) (hpermits : 0 < s.cfg.maxConcurrentDeliveries)
    (hwait : ∀ k ∈ s.tasks, k.pc = .waiting) :
    ∃ h u, (working J T L delay).Path s h u ∧ u.cfg = s.cfg ∧ u.tick = s.tick ∧ u.tasks = [] ∧
      Spares s u ∧ Ready L delay u ∧ ∀ id r, u.table.get? id = some r → isOpen r = true →
        s.table.get? id = some r ∧ ∀ k ∈ s.tasks, k.id ≠ id := by
  induction htasks : s.tasks generalizing s with
  | nil =>
    refine ⟨[], s, .nil, rfl, rfl, htasks, fun _ hid => hid, hready,
      fun id r hr _ => ⟨hr, fun k hk => ?_⟩⟩
    exact absurd hk List.not_mem_nil
  | cons k rest ih =>
    obtain ⟨job, claimedAt, pc⟩ := k
    obtain rfl : pc = .waiting := hwait _ (by rw [htasks]; exact List.mem_cons_self)
    obtain ⟨h₁, hpath₁⟩ := deliver_path (J := J) hTL delay htasks hwait hpermits
    have hok : succeeded (.ok () : Except String Unit) = false →
        TaskPc.waiting = .called T (.ok ()) := fun hno => by cases hno
    let mid := s.finished job T (delay job) (.ok ()) rest
    have hspares : Spares s mid := spares_finished [] rest htasks hok (delay job)
    have hrest : ∀ k ∈ mid.tasks, k.pc = .waiting := by
      intro k hk
      exact hwait k (by rw [htasks]; exact List.mem_cons_of_mem _ hk)
    obtain ⟨h₂, u, hpath₂, hcfg, htick, hnone, hspares₂, hready₂, hopen⟩ :=
      ih mid (hready.finished [] rest htasks hok) hpermits hrest rfl
    refine ⟨h₂ ++ h₁, u, hpath₁.trans hpath₂, hcfg, htick, hnone, hspares.trans hspares₂,
      hready₂, ?_⟩
    intro id r hr hisopen
    obtain ⟨hmid, hother⟩ := hopen id r hr hisopen
    have hrow := (get?_finish job T (delay job) (.ok ()) s.table id).symm.trans hmid
    by_cases hid : id = job.id
    · rw [if_pos hid] at hrow
      obtain ⟨r₀, -, rfl⟩ := Option.map_eq_some_iff.1 hrow
      cases hisopen
    · rw [if_neg hid] at hrow
      refine ⟨hrow, fun k hk => ?_⟩
      rcases List.mem_cons.1 hk with rfl | hk
      · exact fun e => hid e.symm
      · exact hother k hk

/-! ## The ticks -/

/-- The state after the claim of a tick. -/
def State.claimed (s : State) (now : Int) (rows : List DeliveryRow) : State :=
  { s with
    table := claim now (rows.map DeliveryRow.id) s.table, tick := none,
    tasks := s.tasks ++ (rows.map DeliveryRow.job).map (Task.spawn now) }

/-- A tick that has reclaimed claims the first rows that are due. -/
theorem claims_path (T L : Int) (delay : ClaimedJob → Int) {s : State} {now : Int}
    (htick : s.tick = some now) :
    ∃ h rows, SelectsDue s.table now s.cfg.batchSize rows ∧
      (working J T L delay).Path s h (s.claimed now rows) := by
  let rows := orderBy DeliveryRow.nextAttemptAt s.cfg.batchSize (s.table.select (isDue now))
  have hsel : SelectsDue s.table now s.cfg.batchSize rows := orderBy_ordered _ _ _
  have hstep : (working J T L delay).step s (.claim now (rows.map DeliveryRow.job))
      (s.claimed now rows) :=
    ⟨rfl, Step.claim s now rows _ htick hsel (List.Perm.refl _)⟩
  exact ⟨_, rows, hsel, .one hstep⟩

/-- A claim dooms nothing. -/
theorem spares_claim (s : State) (now : Int) (rows : List DeliveryRow) :
    Spares s (s.claimed now rows) := by
  refine spares_of (fun id r hr hdead => ?_) fun k hk => ?_
  · have hrow := (get?_claim now (rows.map DeliveryRow.id) s.table id).symm.trans hr
    split at hrow
    · obtain ⟨r₀, -, rfl⟩ := Option.map_eq_some_iff.1 hrow
      cases hdead
    · exact .inl ⟨r, hrow, hdead⟩
  · rcases List.mem_append.1 hk with hk | hk
    · exact .inl hk
    · obtain ⟨job, -, rfl⟩ := List.mem_map.1 hk
      exact .inr rfl

/-- What is claimed was open, and has a task. -/
theorem Ready.claimed {L : Int} {delay : ClaimedJob → Int} {s : State} (h : Ready L delay s)
    {now : Int} {rows : List DeliveryRow} (hsel : SelectsDue s.table now s.cfg.batchSize rows) :
    Ready L delay (s.claimed now rows) := by
  have hget := get?_claim now (rows.map DeliveryRow.id) s.table
  refine ⟨fun id r hr hopen => ?_, fun id r hr hproc hnone => ?_, fun k hk now' err hpc => ?_⟩
  · have hrow := (hget id).symm.trans hr
    by_cases hid : id ∈ rows.map DeliveryRow.id
    · obtain ⟨r₀, hr₀, rfl⟩ := List.mem_map.1 hid
      obtain ⟨hin, hpend, -⟩ := hsel.due hr₀
      rw [if_pos hid, hin, Option.map_some, Option.some.injEq] at hrow
      rw [← hrow]
      exact h.due r₀.id r₀ hin (isOpen_iff.2 (.inl hpend))
    · rw [if_neg hid] at hrow
      exact h.due id r hrow hopen
  · have hrow := (hget id).symm.trans hr
    by_cases hid : id ∈ rows.map DeliveryRow.id
    · obtain ⟨r₀, hr₀, rfl⟩ := List.mem_map.1 hid
      refine absurd rfl (hnone (.spawn now r₀.job) (List.mem_append_right _ ?_))
      exact List.mem_map_of_mem (List.mem_map_of_mem hr₀)
    · rw [if_neg hid] at hrow
      exact h.stale id r hrow hproc fun k hk => hnone k (List.mem_append_left _ hk)
  · rcases List.mem_append.1 hk with hk | hk
    · exact h.retries k hk now' err hpc
    · obtain ⟨job, -, rfl⟩ := List.mem_map.1 hk
      cases hpc

/-- A row after the reclaim of a tick that comes late enough for it. -/
def reclaimed (cfg : Config) (now : Int) (r : DeliveryRow) : DeliveryRow :=
  if isStale (staleCutoff cfg now) r then asReclaimed now r else r

theorem isOpen_reclaimed (cfg : Config) (now : Int) (r : DeliveryRow) :
    isOpen (reclaimed cfg now r) = isOpen r := by
  unfold reclaimed
  by_cases hstale : isStale (staleCutoff cfg now) r = true
  · rw [if_pos hstale]
    obtain ⟨hproc, -⟩ := isStale_iff.1 hstale
    simp [isOpen, asReclaimed, hproc]
  · rw [if_neg hstale]

/-- An open row is due after a tick that comes late enough. -/
theorem isDue_reclaimed {cfg : Config} {now : Int} {r : DeliveryRow} (hopen : isOpen r = true)
    (hdue : r.nextAttemptAt ≤ now)
    (hstale : r.status = .processing → r.updatedAt < staleCutoff cfg now) :
    isDue now (reclaimed cfg now r) = true := by
  rcases isOpen_iff.1 hopen with hpend | hproc
  · have hno : ¬isStale (staleCutoff cfg now) r = true := by
      rw [isStale_iff, hpend]
      rintro ⟨hproc, -⟩
      cases hproc
    simp [reclaimed, hno, isDue, hpend, hdue]
  · have hyes : isStale (staleCutoff cfg now) r = true := isStale_iff.2 ⟨hproc, hstale hproc⟩
    simp [reclaimed, hyes, isDue, asReclaimed, hdue]

theorem reclaimed_nextAttemptAt (cfg : Config) (now : Int) (r : DeliveryRow) :
    (reclaimed cfg now r).nextAttemptAt = r.nextAttemptAt := by
  unfold reclaimed
  split <;> rfl

/-- Without tasks no row is left in processing by a tick at `L`. -/
theorem Ready.reclaimed {L : Int} {delay : ClaimedJob → Int} {s : State} (h : Ready L delay s)
    (htasks : s.tasks = []) :
    Ready L delay { s with table := reclaim s.cfg L s.table, tick := some L } := by
  have hget := get?_reclaim s.cfg L s.table
  refine ⟨fun id r hr hopen => ?_, fun id r hr hproc _ => ?_, h.retries⟩
  · obtain ⟨r₀, hr₀, hrow⟩ := Option.map_eq_some_iff.1 ((hget id).symm.trans hr)
    obtain rfl : G.reclaimed s.cfg L r₀ = r := hrow
    rw [isOpen_reclaimed] at hopen
    rw [reclaimed_nextAttemptAt]
    exact h.due id r₀ hr₀ hopen
  · obtain ⟨r₀, hr₀, hrow⟩ := Option.map_eq_some_iff.1 ((hget id).symm.trans hr)
    by_cases hstale : isStale (staleCutoff s.cfg L) r₀ = true
    · rw [if_pos hstale] at hrow
      rw [← hrow] at hproc
      cases hproc
    · rw [if_neg hstale] at hrow
      subst hrow
      refine h.stale id r₀ hr₀ hproc fun k hk => ?_
      rw [htasks] at hk
      exact absurd hk List.not_mem_nil

theorem spares_reclaim (s : State) (now : Int) :
    Spares s { s with table := reclaim s.cfg now s.table, tick := some now } := by
  refine spares_of (fun id r hr hdead => ?_) fun k hk => .inl hk
  have hrow := (get?_reclaim s.cfg now s.table id).symm.trans hr
  obtain ⟨r₀, hr₀, rfl⟩ := Option.map_eq_some_iff.1 hrow
  refine .inl ⟨r₀, hr₀, ?_⟩
  split at hdead
  · cases hdead
  · exact hdead

/-- One round of a worker without tasks, a tick that comes late enough and the calls of
what it has claimed, leaves fewer rows open. -/
theorem round_path {T L : Int} (hTL : T ≤ L) {delay : ClaimedJob → Int} {s : State}
    (hready : Ready L delay s) (hbatch : 0 < s.cfg.batchSize)
    (hpermits : 0 < s.cfg.maxConcurrentDeliveries) (htick : s.tick = none) (htasks : s.tasks = [])
    (hopen : 0 < (s.table.select isOpen).length) :
    ∃ h u, (working J T L delay).Path s h u ∧ u.cfg = s.cfg ∧ u.tick = none ∧ u.tasks = [] ∧
      Spares s u ∧ Ready L delay u ∧
      (u.table.select isOpen).length < (s.table.select isOpen).length := by
  let t : State := { s with table := reclaim s.cfg L s.table, tick := some L }
  have hget : ∀ id, t.table.get? id = (s.table.get? id).map (reclaimed s.cfg L) :=
    fun id => get?_reclaim s.cfg L s.table id
  have hreclaim : (working J T L delay).step s (.reclaim L) t :=
    ⟨decide_eq_true ⟨hTL, Int.le_refl L⟩, Step.reclaim s L htick⟩
  have hlate : ∀ r ∈ s.table.rows, r.status = .processing →
      r.updatedAt < staleCutoff s.cfg L := by
    intro r hr hproc
    refine hready.stale r.id r (Table.get?_of_mem hr) hproc fun k hk => ?_
    rw [htasks] at hk
    exact absurd hk List.not_mem_nil
  obtain ⟨h₁, rows, hsel, hclaim⟩ := claims_path (J := J) T L delay (s := t) rfl
  have hwait : ∀ k ∈ (t.claimed L rows).tasks, k.pc = .waiting := by
    intro k hk
    rcases List.mem_append.1 hk with hk | hk
    · have hin : k ∈ s.tasks := hk
      rw [htasks] at hin
      exact absurd hin List.not_mem_nil
    · obtain ⟨job, -, rfl⟩ := List.mem_map.1 hk
      rfl
  obtain ⟨h₂, u, hdeliver, hcfg, htick', hnone, hspares, hready', hleft⟩ := delivers (J := J) hTL
    (t.claimed L rows) ((hready.reclaimed htasks).claimed hsel) hpermits hwait
  refine ⟨h₂ ++ (h₁ ++ [.reclaim L]), u, ((System.Path.one hreclaim).trans hclaim).trans hdeliver,
    hcfg, htick', hnone, ((spares_reclaim s L).trans (spares_claim t L rows)).trans hspares,
    hready', ?_⟩
  -- The claim takes a row, and what it takes is delivered.
  obtain ⟨c, hc⟩ : ∃ c, c ∈ rows := by
    obtain ⟨r, hr⟩ := List.exists_mem_of_length_pos hopen
    obtain ⟨hmem, hro⟩ := List.mem_filter.1 hr
    have hrow : t.table.get? r.id = some (reclaimed s.cfg L r) := by
      rw [hget, show s.table.get? r.id = some r from Table.get?_of_mem hmem]
      rfl
    have hdue : reclaimed s.cfg L r ∈ t.table.select (isDue L) :=
      List.mem_filter.2 ⟨Table.mem_of_get? hrow,
        isDue_reclaimed hro (hready.due r.id r (Table.get?_of_mem hmem) hro) (hlate r hmem)⟩
    have hcfg : t.cfg.batchSize = s.cfg.batchSize := rfl
    have hlen := hsel.length_eq
    have hpos := List.length_pos_of_mem hdue
    rw [hcfg, if_neg (by omega)] at hlen
    refine List.exists_mem_of_length_pos ?_
    omega
  have hcid : ∃ r ∈ s.table.select isOpen, r.id = c.id := by
    obtain ⟨hrow, hpend, -⟩ := hsel.due hc
    obtain ⟨r, hr, hrc⟩ := Option.map_eq_some_iff.1 ((hget c.id).symm.trans hrow)
    refine ⟨r, List.mem_filter.2 ⟨Table.mem_of_get? hr, ?_⟩, Table.key_of_get? hr⟩
    rw [← isOpen_reclaimed s.cfg L r, hrc]
    exact isOpen_iff.2 (.inl hpend)
  have hkept : ∀ x ∈ u.table.select isOpen,
      (∃ r ∈ s.table.select isOpen, r.id = x.id) ∧ x.id ∉ [c.id] := by
    intro x hx
    obtain ⟨hmem, hxo⟩ := List.mem_filter.1 hx
    obtain ⟨hrow, htask⟩ := hleft x.id x (Table.get?_of_mem hmem) hxo
    have hnot : x.id ∉ rows.map DeliveryRow.id := by
      intro hin
      obtain ⟨r, hr, hid⟩ := List.mem_map.1 hin
      exact htask _ (List.mem_append_right _ (List.mem_map_of_mem (List.mem_map_of_mem hr))) hid
    have hmid := (get?_claim L (rows.map DeliveryRow.id) t.table x.id).symm.trans hrow
    rw [if_neg hnot, hget] at hmid
    obtain ⟨r, hr, hrx⟩ := Option.map_eq_some_iff.1 hmid
    refine ⟨⟨r, List.mem_filter.2 ⟨Table.mem_of_get? hr, ?_⟩, Table.key_of_get? hr⟩, fun hin => ?_⟩
    · rw [← isOpen_reclaimed s.cfg L r, hrx]
      exact hxo
    · rw [List.mem_singleton.1 hin] at hnot
      exact hnot (List.mem_map_of_mem hc)
  have hfewer := Table.length_select_add (List.nodup_singleton c.id) (by
    intro k hk
    rw [List.mem_singleton.1 hk]
    exact hcid) hkept
  simp only [List.length_singleton] at hfewer
  omega

/-- From every state that is ready at a clock reading to come, the worker alone can come
to rest with every delivery delivered, but for those that were dead-lettered and those
with a failed call that was not recorded yet. -/
theorem drains {T L : Int} (hTL : T ≤ L) {delay : ClaimedJob → Int} {s : State}
    (hready : Ready L delay s) (hbatch : 0 < s.cfg.batchSize)
    (hpermits : 0 < s.cfg.maxConcurrentDeliveries) :
    ∃ h u, (working J T L delay).Path s h u ∧ u.tasks = [] ∧
      ∀ id r, u.table.get? id = some r →
        r.status = .delivered ∨ (r.status = .deadLettered ∧ Doomed s id) := by
  -- The tick that is under way ends first, then the tasks do.
  obtain ⟨h₀, s₀, hpath₀, hcfg₀, htick₀, hspares₀, hready₀⟩ :
      ∃ h t, (working J T L delay).Path s h t ∧ t.cfg = s.cfg ∧ t.tick = none ∧ Spares s t ∧
        Ready L delay t := by
    cases htick : s.tick with
    | none => exact ⟨[], s, .nil, rfl, htick, fun _ hid => hid, hready⟩
    | some now =>
      obtain ⟨h, rows, hsel, hpath⟩ := claims_path (J := J) T L delay htick
      exact ⟨h, _, hpath, rfl, rfl, spares_claim s now rows, hready.claimed hsel⟩
  obtain ⟨h₁, s₁, hpath₁, ⟨hcfg₁, htick₁, hspares₁, hready₁⟩, htasks₁⟩ := clears (J := J) hTL
    hready₀ (hcfg₀ ▸ hpermits)
  let P (v : State) : Prop :=
    v.cfg = s.cfg ∧ v.tick = none ∧ v.tasks = [] ∧ Spares s v ∧ Ready L delay v
  have hmove : ∀ v, P v → 0 < (v.table.select isOpen).length →
      ∃ h u, (working J T L delay).Path v h u ∧ P u ∧
        (u.table.select isOpen).length < (v.table.select isOpen).length := by
    rintro v ⟨hcfg, htick, htasks, hspares, hv⟩ hlen
    obtain ⟨h, u, hpath, hcfg', htick', htasks', hspares', hu, hless⟩ := round_path (J := J) hTL
      hv (hcfg ▸ hbatch) (hcfg ▸ hpermits) htick htasks hlen
    exact ⟨h, u, hpath, ⟨hcfg'.trans hcfg, htick', htasks', hspares.trans hspares', hu⟩, hless⟩
  obtain ⟨h₂, u, hpath₂, ⟨-, -, htasks, hspares, -⟩, hzero⟩ :=
    System.exists_path_zero (P := P) hmove s₁
      ⟨hcfg₁.trans hcfg₀, htick₁.trans htick₀, htasks₁, hspares₀.trans hspares₁, hready₁⟩
  refine ⟨_, u, (hpath₀.trans hpath₁).trans hpath₂, htasks, fun id r hr => ?_⟩
  have hclosed : isOpen r = false := by
    by_contra ho
    have hmem : r ∈ u.table.select isOpen :=
      List.mem_filter.2 ⟨Table.mem_of_get? hr, by simpa using ho⟩
    have hpos := List.length_pos_of_mem hmem
    omega
  cases hst : r.status with
  | pending | processing => simp [isOpen, hst] at hclosed
  | delivered => exact .inl rfl
  | deadLettered => exact .inr ⟨rfl, hspares id (.inl ⟨r, hr, hst⟩)⟩

/-- A delivery whose task has died without a trace, and the worker that runs again an hour
later. -/
theorem drains_orphan : ∃ h u,
    (working Json.text 3600000 3600000 fun _ => 1000).Path
      (one (asClaimed 0 (hookRow 3)) none [] []) h u ∧
      u.tasks = [] ∧ ∀ id r, u.table.get? id = some r → r.status = .delivered := by
  have hone : ∀ id r, (one (asClaimed 0 (hookRow 3)) none [] []).table.get? id = some r →
      r = asClaimed 0 (hookRow 3) := fun id r hr => List.mem_singleton.1 (Table.mem_of_get? hr)
  have hready : Ready 3600000 (fun _ => 1000) (one (asClaimed 0 (hookRow 3)) none [] []) := by
    refine ⟨fun id r hr _ => ?_, fun id r hr _ _ => ?_, fun k hk => absurd hk List.not_mem_nil⟩
    · rw [hone id r hr]
      decide
    · rw [hone id r hr]
      decide
  obtain ⟨h, u, hpath, htasks, hrest⟩ := drains (J := Json.text) (Int.le_refl 3600000) hready
    (by decide) (by decide)
  refine ⟨h, u, hpath, htasks, fun id r hr => ?_⟩
  rcases hrest id r hr with hdel | ⟨-, hdoomed⟩
  · exact hdel
  · rcases hdoomed with ⟨r₀, hr₀, hdead⟩ | ⟨k, hk, -⟩
    · rw [hone id r₀ hr₀] at hdead
      cases hdead
    · exact absurd hk List.not_mem_nil

end G
end WebhookDelivery
