/-
When a claimed delivery belongs to one task.

A claim takes pending rows, so a row in processing is claimed again only after
something has put it back: the reclaim of a tick, which goes by the time of the
claim and not by whether a task is still at work, or a requeue whose check is
out of date.  In the runs in which neither meets a row with a live task, the
tasks have the deliveries to themselves.
-/
import WebhookDelivery.G.Snapshots

namespace WebhookDelivery
namespace G

open Sql Run

variable {J : Json}

/-- No reclaim and no requeue meets a row that has a live task. -/
def Undisturbed (s : State) : Label J → Prop
  | .reclaim now => ∀ id r, s.table.get? id = some r →
      isStale (staleCutoff s.cfg now) r = true → ∀ k ∈ s.tasks, k.id ≠ id
  | .requeueUpdate id _ => ∀ k ∈ s.tasks, k.id ≠ id
  | _ => True

/-- A delivery has one live task at most, and its row is as the claim left it. -/
structure Owned (s : State) : Prop where
  nodup : (s.tasks.map Task.id).Nodup
  backed : ∀ k ∈ s.tasks, ∃ r, s.table.get? k.id = some r ∧ r.status = .processing ∧
    r.attempts = k.job.attempts ∧ r.updatedAt = k.claimedAt

theorem Owned.processing {s : State} (hs : Owned s) {k : Task} (hk : k ∈ s.tasks)
    {r : DeliveryRow} (hr : s.table.get? k.id = some r) : r.status = .processing := by
  obtain ⟨r', hr', hst, -⟩ := hs.backed k hk
  rw [hr] at hr'
  cases hr'
  exact hst

/-- Two tasks of one delivery are the same task. -/
theorem Owned.unique {s : State} (hs : Owned s) {k k' : Task} (hk : k ∈ s.tasks)
    (hk' : k' ∈ s.tasks) (hid : k.id = k'.id) : k = k' :=
  List.inj_on_of_nodup_map hs.nodup hk hk' hid

/-- Tasks may end if the rows of those that stay are left alone. -/
theorem Owned.shrink {s t : State} (hs : Owned s)
    (hsub : (t.tasks.map Task.id).Sublist (s.tasks.map Task.id))
    (hold : ∀ k ∈ t.tasks, ∃ k₀ ∈ s.tasks, k₀.job = k.job ∧ k₀.claimedAt = k.claimedAt)
    (hrow : ∀ k ∈ t.tasks, t.table.get? k.id = s.table.get? k.id) : Owned t where
  nodup := hs.nodup.sublist hsub
  backed k hk := by
    obtain ⟨k₀, hk₀, hjob, hat⟩ := hold k hk
    obtain ⟨r, hr, hst, hatt, hupd⟩ := hs.backed k₀ hk₀
    have hid : k.id = k₀.id := congrArg ClaimedJob.id hjob.symm
    refine ⟨r, ?_, hst, hatt.trans (congrArg _ hjob), hupd.trans hat⟩
    rw [hrow k hk, hid, hr]

/-- A task ends and leaves the rows of the other tasks alone. -/
theorem Owned.drop {s : State} (hs : Owned s) {pre post : List Task} {k : Task}
    {table : Deliveries} (htasks : s.tasks = pre ++ k :: post)
    (hrow : ∀ id, id ≠ k.id → table.get? id = s.table.get? id) :
    Owned { s with table := table, tasks := pre ++ post } := by
  have hnd := hs.nodup
  rw [htasks, List.map_append, List.map_cons, List.nodup_middle, List.nodup_cons] at hnd
  have hmem : ∀ k' ∈ pre ++ post, k' ∈ s.tasks := by
    intro k' hk'
    rw [htasks]
    rcases List.mem_append.1 hk' with hk' | hk'
    · exact List.mem_append_left _ hk'
    · exact List.mem_append_right _ (List.mem_cons_of_mem _ hk')
  refine hs.shrink ?_ (fun k' hk' => ⟨k', hmem k' hk', rfl, rfl⟩) (fun k' hk' => ?_)
  · rw [htasks]
    exact ((List.sublist_cons_self k post).append_left pre).map Task.id
  · refine hrow k'.id fun e => hnd.1 ?_
    rw [← List.map_append, ← e]
    exact List.mem_map_of_mem hk'

theorem Owned.step {s t : State} {l : Label J} (hs : Owned s) (hu : Undisturbed s l)
    (hst : Step s l t) : Owned t := by
  cases hst with
  | createWebhook payload check id now fault res t' hcreate =>
    refine hs.shrink (List.Sublist.refl _) (fun k hk => ⟨k, hk, rfl, rfl⟩) (fun k hk => ?_)
    rcases createWebhook_spec _ _ _ _ _ _ _ hcreate with ⟨e, -, rfl⟩ | ⟨req, -, -, hins⟩
    · rfl
    · obtain ⟨r, hr, -⟩ := hs.backed k hk
      exact (Table.get?_insert?_of_some hins hr).trans hr.symm
  | reclaim now htick =>
    refine hs.shrink (List.Sublist.refl _) (fun k hk => ⟨k, hk, rfl, rfl⟩) (fun k hk => ?_)
    refine (get?_reclaim s.cfg now s.table k.id).trans ?_
    cases hr : s.table.get? k.id with
    | none => rfl
    | some r =>
      have hfresh : ¬isStale (staleCutoff s.cfg now) r = true :=
        fun hstale => hu k.id r hr hstale k hk rfl
      rw [Option.map_some, if_neg hfresh]
  | claim now rows jobs htick hsel hjobs =>
    obtain ⟨hnd, hin, hout⟩ := claim_spec hsel hjobs
    -- A row in processing is not pending, so no claimed delivery had a task.
    have hfree : ∀ k ∈ s.tasks, k.id ∉ jobs.map ClaimedJob.id := by
      intro k hk hmem
      obtain ⟨job, hjob, hid⟩ := List.mem_map.1 hmem
      obtain ⟨r, hr, hpend, -⟩ := hin job hjob
      have hproc := hs.processing hk (hid ▸ hr)
      rw [hpend] at hproc
      cases hproc
    have hspawn : (jobs.map (Task.spawn now)).map Task.id = jobs.map ClaimedJob.id := by
      rw [List.map_map]
      rfl
    refine ⟨?_, fun k hk => ?_⟩
    · show ((s.tasks ++ jobs.map (Task.spawn now)).map Task.id).Nodup
      rw [List.map_append, hspawn, List.nodup_append]
      refine ⟨hs.nodup, hnd, fun a ha b hb => ?_⟩
      obtain ⟨k, hk, rfl⟩ := List.mem_map.1 ha
      exact fun e => hfree k hk (e ▸ hb)
    · rcases List.mem_append.1 hk with hk | hk
      · obtain ⟨r, hr, hrest⟩ := hs.backed k hk
        exact ⟨r, (hout k.id (hfree k hk)).trans hr, hrest⟩
      · obtain ⟨job, hjob, rfl⟩ := List.mem_map.1 hk
        obtain ⟨r, -, -, -, hjr, hr'⟩ := hin job hjob
        exact ⟨asClaimed now r, hr', rfl, by rw [hjr]; rfl, rfl⟩
  | deliverOnce pre post job claimedAt now check resp htasks hperm =>
    have hmap : ∀ pc, (pre ++ (⟨job, claimedAt, pc⟩ : Task) :: post).map Task.id
        = s.tasks.map Task.id := by
      intro pc
      rw [htasks, List.map_append, List.map_append, List.map_cons, List.map_cons]
      rfl
    refine hs.shrink ?_ (fun k hk => ?_) (fun _ _ => rfl)
    · rw [hmap]
    · rcases List.mem_append.1 hk with hk | hk
      · exact ⟨k, htasks ▸ List.mem_append_left _ hk, rfl, rfl⟩
      · rcases List.mem_cons.1 hk with rfl | hk
        · exact ⟨⟨job, claimedAt, .waiting⟩, htasks ▸ by simp, rfl, rfl⟩
        · exact ⟨k, htasks ▸ List.mem_append_right _ (List.mem_cons_of_mem _ hk), rfl, rfl⟩
  | finish pre post job claimedAt now delay res htasks =>
    exact hs.drop htasks fun id hid =>
      (get?_finish job now delay res s.table id).trans (if_neg hid)
  | finishFailed pre post job claimedAt now res htasks =>
    exact hs.drop htasks fun _ _ => rfl
  | requeueUpdate id now hmem =>
    refine hs.shrink (List.Sublist.refl _) (fun k hk => ⟨k, hk, rfl, rfl⟩) (fun k hk => ?_)
    exact (get?_requeue id now s.table k.id).trans (if_neg (hu k hk))
  | restart cfg now =>
    exact ⟨List.nodup_nil, fun k hk => absurd hk List.not_mem_nil⟩
  | tickFailed | requeueCheck | requeueFailed => exact ⟨hs.nodup, hs.backed⟩

theorem owned_init {s : State} (hs : (system J).init s) : Owned s := by
  refine ⟨?_, fun k hk => ?_⟩
  · rw [hs.2.2.1]
    exact List.nodup_nil
  · rw [hs.2.2.1] at hk
    exact absurd hk List.not_mem_nil

/-- A delivered row is written by no step that leaves the rows with a live task
to their tasks, unless it requeues. -/
theorem Owned.delivered_step {s t : State} {l : Label J} (hs : Owned s) (hst : Step s l t)
    {id : String} (hl : l.requeues id = false) {r : DeliveryRow}
    (hr : s.table.get? id = some r) (hdel : r.status = .delivered) :
    t.table.get? id = some r := by
  cases hst with
  | createWebhook payload check id' now fault res t' hcreate =>
    rcases createWebhook_spec _ _ _ _ _ _ _ hcreate with ⟨e, -, rfl⟩ | ⟨req, -, -, hins⟩
    · exact hr
    · exact Table.get?_insert?_of_some hins hr
  | reclaim now htick =>
    refine (get?_reclaim s.cfg now s.table id).trans ?_
    rw [hr, Option.map_some, if_neg (by simp [isStale, hdel])]
  | claim now rows jobs htick hsel hjobs =>
    obtain ⟨-, hin, hout⟩ := claim_spec hsel hjobs
    refine (hout id fun hmem => ?_).trans hr
    obtain ⟨job, hjob, rfl⟩ := List.mem_map.1 hmem
    obtain ⟨r', hr', hpend, -⟩ := hin job hjob
    rw [hr] at hr'
    cases hr'
    rw [hdel] at hpend
    cases hpend
  | finish pre post job claimedAt now delay res htasks =>
    refine ((get?_finish job now delay res s.table id).trans (if_neg fun e => ?_)).trans hr
    have hmem : (⟨job, claimedAt, .called now res⟩ : Task) ∈ s.tasks := htasks ▸ by simp
    have hr' : s.table.get? job.id = some r := e ▸ hr
    have hproc := hs.processing hmem hr'
    rw [hdel] at hproc
    cases hproc
  | requeueUpdate id' now hmem =>
    have hne : ¬id' = id := by simpa [Label.requeues] using hl
    exact ((get?_requeue id' now s.table id).trans (if_neg fun e => hne e.symm)).trans hr
  | restart cfg now =>
    refine (get?_resetProcessing now s.table id).trans ?_
    rw [hr, Option.map_some, if_neg (by simp [isProcessing, hdel])]
  | tickFailed | deliverOnce | finishFailed | requeueCheck | requeueFailed => exact hr

/-! ## One delivery -/

def Json.text : Json where
  Value := String
  isNull v := v = "null"
  toString v := v

def small (maxAttempts : Int) : Config where
  maxPayloadBytes := 100
  maxAttempts := maxAttempts
  batchSize := 50
  visibilityTimeoutSecs := 60
  maxConcurrentDeliveries := 64

def hookRequest : WebhookRequest Json.text := { data := "{}", destination := "http://a.test" }

def hookRow (maxAttempts : Int) : DeliveryRow := newRow "a" "http://a.test" "{}" maxAttempts 0

/-- A database that holds one delivery. -/
def one (r : DeliveryRow) (tick : Option Int) (tasks : List Task) (requeues : List String) :
    State where
  cfg := small r.maxAttempts
  table := ⟨[r], List.nodup_singleton _⟩
  tick := tick
  tasks := tasks
  requeues := requeues

/-- A database that holds two. -/
def two (r r' : DeliveryRow) (hne : r.id ≠ r'.id) (tick : Option Int) (tasks : List Task) :
    State where
  cfg := small r.maxAttempts
  table := ⟨[r, r'], by simp [hne]⟩
  tick := tick
  tasks := tasks
  requeues := []

def fresh (m : Int) : State := ⟨small m, Table.empty, none, [], []⟩

def hookAccepted (m : Int) : Label Json.text :=
  .createWebhook (small m) (.ok hookRequest) 0 (.ok { id := "a", status := .pending })

def claiming (m : Int) : List (Label Json.text) :=
  [.claim 0 [(hookRow m).job], .reclaim 0, hookAccepted m]

/-- The hook is accepted and claimed at time 0.  Any condition that the three
steps meet is met by the run. -/
theorem claimed_reached (m : Int) {C : State → Label Json.text → Prop}
    (h₁ : C (fresh m) (hookAccepted m)) (h₂ : C (one (hookRow m) none [] []) (.reclaim 0))
    (h₃ : C (one (hookRow m) (some 0) [] []) (.claim 0 [(hookRow m).job])) :
    ((system Json.text).restrict C).Reaches (claiming m)
      (one (asClaimed 0 (hookRow m)) none [.spawn 0 (hookRow m).job] []) := by
  have r₀ : ((system Json.text).restrict C).Reaches [] (fresh m) := .init ⟨rfl, rfl, rfl, rfl⟩
  have r₁ : ((system Json.text).restrict C).Reaches _ (one (hookRow m) none [] []) :=
    r₀.step ⟨h₁, Step.createWebhook (fresh m) (.ok hookRequest) (.ok ()) "a" 0 none _ _ rfl⟩
  have r₂ : ((system Json.text).restrict C).Reaches _ (one (hookRow m) (some 0) [] []) :=
    r₁.step ⟨h₂, Step.reclaim _ 0 rfl⟩
  have hsel : SelectsDue (one (hookRow m) (some 0) [] []).table 0 50 [hookRow m] :=
    ⟨_, List.Perm.refl _, List.pairwise_singleton _ _, rfl⟩
  exact r₂.step ⟨h₃, Step.claim _ 0 [hookRow m] _ rfl hsel (List.Perm.refl _)⟩

/-! ## Finality of a success -/

/-- The label is not part of a requeue. -/
def Label.noRequeue : Label J → Bool
  | .requeueCheck .. | .requeueUpdate .. | .requeueFailed _ => false
  | _ => true

variable (J) in
/-- The runs without requeues whose reclaims spare the rows with a live task. -/
def sparing : System State (Label J) :=
  (system J).restrict fun s l => l.noRequeue = true ∧ Undisturbed s l

theorem owned_sparing {h : List (Label J)} {s : State} (hs : (sparing J).Reaches h s) :
    Owned s := by
  have hinit : ∀ s, (sparing J).init s → Owned s := fun s hs => owned_init (J := J) hs
  refine hs.invariant (I := fun _ s => Owned s) hinit ?_
  intro h s l t _ hI hst
  exact hI.step hst.1.2 hst.2

/-- Without requeues a success is final, if reclaims spare the live tasks. -/
theorem delivered_stays {h : List (Label J)} {s : State} (hs : (sparing J).Reaches h s)
    {id : String} {r : DeliveryRow} (hr : s.table.get? id = some r)
    (hdel : r.status = .delivered) {h' : List (Label J)} {t : State}
    (hst : (sparing J).Path s h' t) :
    ∃ r', t.table.get? id = some r' ∧ r'.status = .delivered := by
  refine ⟨r, ?_, hdel⟩
  refine hs.keeps (P := fun s => s.table.get? id = some r) (fun h s l t hreach hrow hl => ?_) hst
    hr
  have hreq : l.requeues id = false := by
    have hno := hl.1.1
    cases l with
    | requeueUpdate => cases hno
    | _ => rfl
  exact (owned_sparing hreach).delivered_step hl.2 hreq hrow hdel

def hookDelivered : DeliveryRow :=
  asFinished (hookRow 3).job 5 0 (.ok ()) (asClaimed 0 (hookRow 3))

def nextRow : DeliveryRow := newRow "b" "http://a.test" "{}" 3 6

/-- The hook is delivered.  A second one is accepted then, the worker ticks long after
the timeout and claims it, and the process starts again. -/
theorem delivered_stays_hook : ∃ h t, (sparing Json.text).Path (one hookDelivered none [] []) h t ∧
    (∃ r, t.table.get? "b" = some r ∧ r.updatedAt = 200000) ∧
      ∃ r', t.table.get? "a" = some r' ∧ r'.status = .delivered := by
  let job := (hookRow 3).job
  let S := sparing Json.text
  have h₀ : S.Reaches (claiming 3) (one (asClaimed 0 (hookRow 3)) none [.spawn 0 job] []) :=
    claimed_reached 3 ⟨rfl, trivial⟩ ⟨rfl, fun _ _ _ _ k hk => absurd hk List.not_mem_nil⟩
      ⟨rfl, trivial⟩
  have h₁ : S.Reaches (.deliverOnce job 5 (.ok ()) :: claiming 3)
      (one (asClaimed 0 (hookRow 3)) none [⟨job, 0, .called 5 (.ok ())⟩] []) :=
    h₀.step ⟨⟨rfl, trivial⟩,
      Step.deliverOnce _ [] [] job 0 5 (.ok ()) (.status 200 "200 OK" "") rfl (by decide)⟩
  have h₂ : S.Reaches (.finish job 0 (.ok ()) :: .deliverOnce job 5 (.ok ()) :: claiming 3)
      (one hookDelivered none [] []) :=
    h₁.step ⟨⟨rfl, trivial⟩, Step.finish _ [] [] job 0 5 0 (.ok ()) rfl⟩
  have hcreate : S.step (one hookDelivered none [] [])
      (.createWebhook (small 3) (.ok hookRequest) 6 (.ok { id := "b", status := .pending }))
      (two hookDelivered nextRow (by decide) none []) :=
    ⟨⟨rfl, trivial⟩, Step.createWebhook _ (.ok hookRequest) (.ok ()) "b" 6 none _ _ rfl⟩
  have hreclaim : S.step (two hookDelivered nextRow (by decide) none []) (.reclaim 100000)
      (two hookDelivered nextRow (by decide) (some 100000) []) :=
    ⟨⟨rfl, fun _ _ _ _ k hk => absurd hk List.not_mem_nil⟩, Step.reclaim _ 100000 rfl⟩
  have hclaim : S.step (two hookDelivered nextRow (by decide) (some 100000) [])
      (.claim 100000 [nextRow.job]) (two hookDelivered (asClaimed 100000 nextRow) (by decide) none
        [.spawn 100000 nextRow.job]) :=
    ⟨⟨rfl, trivial⟩, Step.claim _ 100000 [nextRow] [nextRow.job] rfl
      ⟨_, List.Perm.refl _, List.pairwise_singleton _ _, rfl⟩ (List.Perm.refl _)⟩
  have hrestart : S.step (two hookDelivered (asClaimed 100000 nextRow) (by decide) none
        [.spawn 100000 nextRow.job]) (.restart (small 3) 200000)
      (two hookDelivered (asReclaimed 200000 (asClaimed 100000 nextRow)) (by decide) none []) :=
    ⟨⟨rfl, trivial⟩, Step.restart _ (small 3) 200000⟩
  have hrow : (one hookDelivered none [] []).table.get? "a" = some hookDelivered := rfl
  have hpath := (((System.Path.one hcreate).cons hreclaim).cons hclaim).cons hrestart
  exact ⟨_, _, hpath, ⟨_, rfl, rfl⟩, delivered_stays h₂ hrow rfl hpath⟩

/-- A task that waits for its permit past the visibility timeout loses its claim
but not its life.  The second task delivers the hook, and then the first one
fails and puts it back. -/
theorem delivered_undone : ¬∀ h s,
    ((system Json.text).restrict fun _ l => l.noRequeue = true).Reaches h s →
    ∀ id r, s.table.get? id = some r → r.status = .delivered →
    ∀ h' t, ((system Json.text).restrict fun _ l => l.noRequeue = true).Path s h' t →
      ∃ r', t.table.get? id = some r' ∧ r'.status = .delivered := by
  intro hall
  let S : System State (Label Json.text) :=
    (system Json.text).restrict fun _ l => l.noRequeue = true
  let job := (hookRow 3).job
  let r₁ := asClaimed 100000 (asReclaimed 100000 (asClaimed 0 (hookRow 3)))
  let r₂ := asFinished job 100001 0 (.ok ()) r₁
  let late : Except String Unit := .error "request failed: timeout"
  have h₀ : S.Reaches (claiming 3) (one (asClaimed 0 (hookRow 3)) none [.spawn 0 job] []) :=
    claimed_reached 3 rfl rfl rfl
  have h₁ : S.Reaches _ (one (asReclaimed 100000 (asClaimed 0 (hookRow 3))) (some 100000)
      [.spawn 0 job] []) :=
    h₀.step ⟨rfl, Step.reclaim _ 100000 rfl⟩
  have h₂ : S.Reaches _ (one r₁ none [.spawn 0 job, .spawn 100000 job] []) :=
    h₁.step ⟨rfl, Step.claim _ 100000 [asReclaimed 100000 (asClaimed 0 (hookRow 3))] [job] rfl
      ⟨_, List.Perm.refl _, List.pairwise_singleton _ _, rfl⟩ (List.Perm.refl _)⟩
  have h₃ : S.Reaches _
      (one r₁ none [.spawn 0 job, ⟨job, 100000, .called 100001 (.ok ())⟩] []) :=
    h₂.step ⟨rfl, Step.deliverOnce _ [.spawn 0 job] [] job 100000 100001 (.ok ())
      (.status 200 "200 OK" "") rfl (by decide)⟩
  have h₄ : S.Reaches _ (one r₂ none [.spawn 0 job] []) :=
    h₃.step ⟨rfl, Step.finish _ [.spawn 0 job] [] job 100000 100001 0 (.ok ()) rfl⟩
  have p₁ : S.Path (one r₂ none [.spawn 0 job] []) _
      (one r₂ none [⟨job, 0, .called 100002 late⟩] []) :=
    .one ⟨rfl, Step.deliverOnce _ [] [] job 0 100002 (.ok ()) (.failed "timeout") rfl (by decide)⟩
  have p₂ : S.Path (one r₂ none [.spawn 0 job] []) _
      (one (asFinished job 100002 0 late r₂) none [] []) :=
    p₁.cons ⟨rfl, Step.finish _ [] [] job 0 100002 0 late rfl⟩
  obtain ⟨r', hr', hst⟩ := hall _ _ h₄ "a" r₂ rfl rfl _ _ p₂
  have hr : asFinished job 100002 0 late r₂ = r' := Option.some.inj hr'
  rw [← hr] at hst
  cases hst

end G
end WebhookDelivery
