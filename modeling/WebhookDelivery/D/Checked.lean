/-
The service with the checks of its destinations.

A step of the worker that decides on a job comes with what the check sees: the
environment variable and the answers of the resolver.  A job whose lookup fails is
blocked as one that the policy refuses.
-/
import WebhookDelivery.D.Causes
import WebhookDelivery.D.Destination

namespace WebhookDelivery
namespace D

open Sql Run

structure Event (F : Formats) (κ : Type) where
  label : Label F κ
  /-- `ALLOW_PRIVATE`. -/
  var : Option String
  lookup : Lookup

variable {F : Formats} {κ : Type}

/-- `create_webhook` and `process_job` go on as their checks say. -/
def Event.Fits (env : Env) (e : Event F κ) : Prop :=
  match e.label with
  | .enqueue job => ∃ parsed, validateDestination job.destination = .ok parsed
  | .block job err => checkDestinationBlocked env e.var e.lookup job.destination = .error err
  | .send job _ => checkDestinationBlocked env e.var e.lookup job.destination = .ok ()
  | _ => True

/-- The lookup that a check makes fails. -/
def Event.Unresolved (env : Env) (e : Event F κ) : Prop :=
  match e.label with
  | .block job _ | .send job _ => LookupFails env e.var e.lookup job.destination
  | _ => False

theorem Event.unresolved_iff {env : Env} {e : Event F κ} (he : e.Fits env) :
    e.Unresolved env ↔
      ∃ job err, e.label = .block job err ∧ LookupFails env e.var e.lookup job.destination := by
  obtain ⟨l, var, lookup⟩ := e
  constructor
  · intro h
    cases l with
    | block job err => exact ⟨job, err, rfl, h⟩
    | send job resp =>
      obtain ⟨-, err, -, hcheck⟩ := LookupFails.error h
      rw [show checkDestinationBlocked env var lookup job.destination = .ok () from he] at hcheck
      cases hcheck
    | enqueue | fetchDue | markDelivered | recordAttempt | insertDlq | deleteJob | workerFailed
    | endPass | getDlq | insertJob | deleteDlq | callFailed | restart => exact h.elim
  · rintro ⟨job, err, hl, h⟩
    have hl : l = .block job err := hl
    subst hl
    exact h

variable [DecidableEq κ]

variable (F κ) in
/-- The service, every step of which goes as its check says. -/
def checked (env : Env) : System (State F κ) (Event F κ) where
  init := (system F κ).init
  step s e t := Step s e.label t ∧ Sized s e.label ∧ e.Fits env

section Runs

variable {env : Env} {h : List (Event F κ)} {s : State F κ}

theorem service_of_checked (hs : (checked F κ env).Reaches h s) :
    ((system F κ).restrict Sized).Reaches (h.map Event.label) s :=
  hs.map (g := fun s => s) (fun _ h0 => h0) fun _ _ _ hst => ⟨hst.2.1, hst.1⟩

theorem fits (hs : (checked F κ env).Reaches h s) : ∀ e ∈ h, e.Fits env := by
  intro e he
  obtain ⟨h₀, s₀, s₁, -, -, -, hstep, -⟩ := hs.takes he
  exact hstep.2.2

/-- The job is blocked by a check whose destination the policy refuses. -/
def RefusedIn (env : Env) (h : List (Event F κ)) (job : WebhookJob F) : Prop :=
  ∃ e ∈ h, ∃ err, e.label = .block job err ∧ Refused env e.var e.lookup job.destination

/-- A job is moved only when the policy refuses its destination, or after as many failed
sends as it may have. -/
def MovesJustified (env : Env) (h : List (Event F κ)) (s : State F κ) : Prop :=
  ∀ h₀ s₀ e s₁, (checked F κ env).Takes h s h₀ s₀ e s₁ →
    ∀ job entryId, e.label = .insertDlq job entryId →
      RefusedIn env h₀ job ∨ Exhausted (h₀.map Event.label) job.id

/-- After a lookup that fails the worker is where a failed send would put it. -/
def LookupsRetried (env : Env) (h : List (Event F κ)) (s : State F κ) : Prop :=
  ∀ h₀ s₀ e s₁, (checked F κ env).Takes h s h₀ s₀ e s₁ → e.Unresolved env →
    ∃ job rest err, s₀.pc = .batch (job :: rest) ∧ s₁.pc = handleFailure job err rest

omit [DecidableEq κ] in
/-- A failure counts one more attempt, and a blocked job keeps its own. -/
theorem handleFailure_ne_moving (job : WebhookJob F) (err error : String)
    (rest rest' : List (WebhookJob F)) : handleFailure job err rest ≠ .moving job error rest' := by
  intro h
  unfold handleFailure at h
  dsimp only at h
  split at h
  · injection h with hjob
    have hatt := congrArg WebhookJob.attempts hjob
    dsimp only at hatt
    omega
  · cases h

/-- Jobs are moved for the policy and for failed sends only, and lookups that fail are
retried, in the runs without a lookup that fails, and in no others. -/
theorem lookup_failures_exact (hs : (checked F κ env).Reaches h s) :
    MovesJustified env h s ∧ LookupsRetried env h s ↔ ∀ e ∈ h, ¬e.Unresolved env := by
  constructor
  · rintro ⟨-, hretried⟩ e he hun
    obtain ⟨h₀, s₀, s₁, ht⟩ := hs.takes he
    obtain ⟨job, rest, err, hbatch, hpc⟩ := hretried h₀ s₀ e s₁ ht hun
    obtain ⟨-, -, -, ⟨hst, -, hfit⟩, -⟩ := ht
    obtain ⟨job', err', hl, -⟩ := (Event.unresolved_iff hfit).1 hun
    rw [hl] at hst
    cases hst with
    | block job'' rest' err'' hpc' =>
      rw [hbatch] at hpc'
      cases hpc'
      exact handleFailure_ne_moving _ _ _ _ _ hpc.symm
  · intro hnone
    constructor
    · intro h₀ s₀ e s₁ ht job entryId hl
      obtain ⟨-, -, hs₀, ⟨hst, -, -⟩, -⟩ := id ht
      rw [hl] at hst
      rcases moved_for_cause (service_of_checked hs₀) hst with ⟨err, hmem⟩ | hex
      · obtain ⟨e', he', hblock⟩ := List.mem_map.1 hmem
        have hfit := fits hs₀ e' he'
        have hcheck : checkDestinationBlocked env e'.var e'.lookup job.destination =
            .error err := by
          simpa [Event.Fits, hblock] using hfit
        rcases refused_or_lookupFails hcheck with href | hfail
        · exact .inl ⟨e', he', err, hblock, href⟩
        · exact absurd ((Event.unresolved_iff hfit).2 ⟨job, err, hblock, hfail⟩)
            (hnone e' (ht.mem he'))
      · exact .inr hex
    · intro h₀ s₀ e s₁ ht hun
      obtain ⟨h₁, rfl, -⟩ := ht
      exact absurd hun (hnone e (List.mem_append_right h₁ List.mem_cons_self))

end Runs

/-! ## One job with five attempts -/

def job5 : WebhookJob mini := .new hook 1 5 0

def stored5 : Db := queued [job5.row] [] (List.nodup_singleton _) List.nodup_nil

def at5 (db : Db) (issued : List Uuid) (lock : Option (Holder Unit)) (pc : Pc mini) :
    State mini Unit where
  db := db
  cfg := { maxAttempts := 5 }
  issued := issued
  lock := lock
  pc := pc
  call _ := .idle

/-- No host is an address. -/
def names : Env where
  parseIp _ := none
  showIp _ := ""

def resolving : Lookup := fun _ => .ok [.v4 #v[93, 184, 215, 14]]

def noAnswer : String :=
  "failed to lookup address information: Temporary failure in name resolution"

def unreachable : Lookup := fun _ => .error noAnswer

def seeing (lookup : Lookup) (l : Label mini Unit) : Event mini Unit where
  label := l
  var := none
  lookup := lookup

/-- The job is in the worker's batch. -/
def fetching (lookup : Lookup) : List (Event mini Unit) :=
  [seeing lookup (.fetchDue 0 [job5]), seeing lookup (.enqueue job5)]

theorem fetching_reached (lookup : Lookup) :
    (checked mini Unit names).Reaches (fetching lookup)
      (at5 stored5 [1] none (.batch [job5])) := by
  have hfetch : FetchesDue mini stored5 0 10 (some [job5]) :=
    ⟨[job5.row], ⟨_, List.Perm.refl _, List.pairwise_singleton _ _, rfl⟩, rfl⟩
  have hsize : ∀ db issued lock pc (l : Label mini Unit), Sized (at5 db issued lock pc) l :=
    fun _ _ _ _ _ => (by decide : 5 < 2 ^ 32)
  have r₀ : (checked mini Unit names).Reaches [] (at5 Db.empty [] none .fetching) :=
    .init ⟨rfl, rfl, rfl, rfl, fun _ => rfl⟩
  have r₁ : (checked mini Unit names).Reaches [seeing lookup (.enqueue job5)]
      (at5 stored5 [1] none .fetching) :=
    r₀.step ⟨Step.enqueue _ hook 1 0 stored5 rfl (by decide) rfl, hsize _ _ _ _ _,
      { host := "a.test" }, rfl⟩
  exact r₁.step ⟨Step.fetchDue _ 0 [job5] rfl rfl hfetch, hsize _ _ _ _ _, trivial⟩

theorem resolving_passes :
    checkDestinationBlocked names none resolving job5.destination = .ok () := rfl

theorem unreachable_fails :
    checkDestinationBlocked names none unreachable job5.destination = .error noAnswer := rfl

/-- A send of the job fails after its host has been looked up. -/
theorem lookup_failures_exact_sent :
    MovesJustified names (seeing resolving (.send job5 (.status 500)) :: fetching resolving)
      (at5 stored5 [1] none (afterSend job5 (.status 500) [])) ∧
    LookupsRetried names (seeing resolving (.send job5 (.status 500)) :: fetching resolving)
      (at5 stored5 [1] none (afterSend job5 (.status 500) [])) := by
  have hsent : (checked mini Unit names).Reaches
      (seeing resolving (.send job5 (.status 500)) :: fetching resolving)
      (at5 stored5 [1] none (afterSend job5 (.status 500) [])) :=
    (fetching_reached resolving).step
      ⟨Step.send _ job5 [] (.status 500) rfl, (by decide : 5 < 2 ^ 32), resolving_passes⟩
  refine (lookup_failures_exact hsent).2 fun e he hun => ?_
  obtain ⟨job, err, hl, -⟩ := (Event.unresolved_iff (fits hsent e he)).1 hun
  simp only [fetching, List.mem_cons, List.not_mem_nil, or_false] at he
  rcases he with rfl | rfl | rfl
  · cases hl
  · cases hl
  · cases hl

theorem hook_not_refused : ¬Refused names none unreachable job5.destination := by
  have hhost : checkedHost job5.destination = some "a.test" := rfl
  intro h
  cases h with
  | notHttp hnot => exact hnot ⟨"http".toList, "a.test".toList, by decide, by decide⟩
  | noAuthority scheme hscheme hurl =>
    have hlast := congrArg List.getLast? hurl
    rw [List.getLast?_append_of_ne_nil _ (by decide)] at hlast
    exact absurd hlast (by decide)
  | noHost hoff hempty =>
    rw [hhost] at hempty
    exact absurd hempty (by decide)
  | isPrivate host ip hoff hh hlit => cases hlit
  | resolves host ips ip hoff hh hlook => cases hlook

/-- The lookup of `a.test` fails at the first pass, and the job is moved without a send. -/
theorem unresolved_moved : ¬∀ (h : List (Event mini Unit)) (s : State mini Unit),
    (checked mini Unit names).Reaches h s → MovesJustified names h s := by
  intro hall
  have r₁ : (checked mini Unit names).Reaches
      (seeing unreachable (.block job5 noAnswer) :: fetching unreachable)
      (at5 stored5 [1] none (.moving job5 s!"blocked: {noAnswer}" [])) :=
    (fetching_reached unreachable).step
      ⟨Step.block _ job5 [] noAnswer rfl, (by decide : 5 < 2 ^ 32), unreachable_fails⟩
  have hmove : (checked mini Unit names).step
      (at5 stored5 [1] none (.moving job5 s!"blocked: {noAnswer}" []))
      (seeing unreachable (.insertDlq job5 2)) _ :=
    ⟨Step.insertDlq _ job5 _ [] 2 0 _ rfl rfl (by decide) rfl, (by decide : 5 < 2 ^ 32), trivial⟩
  rcases hall _ _ (r₁.step hmove) _ _ _ _ ⟨[], rfl, r₁, hmove, .nil⟩ job5 2 rfl with
    ⟨e, he, err, hl, href⟩ | ⟨m, -, hm⟩
  · simp only [fetching, List.mem_cons, List.not_mem_nil, or_false] at he
    rcases he with rfl | rfl | rfl
    · exact hook_not_refused href
    · cases hl
    · cases hl
  · have hnone : failures job5.id (List.map Event.label
        (seeing unreachable (.block job5 noAnswer) :: fetching unreachable)) = 0 := by decide
    rw [hnone] at hm
    omega

end D
end WebhookDelivery
