/-
What the `k` service guarantees in every reachable state.

A row that is neither pending nor dead and that no worker holds is never
written again: no statement of the service selects it.  For a delivered row
this is the finality of a success.  A pending row that cannot be read is never
written either: a claim that selects it fails.
-/
import WebhookDelivery.K.Attempts

namespace WebhookDelivery
namespace K

open Sql Run

variable {F : Formats} {ω : Type}

/-- `r` is the row of `id`, and neither a claim nor a requeue nor a worker that
holds the job can write it. -/
structure Settled (id : Uuid) (r : JobRow F) (s : State F ω) : Prop where
  row : s.jobs.get? id = some r
  unclaimable : r.status = .pending → ¬Readable r
  notDead : r.status ≠ .dead
  notHeld : ∀ w, id ∉ s.heldIds w

variable [DecidableEq ω]

theorem heldIds_setPc_of_sublist {s : State F ω} {w : ω} {pc : Pc F} {id : Uuid}
    (hsub : pc.held.Sublist (s.pc w).held) (h : ∀ v, id ∉ s.heldIds v) (v : ω) :
    id ∉ (s.setPc w pc).heldIds v := by
  intro hmem
  by_cases hv : v = w
  · rw [hv, State.heldIds, State.setPc_self] at hmem
    exact h w ((hsub.map Job.id).subset hmem)
  · rw [State.heldIds, State.setPc_ne s pc hv] at hmem
    exact h v hmem

theorem Settled.step {id : Uuid} {r : JobRow F} {s t : State F ω} {l : Label F ω}
    (h : Settled id r s) (hst : Step s l t) : Settled id r t := by
  obtain ⟨hrow, hpend, hdead, hheld⟩ := h
  cases hst with
  | insertJob id' destination payload maxAttempts now t' hins =>
    exact ⟨Table.get?_insert?_of_some hins hrow, hpend, hdead, hheld⟩
  | requeueDead id' now =>
    refine ⟨?_, hpend, hdead, hheld⟩
    show (requeueDead s.jobs id' now).2.get? id = some r
    rw [get?_requeueDead]
    by_cases hk : id = id'
    · rw [if_pos hk, ← hk, hrow, Option.map_some, if_neg hdead]
    · rw [if_neg hk, hrow]
  | claimDueJobs w now fault rows res t' hidle hsel hclaim =>
    obtain ⟨-, hin, hout⟩ := claimDueJobs_spec hsel hclaim
    have hk : id ∉ (claimed res).map Job.id := by
      intro hk
      obtain ⟨job, hjob, rfl⟩ := List.mem_map.1 hk
      obtain ⟨r', hr', hpend', -, -, hread⟩ := hin job hjob
      rw [hrow] at hr'
      cases hr'
      exact hpend hpend' ((readable_asClaimed now r).1 (readable_of_rowToJob hread))
    refine ⟨(hout id hk).trans hrow, hpend, hdead, fun v hv => ?_⟩
    by_cases hvw : v = w
    · rw [hvw, State.heldIds, State.setPc_self] at hv
      exact hk hv
    · rw [State.heldIds, State.setPc_ne _ _ hvw] at hv
      exact hheld v hv
  | deliver w job rest resp hpc =>
    refine ⟨hrow, hpend, hdead, heldIds_setPc_of_sublist ?_ hheld⟩
    rw [hpc]
    exact List.Sublist.refl _
  | recordOutcome w job res rest next now hpc =>
    have hmem : job.id ∈ s.heldIds w := by
      rw [State.heldIds, hpc]
      exact List.mem_cons_self
    have hne : id ≠ job.id := fun e => hheld w (e ▸ hmem)
    refine ⟨?_, hpend, hdead, fun v => ?_⟩
    · show (recordOutcome s.jobs job res next now).get? id = some r
      rw [get?_recordOutcome, if_neg hne, hrow]
    · refine heldIds_setPc_of_sublist (s := { s with jobs := _ }) ?_ hheld v
      show List.Sublist rest (s.pc w).held
      rw [hpc]
      exact List.sublist_cons_self job rest
  | recordFailed w job res rest hpc =>
    refine ⟨hrow, hpend, hdead, heldIds_setPc_of_sublist ?_ hheld⟩
    rw [hpc]
    exact List.sublist_cons_self job rest
  | nextPoll w hpc =>
    exact ⟨hrow, hpend, hdead, heldIds_setPc_of_sublist (List.nil_sublist _) hheld⟩
  | stop w =>
    exact ⟨hrow, hpend, hdead, heldIds_setPc_of_sublist (List.nil_sublist _) hheld⟩
  | crash => exact ⟨hrow, hpend, hdead, fun _ => List.not_mem_nil⟩
  | spawnWorkers hpc => exact ⟨hrow, hpend, hdead, fun _ => List.not_mem_nil⟩

/-- A settled row keeps every column in every later state. -/
theorem Settled.path {id : Uuid} {r : JobRow F} {s t : State F ω} {h : List (Label F ω)}
    (hs : Settled id r s) (hst : (system F ω).Path s h t) : Settled id r t :=
  hst.keeps (P := Settled id r) (fun _ _ _ hI hl => hI.step hl) hs

omit [DecidableEq ω] in
theorem Owned.settled_of_delivered {s : State F ω} (hs : Owned s) {id : Uuid} {r : JobRow F}
    (hr : s.jobs.get? id = some r) (hst : r.status = .delivered) : Settled id r s := by
  refine ⟨hr, fun hpend => ?_, by rw [hst]; decide, fun w hw => ?_⟩
  · rw [hst] at hpend
    cases hpend
  obtain ⟨job, hjob, rfl⟩ := List.mem_map.1 hw
  obtain ⟨r', hr', hfl, -⟩ := hs.backed w job hjob
  rw [hr] at hr'
  cases hr'
  rw [hst] at hfl
  cases hfl

/-! ## The budget of calls -/

theorem deliverCalls_le {h : List (Label F ω)} {s : State F ω}
    (hs : (system F ω).Reaches h s) {id : Uuid} {r : JobRow F} (hr : s.jobs.get? id = some r) :
    (deliverCalls id h : Int) ≤ max 1 r.maxAttempts := by
  obtain ⟨a, ha, ht⟩ := (simulation F ω id).reaches hs
  cases a with
  | none => rw [Tracks, hr] at ht; cases ht
  | some j =>
    obtain ⟨r', hr', hmax, -⟩ := ht
    rw [hr] at hr'
    cases hr'
    rw [deliverCalls_eq, hmax]
    exact Retry.calls_le ha

theorem deliverCalls_of_dead {h : List (Label F ω)} {s : State F ω}
    (hs : (system F ω).Reaches h s) {id : Uuid} {r : JobRow F} (hr : s.jobs.get? id = some r)
    (hst : r.status = .dead) : (deliverCalls id h : Int) = max 1 r.maxAttempts := by
  obtain ⟨a, ha, ht⟩ := (simulation F ω id).reaches hs
  obtain ⟨n, f, rfl⟩ := ht.of_dead hr hst
  rw [deliverCalls_eq]
  exact (Retry.dead_calls ha rfl).1

/-! ## The guarantee -/

/-- What holds of a state `s` that the history `h` has led to. -/
structure Safe (h : List (Label F ω)) (s : State F ω) : Prop where
  oneHolder : ∀ v w id, id ∈ s.heldIds v → id ∈ s.heldIds w → v = w
  heldOnce : ∀ w, (s.heldIds w).Nodup
  heldInFlight : ∀ w, ∀ job ∈ (s.pc w).held, ∃ r, s.jobs.get? job.id = some r ∧
    r.status = .inFlight ∧ r.attempts = job.attempts
  callsBounded : ∀ id r, s.jobs.get? id = some r →
    (deliverCalls id h : Int) ≤ max 1 r.maxAttempts
  deadExhausted : ∀ id r, s.jobs.get? id = some r → r.status = .dead →
    (deliverCalls id h : Int) = max 1 r.maxAttempts
  deliveredFinal : ∀ id r, s.jobs.get? id = some r → r.status = .delivered →
    ∀ h' t, (system F ω).Path s h' t → t.jobs.get? id = some r

theorem safe_of_reaches {h : List (Label F ω)} {s : State F ω}
    (hs : (system F ω).Reaches h s) : Safe h s where
  oneHolder := (owned hs).exclusive.unique
  heldOnce := (owned hs).exclusive.nodup
  heldInFlight w job hjob := by
    obtain ⟨r, hr, hst, hatt, -⟩ := (owned hs).backed w job hjob
    exact ⟨r, hr, hst, hatt⟩
  callsBounded _ _ hr := deliverCalls_le hs hr
  deadExhausted _ _ hr hst := deliverCalls_of_dead hs hr hst
  deliveredFinal _ _ hr hst _ _ hpath := (((owned hs).settled_of_delivered hr hst).path hpath).row

/-! ## A run -/

def epoch : Formats.millis.DateTime := (0 : Int)

/-- A job of two attempts, as its worker holds it. -/
def claimedJob : Job Formats.millis where
  id := 1
  destination := "http://a.test"
  payload := "{}"
  status := .inFlight
  attempts := 1
  maxAttempts := 2
  nextAttemptAt := epoch
  lastError := none
  createdAt := epoch
  updatedAt := epoch

/-- One worker, and the job claimed at the time of its insertion. -/
def claimedState : State Formats.millis Unit where
  jobs := ⟨[asClaimed epoch (newRow 1 "http://a.test" "{}" 2 epoch)], List.nodup_singleton _⟩
  pc _ := .batch [claimedJob]

theorem claimedState_reached : (system Formats.millis Unit).Reaches
    [.claimDueJobs () epoch (claimedState.pc ()).held, .spawnWorkers,
      .insertJob 1 "http://a.test" "{}" 2 epoch] claimedState := by
  let rows : List (JobRow Formats.millis) := [newRow 1 "http://a.test" "{}" 2 epoch]
  let t : Jobs Formats.millis := ⟨rows, List.nodup_singleton _⟩
  have h₀ : (system Formats.millis Unit).Reaches [] ⟨Table.empty, fun _ => .stopped⟩ :=
    .init ⟨rfl, fun _ => rfl⟩
  have h₁ := h₀.step (Step.insertJob _ 1 "http://a.test" "{}" 2 epoch t rfl)
  have h₂ := h₁.step (Step.spawnWorkers _ fun _ => rfl)
  have hsel : SelectsDue t epoch 8 rows :=
    ⟨rows, List.Perm.refl _, List.pairwise_singleton _ _, rfl⟩
  exact h₂.step (Step.claimDueJobs _ () epoch none rows (.ok (claimedState.pc ()).held)
    claimedState.jobs rfl hsel rfl)

theorem safe_claimedState : Safe
    [.claimDueJobs () epoch (claimedState.pc ()).held, .spawnWorkers,
      .insertJob 1 "http://a.test" "{}" 2 epoch] claimedState :=
  safe_of_reaches claimedState_reached

end K
end WebhookDelivery
