/-
When a delivery is sent.

Whether a delivery is due is tested once, by `list_due`.  `claim` asks for the
status alone, and a batch of twenty may be a long time under way.  Meanwhile
another worker may have tried the delivery and put it off; it is pending again,
and the claim of the first worker wins.
-/
import WebhookDelivery.Run.Timed
import WebhookDelivery.Q.Ownership

namespace WebhookDelivery
namespace Q

open Sql Run

variable {ω : Type}

/-- The clock reading a label shows. -/
def Label.reads : Label ω → Option Int
  | .insert _ now | .replay _ now _ | .start _ now | .listDue _ now _ | .claim _ _ now _
  | .endPass _ now => some now
  | .refuse .. | .send .. | .record .. | .dbFail _ | .restart _ => none

def Label.claims [DecidableEq ω] (w : ω) : Label ω → Bool
  | .claim w' _ _ _ => w' = w
  | _ => false

/-- The row has been put off since it was listed, and is not due at `τ`. -/
def PutOff (r : DeliveryRow) (d : Delivery) (τ : Int) : Prop :=
  r.nextRetryAt ≠ d.nextRetryAt ∧ τ < r.nextRetryAt

variable [DecidableEq ω]

variable (ω) in
/-- The service with a clock. -/
def timed : System (State ω × Int) (Int × Label ω) := (system ω).timed Label.reads

/-- Every send `w` makes of `d` before its next claim is made at `due` or later. -/
def SendsFrom (w : ω) (d : Delivery) (due : Int) (q : State ω × Int) : Prop :=
  ∀ h q' τ n out q'', (timed ω).Path q h q' → (∀ l ∈ h, l.2.claims w = false) →
    (timed ω).step q' (τ, .send w d n out) q'' → due ≤ τ

/-- What a worker has listed was due when it was listed. -/
def Listed (p : State ω × Int) : Prop :=
  ∀ w, ∀ d ∈ (p.1.pc w).snapshots, d.nextRetryAt ≤ p.2

theorem Listed.step {p q : State ω × Int} {l : Int × Label ω} (hp : Listed p)
    (hst : (timed ω).step p l q) : Listed q := by
  obtain ⟨hle, htime, hread, hst⟩ := hst
  intro w d hd
  rcases hst.snapshots hd with hd | ⟨r, now, ds, hl, -, -, hdue, hmap⟩
  · have hold := hp w d hd
    omega
  · have hnow : now ≤ l.1 := hread now (by rw [hl]; rfl)
    have hnext : d.nextRetryAt = r.nextRetryAt := (mapDelivery_ok hmap).2.2.2.2.2
    omega

theorem listed_of_reaches {h : List (Int × Label ω)} {p : State ω × Int}
    (hp : (timed ω).Reaches h p) : Listed p := by
  apply hp.invariant (I := fun _ p => Listed p)
  · rintro p ⟨-, hdown⟩ w d hd
    rw [hdown w] at hd
    exact absurd hd List.not_mem_nil
  · intro h p l q _ hI hst
    exact hI.step hst

/-- A claim that wins takes up the head of the worker's batch, which is pending. -/
theorem Step.won {s t : State ω} {w : ω} {d : Delivery} {now : Int}
    (hst : Step s (.claim w d now true) t) :
    d ∈ (s.pc w).snapshots ∧ (∃ r, s.db.row d.id = some r ∧ r.status = .pending) ∧
      ∃ rest, t.pc w = .claimed d rest := by
  generalize hl : Label.claim w d now true = l at hst
  cases hst with
  | claim _ _ rest _ hpc =>
    rw [Label.claim.injEq] at hl
    obtain ⟨rfl, rfl, rfl, hwon⟩ := hl
    refine ⟨by rw [hpc]; exact List.mem_cons_self, (claim_fst s.db d.id now).1 hwon.symm,
      rest, ?_⟩
    rw [State.setPc_self, if_pos hwon.symm]
  | insert | replay | start | listDue | refuse | send | record | dbFail | endPass | restart =>
    cases hl

/-- A worker that has won a claim keeps to the `next_retry_at` of the row
exactly if the row has not been put off since it was listed. -/
theorem sends_on_time_iff {h : List (Int × Label ω)} {p q : State ω × Int}
    (hp : (timed ω).Reaches h p) {w : ω} {d : Delivery} {now τ : Int}
    (hst : (timed ω).step p (τ, .claim w d now true) q) :
    ∃ r, p.1.db.row d.id = some r ∧
      (SendsFrom w d r.nextRetryAt q ↔ ¬PutOff r d τ) := by
  obtain ⟨hle, htime, -, hclaim⟩ := hst
  obtain ⟨hmem, ⟨r, hr, -⟩, rest, hpc⟩ := hclaim.won
  have hlisted : d.nextRetryAt ≤ p.2 := listed_of_reaches hp w d hmem
  have htime : q.2 = τ := htime
  have hle : p.2 ≤ τ := hle
  refine ⟨r, hr, ?_, ?_⟩
  · rintro hsends ⟨-, hahead⟩
    let out : Outcome := (Response.status 200).outcome
    have hsend : (timed ω).step q (τ, .send w d (d.attempts + 1) out)
        (q.1.setPc w (.sent d out rest), τ) :=
      ⟨Int.le_of_eq htime, rfl, fun _ h => (nomatch h), Step.send q.1 w d rest (.status 200) hpc⟩
    have hnow : r.nextRetryAt ≤ τ :=
      hsends [] q τ _ _ _ .nil (fun l hl => absurd hl List.not_mem_nil) hsend
    omega
  · intro hnot h' q' τ' n out q'' hpath _ hsend
    have hclock := hpath.clock_le
    have hsent : q'.2 ≤ τ' := hsend.1
    by_cases hsame : r.nextRetryAt = d.nextRetryAt
    · omega
    · have hdue : ¬τ < r.nextRetryAt := fun hahead => hnot ⟨hsame, hahead⟩
      omega

/-! ## A retry that is sent at once -/

def slow : Config := { baseRetryDelayMs := 1000, maxRetryDelayMs := 60000, staleInFlightMs := 1000 }

/-- Two workers, with a backoff of up to a second. -/
def paced (db : Db) (a b : Pc) : State Bool := { duo db a b with cfg := slow }

theorem paced_ext {s : State Bool} {db : Db} {a b : Pc} (hdb : s.db = db)
    (hcfg : s.cfg = slow) (ha : s.pc false = a) (hb : s.pc true = b) : s = paced db a b := by
  obtain ⟨db', cfg, pc⟩ := s
  subst hdb hcfg ha hb
  have hpc : pc = fun w => if w then pc true else pc false := by
    funext w
    cases w <;> rfl
  exact congrArg (State.mk _ slow) hpc

/-- The hook after a failed attempt at time 0, put off by a second. -/
def putOffRow : DeliveryRow := asRetried 1000 "HTTP 500" 0 (asClaimed 0 (newRow hook 0))

def fullDraw : Draw := { rnd := 1000, entryId := 7, clock := 0, now := 0 }

/-- A step at a time that its reading does not pass. -/
theorem timed_step (t' : State Bool) {s t : State Bool} {l : Label Bool} {τ τ' : Int}
    (hst : Step s l t) (e : t = t') (hle : τ ≤ τ') (hread : ∀ now, l.reads = some now → now ≤ τ') :
    (timed Bool).step (s, τ) (τ', l) (t', τ') :=
  ⟨hle, rfl, hread, e ▸ hst⟩

/-- Both workers have listed the hook at time 0. -/
theorem paced_listed : (timed Bool).Reaches (listing.map fun l => (0, l))
    (paced listed.db (.batch [hookRead]) (.batch [hookRead]), 0) := by
  have hlist : ListsDue listed.db 0 20 (.ok [hookRead]) :=
    ⟨[newRow hook 0], ⟨_, List.Perm.refl _, List.pairwise_singleton _ _, rfl⟩, rfl⟩
  have r₀ : (timed Bool).Reaches [] (paced Db.empty .down .down, 0) :=
    .init ⟨rfl, fun w => by cases w <;> rfl⟩
  have r₁ := r₀.step (timed_step (paced listed.db .down .down)
    (Step.insert _ hook 0 listed.db rfl) rfl (Int.le_refl 0) (by simp [Label.reads]))
  have r₂ := r₁.step (timed_step (paced listed.db .polling .down)
    (Step.start _ false 0 rfl) (paced_ext rfl rfl rfl rfl) (Int.le_refl 0) (by simp [Label.reads]))
  have r₃ := r₂.step (timed_step (paced listed.db .polling .polling)
    (Step.start _ true 0 rfl) (paced_ext rfl rfl rfl rfl) (Int.le_refl 0) (by simp [Label.reads]))
  have r₄ := r₃.step (timed_step (paced listed.db (.batch [hookRead]) .polling)
    (Step.listDue _ false 0 _ rfl hlist) (paced_ext rfl rfl rfl rfl) (Int.le_refl 0)
    (by simp [Label.reads]))
  exact r₄.step (timed_step _ (Step.listDue _ true 0 _ rfl hlist) (paced_ext rfl rfl rfl rfl)
    (Int.le_refl 0) (by simp [Label.reads]))

/-- The first worker claims the hook as soon as it is listed. -/
theorem paced_claim : (timed Bool).step
    (paced listed.db (.batch [hookRead]) (.batch [hookRead]), 0)
    (0, .claim false hookRead 0 true)
    (paced claimedDb (.claimed hookRead []) (.batch [hookRead]), 0) :=
  timed_step _ (Step.claim _ false hookRead [] 0 rfl) (paced_ext rfl rfl rfl rfl) (Int.le_refl 0)
    (by simp [Label.reads])

theorem sends_on_time_hook : ∃ r, listed.db.row 1 = some r ∧
    (SendsFrom false hookRead r.nextRetryAt
      (paced claimedDb (.claimed hookRead []) (.batch [hookRead]), 0) ↔ ¬PutOff r hookRead 0) :=
  sends_on_time_iff paced_listed paced_claim

/-- The first worker has failed and put the hook off to the time 1000.  The
second claims it at the time 1 and sends it at once. -/
theorem sent_early : ¬∀ h p w d now τ q, (timed Bool).Reaches h p →
    (timed Bool).step p (τ, .claim w d now true) q → ∀ r, p.1.db.row d.id = some r →
      SendsFrom w d r.nextRetryAt q := by
  intro hall
  let db : Db := stored putOffRow [] List.nodup_nil
  let db' : Db := stored (asClaimed 1 putOffRow) [] List.nodup_nil
  have r₁ := paced_listed.step paced_claim
  have r₂ := r₁.step (timed_step
    (paced claimedDb (.sent hookRead (.retryable "HTTP 500") []) (.batch [hookRead]))
    (Step.send _ false hookRead [] (.status 500) rfl)
    (paced_ext rfl rfl rfl rfl) (Int.le_refl 0) (by simp [Label.reads]))
  have r₃ := r₂.step (timed_step (paced db (.batch []) (.batch [hookRead]))
    (Step.record _ false hookRead (.retryable "HTTP 500") [] fullDraw db rfl rfl)
    (paced_ext rfl rfl rfl rfl) (Int.le_refl 0) (by simp [Label.reads]))
  have hclaim : (timed Bool).step _ (1, .claim true hookRead 1 true)
      (paced db' (.batch []) (.claimed hookRead []), 1) :=
    timed_step _ (s := paced db (.batch []) (.batch [hookRead])) (τ := 0)
      (Step.claim _ true hookRead [] 1 rfl) (paced_ext rfl rfl rfl rfl) (by decide)
      (by simp [Label.reads])
  have hsend : (timed Bool).step (paced db' (.batch []) (.claimed hookRead []), 1)
      (1, .send true hookRead 1 .delivered)
      (paced db' (.batch []) (.sent hookRead .delivered []), 1) :=
    timed_step _ (Step.send _ true hookRead [] (.status 200) rfl) (paced_ext rfl rfl rfl rfl)
      (Int.le_refl 1) (by simp [Label.reads])
  have hlate : (1000 : Int) ≤ 1 := hall _ _ _ _ _ _ _ r₃ hclaim putOffRow rfl [] _ _ _ _ _ .nil
    (fun l hl => absurd hl List.not_mem_nil) hsend
  exact absurd hlate (by decide)

end Q
end WebhookDelivery
