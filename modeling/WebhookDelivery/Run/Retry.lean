/-
The life of one job with bounded retries.

This is what a delivery queue is for, with the store, the clock and the other
jobs left out: a job waits, one worker claims it and makes one call, and the
outcome either ends the job or puts it back, unless the number of calls has
reached `maxAttempts`, in which case the job is dead until an operator revives
it.  A worker that vanishes takes the jobs it holds out of circulation.

`calls_le` and `dead_calls` are what the retry budget promises, for every run.
A queue inherits them by simulating this system for each of its jobs.
-/
import WebhookDelivery.Run.System

namespace WebhookDelivery
namespace Run
namespace Retry

universe u

/-- Where a job is.  `called w ok`: the call of `w` has returned, with success
if `ok`, and its outcome is not recorded yet. -/
inductive Stage (ω : Type u)
  | waiting
  | held (w : ω)
  | called (w : ω) (ok : Bool)
  | lost
  | delivered
  | dead
  | rejected

/-- A job: its budget, its stage, and the calls and failed calls made for it
since it was submitted or last revived. -/
structure Job (ω : Type u) where
  maxAttempts : Int
  stage : Stage ω
  calls : Nat
  failures : Nat

inductive Event (ω : Type u)
  | submit (maxAttempts : Int)
  | claim (w : ω)
  | call (w : ω) (ok : Bool)
  | succeed (w : ω)
  | retry (w : ω)
  | exhaust (w : ω)
  | reject (w : ω)
  | drop (gone : ω → Bool)
  | revive

variable {ω : Type u}

/-- A stage after the workers in `gone` have vanished. -/
def Stage.drop (gone : ω → Bool) : Stage ω → Stage ω
  | .held w => if gone w then .lost else .held w
  | .called w ok => if gone w then .lost else .called w ok
  | s => s

/-- A job that is not lost is where it was before the drop. -/
theorem Stage.of_drop {gone : ω → Bool} {s t : Stage ω} (h : s.drop gone = t) (ht : t ≠ .lost) :
    s = t := by
  cases s with
  | held w | called w ok =>
    simp only [Stage.drop] at h
    split at h
    · exact absurd h.symm ht
    · exact h
  | waiting | lost | delivered | dead | rejected => exact h

def Job.drop (gone : ω → Bool) (j : Job ω) : Job ω := { j with stage := j.stage.drop gone }

inductive Step : Option (Job ω) → Event ω → Option (Job ω) → Prop
  | submit (m : Int) : Step none (.submit m) (some ⟨m, .waiting, 0, 0⟩)
  | claim (m : Int) (n f : Nat) (w : ω) :
      Step (some ⟨m, .waiting, n, f⟩) (.claim w) (some ⟨m, .held w, n, f⟩)
  | call (m : Int) (n f : Nat) (w : ω) (ok : Bool) :
      Step (some ⟨m, .held w, n, f⟩) (.call w ok)
        (some ⟨m, .called w ok, n + 1, if ok then f else f + 1⟩)
  | succeed (m : Int) (n f : Nat) (w : ω) :
      Step (some ⟨m, .called w true, n, f⟩) (.succeed w) (some ⟨m, .delivered, n, f⟩)
  | retry (m : Int) (n f : Nat) (w : ω) : (n : Int) < m →
      Step (some ⟨m, .called w false, n, f⟩) (.retry w) (some ⟨m, .waiting, n, f⟩)
  | exhaust (m : Int) (n f : Nat) (w : ω) : m ≤ (n : Int) →
      Step (some ⟨m, .called w false, n, f⟩) (.exhaust w) (some ⟨m, .dead, n, f⟩)
  | reject (m : Int) (n f : Nat) (w : ω) :
      Step (some ⟨m, .called w false, n, f⟩) (.reject w) (some ⟨m, .rejected, n, f⟩)
  | drop (j : Option (Job ω)) (gone : ω → Bool) : Step j (.drop gone) (j.map (Job.drop gone))
  | reviveDead (m : Int) (n f : Nat) :
      Step (some ⟨m, .dead, n, f⟩) .revive (some ⟨m, .waiting, 0, 0⟩)
  | reviveRejected (m : Int) (n f : Nat) :
      Step (some ⟨m, .rejected, n, f⟩) .revive (some ⟨m, .waiting, 0, 0⟩)

/-- One job from before its submission. -/
def system (ω : Type u) : System (Option (Job ω)) (Event ω) where
  init j := j = none
  step := Step

/-- The events that start the count of calls afresh. -/
def Event.starts : Event ω → Bool
  | .submit _ | .revive => true
  | _ => false

def Event.isCall : Event ω → Bool
  | .call _ _ => true
  | _ => false

def Event.isFailure : Event ω → Bool
  | .call _ ok => !ok
  | _ => false

/-- The calls made since the job was submitted or last revived. -/
def calls (h : List (Event ω)) : Nat := countSince Event.starts Event.isCall h

/-- The failed ones among them. -/
def failures (h : List (Event ω)) : Nat := countSince Event.starts Event.isFailure h

/-- What the counters of a job satisfy at each stage.  A waiting job has room
for one more call, which is what keeps the budget. -/
def Job.Bounded (j : Job ω) : Prop :=
  match j.stage with
  | .waiting | .held _ =>
      j.failures = j.calls ∧ (j.calls = 0 ∨ (j.calls : Int) < j.maxAttempts)
  | .called _ ok =>
      j.failures + (if ok then 1 else 0) = j.calls ∧ 1 ≤ j.calls ∧
        (j.calls : Int) ≤ max 1 j.maxAttempts
  | .lost | .delivered => (j.calls : Int) ≤ max 1 j.maxAttempts
  | .dead => j.failures = j.calls ∧ (j.calls : Int) = max 1 j.maxAttempts
  | .rejected => j.failures = j.calls ∧ (j.calls : Int) ≤ max 1 j.maxAttempts

theorem Job.Bounded.drop {j : Job ω} (hj : j.Bounded) (gone : ω → Bool) :
    (j.drop gone).Bounded := by
  obtain ⟨m, stage, n, f⟩ := j
  cases stage with
  | held w =>
    by_cases hw : gone w = true
    · simp only [Job.Bounded, Job.drop, Stage.drop, hw, if_true] at hj ⊢
      omega
    · simpa [Job.Bounded, Job.drop, Stage.drop, hw] using hj
  | called w ok =>
    by_cases hw : gone w = true
    · simp only [Job.Bounded, Job.drop, Stage.drop, hw, if_true] at hj ⊢
      exact hj.2.2
    · simpa [Job.Bounded, Job.drop, Stage.drop, hw] using hj
  | waiting | lost | delivered | dead | rejected => exact hj

/-- The counters agree with the history and stay within the budget. -/
def Accounted (h : List (Event ω)) : Option (Job ω) → Prop
  | none => calls h = 0 ∧ failures h = 0
  | some j => calls h = j.calls ∧ failures h = j.failures ∧ j.Bounded

theorem calls_cons (e : Event ω) (h : List (Event ω)) :
    calls (e :: h) = if e.starts then 0 else if e.isCall then calls h + 1 else calls h := rfl

theorem failures_cons (e : Event ω) (h : List (Event ω)) :
    failures (e :: h) =
      if e.starts then 0 else if e.isFailure then failures h + 1 else failures h := rfl

theorem Step.accounted {h : List (Event ω)} {j j' : Option (Job ω)} {e : Event ω}
    (hj : Accounted h j) (hs : Step j e j') : Accounted (e :: h) j' := by
  cases hs with
  | submit m => simp [Accounted, calls_cons, failures_cons, Event.starts, Job.Bounded]
  | claim m n f w => exact hj
  | call m n f w ok =>
    obtain ⟨hc, hf, hb⟩ := hj
    simp only [Job.Bounded] at hb
    refine ⟨?_, ?_, ?_⟩
    · simp [calls_cons, Event.starts, Event.isCall, hc]
    · cases ok <;> simp [failures_cons, Event.starts, Event.isFailure, hf]
    · simp only [Job.Bounded]
      cases ok
      · simp only [Bool.false_eq_true, if_false]; omega
      · simp only [if_true]; omega
  | succeed m n f w =>
    obtain ⟨hc, hf, hb⟩ := hj
    exact ⟨hc, hf, hb.2.2⟩
  | retry m n f w hlt =>
    obtain ⟨hc, hf, hb⟩ := hj
    exact ⟨hc, hf, by simpa using hb.1, Or.inr hlt⟩
  | exhaust m n f w hle =>
    obtain ⟨hc, hf, hb⟩ := hj
    simp only [Job.Bounded, Bool.false_eq_true, if_false] at hb
    refine ⟨hc, hf, ?_⟩
    simp only [Job.Bounded]
    omega
  | reject m n f w =>
    obtain ⟨hc, hf, hb⟩ := hj
    exact ⟨hc, hf, by simpa using hb.1, hb.2.2⟩
  | drop j gone =>
    cases j with
    | none => exact hj
    | some j => exact ⟨hj.1, hj.2.1, hj.2.2.drop gone⟩
  | reviveDead m n f =>
    simp [Accounted, calls_cons, failures_cons, Event.starts, Job.Bounded]
  | reviveRejected m n f =>
    simp [Accounted, calls_cons, failures_cons, Event.starts, Job.Bounded]

theorem accounted {h : List (Event ω)} {j : Option (Job ω)} (hj : (system ω).Reaches h j) :
    Accounted h j := by
  refine hj.invariant (fun s hs => ?_) (fun h s e t _ hI hst => Step.accounted hI hst)
  have hs : s = none := hs
  subst hs
  exact ⟨rfl, rfl⟩

/-- No run makes more calls for a job than its budget allows. -/
theorem calls_le {h : List (Event ω)} {j : Job ω} (hj : (system ω).Reaches h (some j)) :
    (calls h : Int) ≤ max 1 j.maxAttempts := by
  obtain ⟨hc, -, hb⟩ := accounted hj
  rw [hc]
  obtain ⟨m, stage, n, f⟩ := j
  cases stage <;> simp only [Job.Bounded] at hb ⊢ <;> omega

/-- A job dies of exhaustion only: it has had its whole budget of calls, and
all of them failed. -/
theorem dead_calls {h : List (Event ω)} {j : Job ω} (hj : (system ω).Reaches h (some j))
    (hd : j.stage = .dead) :
    (calls h : Int) = max 1 j.maxAttempts ∧ failures h = calls h := by
  obtain ⟨hc, hf, hb⟩ := accounted hj
  simp only [Job.Bounded, hd] at hb
  rw [hc, hf]
  exact ⟨hb.2, hb.1⟩

/-- A job has the budget it was submitted with. -/
theorem submitted {h : List (Event ω)} {j : Option (Job ω)} (hj : (system ω).Reaches h j) :
    ∀ m, .submit m ∈ h → ∃ k, j = some k ∧ k.maxAttempts = m := by
  apply hj.invariant (I := fun h j => ∀ m, .submit m ∈ h → ∃ k, j = some k ∧ k.maxAttempts = m)
  · intro j _ m hm
    exact absurd hm List.not_mem_nil
  · intro h j e j' _ hI hst m hm
    rcases List.mem_cons.1 hm with rfl | hm
    · cases hst with
      | submit => exact ⟨_, rfl, rfl⟩
    · obtain ⟨k, rfl, rfl⟩ := hI m hm
      cases hst with
      | claim | call | succeed | retry | exhaust | reject | reviveDead | reviveRejected =>
        exact ⟨_, rfl, rfl⟩
      | drop _ gone => exact ⟨k.drop gone, rfl, rfl⟩

/-- A job that no worker has dropped is not lost. -/
theorem lost_dropped {h : List (Event ω)} {j : Job ω} (hj : (system ω).Reaches h (some j))
    (hl : j.stage = .lost) : ∃ gone, .drop gone ∈ h := by
  have hall : ∀ k, some j = some k → k.stage = .lost → ∃ gone, .drop gone ∈ h := by
    apply hj.invariant (I := fun h a => ∀ k, a = some k → k.stage = .lost → ∃ gone, .drop gone ∈ h)
    · rintro a rfl k hk
      cases hk
    · intro h a e b _ hI hst k hk hstage
      cases hst with
      | drop a gone => exact ⟨gone, List.mem_cons_self⟩
      | submit | claim | call | succeed | retry | exhaust | reject | reviveDead
      | reviveRejected =>
        cases hk
        cases hstage
  exact hall j rfl hl

/-- A job is dead because it was exhausted. -/
theorem dead_exhausted {h : List (Event ω)} {j : Job ω} (hj : (system ω).Reaches h (some j))
    (hd : j.stage = .dead) : ∃ w, .exhaust w ∈ h := by
  have hall : ∀ k, some j = some k → k.stage = .dead → ∃ w, .exhaust w ∈ h := by
    apply hj.invariant (I := fun h a => ∀ k, a = some k → k.stage = .dead → ∃ w, .exhaust w ∈ h)
    · rintro a rfl k hk
      cases hk
    · intro h a e b _ hI hst k hk hstage
      cases hst with
      | exhaust m n f w => exact ⟨w, List.mem_cons_self⟩
      | drop a gone =>
        obtain ⟨k', rfl, rfl⟩ := Option.map_eq_some_iff.1 hk
        have hdead : k'.stage = .dead := Stage.of_drop hstage (by simp)
        obtain ⟨w, hw⟩ := hI k' rfl hdead
        exact ⟨w, List.mem_cons_of_mem _ hw⟩
      | submit | claim | call | succeed | retry | reject | reviveDead | reviveRejected =>
        cases hk
        cases hstage
  exact hall j rfl hd

/-- The last call of a delivered job is the one that did not fail. -/
theorem delivered_calls {h : List (Event ω)} {j : Job ω} (hj : (system ω).Reaches h (some j))
    (hd : j.stage = .delivered) : failures h + 1 = calls h := by
  obtain ⟨hc, hf, -⟩ := accounted hj
  rw [hc, hf]
  have hall : ∀ k, some j = some k → k.stage = .delivered → k.failures + 1 = k.calls := by
    apply hj.invariant
      (I := fun _ a => ∀ k, a = some k → k.stage = .delivered → k.failures + 1 = k.calls)
    · rintro a rfl k hk
      cases hk
    · intro h a e b hr hI hst k hk hstage
      cases hst with
      | succeed m n f w =>
        obtain ⟨-, -, hb⟩ := accounted hr
        cases hk
        exact hb.1
      | drop a gone =>
        obtain ⟨k', rfl, rfl⟩ := Option.map_eq_some_iff.1 hk
        have hdel : k'.stage = .delivered := Stage.of_drop hstage (by simp)
        exact hI k' rfl hdel
      | submit | claim | call | retry | exhaust | reject | reviveDead | reviveRejected =>
        cases hk
        cases hstage
  exact hall j rfl hd

/-! ## After a success -/

/-- A call of the job has succeeded, and the job is done or lost. -/
def Finished : Option (Job ω) → Prop
  | none => False
  | some j => j.stage = .delivered ∨ j.stage = .lost ∨ ∃ w, j.stage = .called w true

theorem Step.finished {j j' : Option (Job ω)} {e : Event ω} (hj : Finished j)
    (hst : Step j e j') : Finished j' ∧ e.isCall = false ∧ e.starts = false := by
  cases hst with
  | succeed m n f w => exact ⟨.inl rfl, rfl, rfl⟩
  | drop j gone =>
    refine ⟨?_, rfl, rfl⟩
    cases j with
    | none => exact hj
    | some j =>
      rcases hj with hdel | hlost | ⟨w, hcalled⟩
      · exact .inl (by rw [Job.drop, hdel]; rfl)
      · exact .inr (.inl (by rw [Job.drop, hlost]; rfl))
      · by_cases hw : gone w = true
        · exact .inr (.inl (by simp [Job.drop, hcalled, Stage.drop, hw]))
        · exact .inr (.inr ⟨w, by simp [Job.drop, hcalled, Stage.drop, hw]⟩)
  | submit => exact hj.elim
  | claim | call | retry | exhaust | reject | reviveDead | reviveRejected => simp [Finished] at hj

/-- A call that succeeded is the last one, and the job is not revived after it. -/
theorem success_last {h₁ h₀ : List (Event ω)} {w : ω} {j : Option (Job ω)}
    (hj : (system ω).Reaches (h₁ ++ .call w true :: h₀) j) :
    Finished j ∧ ∀ e ∈ h₁, e.isCall = false ∧ e.starts = false := by
  obtain ⟨j₀, j₁, -, hcall, hpath⟩ := hj.cut
  have hdone : Finished j₁ := by
    cases hcall with
    | call m n f w ok => exact .inr (.inr ⟨w, rfl⟩)
  refine hpath.invariant (I := fun h j => Finished j ∧
    ∀ e ∈ h, e.isCall = false ∧ e.starts = false)
    ⟨hdone, fun _ he => absurd he List.not_mem_nil⟩ (fun h j e j' _ hI hst => ?_)
  obtain ⟨hj', he⟩ := Step.finished hI.1 hst
  refine ⟨hj', fun e' he' => ?_⟩
  rcases List.mem_cons.1 he' with rfl | he'
  · exact he
  · exact hI.2 e' he'

theorem failures_le_calls (h : List (Event ω)) : failures h ≤ calls h := by
  induction h with
  | nil => exact Nat.le_refl _
  | cons e h ih =>
    rw [calls_cons, failures_cons]
    cases e with
    | submit | revive => exact Nat.le_refl _
    | call w ok => cases ok <;> simp [Event.starts, Event.isCall, Event.isFailure] <;> omega
    | claim | succeed | retry | exhaust | reject | drop => exact ih

end Retry
end Run
end WebhookDelivery
