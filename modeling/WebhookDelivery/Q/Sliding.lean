/-
The rate limiter as a sliding window.

`check` drops the times at the front of one queue, drops the keys whose queue is
empty, and `prune` drops the keys whose last time is old.  None of this shows:
the answers are those of a limiter that keeps, for each key, every time it has
passed, and counts the ones in the window.
-/
import Mathlib.Algebra.Order.Group.Nat
import WebhookDelivery.Q.RateLimit

namespace WebhookDelivery
namespace Q

open Run

/-- A call of the limiter, with its clock reading. -/
inductive Call
  | check (key : String) (now : Nat)
  | prune (now : Nat)

def Call.now : Call → Nat
  | .check _ now | .prune now => now

def Call.isCheck : Call → Bool
  | .check .. => true
  | .prune _ => false

/-- The call is a check of the key. -/
def Call.checks (key : String) : Call → Bool
  | .check k _ => k = key
  | .prune _ => false

namespace RateLimiter

def call (l : RateLimiter) : Call → RateLimiter
  | .check key now => (l.check key now).2
  | .prune now => l.prune now

def calls (l : RateLimiter) (cs : List Call) : RateLimiter := cs.foldl call l

/-- The keys of the checks, with their answers. -/
def answers (l : RateLimiter) : List Call → List (String × Bool)
  | [] => []
  | .check key now :: cs => (key, (l.check key now).1) :: (l.check key now).2.answers cs
  | .prune now :: cs => (l.prune now).answers cs

/-- The times at which a key passes. -/
def passes (key : String) (l : RateLimiter) : List Call → List Nat
  | [] => []
  | .check k now :: cs =>
    (if k = key ∧ (l.check k now).1 = true then [now] else []) ++ passes key (l.check k now).2 cs
  | .prune now :: cs => passes key (l.prune now) cs

end RateLimiter

/-! ## The ideal limiter -/

/-- Another use of the key is within the limit. -/
def within (limit window : Nat) (ts : List Nat) (now : Nat) : Bool :=
  decide (ts.countP (fun x => decide (now < x + window)) < limit)

/-- The times of the keys after an answer. -/
def recorded (ts : String → List Nat) (key : String) (now : Nat) (passed : Bool) :
    String → List Nat := fun k => if k = key ∧ passed = true then ts k ++ [now] else ts k

/-- The answers of a limiter that forgets nothing; `ts` are the times so far. -/
def ideal (limit window : Nat) (ts : String → List Nat) : List Call → List (String × Bool)
  | [] => []
  | .check key now :: cs =>
    let passed := within limit window (ts key) now
    (key, passed) :: ideal limit window (recorded ts key now passed) cs
  | .prune _ :: cs => ideal limit window ts cs

theorem ideal_checks (limit window : Nat) (ts : String → List Nat) (cs : List Call) :
    ideal limit window ts (cs.filter Call.isCheck) = ideal limit window ts cs := by
  induction cs generalizing ts with
  | nil => rfl
  | cons c cs ih =>
    cases c with
    | check key now =>
      show ideal limit window ts (.check key now :: cs.filter Call.isCheck) = _
      simp only [ideal, ih]
    | prune now => exact ih ts

/-- The answers to the checks of one key depend on the times of that key. -/
theorem ideal_congr {limit window : Nat} {key : String} {ts ts' : String → List Nat}
    (h : ts key = ts' key) {cs : List Call} (hcs : ∀ c ∈ cs, c.checks key = true) :
    ideal limit window ts cs = ideal limit window ts' cs := by
  induction cs generalizing ts ts' with
  | nil => rfl
  | cons c cs ih =>
    have hrest : ∀ c ∈ cs, c.checks key = true := fun c hc => hcs c (List.mem_cons_of_mem _ hc)
    cases c with
    | prune now => cases hcs _ List.mem_cons_self
    | check k now =>
      obtain rfl : k = key := by simpa [Call.checks] using hcs _ List.mem_cons_self
      have hrec : recorded ts k now (within limit window (ts k) now) k =
          recorded ts' k now (within limit window (ts' k) now) k := by
        simp only [recorded, h]
      simp only [ideal]
      rw [ih hrec hrest, h]

/-- The other keys change nothing. -/
theorem ideal_key (limit window : Nat) (key : String) (ts : String → List Nat) (cs : List Call) :
    (ideal limit window ts cs).filter (fun a => decide (a.1 = key)) =
      ideal limit window ts (cs.filter (Call.checks key)) := by
  induction cs generalizing ts with
  | nil => rfl
  | cons c cs ih =>
    cases c with
    | prune now => exact ih ts
    | check k now =>
      by_cases hk : k = key
      · have hchecks : Call.checks key (.check k now) = true := decide_eq_true hk
        rw [List.filter_cons_of_pos hchecks]
        simp only [ideal]
        rw [List.filter_cons_of_pos (by simpa using hk), ih]
      · have hchecks : ¬Call.checks key (.check k now) = true := by simpa [Call.checks] using hk
        rw [List.filter_cons_of_neg hchecks]
        simp only [ideal]
        rw [List.filter_cons_of_neg (by simpa using hk), ih]
        have hsame : recorded ts k now (within limit window (ts k) now) key = ts key :=
          if_neg fun e => hk e.1.symm
        exact ideal_congr hsame fun c hc => (List.mem_filter.1 hc).2

/-! ## The limiter is ideal -/

/-- The clock readings do not go back. -/
def InTime (cs : List Call) : Prop := cs.Pairwise fun c c' => c.now ≤ c'.now

instance (cs : List Call) : Decidable (InTime cs) :=
  inferInstanceAs (Decidable (cs.Pairwise fun c c' => c.now ≤ c'.now))

variable {l : RateLimiter} {last : Nat} {ts : String → List Nat}

namespace RateLimiter

theorem Logs.within_eq (h : Logs l last ts) {now : Nat} (hle : last ≤ now) (key : String) :
    (l.check key now).1 = within l.limit.toNat l.window (ts key) now := by
  have hiff := (h.check hle key).1
  rw [((h.later hle).kept key).expire_eq, ← List.countP_eq_length_filter] at hiff
  rw [Bool.eq_iff_iff, hiff, within, decide_eq_true_eq]

theorem Logs.recorded (h : Logs l last ts) {now : Nat} (hle : last ≤ now) (key : String) :
    Logs (l.check key now).2 now (Q.recorded ts key now (l.check key now).1) :=
  (h.check hle key).2

/-- The answers are those of a limiter that forgets nothing. -/
theorem Logs.answers_eq (h : Logs l last ts) {cs : List Call} (hlast : ∀ c ∈ cs, last ≤ c.now)
    (hcs : InTime cs) : l.answers cs = ideal l.limit.toNat l.window ts cs := by
  induction cs generalizing l last ts with
  | nil => rfl
  | cons c cs ih =>
    obtain ⟨hhead, htail⟩ := List.pairwise_cons.1 hcs
    have hle := hlast c List.mem_cons_self
    cases c with
    | check key now =>
      have hle : last ≤ now := hle
      have hnext : (l.check key now).2.answers cs = _ := ih (h.recorded hle key) hhead htail
      rw [check_limit, check_window] at hnext
      simp only [answers, ideal]
      rw [hnext, h.within_eq hle]
    | prune now => exact ih (h.prune hle) hhead htail

/-- After some calls the limiter has what it kept of the times that passed. -/
theorem Logs.calls (h : Logs l last ts) {cs : List Call} (hlast : ∀ c ∈ cs, last ≤ c.now)
    (hcs : InTime cs) {now : Nat} (hnow : ∀ c ∈ cs, c.now ≤ now) (hle : last ≤ now) :
    Logs (l.calls cs) now fun key => ts key ++ passes key l cs := by
  induction cs generalizing l last ts with
  | nil => simpa [RateLimiter.calls, passes] using h.later hle
  | cons c cs ih =>
    obtain ⟨hhead, htail⟩ := List.pairwise_cons.1 hcs
    have hrest : ∀ c ∈ cs, c.now ≤ now := fun c hc => hnow c (List.mem_cons_of_mem _ hc)
    have hc := hlast c List.mem_cons_self
    cases c with
    | prune t => exact ih (h.prune hc) hhead htail hrest (hnow _ List.mem_cons_self)
    | check key t =>
      have hnext := ih (h.recorded hc key) hhead htail hrest (hnow _ List.mem_cons_self)
      have heq : (fun k => Q.recorded ts key t (l.check key t).1 k ++
          passes k (l.check key t).2 cs) = fun k => ts k ++ passes k l (.check key t :: cs) := by
        funext k
        by_cases hk : k = key ∧ (l.check key t).1 = true
        · have hk' : key = k ∧ (l.check key t).1 = true := ⟨hk.1.symm, hk.2⟩
          simp only [Q.recorded, passes, if_pos hk, if_pos hk', List.append_assoc]
        · have hk' : ¬(key = k ∧ (l.check key t).1 = true) := fun e => hk ⟨e.1.symm, e.2⟩
          simp only [Q.recorded, passes, if_neg hk, if_neg hk', List.nil_append]
      rw [← heq]
      exact hnext

end RateLimiter

/-! ## The window -/

theorem new_logs (limit : UInt32) (window : Nat) :
    (RateLimiter.new limit window).Logs 0 fun _ => [] := RateLimiter.Logs.new limit window 0

theorem InTime.answers_eq (limit : UInt32) (window : Nat) {cs : List Call} (hcs : InTime cs) :
    (RateLimiter.new limit window).answers cs =
      ideal limit.toNat window (fun _ => []) cs :=
  (new_logs limit window).answers_eq (fun c _ => Nat.zero_le c.now) hcs

theorem InTime.filter {cs : List Call} (hcs : InTime cs) (p : Call → Bool) :
    InTime (cs.filter p) := hcs.sublist List.filter_sublist

/-- The limiter just before one of the calls. -/
theorem InTime.before (limit : UInt32) (window : Nat) {before later : List Call} {c : Call}
    (hcs : InTime (before ++ c :: later)) :
    ((RateLimiter.new limit window).calls before).Logs c.now fun key =>
      RateLimiter.passes key (RateLimiter.new limit window) before := by
  obtain ⟨hbefore, -, hle⟩ := List.pairwise_append.1 hcs
  have hlogs := (new_logs limit window).calls (fun c _ => Nat.zero_le c.now) hbefore
    (fun c' hc' => hle c' hc' c List.mem_cons_self) (Nat.zero_le _)
  simpa only [List.nil_append] using hlogs

theorem RateLimiter.calls_limit (l : RateLimiter) (cs : List Call) :
    (l.calls cs).limit = l.limit ∧ (l.calls cs).window = l.window := by
  induction cs generalizing l with
  | nil => exact ⟨rfl, rfl⟩
  | cons c cs ih =>
    obtain ⟨hlimit, hwindow⟩ := ih (l.call c)
    cases c with
    | check key now => exact ⟨hlimit.trans (l.check_limit key now), hwindow.trans
        (l.check_window key now)⟩
    | prune now => exact ⟨hlimit, hwindow⟩

theorem InTime.check_iff (limit : UInt32) (window : Nat) {before later : List Call}
    {key : String} {now : Nat} (hcs : InTime (before ++ .check key now :: later)) :
    (((RateLimiter.new limit window).calls before).check key now).1 = true ↔
      (RateLimiter.passes key (RateLimiter.new limit window) before).countP
        (fun x => decide (now < x + window ∧ x ≤ now)) < limit.toNat := by
  have hlogs := hcs.before limit window
  obtain ⟨hlimit, hwindow⟩ := (RateLimiter.new limit window).calls_limit before
  rw [hlogs.within_eq (le_refl now), within, decide_eq_true_eq, hlimit, hwindow]
  have hpast : ∀ x ∈ RateLimiter.passes key (RateLimiter.new limit window) before, x ≤ now :=
    (hlogs.kept key).le
  have hcount : (RateLimiter.passes key (RateLimiter.new limit window) before).countP
        (fun x => decide (now < x + window)) =
      (RateLimiter.passes key (RateLimiter.new limit window) before).countP
        (fun x => decide (now < x + window ∧ x ≤ now)) := by
    refine List.countP_congr fun x hx => ?_
    simp [hpast x hx]
  rw [← hcount]
  rfl

theorem InTime.refused (limit : UInt32) (window : Nat) {before later : List Call}
    {key : String} {now : Nat} (hcs : InTime (before ++ .check key now :: later))
    (hrefused : (((RateLimiter.new limit window).calls before).check key now).1 = false) :
    (((RateLimiter.new limit window).calls before).check key now).2.answers later =
      ((RateLimiter.new limit window).calls before).answers later := by
  have hlogs := hcs.before limit window
  obtain ⟨-, htail, -⟩ := List.pairwise_append.1 hcs
  obtain ⟨hhead, hlater⟩ := List.pairwise_cons.1 htail
  have hafter := hlogs.recorded (le_refl now) key
  have hnone : recorded (fun key => RateLimiter.passes key (RateLimiter.new limit window) before)
      key now (((RateLimiter.new limit window).calls before).check key now).1 =
        fun key => RateLimiter.passes key (RateLimiter.new limit window) before := by
    funext k
    rw [hrefused]
    exact if_neg fun e => Bool.false_ne_true e.2
  rw [hnone] at hafter
  rw [hafter.answers_eq hhead hlater, hlogs.answers_eq hhead hlater, RateLimiter.check_limit,
    RateLimiter.check_window]

/-- A check passes if and only if fewer than `limit` of the earlier checks of its
key that passed are in the window that ends now.  A check that is refused changes
no later answer, nor do the checks of other keys, nor does a `prune`. -/
theorem exact_sliding_window (limit : UInt32) (window : Nat) {cs : List Call}
    (hcs : InTime cs) :
    (∀ before key now later, cs = before ++ .check key now :: later →
      ((((RateLimiter.new limit window).calls before).check key now).1 = true ↔
        (RateLimiter.passes key (RateLimiter.new limit window) before).countP
          (fun x => decide (now < x + window ∧ x ≤ now)) < limit.toNat)) ∧
    (∀ before key now later, cs = before ++ .check key now :: later →
      (((RateLimiter.new limit window).calls before).check key now).1 = false →
      (((RateLimiter.new limit window).calls before).check key now).2.answers later =
        ((RateLimiter.new limit window).calls before).answers later) ∧
    (∀ key, ((RateLimiter.new limit window).answers cs).filter (fun a => decide (a.1 = key)) =
      (RateLimiter.new limit window).answers (cs.filter (Call.checks key))) ∧
    ∀ cs', InTime cs' → cs'.filter Call.isCheck = cs.filter Call.isCheck →
      (RateLimiter.new limit window).answers cs' = (RateLimiter.new limit window).answers cs := by
  refine ⟨?_, ?_, fun key => ?_, fun cs' hcs' hsame => ?_⟩
  · rintro before key now later rfl
    exact hcs.check_iff limit window
  · rintro before key now later rfl hrefused
    exact hcs.refused limit window hrefused
  · rw [hcs.answers_eq, (hcs.filter _).answers_eq, ideal_key]
  · rw [hcs'.answers_eq, hcs.answers_eq, ← ideal_checks _ _ _ cs', hsame, ideal_checks]

/-- With a limit of one in ten nanoseconds the second check at 9 is refused, and
the one at 10 passes. -/
theorem exact_sliding_window_ten :
    (((RateLimiter.new 1 10).calls [.check "a" 0, .prune 4, .check "a" 9]).check "a" 10).1 = true ∧
      (((RateLimiter.new 1 10).calls [.check "a" 0, .prune 4]).check "a" 9).2.answers
          [.check "a" 10] =
        ((RateLimiter.new 1 10).calls [.check "a" 0, .prune 4]).answers [.check "a" 10] ∧
      (RateLimiter.new 1 10).answers [.check "a" 0, .check "a" 9, .check "a" 10] =
        (RateLimiter.new 1 10).answers [.check "a" 0, .prune 4, .check "a" 9, .check "a" 10] := by
  have hcs : InTime [.check "a" 0, .prune 4, .check "a" 9, .check "a" 10] := by decide
  obtain ⟨hiff, hrefused, -, hprune⟩ := exact_sliding_window 1 10 hcs
  exact ⟨(hiff [.check "a" 0, .prune 4, .check "a" 9] "a" 10 [] rfl).2 (by decide),
    hrefused [.check "a" 0, .prune 4] "a" 9 [.check "a" 10] rfl (by decide),
    hprune [.check "a" 0, .check "a" 9, .check "a" 10] (by decide) rfl⟩

end Q
end WebhookDelivery
