/-
The rate limiter.

Each key has a queue of the times at which it passed, oldest first.  Instants
and durations are nanoseconds, and `duration_since` saturates.  `check` and
`prune` read the clock before they take the lock, so the reading is an argument.
-/
import Mathlib.Algebra.Group.Nat.Defs
import WebhookDelivery.Run.Window

namespace WebhookDelivery
namespace Q

open Run

structure RateLimiter where
  limit : UInt32
  window : Nat
  /-- The keys in the map, with their queues. -/
  hits : String → Option (List Nat)

namespace RateLimiter

def new (limit : UInt32) (window : Nat) : RateLimiter :=
  { limit := limit, window := window, hits := fun _ => none }

/-- `map.retain`. -/
def retain (hits : String → Option (List Nat)) (p : List Nat → Bool) :
    String → Option (List Nat) := fun k => (hits k).filter p

def entry (hits : String → Option (List Nat)) (key : String) (queue : List Nat) :
    String → Option (List Nat) := fun k => if k = key then some queue else hits k

/-- The queue of a key, which is empty if the key is not in the map. -/
def queue (l : RateLimiter) (key : String) : List Nat := (l.hits key).getD []

/-- The loop of `check` that drops the oldest times. -/
def live (l : RateLimiter) (now : Nat) (hits : List Nat) : List Nat :=
  hits.dropWhile fun oldest => decide (l.window ≤ now - oldest)

def check (l : RateLimiter) (key : String) (now : Nat) : Bool × RateLimiter :=
  let hits := l.live now (l.queue key)
  if l.limit.toNat ≤ hits.length % 2 ^ 32 then
    (false, { l with hits := entry l.hits key hits })
  else
    (true, { l with hits := retain (entry l.hits key (hits ++ [now])) fun v => !v.isEmpty })

/-- What `prune` asks of a queue. -/
def recent (window now : Nat) (v : List Nat) : Bool :=
  match v.getLast? with
  | some last => decide (now - last < window)
  | none => false

def prune (l : RateLimiter) (now : Nat) : RateLimiter :=
  { l with hits := retain l.hits (recent l.window now) }

/-! ## The queues as windows -/

/-- The queue of each key is what is left of the times it passed, and is no
longer than the limit. -/
structure Logs (l : RateLimiter) (now : Nat) (ts : String → List Nat) : Prop where
  kept : ∀ k, Kept l.window now (ts k) (l.queue k)
  length : ∀ k, (l.queue k).length ≤ l.limit.toNat

theorem Logs.new (limit : UInt32) (window now : Nat) :
    Logs (RateLimiter.new limit window) now fun _ => [] :=
  ⟨fun _ => Kept.nil window now, fun _ => Nat.zero_le _⟩

theorem queue_entry (l : RateLimiter) (key : String) (hits : List Nat) (k : String) :
    queue { l with hits := entry l.hits key hits } k = if k = key then hits else l.queue k := by
  unfold queue entry
  dsimp only
  split <;> rfl

theorem queue_retain (l : RateLimiter) (p : List Nat → Bool) (k : String) :
    queue { l with hits := retain l.hits p } k = if p (l.queue k) then l.queue k else [] := by
  show ((l.hits k).filter p).getD [] = if p ((l.hits k).getD []) then (l.hits k).getD [] else []
  cases l.hits k with
  | none => simp
  | some v => by_cases hv : p v <;> simp [Option.filter, hv]

/-- Dropping the keys with an empty queue changes no queue. -/
theorem queue_nonempty (l : RateLimiter) (k : String) :
    queue { l with hits := retain l.hits fun v => !v.isEmpty } k = l.queue k := by
  rw [queue_retain]
  cases l.queue k <;> rfl

@[simp] theorem check_limit (l : RateLimiter) (key : String) (now : Nat) :
    (l.check key now).2.limit = l.limit := by
  unfold check
  dsimp only
  split <;> rfl

@[simp] theorem check_window (l : RateLimiter) (key : String) (now : Nat) :
    (l.check key now).2.window = l.window := by
  unfold check
  dsimp only
  split <;> rfl

variable {l : RateLimiter} {last now : Nat} {ts : String → List Nat}

theorem Logs.live_eq (h : Logs l last ts) (hle : last ≤ now) (k : String) :
    l.live now (l.queue k) = expire l.window now (l.queue k) := by
  have hpast : ∀ x ∈ l.queue k, x ≤ now :=
    fun x hx => ((h.kept k).le x ((h.kept k).mem hx)).trans hle
  generalize l.queue k = q at hpast
  unfold live expire
  induction q with
  | nil => rfl
  | cons x q ih =>
    have hx := hpast x List.mem_cons_self
    have hrest := ih fun y hy => hpast y (List.mem_cons_of_mem x hy)
    have hiff : l.window ≤ now - x ↔ x + l.window ≤ now := by omega
    simp only [List.dropWhile_cons, hiff, hrest]

theorem Logs.later (h : Logs l last ts) (hle : last ≤ now) : Logs l now ts :=
  ⟨fun k => (h.kept k).later hle, h.length⟩

/-- `check` lets a key pass if fewer than `limit` of its times still count. -/
theorem Logs.check (h : Logs l last ts) (hle : last ≤ now) (key : String) :
    ((l.check key now).1 = true ↔
      (expire l.window now (l.queue key)).length < l.limit.toNat) ∧
    Logs (l.check key now).2 now fun k =>
      if k = key ∧ (l.check key now).1 = true then ts k ++ [now] else ts k := by
  have hlater := h.later hle
  have hlive := h.live_eq hle key
  have hlen : (expire l.window now (l.queue key)).length ≤ l.limit.toNat :=
    (List.dropWhile_sublist _).length_le.trans (h.length key)
  have hmod : (expire l.window now (l.queue key)).length % 2 ^ 32 =
      (expire l.window now (l.queue key)).length :=
    Nat.mod_eq_of_lt (hlen.trans_lt l.limit.toNat_lt)
  have hkept := (hlater.kept key).expire
  unfold RateLimiter.check
  simp only [hlive, hmod]
  by_cases hfull : l.limit.toNat ≤ (expire l.window now (l.queue key)).length
  · rw [if_pos hfull]
    refine ⟨by simpa using hfull, fun k => ?_, fun k => ?_⟩
    · rw [queue_entry]
      by_cases hk : k = key
      · subst hk
        simpa using hkept
      · simpa [hk] using hlater.kept k
    · rw [queue_entry]
      by_cases hk : k = key
      · simpa [hk] using hlen
      · simpa [hk] using h.length k
  · rw [if_neg hfull]
    refine ⟨by simpa using hfull, fun k => ?_, fun k => ?_⟩
    · rw [queue_nonempty { l with hits := entry l.hits key _ }, queue_entry]
      by_cases hk : k = key
      · subst hk
        simpa using hkept.push
      · simpa [hk] using hlater.kept k
    · rw [queue_nonempty { l with hits := entry l.hits key _ }, queue_entry]
      by_cases hk : k = key
      · simp only [hk, if_true, List.length_append, List.length_singleton]
        omega
      · simpa [hk] using h.length k

/-- `prune` drops the queues of which every time has left the window. -/
theorem Logs.prune (h : Logs l last ts) (hle : last ≤ now) : Logs (l.prune now) now ts := by
  have hlater := h.later hle
  have hqueue : ∀ k, (l.prune now).queue k = l.queue k ∨
      (l.prune now).queue k = [] ∧ ∀ x ∈ l.queue k, x + l.window ≤ now := by
    intro k
    have hpruned : (l.prune now).queue k =
        if recent l.window now (l.queue k) then l.queue k else [] := queue_retain l _ k
    by_cases hrecent : recent l.window now (l.queue k) = true
    · exact .inl (hpruned.trans (if_pos hrecent))
    · refine .inr ⟨hpruned.trans (if_neg hrecent), fun x hx => ?_⟩
      unfold recent at hrecent
      cases hlast : (l.queue k).getLast? with
      | none =>
        rw [List.getLast?_eq_none_iff.1 hlast] at hx
        exact absurd hx List.not_mem_nil
      | some y =>
        -- the last time of a sorted queue is the newest
        obtain ⟨front, hfront⟩ := List.getLast?_eq_some_iff.1 hlast
        have hsorted := (h.kept k).sorted_log
        have hy : y ≤ last := (h.kept k).le y ((h.kept k).mem (List.mem_of_getLast? hlast))
        have hxy : x ≤ y := by
          rw [hfront] at hx hsorted
          rcases List.mem_append.1 hx with hx | hx
          · exact (List.pairwise_append.1 hsorted).2.2 x hx y (List.mem_singleton_self y)
          · exact (List.mem_singleton.1 hx).le
        have hout : ¬now - y < l.window := by simpa [hlast] using hrecent
        omega
  constructor
  · intro k
    show Kept l.window now (ts k) _
    rcases hqueue k with hsame | ⟨hnil, hout⟩
    · rw [hsame]
      exact hlater.kept k
    · rw [hnil]
      have hall := hlater.kept k
      rw [← List.append_nil (l.queue k)] at hall
      exact hall.drop hout
  · intro k
    rcases hqueue k with hsame | ⟨hnil, -⟩
    · rw [hsame]
      exact h.length k
    · rw [hnil]
      exact Nat.zero_le _

end RateLimiter

end Q
end WebhookDelivery
