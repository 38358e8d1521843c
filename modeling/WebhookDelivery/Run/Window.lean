/-
Sliding windows over a log of times.

A log keeps the times that still count, oldest first.  `expire` drops a time
once a window has gone by since.  `Kept` says that a log is what remains of all
the times there have been, and so how many of them count can be read off it.
-/
import Mathlib.Algebra.Order.Monoid.Unbundled.Basic

namespace WebhookDelivery
namespace Run

universe u v

variable {τ : Type u} [LinearOrder τ] [Add τ]

/-- Drop the times that have left the window. -/
def expire (window now : τ) (log : List τ) : List τ :=
  log.dropWhile fun x => decide (x + window ≤ now)

/-- `log` is what is left at `now` of all the times `ts`. -/
structure Kept (window now : τ) (ts log : List τ) : Prop where
  sorted : ts.Pairwise (· ≤ ·)
  le : ∀ x ∈ ts, x ≤ now
  suffix : ∃ old, ts = old ++ log ∧ ∀ x ∈ old, x + window ≤ now

/-- No window, from wherever it starts, has more than `limit` of the times. -/
def AtMost (limit : Nat) (window : τ) (ts : List τ) : Prop :=
  ∀ t, ts.countP (fun x => decide (t ≤ x ∧ x < t + window)) ≤ limit

theorem Kept.nil (window now : τ) : Kept window now [] [] :=
  ⟨List.Pairwise.nil, fun _ hx => absurd hx List.not_mem_nil, [], rfl,
    fun _ hx => absurd hx List.not_mem_nil⟩

theorem Kept.mem {window now : τ} {ts log : List τ} (h : Kept window now ts log) {x : τ}
    (hx : x ∈ log) : x ∈ ts := by
  obtain ⟨old, rfl, -⟩ := h.suffix
  exact List.mem_append_right old hx

theorem Kept.sorted_log {window now : τ} {ts log : List τ} (h : Kept window now ts log) :
    log.Pairwise (· ≤ ·) := by
  obtain ⟨old, hts, -⟩ := h.suffix
  exact (List.pairwise_append.1 (hts ▸ h.sorted)).2.1

theorem Kept.later {window now now' : τ} {ts log : List τ} (h : Kept window now ts log)
    (hle : now ≤ now') : Kept window now' ts log := by
  obtain ⟨old, hts, hold⟩ := h.suffix
  exact ⟨h.sorted, fun x hx => (h.le x hx).trans hle, old, hts,
    fun x hx => (hold x hx).trans hle⟩

/-- Times at the front of the log may go if they have left the window. -/
theorem Kept.drop {window now : τ} {ts front log : List τ}
    (h : Kept window now ts (front ++ log)) (hfront : ∀ x ∈ front, x + window ≤ now) :
    Kept window now ts log := by
  obtain ⟨old, hts, hold⟩ := h.suffix
  refine ⟨h.sorted, h.le, old ++ front, by rw [hts, List.append_assoc], fun x hx => ?_⟩
  rcases List.mem_append.1 hx with hx | hx
  · exact hold x hx
  · exact hfront x hx

theorem Kept.expire {window now : τ} {ts log : List τ} (h : Kept window now ts log) :
    Kept window now ts (expire window now log) := by
  let p : τ → Bool := fun x => decide (x + window ≤ now)
  have hsplit : log.takeWhile p ++ log.dropWhile p = log := List.takeWhile_append_dropWhile
  rw [← hsplit] at h
  refine h.drop fun x hx => ?_
  exact of_decide_eq_true (List.all_eq_true.1 List.all_takeWhile x hx)

theorem Kept.push {window now : τ} {ts log : List τ} (h : Kept window now ts log) :
    Kept window now (ts ++ [now]) (log ++ [now]) := by
  obtain ⟨old, hts, hold⟩ := h.suffix
  refine ⟨?_, fun x hx => ?_, old, by rw [hts, List.append_assoc], hold⟩
  · rw [List.pairwise_append]
    refine ⟨h.sorted, List.pairwise_singleton _ _, fun x hx y hy => ?_⟩
    rw [List.mem_singleton.1 hy]
    exact h.le x hx
  · rcases List.mem_append.1 hx with hx | hx
    · exact h.le x hx
    · exact (List.mem_singleton.1 hx).le

variable [AddRightMono τ]

/-- In a sorted list the times that have left the window are all at the front. -/
theorem expire_eq_filter {window now : τ} {log : List τ} (h : log.Pairwise (· ≤ ·)) :
    expire window now log = log.filter fun x => decide (now < x + window) := by
  induction log with
  | nil => rfl
  | cons x log ih =>
    obtain ⟨hx, hlog⟩ := List.pairwise_cons.1 h
    by_cases hout : x + window ≤ now
    · have hout' : ¬now < x + window := hout.not_gt
      rw [expire, List.dropWhile_cons_of_pos (by simpa using hout),
        List.filter_cons_of_neg (by simpa using hout)]
      exact ih hlog
    · have hin : now < x + window := not_le.1 hout
      rw [expire, List.dropWhile_cons_of_neg (by simpa using hin)]
      refine (List.filter_eq_self.2 fun y hy => ?_).symm
      rcases List.mem_cons.1 hy with rfl | hy
      · exact decide_eq_true hin
      · exact decide_eq_true (hin.trans_le (add_le_add_left (hx y hy) window))

/-- What is left after `expire` are the times that still count. -/
theorem Kept.expire_eq {window now : τ} {ts log : List τ} (h : Kept window now ts log) :
    Run.expire window now log = ts.filter fun x => decide (now < x + window) := by
  rw [expire_eq_filter h.sorted_log]
  obtain ⟨old, rfl, hold⟩ := h.suffix
  rw [List.filter_append]
  have hnone : old.filter (fun x => decide (now < x + window)) = [] :=
    List.filter_eq_nil_iff.2 fun x hx => by simpa using hold x hx
  rw [hnone, List.nil_append]

/-- A time may be added while fewer than `limit` still count. -/
theorem AtMost.push {limit : Nat} {window now : τ} {ts log : List τ}
    (hle : AtMost limit window ts) (h : Kept window now ts log)
    (hlen : (Run.expire window now log).length < limit) : AtMost limit window (ts ++ [now]) := by
  intro t
  rw [List.countP_append, List.countP_singleton]
  by_cases hin : t ≤ now ∧ now < t + window
  · have hcount : ts.countP (fun x => decide (t ≤ x ∧ x < t + window)) ≤
        ts.countP fun x => decide (now < x + window) := by
      refine List.countP_mono_left fun x _ hx => ?_
      have htx : t ≤ x := (of_decide_eq_true hx).1
      exact decide_eq_true (hin.2.trans_le (add_le_add_left htx window))
    rw [h.expire_eq, ← List.countP_eq_length_filter] at hlen
    rw [if_pos (decide_eq_true hin)]
    omega
  · rw [if_neg (by simpa using hin)]
    exact hle t

/-! ## Buckets -/

/-- What is counted is at most `n` for each bucket. -/
theorem countP_le_of_buckets {α : Type u} {κ : Type v} [DecidableEq κ] (bucket : α → κ)
    (keys : List κ) {n : Nat} {l : List α} {p : α → Bool}
    (hmem : ∀ x ∈ l, p x = true → bucket x ∈ keys)
    (hle : ∀ k ∈ keys, l.countP (fun x => p x && decide (bucket x = k)) ≤ n) :
    l.countP p ≤ n * keys.length := by
  induction keys generalizing p with
  | nil =>
    have hzero : l.countP p = 0 :=
      List.countP_eq_zero.2 fun x hx hp => absurd (hmem x hx hp) List.not_mem_nil
    omega
  | cons k keys ih =>
    let other : α → Bool := fun x => p x && !decide (bucket x = k)
    have hsplit : l.countP p =
        l.countP (fun x => p x && decide (bucket x = k)) + l.countP other := by
      rw [List.countP_eq_countP_filter_add l p fun x => decide (bucket x = k)]
      simp only [List.countP_filter, other]
    have hhere := hle k List.mem_cons_self
    have hrest : l.countP other ≤ n * keys.length := by
      refine ih (fun x hx hp => ?_) (fun k' hk' => ?_)
      · have hp' : p x = true ∧ bucket x ≠ k := by simpa [other] using hp
        rcases List.mem_cons.1 (hmem x hx hp'.1) with hk | hk
        · exact absurd hk hp'.2
        · exact hk
      · refine le_trans (List.countP_mono_left fun x _ hx => ?_)
          (hle k' (List.mem_cons_of_mem k hk'))
        simp only [other, Bool.and_eq_true] at hx ⊢
        exact ⟨hx.1.1, hx.2⟩
    rw [hsplit, List.length_cons, Nat.mul_succ]
    omega

end Run
end WebhookDelivery
