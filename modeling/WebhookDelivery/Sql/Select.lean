/-
`ORDER BY … LIMIT`.

SQL leaves the order of rows with equal sort keys open, and with a `LIMIT` that
also leaves open which of them are returned.  `Ordered` is the set of answers a
query may give; `orderBy` is one of them.
-/
import Mathlib.Data.List.Nodup
import Mathlib.Order.Lattice

namespace WebhookDelivery
namespace Sql

universe u v w

variable {ρ : Type u} {α : Type v}

/-- `LIMIT n`.  A negative limit is none. -/
def limit (n : Int) (rows : List ρ) : List ρ := if n < 0 then rows else rows.take n.toNat

theorem limit_sublist (n : Int) (rows : List ρ) : (limit n rows).Sublist rows := by
  unfold limit
  split
  · exact List.Sublist.refl rows
  · exact List.take_sublist _ rows

theorem length_limit (n : Int) (rows : List ρ) :
    (limit n rows).length = if n < 0 then rows.length else min n.toNat rows.length := by
  unfold limit
  split
  · rfl
  · exact List.length_take

variable [LinearOrder α]

/-- `answer` is an answer to `SELECT … ORDER BY k LIMIT n` over the rows that
match the `WHERE` clause. -/
def Ordered (k : ρ → α) (n : Int) (matching answer : List ρ) : Prop :=
  ∃ sorted, sorted.Perm matching ∧ sorted.Pairwise (fun a b => k a ≤ k b) ∧
    answer = limit n sorted

/-- The answer a stable sort gives. -/
def orderBy (k : ρ → α) (n : Int) (matching : List ρ) : List ρ :=
  limit n (matching.mergeSort fun a b => k a ≤ k b)

theorem orderBy_ordered (k : ρ → α) (n : Int) (matching : List ρ) :
    Ordered k n matching (orderBy k n matching) := by
  refine ⟨_, List.mergeSort_perm matching _, ?_, rfl⟩
  have htrans : ∀ a b c, decide (k a ≤ k b) = true → decide (k b ≤ k c) = true →
      decide (k a ≤ k c) = true := by
    intro a b c hab hbc
    rw [decide_eq_true_eq] at hab hbc ⊢
    exact le_trans hab hbc
  have htotal : ∀ a b, (decide (k a ≤ k b) || decide (k b ≤ k a)) = true := by
    intro a b
    simpa using le_total (k a) (k b)
  simpa using List.pairwise_mergeSort htrans htotal matching

namespace Ordered

variable {k : ρ → α} {n : Int} {matching answer : List ρ}

theorem mem (h : Ordered k n matching answer) {x : ρ} (hx : x ∈ answer) : x ∈ matching := by
  obtain ⟨sorted, hperm, -, rfl⟩ := h
  exact hperm.mem_iff.1 ((limit_sublist n sorted).subset hx)

theorem sorted (h : Ordered k n matching answer) : answer.Pairwise fun a b => k a ≤ k b := by
  obtain ⟨sorted, -, hsorted, rfl⟩ := h
  exact hsorted.sublist (limit_sublist n sorted)

theorem nodup_map {κ : Type w} {f : ρ → κ} (h : Ordered k n matching answer)
    (hnd : (matching.map f).Nodup) : (answer.map f).Nodup := by
  obtain ⟨sorted, hperm, -, rfl⟩ := h
  exact ((hperm.map f).nodup_iff.2 hnd).sublist ((limit_sublist n sorted).map f)

theorem length_eq (h : Ordered k n matching answer) :
    answer.length = if n < 0 then matching.length else min n.toNat matching.length := by
  obtain ⟨sorted, hperm, -, rfl⟩ := h
  rw [length_limit, hperm.length_eq]

/-- A limit that is not reached leaves no row out. -/
theorem mem_of_length_le (h : Ordered k n matching answer) (hlen : (matching.length : Int) ≤ n)
    {x : ρ} (hx : x ∈ matching) : x ∈ answer := by
  obtain ⟨sorted, hperm, -, rfl⟩ := h
  have hmem : x ∈ sorted := hperm.mem_iff.2 hx
  have hlength := hperm.length_eq
  unfold limit
  split
  · exact hmem
  · rwa [List.take_of_length_le (by omega)]

/-- A row that is left out does not come before one that is not. -/
theorem le_of_left_out (h : Ordered k n matching answer) {x y : ρ} (hx : x ∈ answer)
    (hy : y ∈ matching) (hout : y ∉ answer) : k x ≤ k y := by
  obtain ⟨sorted, hperm, hsorted, rfl⟩ := h
  have hmem : y ∈ sorted := hperm.mem_iff.2 hy
  unfold limit at hx hout
  split at hx
  · rename_i hneg
    rw [if_pos hneg] at hout
    exact absurd hmem hout
  · rename_i hneg
    rw [if_neg hneg] at hout
    rw [← List.take_append_drop n.toNat sorted] at hsorted hmem
    have hdrop : y ∈ sorted.drop n.toNat := (List.mem_append.1 hmem).resolve_left hout
    exact (List.pairwise_append.1 hsorted).2.2 x hx y hdrop

/-- What matters of the sort key is the order it puts the rows in. -/
theorem congr_key {β : Type w} [LinearOrder β] {k' : ρ → β}
    (hk : ∀ a ∈ matching, ∀ b ∈ matching, (k a ≤ k b ↔ k' a ≤ k' b)) :
    Ordered k n matching answer ↔ Ordered k' n matching answer := by
  refine exists_congr fun sorted => and_congr_right fun hperm => and_congr_left fun _ => ?_
  have hmem : ∀ {x}, x ∈ sorted → x ∈ matching := hperm.mem_iff.1
  exact ⟨List.Pairwise.imp_of_mem fun ha hb => (hk _ (hmem ha) _ (hmem hb)).1,
    List.Pairwise.imp_of_mem fun ha hb => (hk _ (hmem ha) _ (hmem hb)).2⟩

end Ordered

/-! ## Decoding -/

/-- Decodes the rows of an answer.  One row that does not decode fails the
whole query. -/
def collect {β : Type w} (decode : ρ → Option β) : List ρ → Option (List β)
  | [] => some []
  | r :: rows =>
    match decode r, collect decode rows with
    | some x, some xs => some (x :: xs)
    | _, _ => none

theorem mem_of_collect {β : Type w} {decode : ρ → Option β} {rows : List ρ} {xs : List β}
    (h : collect decode rows = some xs) {x : β} (hx : x ∈ xs) :
    ∃ r ∈ rows, decode r = some x := by
  induction rows generalizing xs with
  | nil =>
    rw [collect, Option.some.injEq] at h
    subst h
    exact absurd hx List.not_mem_nil
  | cons r rows ih =>
    unfold collect at h
    split at h
    · rename_i y ys hy hys
      rw [Option.some.injEq] at h
      subst h
      rcases List.mem_cons.1 hx with rfl | hx
      · exact ⟨r, List.mem_cons_self, hy⟩
      · obtain ⟨r', hr', hdec⟩ := ih hys hx
        exact ⟨r', List.mem_cons_of_mem r hr', hdec⟩
    · cases h

/-- Rows that all decode do not fail the query. -/
theorem exists_collect {β : Type w} {decode : ρ → Option β} {rows : List ρ}
    (h : ∀ r ∈ rows, ∃ x, decode r = some x) : ∃ xs, collect decode rows = some xs := by
  induction rows with
  | nil => exact ⟨[], rfl⟩
  | cons r rows ih =>
    obtain ⟨x, hx⟩ := h r List.mem_cons_self
    obtain ⟨xs, hxs⟩ := ih fun r' hr' => h r' (List.mem_cons_of_mem r hr')
    exact ⟨x :: xs, by rw [collect, hx, hxs]⟩

/-- The decoded rows are in the order of the rows. -/
theorem pairwise_collect {β : Type w} {decode : ρ → Option β} {P : ρ → ρ → Prop}
    {Q : β → β → Prop} {rows : List ρ} {xs : List β} (h : collect decode rows = some xs)
    (hrows : rows.Pairwise P) (hPQ : ∀ a ∈ rows, ∀ b ∈ rows, ∀ x y, decode a = some x →
      decode b = some y → P a b → Q x y) : xs.Pairwise Q := by
  induction rows generalizing xs with
  | nil =>
    rw [collect, Option.some.injEq] at h
    subst h
    exact List.Pairwise.nil
  | cons r rows ih =>
    obtain ⟨hr, hrest⟩ := List.pairwise_cons.1 hrows
    unfold collect at h
    split at h
    · rename_i y ys hy hys
      rw [Option.some.injEq] at h
      subst h
      refine List.pairwise_cons.2 ⟨fun z hz => ?_, ih hys hrest fun a ha b hb =>
        hPQ a (List.mem_cons_of_mem r ha) b (List.mem_cons_of_mem r hb)⟩
      obtain ⟨r', hr', hz⟩ := mem_of_collect hys hz
      exact hPQ r List.mem_cons_self r' (List.mem_cons_of_mem r hr') y z hy hz (hr r' hr')
    · cases h

/-- What is read off the decoded rows can be read off the rows. -/
theorem map_collect {β : Type w} {γ : Type w} {decode : ρ → Option β} {f : β → γ} {g : ρ → γ}
    (hdec : ∀ r x, decode r = some x → f x = g r) {rows : List ρ} {xs : List β}
    (h : collect decode rows = some xs) : xs.map f = rows.map g := by
  induction rows generalizing xs with
  | nil =>
    rw [collect, Option.some.injEq] at h
    subst h
    rfl
  | cons r rows ih =>
    unfold collect at h
    split at h
    · rename_i y ys hy hys
      rw [Option.some.injEq] at h
      subst h
      rw [List.map_cons, List.map_cons, hdec r y hy, ih hys]
    · cases h

end Sql
end WebhookDelivery
