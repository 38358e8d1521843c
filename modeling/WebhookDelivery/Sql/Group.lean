/-
`COUNT(*) … GROUP BY`.

Each value of the grouping expression that occurs gives one row with the number of its
rows.  SQL leaves the order of the groups open, and nothing below depends on it.
-/
import Mathlib.Algebra.BigOperators.Group.List.Lemmas
import Mathlib.Algebra.GroupWithZero.Nat
import Mathlib.Data.List.Dedup

namespace WebhookDelivery
namespace Sql

universe u v

variable {ρ : Type u} {α : Type v} [DecidableEq α]

/-- `SELECT f, COUNT(*) … GROUP BY f`. -/
def groupCounts (f : ρ → α) (rows : List ρ) : List (α × Nat) :=
  (rows.map f).dedup.map fun a => (a, rows.countP fun r => f r = a)

theorem groupCounts_keys (f : ρ → α) (rows : List ρ) :
    (groupCounts f rows).map Prod.fst = (rows.map f).dedup := by
  rw [groupCounts, List.map_map]
  exact List.map_id _

theorem nodup_groupCounts (f : ρ → α) (rows : List ρ) :
    ((groupCounts f rows).map Prod.fst).Nodup := by
  rw [groupCounts_keys]
  exact List.nodup_dedup _

/-- A group has its number of rows, and no group is empty. -/
theorem mem_groupCounts {f : ρ → α} {rows : List ρ} {a : α} {n : Nat} :
    (a, n) ∈ groupCounts f rows ↔ n = rows.countP (fun r => f r = a) ∧ 0 < n := by
  have hpos : (∃ r ∈ rows, f r = a) ↔ 0 < rows.countP fun r => f r = a := by
    simp [List.countP_pos_iff]
  simp only [groupCounts, List.mem_map, List.mem_dedup, Prod.mk.injEq]
  constructor
  · rintro ⟨b, hb, rfl, rfl⟩
    exact ⟨rfl, hpos.1 hb⟩
  · rintro ⟨rfl, hn⟩
    exact ⟨a, hpos.2 hn, rfl, rfl⟩

/-- The groups add up to all rows. -/
theorem sum_groupCounts (f : ρ → α) (rows : List ρ) :
    ((groupCounts f rows).map Prod.snd).sum = rows.length := by
  have hcount : ∀ a, (rows.countP fun r => f r = a) = (rows.map f).count a := by
    intro a
    rw [List.count, List.countP_map]
    refine List.countP_congr fun r _ => ?_
    simp only [Function.comp_apply, decide_eq_true_eq, beq_iff_eq]
  rw [groupCounts, List.map_map]
  simp only [Function.comp_def, hcount]
  rw [List.sum_map_count_dedup_eq_length, List.length_map]

end Sql
end WebhookDelivery
