/-
Tables with a primary key.

A table is its list of rows together with the proof that no two rows share a
key, so a table that breaks the `PRIMARY KEY` constraint cannot be built.
`insert` fails on a clash, and `update` takes the proof that its assignments
leave the key alone.  Everything else reads a table through `get?`, the row of
a key, and the lemmas below say what each statement does to it.
-/
import Mathlib.Data.List.Nodup
import Mathlib.Data.List.Perm.Subperm

namespace WebhookDelivery
namespace Sql

universe u v

/-- Rows with a primary key. -/
class Keyed (ρ : Type u) (κ : outParam (Type v)) where
  key : ρ → κ

export Keyed (key)

/-- A table: its rows, in the order the file holds them, under distinct keys. -/
structure Table (ρ : Type u) {κ : Type v} [Keyed ρ κ] where
  rows : List ρ
  nodup : (rows.map key).Nodup

namespace Table

variable {ρ : Type u} {κ : Type v} [Keyed ρ κ]

def empty : Table ρ := { rows := [], nodup := List.nodup_nil }

/-- `SELECT … WHERE p`, in no particular order. -/
def select (t : Table ρ) (p : ρ → Bool) : List ρ := t.rows.filter p

/-- The number of rows an `UPDATE … WHERE p` reports. -/
def affected (t : Table ρ) (p : ρ → Bool) : Nat := t.rows.countP p

/-- `UPDATE … SET f WHERE p`.  No statement modelled here assigns the key. -/
def update (t : Table ρ) (p : ρ → Bool) (f : ρ → ρ)
    (hf : ∀ r, key (f r) = key r := by intro r; rfl) : Table ρ where
  rows := t.rows.map fun r => if p r then f r else r
  nodup := by
    have hkey : (key ∘ fun r => if p r then f r else r) = (key : ρ → κ) := by
      funext r
      by_cases hp : p r = true <;> simp [hp, hf]
    rw [List.map_map, hkey]
    exact t.nodup

/-- `DELETE FROM … WHERE p`. -/
def delete (t : Table ρ) (p : ρ → Bool) : Table ρ where
  rows := t.rows.filter fun r => !p r
  nodup := t.nodup.sublist (List.filter_sublist.map key)

variable [DecidableEq κ]

/-- The row with the key `k`. -/
def get? (t : Table ρ) (k : κ) : Option ρ := t.rows.find? fun r => key r = k

/-- `INSERT`: `none` is the constraint violation of a key that is taken. -/
def insert? (t : Table ρ) (r : ρ) : Option (Table ρ) :=
  if h : ∀ x ∈ t.rows, key x ≠ key r then
    some
      { rows := t.rows ++ [r]
        nodup := by
          rw [List.map_append, List.nodup_append]
          refine ⟨t.nodup, List.nodup_singleton _, ?_⟩
          intro a ha b hb
          obtain ⟨x, hx, rfl⟩ := List.mem_map.1 ha
          rw [List.map_singleton, List.mem_singleton] at hb
          exact hb ▸ h x hx }
  else none

/-! ## Reading by key -/

theorem key_of_get? {t : Table ρ} {k : κ} {r : ρ} (h : t.get? k = some r) : key r = k := by
  simpa using List.find?_some h

theorem mem_of_get? {t : Table ρ} {k : κ} {r : ρ} (h : t.get? k = some r) : r ∈ t.rows :=
  List.mem_of_find?_eq_some h

theorem get?_of_mem {t : Table ρ} {r : ρ} (h : r ∈ t.rows) : t.get? (key r) = some r := by
  cases hg : t.get? (key r) with
  | none =>
    have hne := List.find?_eq_none.1 hg r h
    simp at hne
  | some x =>
    have hk := key_of_get? hg
    rw [List.inj_on_of_nodup_map t.nodup (mem_of_get? hg) h hk]

theorem get?_eq_some_iff {t : Table ρ} {k : κ} {r : ρ} :
    t.get? k = some r ↔ r ∈ t.rows ∧ key r = k :=
  ⟨fun h => ⟨mem_of_get? h, key_of_get? h⟩, fun h => h.2 ▸ get?_of_mem h.1⟩

theorem get?_eq_none_iff {t : Table ρ} {k : κ} :
    t.get? k = none ↔ ∀ r ∈ t.rows, key r ≠ k := by
  simp [get?, List.find?_eq_none]

/-! ## UPDATE -/

/-- An update changes the row of a key in place, if the row matches. -/
theorem get?_update (t : Table ρ) (p : ρ → Bool) (f : ρ → ρ) (hf : ∀ r, key (f r) = key r)
    (k : κ) :
    (t.update p f hf).get? k = (t.get? k).map fun r => if p r then f r else r := by
  have hkey : ∀ r, key (if p r then f r else r) = key r := by
    intro r
    by_cases hp : p r = true <;> simp [hp, hf]
  cases hg : t.get? k with
  | none =>
    rw [Option.map_none, get?_eq_none_iff]
    intro r' hr'
    obtain ⟨r, hr, rfl⟩ := List.mem_map.1 hr'
    rw [hkey]
    exact get?_eq_none_iff.1 hg r hr
  | some r =>
    rw [Option.map_some, get?_eq_some_iff, hkey]
    exact ⟨List.mem_map_of_mem (mem_of_get? hg), key_of_get? hg⟩

/-- A row the condition does not pick stays. -/
theorem get?_update_of_not {t : Table ρ} {p : ρ → Bool} {f : ρ → ρ}
    {hf : ∀ r, key (f r) = key r} {k : κ} (h : ∀ r, t.get? k = some r → p r = false) :
    (t.update p f hf).get? k = t.get? k := by
  rw [get?_update]
  cases hg : t.get? k with
  | none => rfl
  | some r => simp [h r hg]

/-- A row the condition picks is assigned. -/
theorem get?_update_of {t : Table ρ} {p : ρ → Bool} {f : ρ → ρ}
    {hf : ∀ r, key (f r) = key r} {k : κ} {r : ρ} (hg : t.get? k = some r) (hp : p r = true) :
    (t.update p f hf).get? k = some (f r) := by
  rw [get?_update, hg, Option.map_some, if_pos hp]

/-- `UPDATE … WHERE key = k AND q` touches the row of `k` and no other. -/
theorem get?_update_key (t : Table ρ) (k : κ) (q : ρ → Bool) (f : ρ → ρ)
    (hf : ∀ r, key (f r) = key r) (k' : κ) :
    (t.update (fun r => decide (key r = k) && q r) f hf).get? k' =
      if k' = k then (t.get? k).map (fun r => if q r then f r else r) else t.get? k' := by
  by_cases hk : k' = k
  · subst hk
    rw [if_pos rfl, get?_update]
    cases hg : t.get? k' with
    | none => rfl
    | some r => simp [key_of_get? hg]
  · rw [if_neg hk]
    refine get?_update_of_not fun r hr => ?_
    simp [key_of_get? hr, hk]

/-- `UPDATE … WHERE key = k` assigns the row of `k` and no other. -/
theorem get?_update_at (t : Table ρ) (k : κ) (f : ρ → ρ) (hf : ∀ r, key (f r) = key r) (k' : κ) :
    (t.update (fun r => decide (key r = k)) f hf).get? k' =
      if k' = k then (t.get? k).map f else t.get? k' := by
  simpa using get?_update_key t k (fun _ => true) f hf k'

theorem get?_update_none {t : Table ρ} {p : ρ → Bool} {f : ρ → ρ}
    {hf : ∀ r, key (f r) = key r} {k : κ} :
    (t.update p f hf).get? k = none ↔ t.get? k = none := by
  rw [get?_update, Option.map_eq_none_iff]

/-! ## INSERT -/

theorem insert?_eq_some_iff {t : Table ρ} {r : ρ} :
    (∃ t', t.insert? r = some t') ↔ t.get? (key r) = none := by
  rw [get?_eq_none_iff]
  unfold insert?
  split
  · rename_i h
    exact ⟨fun _ => h, fun _ => ⟨_, rfl⟩⟩
  · rename_i h
    simp [h]

theorem insert?_eq_none_iff {t : Table ρ} {r : ρ} :
    t.insert? r = none ↔ (t.get? (key r)).isSome := by
  rw [← Option.not_isSome_iff_eq_none, Option.isSome_iff_exists, insert?_eq_some_iff]
  exact Option.isSome_iff_ne_none.symm

theorem get?_of_insert? {t t' : Table ρ} {r : ρ} (h : t.insert? r = some t') :
    t.get? (key r) = none :=
  insert?_eq_some_iff.1 ⟨t', h⟩

theorem rows_of_insert? {t t' : Table ρ} {r : ρ} (h : t.insert? r = some t') :
    t'.rows = t.rows ++ [r] := by
  unfold insert? at h
  split at h
  · cases h
    rfl
  · cases h

theorem get?_insert? {t t' : Table ρ} {r : ρ} (h : t.insert? r = some t') (k : κ) :
    t'.get? k = if key r = k then some r else t.get? k := by
  have hrows := rows_of_insert? h
  have hnone := get?_of_insert? h
  by_cases hk : key r = k
  · rw [if_pos hk, get?_eq_some_iff, hrows]
    exact ⟨List.mem_append_right _ (List.mem_singleton_self r), hk⟩
  · rw [if_neg hk]
    simp only [get?, hrows, List.find?_append]
    simp [hk]

/-- An insert leaves the rows that are there. -/
theorem get?_insert?_of_some {t t' : Table ρ} {r x : ρ} {k : κ} (h : t.insert? r = some t')
    (hx : t.get? k = some x) : t'.get? k = some x := by
  have hne : ¬key r = k := by
    intro e
    have hnone := get?_of_insert? h
    rw [e, hx] at hnone
    cases hnone
  rw [get?_insert? h, if_neg hne, hx]

/-! ## DELETE -/

/-- `DELETE … WHERE key = k` takes the row of `k` and no other. -/
theorem get?_delete_at (t : Table ρ) (k k' : κ) :
    (t.delete fun r => decide (key r = k)).get? k' = if k' = k then none else t.get? k' := by
  by_cases hk : k' = k
  · rw [if_pos hk, get?_eq_none_iff]
    intro r hr
    have hne := (List.mem_filter.1 hr).2
    subst hk
    simpa using hne
  · rw [if_neg hk]
    cases hg : t.get? k' with
    | none =>
      rw [get?_eq_none_iff]
      intro r hr
      exact get?_eq_none_iff.1 hg r (List.mem_filter.1 hr).1
    | some r =>
      have hkey := key_of_get? hg
      rw [get?_eq_some_iff]
      refine ⟨List.mem_filter.2 ⟨mem_of_get? hg, ?_⟩, hkey⟩
      simpa [hkey] using hk

/-! ## Counting -/

/-- A statement that names one key affects at most one row: it reports a row
exactly when the row of that key is there and matches. -/
theorem affected_key (t : Table ρ) (k : κ) (q : ρ → Bool) :
    t.affected (fun r => decide (key r = k) && q r) =
      if (t.get? k).any q then 1 else 0 := by
  have hcount : ∀ rows : List ρ, (rows.map key).Nodup →
      rows.countP (fun r => decide (key r = k) && q r) =
        if (rows.find? fun r => key r = k).any q then 1 else 0 := by
    intro rows
    induction rows with
    | nil => intro _; rfl
    | cons r rows ih =>
      intro hnd
      rw [List.map_cons, List.nodup_cons] at hnd
      rw [List.countP_cons, List.find?_cons, ih hnd.2]
      by_cases hk : key r = k
      · have hrest : rows.find? (fun x => key x = k) = none := by
          rw [List.find?_eq_none]
          intro x hx
          have hne : key x ≠ k := fun e => hnd.1 (List.mem_map.2 ⟨x, hx, by rw [e, hk]⟩)
          simpa using hne
        simp [hk, hrest]
      · simp [hk]
  exact hcount t.rows t.nodup

/-- A `DELETE` of one key takes one row if it is there. -/
theorem length_delete_at (t : Table ρ) (k : κ) :
    (t.delete fun r => decide (key r = k)).rows.length + (if (t.get? k).isSome then 1 else 0) =
      t.rows.length := by
  have hcount := affected_key t k fun _ => true
  simp only [Bool.and_true, Option.any_true, affected] at hcount
  have hsplit : t.rows.length = t.rows.countP (fun r => decide (key r = k)) +
      t.rows.countP fun r => !decide (key r = k) := by
    simpa using List.length_eq_countP_add_countP fun r : ρ => decide (key r = k)
  show (t.rows.filter fun r => !decide (key r = k)).length + _ = _
  rw [← List.countP_eq_length_filter, ← hcount, hsplit, Nat.add_comm]

omit [DecidableEq κ] in
/-- The rows that match after a change, beside the keys of rows that matched before and
do no longer. -/
theorem length_select_add {t t' : Table ρ} {p : ρ → Bool} {gone : List κ} (hnodup : gone.Nodup)
    (hgone : ∀ k ∈ gone, ∃ x ∈ t.select p, key x = k)
    (hkept : ∀ x ∈ t'.select p, (∃ y ∈ t.select p, key y = key x) ∧ key x ∉ gone) :
    (t'.select p).length + gone.length ≤ (t.select p).length := by
  have hleft : ((t'.select p).map key).Nodup := t'.nodup.sublist (List.filter_sublist.map _)
  have hnd : (gone ++ (t'.select p).map key).Nodup := by
    refine List.nodup_append.2 ⟨hnodup, hleft, fun k hk k' hk' => ?_⟩
    obtain ⟨x, hx, rfl⟩ := List.mem_map.1 hk'
    rintro rfl
    exact (hkept x hx).2 hk
  have hsub : gone ++ (t'.select p).map key ⊆ (t.select p).map key := by
    intro k hk
    rcases List.mem_append.1 hk with hk | hk
    · obtain ⟨x, hx, rfl⟩ := hgone k hk
      exact List.mem_map_of_mem hx
    · obtain ⟨x, hx, rfl⟩ := List.mem_map.1 hk
      obtain ⟨y, hy, hyx⟩ := (hkept x hx).1
      exact hyx ▸ List.mem_map_of_mem hy
  have hlen := (hnd.subperm hsub).length_le
  simp only [List.length_append, List.length_map] at hlen
  omega

end Table
end Sql
end WebhookDelivery
