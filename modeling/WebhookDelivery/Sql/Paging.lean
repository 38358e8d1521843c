/-
`ORDER BY … LIMIT … OFFSET`, page by page.

Each page is a query of its own, and rows may come in between two of them, before
rows that have been read as well as after.  A row that comes in only raises the
ranks of the others.  So a row that has not been read has a rank of at least the
number of rows read, which is the offset of the next page.
-/
import WebhookDelivery.Sql.Select

namespace WebhookDelivery
namespace Sql

universe u v w

variable {ρ : Type u} {α : Type v} [LinearOrder α]

/-- `ORDER BY k LIMIT n OFFSET o`.  A negative offset is none. -/
def page (k : ρ → α) (n o : Int) (rows : List ρ) : List ρ :=
  limit n ((orderBy k (-1) rows).drop o.toNat)

/-- The number of rows before `x`. -/
def rank (k : ρ → α) (rows : List ρ) (x : ρ) : Nat := rows.countP fun y => k y < k x

section Rank

variable {k : ρ → α} {rows rows' : List ρ} {x : ρ}

theorem rank_lt_length (hx : x ∈ rows) : rank k rows x < rows.length := by
  refine Nat.lt_of_le_of_ne List.countP_le_length fun hall => ?_
  have hself := List.countP_eq_length.1 hall x hx
  simp at hself

theorem rank_mono (h : rows.Sublist rows') : rank k rows x ≤ rank k rows' x := h.countP_le

theorem rank_perm (h : rows.Perm rows') : rank k rows x = rank k rows' x := h.countP_eq _

/-- In a sorted list with distinct keys the rank is the position. -/
theorem rank_sorted {sorted : List ρ} (hsorted : sorted.Pairwise fun a b => k a ≤ k b)
    (hnd : (sorted.map k).Nodup) {i : Nat} (hi : i < sorted.length) :
    rank k sorted sorted[i] = i := by
  have hsplit : sorted = sorted.take i ++ sorted[i] :: sorted.drop (i + 1) := by
    rw [List.getElem_cons_drop, List.take_append_drop]
  have hpair := hsorted
  have hdistinct := hnd
  rw [hsplit] at hpair hdistinct
  rw [List.map_append, List.map_cons] at hdistinct
  obtain ⟨-, hright, hbefore⟩ := List.pairwise_append.1 hpair
  have hafter := (List.pairwise_cons.1 hright).1
  have hne := (List.nodup_append.1 hdistinct).2.2
  have hfirst : (sorted.take i).countP (fun y => k y < k sorted[i]) = (sorted.take i).length := by
    rw [List.countP_eq_length]
    intro y hy
    have hle := hbefore y hy sorted[i] List.mem_cons_self
    have hneq := hne (k y) (List.mem_map_of_mem hy) (k sorted[i]) List.mem_cons_self
    simpa using lt_of_le_of_ne hle hneq
  have hlast : (sorted.drop (i + 1)).countP (fun y => k y < k sorted[i]) = 0 := by
    rw [List.countP_eq_zero]
    intro y hy
    simpa using hafter y hy
  calc rank k sorted sorted[i]
      = (sorted.take i ++ sorted[i] :: sorted.drop (i + 1)).countP
          (fun y => k y < k sorted[i]) := by rw [← hsplit]; rfl
    _ = i := by
      rw [List.countP_append, hfirst, List.countP_cons, hlast, List.length_take]
      simp
      omega

theorem orderBy_all (k : ρ → α) (rows : List ρ) :
    (orderBy k (-1) rows).Perm rows ∧
      (orderBy k (-1) rows).Pairwise fun a b => k a ≤ k b := by
  have hord := orderBy_ordered k (-1) rows
  refine ⟨?_, hord.sorted⟩
  obtain ⟨sorted, hperm, -, heq⟩ := hord
  rw [heq]
  exact hperm

end Rank

/-! ## Pages -/

section Page

variable {σ : Type w} {k : ρ → α} {f : ρ → σ} {n : Int} {o : Nat} {rows rows' : List ρ}
  {seen : List σ} {x : ρ}

theorem page_subset (hx : x ∈ page k n o rows) : x ∈ rows :=
  (orderBy_all k rows).1.mem_iff.1 (List.mem_of_mem_drop ((limit_sublist n _).subset hx))

/-- The pages of rows whose order is known. -/
theorem page_eq {sorted : List ρ} (hperm : rows.Perm sorted)
    (hsorted : sorted.Pairwise fun a b => k a < k b) :
    page k n o rows = limit n (sorted.drop o) := by
  obtain ⟨hall, hle⟩ := orderBy_all k rows
  have hinj : ∀ a b, a ∈ sorted → b ∈ sorted → k a = k b → a = b := by
    intro a b ha hb heq
    refine List.inj_on_of_nodup_map (f := k) ?_ ha hb heq
    exact List.pairwise_map.2 (hsorted.imp fun h => ne_of_lt h)
  have heq : orderBy k (-1) rows = sorted := by
    refine (hall.trans hperm).eq_of_pairwise (fun a b ha hb hab hba => ?_) hle
      (hsorted.imp fun h => le_of_lt h)
    exact hinj a b ((hall.trans hperm).mem_iff.1 ha) hb (le_antisymm hab hba)
  rw [page, heq]
  rfl

/-- The page at `o` has the rows of the ranks from `o` on. -/
theorem mem_page (hnd : (rows.map k).Nodup) (hx : x ∈ rows) (hlow : o ≤ rank k rows x)
    (hhigh : (rank k rows x : Int) < o + n) : x ∈ page k n o rows := by
  obtain ⟨hperm, hsorted⟩ := orderBy_all k rows
  obtain ⟨i, hi, rfl⟩ := List.getElem_of_mem (hperm.mem_iff.2 hx)
  have hrank : rank k rows (orderBy k (-1) rows)[i] = i := by
    rw [← rank_perm hperm]
    exact rank_sorted hsorted ((hperm.map k).nodup_iff.2 hnd) hi
  rw [hrank] at hlow hhigh
  have hn : ¬n < 0 := by omega
  rw [page, limit, if_neg hn]
  refine List.mem_iff_getElem.2 ⟨i - o, ?_, ?_⟩
  · rw [List.length_take, List.length_drop]
    simp only [Int.toNat_natCast]
    omega
  · rw [List.getElem_take, List.getElem_drop]
    congr 1
    simp only [Int.toNat_natCast]
    omega

theorem length_page (hn : 0 ≤ n) :
    (page k n o rows).length = min n.toNat (rows.length - o) := by
  have hlen := (orderBy_all k rows).1.length_eq
  rw [page, limit, if_neg (by omega), List.length_take, List.length_drop, hlen]
  simp

/-- The reader, whom the pages show `f` of their rows, has been shown `x`, or will
be by the pages to come. -/
def Covered (k : ρ → α) (f : ρ → σ) (rows : List ρ) (o : Nat) (seen : List σ) (x : ρ) : Prop :=
  f x ∈ seen ∨ o ≤ rank k rows x

/-- Rows that come in take no row out of the pages to come. -/
theorem Covered.grow (h : Covered k f rows o seen x) (hsub : rows.Sublist rows') :
    Covered k f rows' o seen x := by
  rcases h with hseen | hrank
  · exact .inl hseen
  · exact .inr (Nat.le_trans hrank (rank_mono hsub))

/-- The next page advances the offset by what it returns. -/
theorem Covered.turn (h : Covered k f rows o seen x) (hnd : (rows.map k).Nodup) (hx : x ∈ rows)
    (hn : 0 ≤ n) :
    Covered k f rows (o + (page k n o rows).length) (seen ++ (page k n o rows).map f) x := by
  rcases h with hseen | hrank
  · exact .inl (List.mem_append_left _ hseen)
  · by_cases hhigh : (rank k rows x : Int) < o + n
    · exact .inl (List.mem_append_right _ (List.mem_map_of_mem (mem_page hnd hx hrank hhigh)))
    · refine .inr ?_
      rw [length_page hn]
      omega

/-- An empty page comes after the last row. -/
theorem Covered.done (h : Covered k f rows o seen x) (hx : x ∈ rows) (hn : 0 < n)
    (hempty : page k n o rows = []) : f x ∈ seen := by
  rcases h with hseen | hrank
  · exact hseen
  · have hlen : (page k n o rows).length = _ := length_page (Int.le_of_lt hn)
    have hlt := rank_lt_length (k := k) hx
    rw [hempty, List.length_nil] at hlen
    omega

end Page

end Sql
end WebhookDelivery
