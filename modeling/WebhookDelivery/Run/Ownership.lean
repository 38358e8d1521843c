/-
Exclusive ownership.

`holds w` lists the keys the owner `w` holds.  Ownership is exclusive when no
owner lists a key twice and no two owners list the same one.
-/
import Mathlib.Data.List.Nodup

namespace WebhookDelivery
namespace Run

universe u v

variable {ω : Type u} {κ : Type v}

/-- No key is held twice, by one owner or by two. -/
structure Exclusive (holds : ω → List κ) : Prop where
  nodup : ∀ w, (holds w).Nodup
  unique : ∀ w w' k, k ∈ holds w → k ∈ holds w' → w = w'

theorem Exclusive.none {holds : ω → List κ} (h : ∀ w, holds w = []) : Exclusive holds where
  nodup w := by rw [h w]; exact List.nodup_nil
  unique w _ k hk _ := by rw [h w] at hk; exact absurd hk List.not_mem_nil

/-- Owners may let go of keys. -/
theorem Exclusive.release {holds holds' : ω → List κ} (h : Exclusive holds)
    (hsub : ∀ w, (holds' w).Sublist (holds w)) : Exclusive holds' where
  nodup w := (h.nodup w).sublist (hsub w)
  unique w w' k hk hk' := h.unique w w' k ((hsub w).subset hk) ((hsub w').subset hk')

/-- One owner may take keys that nobody holds. -/
theorem Exclusive.acquire {holds holds' : ω → List κ} (h : Exclusive holds) (w : ω)
    (hother : ∀ v, v ≠ w → holds' v = holds v) (hnd : (holds' w).Nodup)
    (hfree : ∀ k, k ∈ holds' w → ∀ v, v ≠ w → k ∉ holds v) : Exclusive holds' where
  nodup v := by
    by_cases hv : v = w
    · rw [hv]; exact hnd
    · rw [hother v hv]; exact h.nodup v
  unique v v' k hk hk' := by
    by_cases hv : v = w
    · by_cases hv' : v' = w
      · rw [hv, hv']
      · rw [hother v' hv'] at hk'
        exact absurd hk' (hfree k (hv ▸ hk) v' hv')
    · rw [hother v hv] at hk
      by_cases hv' : v' = w
      · exact absurd hk (hfree k (hv' ▸ hk') v hv)
      · rw [hother v' hv'] at hk'
        exact h.unique v v' k hk hk'

end Run
end WebhookDelivery
