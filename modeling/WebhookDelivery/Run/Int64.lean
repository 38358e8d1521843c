/-
Arithmetic of 64-bit signed integers, on `Int`.

A program built for release wraps where a sum or a product leaves the 64 bits.  The
operations are those of `Int` with `wrapI64` around them, and a result that fits is
the exact one.
-/
import Mathlib.Algebra.Group.Int.Defs
import Mathlib.Algebra.Group.Nat.Defs
import Mathlib.Data.Int.Order.Basic

namespace WebhookDelivery
namespace Run

def FitsI64 (n : Int) : Prop := -2 ^ 63 ≤ n ∧ n < 2 ^ 63

/-- The 64-bit signed integer with the low bits of `n`. -/
def wrapI64 (n : Int) : Int := n.bmod (2 ^ 64)

theorem wrapI64_of_fits {n : Int} (h : FitsI64 n) : wrapI64 n = n := by
  obtain ⟨hlow, hhigh⟩ := h
  exact Int.bmod_eq_of_le (by omega) (by omega)

/-- What is past the last integer by less than the whole range comes out negative. -/
theorem wrapI64_of_ge {n : Int} (h : 2 ^ 63 ≤ n) (hlt : n < 2 ^ 64) :
    wrapI64 n = n - 2 ^ 64 := by
  have hcast : (n - (2 ^ 64 : Nat)).bmod (2 ^ 64) = wrapI64 n := Int.sub_bmod_right _ _
  rw [← hcast, Int.bmod_eq_of_le (by omega) (by omega)]
  rfl

end Run
end WebhookDelivery
