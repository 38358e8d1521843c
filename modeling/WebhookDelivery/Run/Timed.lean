/-
Runs with a clock.

A timed run of a system gives each step the time at which it happens, and the
times never decrease.  A step may carry a reading of the clock, which was taken
before it and so shows no later time than the step has.
-/
import Mathlib.Data.Int.Order.Basic
import WebhookDelivery.Run.System

namespace WebhookDelivery
namespace Run

universe u v

variable {σ : Type u} {ℓ : Type v}

/-- The states of `S` with the time of the last step, and its labels with their
times.  `reads` is the clock reading a label shows. -/
def System.timed (S : System σ ℓ) (reads : ℓ → Option Int) : System (σ × Int) (Int × ℓ) where
  init p := S.init p.1
  step p l q := p.2 ≤ l.1 ∧ q.2 = l.1 ∧ (∀ now, reads l.2 = some now → now ≤ l.1) ∧
    S.step p.1 l.2 q.1

namespace System

variable {S : System σ ℓ} {reads : ℓ → Option Int}

/-- Time does not go back along a run. -/
theorem Path.clock_le {p q : σ × Int} {h : List (Int × ℓ)}
    (hpq : (S.timed reads).Path p h q) : p.2 ≤ q.2 := by
  induction hpq with
  | nil => exact Int.le_refl p.2
  | cons _ hstep ih =>
    obtain ⟨hle, htime, -, -⟩ := hstep
    omega

end System

end Run
end WebhookDelivery
