/-
Counters that lag behind what they count.

A party notes what it has to count, and counts it later, one counter at a time, by an
addition that wraps.  It may also forget a note.  What has been counted, what is still
owed and what is forgotten make up what was noted, up to the wrap.
-/
import Mathlib.Algebra.BigOperators.Group.Finset.Basic
import Mathlib.Data.Fintype.Basic
import Mathlib.Data.Nat.ModEq
import WebhookDelivery.Run.System

namespace WebhookDelivery
namespace Run

universe u v w

/-- A sum over parties of which one changes. -/
theorem sum_update_add {π : Type u} {β : Type v} [Fintype π] [DecidableEq π] (g : β → Nat)
    (f : π → β) (p : π) (b : β) :
    (∑ q, g (Function.update f p b q)) + g (f p) = (∑ q, g (f q)) + g b := by
  have hold := Finset.add_sum_erase Finset.univ (fun q => g (f q)) (Finset.mem_univ p)
  have hnew := Finset.add_sum_erase Finset.univ (fun q => g (Function.update f p b q))
    (Finset.mem_univ p)
  have hrest : ∑ q ∈ Finset.univ.erase p, g (Function.update f p b q) =
      ∑ q ∈ Finset.univ.erase p, g (f q) :=
    Finset.sum_congr rfl fun q hq => by rw [Function.update_of_ne (Finset.ne_of_mem_erase hq)]
  simp only [Function.update_self] at hnew
  omega

/-- The counters, and for each party the counters it has still to raise, in order. -/
structure Meter (π : Type u) (κ : Type v) where
  value : κ → Nat
  due : π → List κ

namespace Meter

variable {π : Type u} {κ : Type v}

inductive Event (π : Type u) (κ : Type v)
  | note (p : π) (cs : List κ)
  | inc (p : π) (c : κ)
  | forget (p : π) (c : κ)

def Event.notes : Event π κ → List κ
  | .note _ cs => cs
  | _ => []

def Event.forgets : Event π κ → List κ
  | .forget _ c => [c]
  | _ => []

def zero : Meter π κ := { value := fun _ => 0, due := fun _ => [] }

variable [DecidableEq π] [DecidableEq κ]

inductive Step (size : Nat) : Meter π κ → Event π κ → Meter π κ → Prop
  | note (m : Meter π κ) (p : π) (cs : List κ) :
      Step size m (.note p cs) { m with due := Function.update m.due p (m.due p ++ cs) }
  | inc (m : Meter π κ) (p : π) (c : κ) (cs : List κ) :
      m.due p = c :: cs →
      Step size m (.inc p c)
        { value := Function.update m.value c ((m.value c + 1) % size)
          due := Function.update m.due p cs }
  | forget (m : Meter π κ) (p : π) (c : κ) (cs : List κ) :
      m.due p = c :: cs →
      Step size m (.forget p c) { m with due := Function.update m.due p cs }

/-- Counters that wrap at `size`. -/
def system (size : Nat) : System (Meter π κ) (Event π κ) where
  init m := m = zero
  step := Step size

variable [Fintype π]

/-- How often the parties have still to raise a counter. -/
def owed (m : Meter π κ) (c : κ) : Nat := ∑ p, (m.due p).count c

omit [DecidableEq π] in
theorem owed_zero (c : κ) : (zero : Meter π κ).owed c = 0 :=
  Finset.sum_eq_zero fun _ _ => rfl

theorem owed_update (m : Meter π κ) (value : κ → Nat) (p : π) (cs : List κ) (c : κ) :
    owed { value := value, due := Function.update m.due p cs } c + (m.due p).count c =
      m.owed c + cs.count c :=
  sum_update_add (List.count c) m.due p cs

/-- What a step adds to the counted and the owed. -/
theorem Step.balance {size : Nat} {m m' : Meter π κ} {e : Event π κ} (hst : Step size m e m')
    (c : κ) :
    m'.value c + m'.owed c + e.forgets.count c ≡
      m.value c + m.owed c + e.notes.count c [MOD size] := by
  cases hst with
  | note p cs =>
    have hsum := owed_update m m.value p (m.due p ++ cs) c
    rw [List.count_append] at hsum
    have hnew : owed { value := m.value, due := Function.update m.due p (m.due p ++ cs) } c =
        m.owed c + cs.count c := by omega
    show m.value c + owed { value := m.value, due := _ } c + 0 ≡ _ [MOD size]
    rw [hnew]
    show m.value c + (m.owed c + cs.count c) + 0 ≡ m.value c + m.owed c + cs.count c [MOD size]
    rw [Nat.add_zero, Nat.add_assoc]
  | inc p d cs hdue =>
    have hsum := owed_update m (Function.update m.value d ((m.value d + 1) % size)) p cs c
    rw [hdue, List.count_cons] at hsum
    by_cases hc : d = c
    · subst hc
      have hsum : owed { value := Function.update m.value d ((m.value d + 1) % size)
                         due := Function.update m.due p cs } d + 1 = m.owed d := by
        simp only [BEq.rfl, if_true] at hsum
        omega
      show Function.update m.value d ((m.value d + 1) % size) d + owed _ d + 0 ≡
        m.value d + m.owed d + 0 [MOD size]
      rw [Function.update_self, ← hsum, Nat.add_zero, Nat.add_zero,
        Nat.add_comm (owed _ d) 1, ← Nat.add_assoc]
      exact (Nat.mod_modEq _ _).add_right _
    · have hsum : owed { value := Function.update m.value d ((m.value d + 1) % size)
                         due := Function.update m.due p cs } c = m.owed c := by
        simp only [beq_iff_eq, hc, if_false] at hsum
        omega
      show Function.update m.value d ((m.value d + 1) % size) c + owed _ c + 0 ≡
        m.value c + m.owed c + 0 [MOD size]
      rw [Function.update_of_ne (Ne.symm hc), hsum]
  | forget p d cs hdue =>
    have hsum := owed_update m m.value p cs c
    rw [hdue, List.count_cons] at hsum
    show m.value c + owed { value := m.value, due := _ } c + List.count c [d] ≡
      m.value c + m.owed c + 0 [MOD size]
    rw [List.count_singleton, Nat.add_assoc, Nat.add_zero]
    have hnew : owed { value := m.value, due := Function.update m.due p cs } c +
        (if d == c then 1 else 0) = m.owed c := by omega
    rw [hnew]

/-- What a run adds to them. -/
theorem balance {size : Nat} {m₀ m : Meter π κ} {h : List (Event π κ)}
    (hpath : (system size).Path m₀ h m) (c : κ) :
    m.value c + m.owed c + (h.flatMap Event.forgets).count c ≡
      m₀.value c + m₀.owed c + (h.flatMap Event.notes).count c [MOD size] := by
  induction hpath with
  | nil => rfl
  | @cons h t e u hpath hst ih =>
    rw [List.flatMap_cons, List.flatMap_cons, List.count_append, List.count_append]
    calc u.value c + u.owed c + (e.forgets.count c + (h.flatMap Event.forgets).count c)
      _ = u.value c + u.owed c + e.forgets.count c + (h.flatMap Event.forgets).count c := by omega
      _ ≡ t.value c + t.owed c + e.notes.count c + (h.flatMap Event.forgets).count c
          [MOD size] := (Step.balance hst c).add_right _
      _ = t.value c + t.owed c + (h.flatMap Event.forgets).count c + e.notes.count c := by omega
      _ ≡ m₀.value c + m₀.owed c + (h.flatMap Event.notes).count c + e.notes.count c
          [MOD size] := ih.add_right _
      _ = m₀.value c + m₀.owed c + (e.notes.count c + (h.flatMap Event.notes).count c) := by
        omega

end Meter

end Run
end WebhookDelivery
