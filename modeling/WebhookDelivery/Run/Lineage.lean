/-
Moving records by copying them and deleting the original.

Without a transaction a move is two steps: a copy is made, and later its
original is removed.  What is stored first is then found again not in its own
place but in some copy of a copy of it.  `Carried` says that it is found, and
the two rules are the two steps: a copy adds an edge, and a place may be dropped
once something copied from it is still there.
-/
import Mathlib.Logic.Relation

namespace WebhookDelivery
namespace Run

universe u

variable {α : Type u}

/-- `b` is `a` or has been copied from it, in one or more steps. -/
def Descends (copies : List (α × α)) : α → α → Prop :=
  Relation.ReflTransGen fun a b => (a, b) ∈ copies

/-- Some descendant of `a` is live. -/
def Carried (copies : List (α × α)) (live : α → Prop) (a : α) : Prop :=
  ∃ b, Descends copies a b ∧ live b

namespace Carried

variable {copies copies' : List (α × α)} {live live' : α → Prop} {a : α}

theorem self (h : live a) : Carried copies live a :=
  ⟨a, Relation.ReflTransGen.refl, h⟩

/-- Further copies and further live places lose nothing. -/
theorem mono (h : Carried copies live a) (hcopies : ∀ e ∈ copies, e ∈ copies')
    (hlive : ∀ b, live b → live' b) : Carried copies' live' a := by
  obtain ⟨b, hab, hb⟩ := h
  exact ⟨b, Relation.ReflTransGen.mono (fun _ _ he => hcopies _ he) _ _ hab, hlive b hb⟩

/-- A place may be dropped when a copy of it is live. -/
theorem drop (h : Carried copies live a) {x y : α} (hcopy : (x, y) ∈ copies) (hy : live x → live' y)
    (hlive : ∀ b, b ≠ x → live b → live' b) : Carried copies live' a := by
  obtain ⟨b, hab, hb⟩ := h
  by_cases hbx : b = x
  · subst hbx
    exact ⟨y, hab.tail hcopy, hy hb⟩
  · exact ⟨b, hab, hlive b hbx hb⟩

end Carried

end Run
end WebhookDelivery
