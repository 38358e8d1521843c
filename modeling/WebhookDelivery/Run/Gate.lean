/-
Systems behind a gate.

Some steps of a system are asked for from outside, and a gate lets a request through or
turns it away, by what the request shows and by the setting in force.  A request that is
turned away does nothing.  So what the gate lets through is a run of the system, and
behind each asked step of it there is a request that was let through.
-/
import WebhookDelivery.Run.System

namespace WebhookDelivery
namespace Run

universe u v w z

variable {σ : Type u} {ℓ : Type v} {κ : Type w} {α : Type z}

/-- What happens at the gate, or behind it. -/
inductive Visit (κ : Type w) (α : Type z) (ℓ : Type v)
  | own (l : ℓ)
  | passed (shown : κ) (l : ℓ)
  | turnedAway (shown : κ)
  | configured (setting : α)

/-- The step of the system behind a visit. -/
def Visit.label : Visit κ α ℓ → Option ℓ
  | .own l | .passed _ l => some l
  | .turnedAway _ | .configured _ => none

theorem filterMap_own (h₁ : List (Visit κ α ℓ)) (l : ℓ) (h₀ : List (Visit κ α ℓ)) :
    (h₁ ++ .own l :: h₀).filterMap Visit.label =
      h₁.filterMap Visit.label ++ l :: h₀.filterMap Visit.label := by
  rw [List.filterMap_append, List.filterMap_cons_some (rfl : Visit.label (.own l) = some l)]

/-- `asked` are the steps that need a request. -/
inductive GateStep (S : System σ ℓ) (asked : ℓ → Prop) (admits : α → κ → Bool) :
    σ × α → Visit κ α ℓ → σ × α → Prop
  | own (s t : σ) (a : α) (l : ℓ) :
      ¬asked l → S.step s l t → GateStep S asked admits (s, a) (.own l) (t, a)
  | passed (s t : σ) (a : α) (shown : κ) (l : ℓ) :
      admits a shown = true → asked l → S.step s l t →
      GateStep S asked admits (s, a) (.passed shown l) (t, a)
  | turnedAway (s : σ) (a : α) (shown : κ) :
      admits a shown = false → GateStep S asked admits (s, a) (.turnedAway shown) (s, a)
  | configured (s : σ) (a b : α) : GateStep S asked admits (s, a) (.configured b) (s, b)

namespace System

variable (S : System σ ℓ) (asked : ℓ → Prop) (admits : α → κ → Bool)

def gated : System (σ × α) (Visit κ α ℓ) where
  init x := S.init x.1
  step := GateStep S asked admits

/-- The step `l` of the history was asked for by a request that the setting then in force
admits. -/
def AskedFor (h : List (Visit κ α ℓ)) (l : ℓ) : Prop :=
  ∃ h₁ shown h₀ x, h = h₁ ++ .passed shown l :: h₀ ∧ (S.gated asked admits).Reaches h₀ x ∧
    admits x.2 shown = true

variable {S asked admits}

/-- What the gate lets through is a run of the system. -/
theorem Reaches.of_gated {h : List (Visit κ α ℓ)} {x : σ × α}
    (hx : (S.gated asked admits).Reaches h x) : S.Reaches (h.filterMap Visit.label) x.1 := by
  induction hx with
  | init hinit => exact .init hinit
  | step _ hst ih =>
    cases hst with
    | own | passed => exact ih.step (by assumption)
    | turnedAway | configured => exact ih

/-- An asked step of the run has its request. -/
theorem Reaches.askedFor {h : List (Visit κ α ℓ)} {x : σ × α}
    (hx : (S.gated asked admits).Reaches h x) {l : ℓ} (hl : l ∈ h.filterMap Visit.label)
    (hask : asked l) : S.AskedFor asked admits h l := by
  obtain ⟨v, hv, hlabel⟩ := List.mem_filterMap.1 hl
  obtain ⟨h₀, x₀, x₁, h₁, rfl, hx₀, hst, -⟩ := hx.takes hv
  cases hst with
  | own s t a l' hno hst =>
    obtain rfl : l' = l := Option.some.inj hlabel
    exact absurd hask hno
  | passed s t a shown l' hadm hask' hst =>
    obtain rfl : l' = l := Option.some.inj hlabel
    exact ⟨h₁, shown, h₀, (s, a), rfl, hx₀, hadm⟩
  | turnedAway | configured => cases hlabel

end System
end Run
end WebhookDelivery
