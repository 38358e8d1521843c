/-
Why a delivery is dead-lettered.

`process` has one branch for every error of `validate`, and a name that does not
resolve is one of them.  So a failed lookup is final there, while the same
failure in the client is a retryable attempt.  The other reasons are final ones.
-/
import WebhookDelivery.Q.Checked

namespace WebhookDelivery
namespace Q

open Sql Run

variable {ω : Type}

/-- `w` has sent the delivery, as its `n`-th attempt. -/
def Attempted (h : List (Event ω)) (w : ω) (d : Delivery) (n : Nat) (resp : Response) : Prop :=
  ∃ e ∈ h, e.label = .send w d n resp.outcome

/-- The check of a delivery fails for want of an address. -/
def LookupFails (env : Env) (e : Event ω) (d : Delivery) : Prop :=
  ∃ url, env.parseUrl d.destination = some url ∧ Unresolved e.policy url e.dns

/-- What a worker holds as the outcome of a send is that of a response. -/
def Answered (h : List (Event ω)) (s : State ω) : Prop :=
  ∀ w d out rest, s.pc w = .sent d out rest →
    ∃ resp, out = resp.outcome ∧ Attempted h w d (d.attempts + 1) resp

theorem Attempted.cons {h : List (Event ω)} {w : ω} {d : Delivery} {n : Nat} {resp : Response}
    (ha : Attempted h w d n resp) (e : Event ω) : Attempted (e :: h) w d n resp := by
  obtain ⟨e', he', hl⟩ := ha
  exact ⟨e', List.mem_cons_of_mem e he', hl⟩

variable [DecidableEq ω]

theorem Answered.step {env : Env} {h : List (Event ω)} {s t : Checked ω} {e : Event ω}
    (hs : Answered h s.service) (hst : (checked ω env).step s e t) :
    Answered (e :: h) t.service := by
  intro w d out rest hpc
  rcases hst.1.sent hpc with hpc | hl
  · obtain ⟨resp, hout, ha⟩ := hs w d out rest hpc
    exact ⟨resp, hout, ha.cons e⟩
  · obtain ⟨-, resp, hout⟩ := (hl ▸ hst.1).claimed
    exact ⟨resp, hout, e, List.mem_cons_self, hout ▸ hl⟩

theorem answered {env : Env} {C : Checked ω → Event ω → Prop} {h : List (Event ω)}
    {s : Checked ω} (hs : ((checked ω env).restrict C).Reaches h s) : Answered h s.service := by
  apply hs.invariant (I := fun h s => Answered h s.service)
  · rintro s ⟨⟨-, hdown⟩, -⟩ w d out rest hpc
    rw [hdown w] at hpc
    cases hpc
  · intro h s e t _ hI hst
    exact hI.step hst.2

end Q
end WebhookDelivery
