/-
What a claim is worth to the worker that wins it.

The outcome writes name a row by its id and nothing else.  They are safe because
of who makes them: a worker comes to one only through a claim it has won, a
claim takes pending rows only, and nothing but an outcome write, a check that
fails or a reset moves a row that is in flight.
-/
import WebhookDelivery.Q.Ownership

namespace WebhookDelivery
namespace Q

open Sql Run

variable {ω : Type}

/-- The checks of `process` pass, and no reset touches a claimed row. -/
def Undisturbed (s : State ω) (l : Label ω) : Prop := l.checksPass = true ∧ Orderly s l

variable [DecidableEq ω]

/-- A worker keeps the delivery it has claimed until it writes its outcome, the
write fails, or the process dies. -/
theorem Step.held {s t : State ω} {l : Label ω} (hst : Step s l t) {w : ω} {id : Uuid}
    (hid : id ∈ s.heldIds w) :
    id ∈ t.heldIds w ∨ (∃ d out, l = .record w d out ∧ d.id = id) ∨
      l = .dbFail w ∨ ∃ cfg, l = .restart cfg := by
  obtain ⟨d, hd, hde⟩ := mem_heldIds.1 hid
  have hkeep : ∀ (v : ω) (db : Db) (pc : Pc), (v = w → pc.held = some d) →
      id ∈ (State.setPc { s with db := db } v pc).heldIds w := by
    intro v db pc hpc
    rw [mem_heldIds]
    by_cases hv : w = v
    · refine ⟨d, ?_, hde⟩
      rw [hv, State.setPc_self]
      exact hpc hv.symm
    · rw [State.setPc_ne _ _ hv]
      exact ⟨d, hd, hde⟩
  cases hst with
  | insert | replay => exact .inl hid
  | start v now hpc =>
    refine .inl (hkeep v _ _ fun e => ?_)
    rw [← e, hpc] at hd
    cases hd
  | listDue v now ds hpc hlist =>
    refine .inl (hkeep v s.db _ fun e => ?_)
    rw [← e, hpc] at hd
    cases hd
  | refuse v d' rest check reason c entry db hpc hcheck hdl =>
    refine .inl (hkeep v db _ fun e => ?_)
    rw [← e, hpc] at hd
    cases hd
  | claim v d' rest now hpc =>
    refine .inl (hkeep v _ _ fun e => ?_)
    rw [← e, hpc] at hd
    cases hd
  | send v d' rest resp hpc =>
    refine .inl (hkeep v s.db _ fun e => ?_)
    rw [← e, hpc] at hd
    exact hd
  | record v d' out rest c db hpc hrec =>
    by_cases hv : v = w
    · subst hv
      rw [hpc] at hd
      cases hd
      exact .inr (.inl ⟨d, out, rfl, hde⟩)
    · exact .inl (hkeep v db _ fun e => absurd e hv)
  | dbFail v =>
    by_cases hv : v = w
    · subst hv
      exact .inr (.inr (.inl rfl))
    · exact .inl (hkeep v s.db _ fun e => absurd e hv)
  | endPass v now hpc =>
    refine .inl (hkeep v s.db _ fun e => ?_)
    rw [← e, hpc] at hd
    cases hd
  | restart cfg => exact .inr (.inr (.inr ⟨cfg, rfl⟩))

theorem owned_of_undisturbed {h : List (Label ω)} {s : State ω}
    (hs : ((system ω).restrict Undisturbed).Reaches h s) : Owned (fun _ _ => True) s := by
  apply hs.invariant (I := fun _ s => Owned (fun _ _ => True) s)
  · intro s hinit
    exact owned_init hinit
  · intro h s l t _ hI hst
    exact hI.step hst.1.2 (fun _ _ _ _ _ _ => trivial) hst.2

/-- From its winning claim to its outcome write a worker is alone with a
delivery, the row is in flight, and the next statement to touch it is the
outcome write of that worker. -/
theorem claim_is_exclusive {h : List (Label ω)} {s : State ω}
    (hs : ((system ω).restrict Undisturbed).Reaches h s) {w : ω} {id : Uuid}
    (hid : id ∈ s.heldIds w) :
    (∀ v, id ∈ s.heldIds v → v = w) ∧
      (∃ r, s.db.row id = some r ∧ r.status = .inFlight) ∧
      ∀ l t, Undisturbed s l → Step s l t →
        (id ∈ t.heldIds w ∧ t.db.row id = s.db.row id) ∨
        (∃ d out c, l = .record w d out ∧ d.id = id ∧
          t.db.row id = (s.db.row id).map (asOutcome s.cfg c d out)) ∨
        ((l = .dbFail w ∨ ∃ cfg, l = .restart cfg) ∧ t.db.row id = s.db.row id) := by
  have howned := owned_of_undisturbed hs
  have halone : ∀ v, id ∈ s.heldIds v → v = w :=
    fun v hv => howned.exclusive.unique v w id hv hid
  refine ⟨halone, ?_, ?_⟩
  · obtain ⟨d, hd, hde⟩ := mem_heldIds.1 hid
    obtain ⟨r, hr, hfl, -⟩ := howned.backed w d hd
    exact ⟨r, hde ▸ hr, hfl⟩
  · intro l t hC hst
    rcases howned.untouched hC.2 hst hid with hrow | ⟨v, d, out, c, hl, hde, hd, hrow⟩
    · rcases hst.held hid with hheld | ⟨d, out, hl, hde⟩ | hlost
      · exact .inl ⟨hheld, hrow⟩
      · subst hl
        cases hst with
        | record _ _ _ rest c db hpc hrec =>
          refine .inr (.inl ⟨d, out, c, rfl, hde, ?_⟩)
          exact hde ▸ (recordOutcome_ok hrec d.id).1.trans (if_pos rfl)
      · exact .inr (.inr ⟨hlost, hrow⟩)
    · have hv : v = w := halone v (mem_heldIds.2 ⟨d, hd, hde⟩)
      exact .inr (.inl ⟨d, out, c, hv ▸ hl, hde, hrow⟩)

/-- The worker `false` holds the hook while the worker `true` still lists it. -/
theorem claim_is_exclusive_hook :
    (∀ v, (1 : Uuid) ∈ (duo claimedDb (.claimed hookRead []) (.batch [hookRead])).heldIds v →
      v = false) ∧
      (∃ r, claimedDb.row 1 = some r ∧ r.status = .inFlight) ∧
      ∀ l t, Undisturbed (duo claimedDb (.claimed hookRead []) (.batch [hookRead])) l →
        Step (duo claimedDb (.claimed hookRead []) (.batch [hookRead])) l t →
        ((1 : Uuid) ∈ t.heldIds false ∧ t.db.row 1 = claimedDb.row 1) ∨
        (∃ d out c, l = .record false d out ∧ d.id = 1 ∧
          t.db.row 1 = (claimedDb.row 1).map (asOutcome quick c d out)) ∨
        ((l = .dbFail false ∨ ∃ cfg, l = .restart cfg) ∧ t.db.row 1 = claimedDb.row 1) := by
  have h₀ : ((system Bool).restrict Undisturbed).Reaches listing listed :=
    listed_reached ⟨rfl, trivial⟩ ⟨rfl, orderly_start rfl rfl _ _⟩
      ⟨rfl, orderly_start rfl rfl _ _⟩ ⟨rfl, trivial⟩ ⟨rfl, trivial⟩
  have h₁ := claimed_reached h₀ ⟨rfl, trivial⟩
  have hheld : (1 : Uuid) ∈
      (duo claimedDb (.claimed hookRead []) (.batch [hookRead])).heldIds false :=
    mem_heldIds.2 ⟨hookRead, rfl, rfl⟩
  exact claim_is_exclusive h₁ hheld

end Q
end WebhookDelivery
