/-
Measures along runs.

A measure that no step raises bounds how often the steps that lower it are taken.
Two measures that move together differ by the steps on which they do not.  A measure
that some run always lowers leads to a state where it is zero.
-/
import WebhookDelivery.Run.System

namespace WebhookDelivery
namespace Run
namespace System

universe u v w

variable {σ : Type u} {ℓ : Type v} {S : System σ ℓ}

/-- The steps of `S` of which `R` holds, the state they lead to included. -/
def within (S : System σ ℓ) (R : σ → ℓ → σ → Prop) : System σ ℓ where
  init := S.init
  step s l t := R s l t ∧ S.step s l t

theorem Reaches.of_within {R : σ → ℓ → σ → Prop} {s : σ} {h : List ℓ}
    (hs : (S.within R).Reaches h s) : S.Reaches h s := by
  induction hs with
  | init h0 => exact .init h0
  | step _ hl ih => exact ih.step hl.2

/-- What a step keeps unless its label is a cause, a run keeps until it meets one. -/
theorem Path.unless {P : σ → Prop} {cause : ℓ → Prop}
    (hstep : ∀ s l t, P s → S.step s l t → cause l ∨ P t) {s t : σ} {h : List ℓ}
    (hst : S.Path s h t) (hs : P s) : (∃ l ∈ h, cause l) ∨ P t := by
  induction hst with
  | nil => exact .inr hs
  | @cons h t l u _ hl ih =>
    rcases ih with ⟨l', hl', hcause⟩ | ht
    · exact .inl ⟨l', List.mem_cons_of_mem l hl', hcause⟩
    · rcases hstep t l u ht hl with hcause | hu
      · exact .inl ⟨l, List.mem_cons_self, hcause⟩
      · exact .inr hu

/-- If every step keeps `P` and pays `cost` for each label that is hit, a run pays
for all its hits out of what the measure was at its start. -/
theorem Path.paid {μ : σ → Nat} {P : σ → Prop} {hit : ℓ → Bool} {cost : Nat}
    (hstep : ∀ s l t, P s → S.step s l t → P t ∧ μ t + (if hit l then cost else 0) ≤ μ s)
    {s t : σ} {h : List ℓ} (hst : S.Path s h t) (hs : P s) :
    P t ∧ μ t + cost * h.countP hit ≤ μ s := by
  induction hst with
  | nil => exact ⟨hs, Nat.le_refl _⟩
  | @cons h t l u _ hl ih =>
    obtain ⟨ht, hpaid⟩ := ih
    obtain ⟨hu, hpay⟩ := hstep t l u ht hl
    refine ⟨hu, ?_⟩
    rw [List.countP_cons, Nat.mul_add]
    by_cases hhit : hit l = true
    · simp only [hhit, if_true, Nat.mul_one] at hpay ⊢
      omega
    · simp only [hhit, if_false, Bool.false_eq_true, Nat.mul_zero, Nat.add_zero] at hpay ⊢
      omega

/-- A party has something left at each of its places, and pays out of it for every hit.  The
steps of others leave it where it is, or put it out, where nothing is left. -/
theorem Path.paid_turns {π : Type w} {f : σ → π} {left : π → Nat} {out : π} {P : σ → Prop}
    {hit : ℓ → Bool} (hout : left out = 0)
    (hstep : ∀ s l t, P s → S.step s l t → P t ∧
      (left (f t) + (if hit l then 1 else 0) ≤ left (f s) ∨
        (hit l = false ∧ (f t = f s ∨ f t = out))))
    {s t : σ} {h : List ℓ} (hst : S.Path s h t) (hs : P s) :
    P t ∧ left (f t) + h.countP hit ≤ left (f s) := by
  have hpay : P t ∧ left (f t) + 1 * h.countP hit ≤ left (f s) := by
    refine hst.paid (μ := fun s => left (f s)) (P := P) (fun s l t hs hl => ?_) hs
    obtain ⟨ht, hpaid | ⟨hmiss, hsame | hput⟩⟩ := hstep s l t hs hl
    · exact ⟨ht, hpaid⟩
    · rw [hmiss, hsame]
      exact ⟨ht, Nat.le_refl _⟩
    · rw [hmiss, hput, hout]
      exact ⟨ht, Nat.zero_le _⟩
  rw [Nat.one_mul] at hpay
  exact hpay

/-- `S`, with the state that a step is taken in as part of the history. -/
def logged (S : System σ ℓ) : System σ (σ × ℓ) where
  init := S.init
  step s e t := e.1 = s ∧ S.step s e.2 t

theorem Reaches.of_logged {s : σ} {h : List (σ × ℓ)} (hs : S.logged.Reaches h s) :
    S.Reaches (h.map Prod.snd) s := by
  induction hs with
  | init h0 => exact .init h0
  | step _ hl ih => exact ih.step hl.2

/-- Every run has its log. -/
theorem Reaches.logged {s : σ} {h : List ℓ} (hs : S.Reaches h s) :
    ∃ h', h'.map Prod.snd = h ∧ S.logged.Reaches h' s := by
  induction hs with
  | init h0 => exact ⟨[], rfl, .init h0⟩
  | @step h s l t _ hl ih =>
    obtain ⟨h', rfl, hs'⟩ := ih
    exact ⟨(s, l) :: h', rfl, hs'.step ⟨rfl, hl⟩⟩

/-- Two measures that start out equal differ by the steps that have a cause, if each of
these, and no other, moves the one away from the other by one. -/
theorem Reaches.balance {κ : Type w} (μ ν : σ → Nat) (cause : σ × ℓ → Option κ)
    (hinit : ∀ s, S.init s → μ s = ν s)
    (hstep : ∀ h s l t, S.Reaches h s → S.step s l t →
      μ t + ν s = μ s + ν t + (cause (s, l)).toList.length)
    {s : σ} {h : List (σ × ℓ)} (hs : S.logged.Reaches h s) :
    μ s = ν s + (h.filterMap cause).length := by
  induction hs with
  | init h0 => exact hinit _ h0
  | @step h s e t hs hl ih =>
    obtain ⟨s', l⟩ := e
    obtain ⟨heq, hl⟩ := hl
    obtain rfl : s' = s := heq
    have hmove := hstep _ _ _ _ hs.of_logged hl
    cases hc : cause (s', l) with
    | none =>
      rw [hc] at hmove
      rw [List.filterMap_cons_none hc]
      simp only [Option.toList_none, List.length_nil] at hmove
      omega
    | some c =>
      rw [hc] at hmove
      rw [List.filterMap_cons_some hc, List.length_cons]
      simp only [Option.toList_some, List.length_singleton] at hmove
      omega

/-- Where a run can always lower the measure, a run brings it to zero. -/
theorem exists_path_zero {μ : σ → Nat} {P : σ → Prop}
    (hmove : ∀ s, P s → 0 < μ s → ∃ h t, S.Path s h t ∧ P t ∧ μ t < μ s) :
    ∀ s, P s → ∃ h t, S.Path s h t ∧ P t ∧ μ t = 0 := by
  intro s
  induction hn : μ s using Nat.strongRecOn generalizing s with
  | ind n ih =>
    intro hs
    by_cases hzero : μ s = 0
    · exact ⟨[], s, Path.nil, hs, hzero⟩
    · obtain ⟨h, t, hst, ht, hlt⟩ := hmove s hs (Nat.pos_of_ne_zero hzero)
      obtain ⟨h', u, htu, hu, hμ⟩ := ih (μ t) (hn ▸ hlt) t rfl ht
      exact ⟨h' ++ h, u, hst.trans htu, hu, hμ⟩

end System
end Run
end WebhookDelivery
