/-
Labelled transition systems and the histories of their runs.

A history lists the labels of a run, newest first, so that what happened since
an event is a prefix of it and a new step is one `cons`.  The rules below are
the only inductions over runs a development needs: an invariant of the pair
(history, state), the restriction to runs whose steps all meet a condition, and
the simulation of one system by another.
-/

namespace WebhookDelivery
namespace Run

universe u v u' v'

/-- A labelled transition system. -/
structure System (σ : Type u) (ℓ : Type v) where
  init : σ → Prop
  step : σ → ℓ → σ → Prop

namespace System

variable {σ : Type u} {ℓ : Type v} (S : System σ ℓ)

/-- `Path S s h t`: from `s` the system can take the steps of `h`, newest
first, and be in `t`. -/
inductive Path (s : σ) : List ℓ → σ → Prop
  | nil : Path s [] s
  | cons {h : List ℓ} {t : σ} {l : ℓ} {u : σ} :
      Path s h t → S.step t l u → Path s (l :: h) u

/-- `Reaches S h s`: some run of the system from an initial state has the
history `h` and ends in `s`. -/
inductive Reaches : List ℓ → σ → Prop
  | init {s : σ} : S.init s → Reaches [] s
  | step {h : List ℓ} {s : σ} {l : ℓ} {t : σ} :
      Reaches h s → S.step s l t → Reaches (l :: h) t

/-- The runs of `S` in which every step meets the condition `C`. -/
def restrict (C : σ → ℓ → Prop) : System σ ℓ where
  init := S.init
  step s l t := C s l ∧ S.step s l t

variable {S}

theorem Path.trans {s t u : σ} {h h' : List ℓ} (hst : S.Path s h t) (htu : S.Path t h' u) :
    S.Path s (h' ++ h) u := by
  induction htu with
  | nil => exact hst
  | cons _ hstep ih => exact ih.cons hstep

theorem Path.one {s t : σ} {l : ℓ} (hstep : S.step s l t) : S.Path s [l] t :=
  Path.nil.cons hstep

theorem Reaches.of_eq {h : List ℓ} {s t : σ} (hs : S.Reaches h s) (e : s = t) : S.Reaches h t :=
  e ▸ hs

theorem Reaches.path {h h' : List ℓ} {s t : σ} (hs : S.Reaches h s) (hst : S.Path s h' t) :
    S.Reaches (h' ++ h) t := by
  induction hst with
  | nil => exact hs
  | cons _ hstep ih => exact ih.step hstep

/-- A run cut at one of its steps. -/
theorem Reaches.cut {h h' : List ℓ} {l : ℓ} {s : σ} (hs : S.Reaches (h' ++ l :: h) s) :
    ∃ s₀ s₁, S.Reaches h s₀ ∧ S.step s₀ l s₁ ∧ S.Path s₁ h' s := by
  induction h' generalizing s with
  | nil =>
    cases hs with
    | step h0 hstep => exact ⟨_, _, h0, hstep, Path.nil⟩
  | cons l' h' ih =>
    cases hs with
    | step h0 hstep =>
      obtain ⟨s₀, s₁, hs₀, hl, hpath⟩ := ih h0
      exact ⟨s₀, s₁, hs₀, hl, hpath.cons hstep⟩

/-- The run to `s` takes the step `l` from `s₀`, reached with `h₀`, to `s₁`. -/
def Takes (S : System σ ℓ) (h : List ℓ) (s : σ) (h₀ : List ℓ) (s₀ : σ) (l : ℓ) (s₁ : σ) : Prop :=
  ∃ h₁, h = h₁ ++ l :: h₀ ∧ S.Reaches h₀ s₀ ∧ S.step s₀ l s₁ ∧ S.Path s₁ h₁ s

theorem Reaches.takes {h : List ℓ} {s : σ} {l : ℓ} (hs : S.Reaches h s) (hl : l ∈ h) :
    ∃ h₀ s₀ s₁, S.Takes h s h₀ s₀ l s₁ := by
  obtain ⟨h₁, h₀, rfl⟩ := List.append_of_mem hl
  obtain ⟨s₀, s₁, hs₀, hstep, hpath⟩ := hs.cut
  exact ⟨h₀, s₀, s₁, h₁, rfl, hs₀, hstep, hpath⟩

/-- What a step of a run has before it is in the history. -/
theorem Takes.mem {h h₀ : List ℓ} {s s₀ s₁ : σ} {l l' : ℓ} (ht : S.Takes h s h₀ s₀ l s₁)
    (hl : l' ∈ h₀) : l' ∈ h := by
  obtain ⟨h₁, rfl, -⟩ := ht
  exact List.mem_append_right h₁ (List.mem_cons_of_mem l hl)

/-- What holds of the initial states and is kept by every step holds after
every run.  The step may use that its source is itself reachable. -/
theorem Reaches.invariant {I : List ℓ → σ → Prop} (hinit : ∀ s, S.init s → I [] s)
    (hstep : ∀ h s l t, S.Reaches h s → I h s → S.step s l t → I (l :: h) t)
    {h : List ℓ} {s : σ} (hs : S.Reaches h s) : I h s := by
  induction hs with
  | init h0 => exact hinit _ h0
  | step hr hst ih => exact hstep _ _ _ _ hr ih hst

/-- What a step keeps, a run keeps. -/
theorem Path.keeps {P : σ → Prop} (hstep : ∀ s l t, P s → S.step s l t → P t)
    {s t : σ} {h : List ℓ} (hst : S.Path s h t) (hs : P s) : P t := by
  induction hst with
  | nil => exact hs
  | cons _ hl ih => exact hstep _ _ _ ih hl

/-- What holds at the start of a run and is kept by every step of it holds of its
history and its end. -/
theorem Path.invariant {I : List ℓ → σ → Prop} {s t : σ} {h : List ℓ} (hst : S.Path s h t)
    (hinit : I [] s)
    (hstep : ∀ h t l u, S.Path s h t → I h t → S.step t l u → I (l :: h) u) : I h t := by
  induction hst with
  | nil => exact hinit
  | cons hp hl ih => exact hstep _ _ _ _ hp ih hl

/-- A run from a reachable state keeps what the steps out of reachable states
keep. -/
theorem Reaches.keeps {P : σ → Prop}
    (hstep : ∀ h s l t, S.Reaches h s → P s → S.step s l t → P t)
    {h h' : List ℓ} {s t : σ} (hs : S.Reaches h s) (hst : S.Path s h' t) (hP : P s) : P t := by
  induction hst with
  | nil => exact hP
  | cons hp hl ih => exact hstep _ _ _ _ (hs.path hp) ih hl

theorem Path.of_restrict {C : σ → ℓ → Prop} {s t : σ} {h : List ℓ}
    (hst : (S.restrict C).Path s h t) : S.Path s h t := by
  induction hst with
  | nil => exact Path.nil
  | cons _ hl ih => exact ih.cons hl.2

theorem Reaches.of_restrict {C : σ → ℓ → Prop} {s : σ} {h : List ℓ}
    (hs : (S.restrict C).Reaches h s) : S.Reaches h s := by
  induction hs with
  | init h0 => exact Reaches.init h0
  | step _ hl ih => exact ih.step hl.2

/-- A run whose steps meet both conditions meets one after the other. -/
theorem Reaches.restrict_restrict {C D : σ → ℓ → Prop} {s : σ} {h : List ℓ}
    (hs : (S.restrict fun s l => D s l ∧ C s l).Reaches h s) :
    ((S.restrict C).restrict D).Reaches h s := by
  induction hs with
  | init h0 => exact Reaches.init h0
  | step _ hl ih => exact ih.step ⟨hl.1.1, hl.1.2, hl.2⟩

end System

/-! ## Simulation

Each step of the concrete system is at most one step of the abstract one, and
which one it is can be read off its label. -/

section Simulation

variable {σ : Type u} {ℓ : Type v} {α : Type u'} {ε : Type v'}

/-- `proj` names the abstract step of each concrete label, if there is one, and
`R` relates the states.  The step may use that its source is reachable. -/
structure Simulation (S : System σ ℓ) (A : System α ε) (proj : ℓ → Option ε)
    (R : σ → α → Prop) : Prop where
  init : ∀ s, S.init s → ∃ a, A.init a ∧ R s a
  stutter : ∀ h s l t a, S.Reaches h s → R s a → S.step s l t → proj l = none → R t a
  step : ∀ h s l t a e, S.Reaches h s → R s a → S.step s l t → proj l = some e →
    ∃ b, A.step a e b ∧ R t b

/-- Every run of the concrete system is a run of the abstract one. -/
theorem Simulation.reaches {S : System σ ℓ} {A : System α ε} {proj : ℓ → Option ε}
    {R : σ → α → Prop} (sim : Simulation S A proj R) {h : List ℓ} {s : σ}
    (hs : S.Reaches h s) : ∃ a, A.Reaches (h.filterMap proj) a ∧ R s a := by
  induction hs with
  | init h0 =>
    obtain ⟨a, ha, hR⟩ := sim.init _ h0
    exact ⟨a, System.Reaches.init ha, hR⟩
  | @step h s l t hr hl ih =>
    obtain ⟨a, ha, hR⟩ := ih
    cases hp : proj l with
    | none =>
      refine ⟨a, ?_, sim.stutter _ _ _ _ _ hr hR hl hp⟩
      rw [List.filterMap_cons_none hp]
      exact ha
    | some e =>
      obtain ⟨b, hb, hR'⟩ := sim.step _ _ _ _ _ _ hr hR hl hp
      refine ⟨b, ?_, hR'⟩
      rw [List.filterMap_cons_some hp]
      exact ha.step hb

/-- A run seen through maps of states and labels that keep the steps. -/
theorem System.Reaches.map {S : System σ ℓ} {A : System α ε} {g : σ → α} {f : ℓ → ε}
    {h : List ℓ} {s : σ} (hs : S.Reaches h s) (hinit : ∀ s, S.init s → A.init (g s))
    (hstep : ∀ s l t, S.step s l t → A.step (g s) (f l) (g t)) :
    A.Reaches (h.map f) (g s) := by
  induction hs with
  | init h0 => exact .init (hinit _ h0)
  | step _ hl ih => exact ih.step (hstep _ _ _ hl)

end Simulation

/-! ## Counting in a history -/

section Count

variable {ℓ : Type v} {ε : Type v'}

/-- How many labels of the history satisfy `hit` since the newest one that
satisfies `reset`. -/
def countSince (reset hit : ℓ → Bool) : List ℓ → Nat
  | [] => 0
  | l :: h =>
    if reset l then 0
    else if hit l then countSince reset hit h + 1
    else countSince reset hit h

theorem countSince_skip {reset hit : ℓ → Bool} {l : ℓ} (h : List ℓ) (hl : reset l = false)
    (hh : hit l = false) : countSince reset hit (l :: h) = countSince reset hit h := by
  simp [countSince, hl, hh]

/-- Counting in a concrete history is counting in its projection, when the
projection drops only labels that do not count. -/
theorem countSince_filterMap {proj : ℓ → Option ε} {reset hit : ℓ → Bool}
    {reset' hit' : ε → Bool}
    (hnone : ∀ l, proj l = none → reset l = false ∧ hit l = false)
    (hsome : ∀ l e, proj l = some e → reset l = reset' e ∧ hit l = hit' e) (h : List ℓ) :
    countSince reset hit h = countSince reset' hit' (h.filterMap proj) := by
  induction h with
  | nil => rfl
  | cons l h ih =>
    cases hp : proj l with
    | none =>
      obtain ⟨hr, hh⟩ := hnone l hp
      rw [List.filterMap_cons_none hp, countSince_skip h hr hh, ih]
    | some e =>
      obtain ⟨hr, hh⟩ := hsome l e hp
      rw [List.filterMap_cons_some hp]
      simp only [countSince, hr, hh, ih]

end Count

end Run
end WebhookDelivery
