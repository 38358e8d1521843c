/-
A ledger of deliveries.

This is what an at-least-once delivery service keeps for its callers, with the
store, the workers and the clock left out: a record is accepted under a key,
attempts are made for it, each carrying what its record says, and its entry is
closed as delivered or as dead.  An entry may be reopened at any time and
attempts may repeat, but nothing is closed without an attempt behind it, or a
refusal in place of one.

The rules read what a run guarantees off its history.  A service inherits them
by simulating this system.
-/
import Mathlib.Logic.Function.Basic
import WebhookDelivery.Run.System

namespace WebhookDelivery
namespace Run
namespace Ledger

universe u v w x

/-- Where an entry is.  A dead entry keeps the error it was closed with. -/
inductive Stage (ε : Type x)
  | waiting
  | delivered
  | dead (e : ε)

structure Entry (β : Type v) (ε : Type x) where
  record : β
  stage : Stage ε

/-- An attempt: what it carried and how it went. -/
structure Attempt (κ : Type u) (μ : Type w) (ε : Type x) where
  key : κ
  message : μ
  result : Except ε Unit

/-- The entries, and the attempts made so far, newest first. -/
structure Book (κ : Type u) (β : Type v) (μ : Type w) (ε : Type x) where
  entry : κ → Option (Entry β ε)
  attempts : List (Attempt κ μ ε)

inductive Event (κ : Type u) (β : Type v) (μ : Type w) (ε : Type x)
  | accept (k : κ) (b : β)
  | attempt (a : Attempt κ μ ε)
  | deliver (k : κ)
  | bury (k : κ) (e : ε)
  | refuse (k : κ) (e : ε)
  | reopen (k : κ)

variable {κ : Type u} {β : Type v} {μ : Type w} {ε : Type x} [DecidableEq κ]

def Book.put (s : Book κ β μ ε) (k : κ) (b : β) (stage : Stage ε) : Book κ β μ ε :=
  { s with entry := Function.update s.entry k (some { record := b, stage := stage }) }

@[simp] theorem Book.put_attempts (s : Book κ β μ ε) (k : κ) (b : β) (stage : Stage ε) :
    (s.put k b stage).attempts = s.attempts := rfl

theorem Book.put_entry (s : Book κ β μ ε) (k : κ) (b : β) (stage : Stage ε) (k' : κ) :
    (s.put k b stage).entry k' =
      if k' = k then some { record := b, stage := stage } else s.entry k' :=
  Function.update_apply ..

variable (carries : β → μ → Prop)

inductive Step : Book κ β μ ε → Event κ β μ ε → Book κ β μ ε → Prop
  | accept (s : Book κ β μ ε) (k : κ) (b : β) :
      s.entry k = none → Step s (.accept k b) (s.put k b .waiting)
  | attempt (s : Book κ β μ ε) (a : Attempt κ μ ε) (e : Entry β ε) :
      s.entry a.key = some e → carries e.record a.message →
      Step s (.attempt a) { s with attempts := a :: s.attempts }
  | deliver (s : Book κ β μ ε) (k : κ) (e : Entry β ε) (m : μ) :
      s.entry k = some e → ⟨k, m, .ok ()⟩ ∈ s.attempts →
      Step s (.deliver k) (s.put k e.record .delivered)
  | bury (s : Book κ β μ ε) (k : κ) (e : Entry β ε) (m : μ) (err : ε) :
      s.entry k = some e → ⟨k, m, .error err⟩ ∈ s.attempts →
      Step s (.bury k err) (s.put k e.record (.dead err))
  | refuse (s : Book κ β μ ε) (k : κ) (e : Entry β ε) (err : ε) :
      s.entry k = some e → Step s (.refuse k err) (s.put k e.record (.dead err))
  | reopen (s : Book κ β μ ε) (k : κ) (e : Entry β ε) :
      s.entry k = some e → Step s (.reopen k) (s.put k e.record .waiting)

/-- A ledger from before its first entry. -/
def system : System (Book κ β μ ε) (Event κ β μ ε) where
  init s := s.attempts = [] ∧ ∀ k, s.entry k = none
  step := Step carries

variable {carries}

/-! ## One step -/

/-- The record an event accepts under `k`. -/
def Event.accepted (k : κ) : Event κ β μ ε → Option β
  | .accept k' b => if k' = k then some b else none
  | _ => none

/-- An entry stays under its record. -/
theorem Step.entry {s t : Book κ β μ ε} {l : Event κ β μ ε} (hst : Step carries s l t) (k : κ) :
    (∃ b, l = .accept k b ∧ s.entry k = none ∧ t.entry k = some ⟨b, .waiting⟩) ∨
      (l.accepted k = none ∧ (t.entry k).map Entry.record = (s.entry k).map Entry.record) := by
  have hput : ∀ (k' : κ) (e : Entry β ε) (stage : Stage ε), s.entry k' = some e →
      ((s.put k' e.record stage).entry k).map Entry.record
        = (s.entry k).map Entry.record := by
    intro k' e stage he
    rw [Book.put_entry]
    by_cases hk : k = k'
    · rw [if_pos hk, hk, he]
      rfl
    · rw [if_neg hk]
  cases hst with
  | accept k' b hnone =>
    by_cases hk : k' = k
    · subst hk
      exact .inl ⟨b, rfl, hnone, by rw [Book.put_entry, if_pos rfl]⟩
    · refine .inr ⟨if_neg hk, ?_⟩
      rw [Book.put_entry, if_neg fun e => hk e.symm]
  | attempt => exact .inr ⟨rfl, rfl⟩
  | deliver k' e _ he | bury k' e _ _ he | refuse k' e _ he | reopen k' e he =>
    exact .inr ⟨rfl, hput k' e _ he⟩

/-- What closes an entry. -/
inductive Closes (k : κ) (s : Book κ β μ ε) (l : Event κ β μ ε) : Stage ε → Prop
  | waiting : Closes k s l .waiting
  | delivered (m : μ) : ⟨k, m, .ok ()⟩ ∈ s.attempts → Closes k s l .delivered
  | dead (m : μ) (e : ε) : ⟨k, m, .error e⟩ ∈ s.attempts → Closes k s l (.dead e)
  | refused (e : ε) : l = .refuse k e → Closes k s l (.dead e)

/-- The stage of an entry is the one it had, or it has just got it. -/
theorem Step.stage {s t : Book κ β μ ε} {l : Event κ β μ ε} (hst : Step carries s l t) {k : κ}
    {e : Entry β ε} (he : t.entry k = some e) : s.entry k = some e ∨ Closes k s l e.stage := by
  have hput : ∀ (k' : κ) (b : β) (stage : Stage ε), (k = k' → Closes k s l stage) →
      (s.put k' b stage).entry k = some e → s.entry k = some e ∨ Closes k s l e.stage := by
    intro k' b stage hclose hput
    rw [Book.put_entry] at hput
    by_cases hk : k = k'
    · rw [if_pos hk] at hput
      obtain rfl := Option.some.inj hput
      exact .inr (hclose hk)
    · rw [if_neg hk] at hput
      exact .inl hput
  cases hst with
  | accept k' b hnone => exact hput k' b _ (fun _ => .waiting) he
  | attempt => exact .inl he
  | deliver k' e' m _ hm => exact hput k' _ _ (fun hk => .delivered m (hk ▸ hm)) he
  | bury k' e' m err _ hm => exact hput k' _ _ (fun hk => .dead m err (hk ▸ hm)) he
  | refuse k' e' err _ => exact hput k' _ _ (fun hk => .refused err (hk ▸ rfl)) he
  | reopen k' e' _ => exact hput k' _ _ (fun _ => .waiting) he

/-! ## Whole runs -/

variable {h : List (Event κ β μ ε)} {s : Book κ β μ ε}

/-- The records accepted under a key are the one its entry has, once. -/
theorem accepted_eq (hs : (system carries).Reaches h s) (k : κ) :
    h.filterMap (Event.accepted k) = ((s.entry k).map Entry.record).toList := by
  refine hs.invariant (I := fun h s => h.filterMap (Event.accepted k)
    = ((s.entry k).map Entry.record).toList) (fun s hinit => ?_) (fun h s l t _ hI hst => ?_)
  · rw [hinit.2 k]
    rfl
  · rcases Step.entry hst k with ⟨b, rfl, hnone, hsome⟩ | ⟨hl, hrec⟩
    · have hb : Event.accepted k (.accept k b : Event κ β μ ε) = some b := if_pos rfl
      rw [List.filterMap_cons_some hb, hI, hnone, hsome]
      rfl
    · rw [List.filterMap_cons_none hl, hI, hrec]

/-- An entry has the record that was accepted. -/
theorem accepted_of_entry (hs : (system carries).Reaches h s) {k : κ} {e : Entry β ε}
    (he : s.entry k = some e) : .accept k e.record ∈ h := by
  have hmem : e.record ∈ h.filterMap (Event.accepted k) := by
    rw [accepted_eq hs k, he]
    exact List.mem_singleton_self _
  obtain ⟨l, hl, hacc⟩ := List.mem_filterMap.1 hmem
  cases l with
  | accept k' b =>
    simp only [Event.accepted] at hacc
    split at hacc
    · rename_i hk
      obtain rfl := Option.some.inj hacc
      exact hk ▸ hl
    · cases hacc
  | attempt | deliver | bury | refuse | reopen => cases hacc

/-- What has been accepted has its entry from then on. -/
theorem entry_of_accepted (hs : (system carries).Reaches h s) {k : κ} {b : β}
    (hb : .accept k b ∈ h) : ∃ e, s.entry k = some e ∧ e.record = b := by
  have hmem : b ∈ h.filterMap (Event.accepted k) :=
    List.mem_filterMap.2 ⟨_, hb, if_pos rfl⟩
  rw [accepted_eq hs k, Option.mem_toList, Option.map_eq_some_iff] at hmem
  exact hmem

/-- Every attempt carries what had been accepted before it. -/
theorem attempt_carries {h₁ h₀ : List (Event κ β μ ε)} {a : Attempt κ μ ε}
    (hs : (system carries).Reaches (h₁ ++ .attempt a :: h₀) s) :
    ∃ b, .accept a.key b ∈ h₀ ∧ carries b a.message := by
  obtain ⟨s₀, s₁, hs₀, hst, -⟩ := hs.cut
  cases hst with
  | attempt _ e he hcar => exact ⟨e.record, accepted_of_entry hs₀ he, hcar⟩

/-- The attempts of the book are those of the history. -/
theorem attempted (hs : (system carries).Reaches h s) :
    ∀ a ∈ s.attempts, .attempt a ∈ h := by
  refine hs.invariant (I := fun h s => ∀ a ∈ s.attempts, .attempt a ∈ h)
    (fun s hinit a ha => ?_) (fun h s l t _ hI hst a ha => ?_)
  · rw [hinit.1] at ha
    exact absurd ha List.not_mem_nil
  · cases hst with
    | attempt a' e he hcar =>
      rcases List.mem_cons.1 ha with rfl | ha
      · exact List.mem_cons_self
      · exact List.mem_cons_of_mem _ (hI a ha)
    | accept | deliver | bury | refuse | reopen => exact List.mem_cons_of_mem _ (hI a ha)

/-- What the history has to say for the stage of an entry. -/
def Justified (h : List (Event κ β μ ε)) (k : κ) : Stage ε → Prop
  | .waiting => True
  | .delivered => ∃ m, .attempt ⟨k, m, .ok ()⟩ ∈ h
  | .dead e => (∃ m, .attempt ⟨k, m, .error e⟩ ∈ h) ∨ .refuse k e ∈ h

omit [DecidableEq κ] in
theorem Justified.cons {k : κ} {stage : Stage ε} (hj : Justified h k stage)
    (l : Event κ β μ ε) : Justified (l :: h) k stage := by
  cases stage with
  | waiting => trivial
  | delivered =>
    obtain ⟨m, hm⟩ := hj
    exact ⟨m, List.mem_cons_of_mem l hm⟩
  | dead e =>
    rcases hj with ⟨m, hm⟩ | hr
    · exact .inl ⟨m, List.mem_cons_of_mem l hm⟩
    · exact .inr (List.mem_cons_of_mem l hr)

/-- No entry is closed without an attempt or a refusal behind it. -/
theorem justified (hs : (system carries).Reaches h s) :
    ∀ k e, s.entry k = some e → Justified h k e.stage := by
  refine hs.invariant (I := fun h s => ∀ k e, s.entry k = some e → Justified h k e.stage)
    (fun s hinit k e he => ?_) (fun h s l t hr hI hst k e he => ?_)
  · rw [hinit.2 k] at he
    cases he
  · rcases Step.stage hst he with he | hclose
    · exact (hI k e he).cons l
    · generalize e.stage = stage at hclose
      cases hclose with
      | waiting => trivial
      | delivered m hm => exact ⟨m, List.mem_cons_of_mem l (attempted hr _ hm)⟩
      | dead m err hm => exact .inl ⟨m, List.mem_cons_of_mem l (attempted hr _ hm)⟩
      | refused err hl => exact .inr (hl ▸ List.mem_cons_self)

end Ledger
end Run
end WebhookDelivery
