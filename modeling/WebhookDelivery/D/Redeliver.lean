/-
When a dead letter is redelivered once.

`redeliver` reads its entry under one acquisition of the lock and acts on it
under another.  The job it stores is made of the copy it read, and its `DELETE`
does not look at how many rows it took.  So what keeps a second call from
storing a second job is only that the entry is gone when it looks.
-/
import WebhookDelivery.D.Lineage

namespace WebhookDelivery
namespace D

open Sql Run

variable {F : Formats} {κ : Type}

/-- A call for the entry returns a job. -/
def Label.returns (e : Uuid) : Label F κ → Bool
  | .deleteDlq _ e' _ => e' = e
  | _ => false

/-- A call for the entry stores a job. -/
def Label.produces (e : Uuid) : Label F κ → Bool
  | .insertJob _ e' _ => e' = e
  | _ => false

/-- No crash, and no statement of `redeliver` fails. -/
def Label.succeeds : Label F κ → Bool
  | .callFailed _ | .restart _ => false
  | _ => true

/-- A call stores its job while the entry it has read is still there. -/
def Present (s : State F κ) : Label F κ → Prop
  | .insertJob _ e _ => (s.db.entry e).isSome
  | _ => True

theorem content_entry {db : Db} {e : Uuid} :
    db.content (.entry e) = none ↔ db.entry e = none := by
  simp [Db.content]

/-- A call that has stored its job still has its entry to delete. -/
def Guarded (s : State F κ) : Prop :=
  ∀ k e job, s.call k = .inserted e job → s.db.content (.entry e) ≠ none

/-- The calls for `e` between their two statements. -/
def Open (e : Uuid) (s : State F κ) : Prop := ∃ k job, s.call k = .inserted e job

/-- What the history says of the entry `e`: it is gone once a call has returned
a job for it, and the jobs stored are those returned, up to the one under way. -/
structure Once (e : Uuid) (h : List (Label F κ)) (s : State F κ) : Prop where
  returned : h.countP (Label.returns e) ≤ 1
  gone : h.countP (Label.returns e) = 1 → e ∈ s.issued ∧ s.db.content (.entry e) = none
  produced : h.all Label.succeeds = true →
    (h.countP (Label.produces e) = h.countP (Label.returns e) ∧ ¬Open e s) ∨
      (h.countP (Label.produces e) = h.countP (Label.returns e) + 1 ∧ Open e s)

variable [DecidableEq κ]

theorem Guarded.step {s t : State F κ} {l : Label F κ} (hs : Guarded s) (hmutex : Mutex s)
    (hused : Used s) (hst : Step s l t) (hpresent : Present s l) : Guarded t := by
  have hkeep : ∀ e, s.db.content (.entry e) ≠ none → l.empties ≠ some (.entry e) →
      t.db.content (.entry e) ≠ none := by
    intro e hsome hem hnone
    obtain ⟨c, hc⟩ := Option.ne_none_iff_exists'.1 hsome
    have hc' := hst.keeps hc (hused _ _ hc) hem
    rw [hnone] at hc'
    cases hc'
  intro k e job hcall
  rcases hst.inserted hcall with hcall' | ⟨entry, -, -, rfl⟩
  · apply hkeep e (hs k e job hcall')
    intro hem
    have hheld := hmutex.call k e job hcall'
    cases hst with
    | deleteDlq k' e' job' hcall'' =>
      have hheld' := hmutex.call k' e' job' hcall''
      rw [hheld] at hheld'
      cases hheld'
      rw [State.setCall_self] at hcall
      cases hcall
    | deleteJob => cases hem
    | enqueue | fetchDue | block | send | markDelivered | recordAttempt | insertDlq
    | workerFailed | endPass | getDlq | notFound | insertJob | callFailed | restart => cases hem
  · apply hkeep e _ (by simp [Label.empties])
    have hpresent : (s.db.entry e).isSome := hpresent
    intro hnone
    rw [content_entry.1 hnone] at hpresent
    cases hpresent

theorem guarded {h : List (Label F κ)} {s : State F κ}
    (hs : ((system F κ).restrict Present).Reaches h s) : Guarded s := by
  apply hs.invariant (I := fun _ s => Guarded s)
  · rintro s ⟨-, -, -, -, hcall⟩ k e job hk
    rw [hcall k] at hk
    cases hk
  · intro h s l t hr hI hst
    exact hI.step (mutex hr.of_restrict) (used hr.of_restrict) hst.2 hst.1

/-- An entry that is gone stays gone: its id is not used again. -/
theorem Step.gone {s t : State F κ} {l : Label F κ} (hst : Step s l t) {x : Place}
    (hid : x.id ∈ s.issued) (hx : s.db.content x = none) : t.db.content x = none := by
  cases hst.effect x with
  | filled _ _ hnew => exact absurd hid hnew
  | emptied _ hnone => exact hnone
  | kept _ _ hsame => exact hsame.trans hx

/-- Which calls are between their two statements, step by step. -/
theorem Step.open_iff {s t : State F κ} {l : Label F κ} (hst : Step s l t) (hmutex : Mutex s)
    (hok : l.succeeds = true) (e : Uuid) :
    (l.produces e = true ∧ l.returns e = false ∧ ¬Open e s ∧ Open e t) ∨
    (l.produces e = false ∧ l.returns e = true ∧ Open e s ∧ ¬Open e t) ∨
    (l.produces e = false ∧ l.returns e = false ∧ (Open e t ↔ Open e s)) := by
  cases hst with
  | enqueue | fetchDue | block | send | markDelivered | recordAttempt | insertDlq | deleteJob
  | workerFailed | endPass | notFound => exact .inr (.inr ⟨rfl, rfl, Iff.rfl⟩)
  | callFailed | restart => cases hok
  | getDlq k e' entry hcall hlock hget =>
    refine .inr (.inr ⟨rfl, rfl, ?_, ?_⟩)
    · rintro ⟨k', job, hk'⟩
      rcases setCall_eq hk' with ⟨-, h⟩ | ⟨-, h⟩
      · cases h
      · exact ⟨k', job, h⟩
    · rintro ⟨k', job, hk'⟩
      have hne : k' ≠ k := by
        rintro rfl
        rw [hcall] at hk'
        cases hk'
      exact ⟨k', job, (State.setCall_ne s _ hne).trans hk'⟩
  | insertJob k e' entry id now db hcall hlock hnew hins =>
    have hfree := (hmutex.free hlock).2
    by_cases he : e' = e
    · subst he
      refine .inl ⟨by simp [Label.produces], rfl, ?_, k, _, State.setCall_self _ _ _⟩
      rintro ⟨k', job, hk'⟩
      exact hfree k' e' job hk'
    · refine .inr (.inr ⟨by simp [Label.produces, he], rfl, ?_, ?_⟩)
      · rintro ⟨k', job, hk'⟩
        rcases setCall_eq hk' with ⟨-, h⟩ | ⟨-, h⟩
        · cases h
          exact absurd rfl he
        · exact absurd h (hfree k' e job)
      · rintro ⟨k', job, hk'⟩
        exact absurd hk' (hfree k' e job)
  | deleteDlq k e' job hcall =>
    have hheld := hmutex.call k e' job hcall
    have hnone : ¬Open e (State.setCall { s with db := D.deleteDlq s.db e', lock := none } k
        .idle) := by
      rintro ⟨k', job', hk'⟩
      rcases setCall_eq hk' with ⟨-, h⟩ | ⟨hne, h⟩
      · cases h
      · have hother := hmutex.call k' e job' h
        rw [hheld] at hother
        cases hother
        exact hne rfl
    by_cases he : e' = e
    · subst he
      exact .inr (.inl ⟨rfl, by simp [Label.returns], ⟨k, job, hcall⟩, hnone⟩)
    · refine .inr (.inr ⟨rfl, by simp [Label.returns, he], fun h => absurd h hnone, ?_⟩)
      rintro ⟨k', job', hk'⟩
      have hother := hmutex.call k' e job' hk'
      rw [hheld] at hother
      cases hother
      rw [hcall] at hk'
      cases hk'
      exact absurd rfl he

theorem Step.returns {s t : State F κ} {l : Label F κ} (hst : Step s l t) {e : Uuid}
    (h : l.returns e = true) :
    ∃ k job, s.call k = .inserted e job ∧ t.db.content (.entry e) = none := by
  cases hst with
  | deleteDlq k e' job hcall =>
    have he : e' = e := by simpa [Label.returns] using h
    subst he
    exact ⟨k, job, hcall, (content_deleteDlq s.db e' (.entry e')).trans (if_pos rfl)⟩
  | enqueue | fetchDue | block | send | markDelivered | recordAttempt | insertDlq | deleteJob
  | workerFailed | endPass | getDlq | notFound | insertJob | callFailed | restart => cases h

theorem Once.step {e : Uuid} {h : List (Label F κ)} {s t : State F κ} {l : Label F κ}
    (hs : Once e h s) (hmutex : Mutex s) (hused : Used s) (hguarded : Guarded s)
    (hst : Step s l t) : Once e (l :: h) t := by
  have hlast : (l :: h).countP (Label.returns e) = 1 ∧ e ∈ t.issued ∧
      t.db.content (.entry e) = none ∨
      (l :: h).countP (Label.returns e) = h.countP (Label.returns e) ∧ l.returns e = false := by
    cases hret : l.returns e with
    | false => exact .inr ⟨by simp [hret], rfl⟩
    | true =>
      obtain ⟨k, job, hcall, hnone⟩ := hst.returns hret
      have hsome := hguarded k e job hcall
      obtain ⟨c, hc⟩ := Option.ne_none_iff_exists'.1 hsome
      have hzero : h.countP (Label.returns e) = 0 := by
        have hle := hs.returned
        have hne : h.countP (Label.returns e) ≠ 1 := fun h1 => hsome (hs.gone h1).2
        omega
      refine .inl ⟨?_, hst.issued (hused _ _ hc), hnone⟩
      rw [List.countP_cons, hzero, if_pos hret]
  constructor
  · rcases hlast with ⟨hone, -⟩ | ⟨hsame, -⟩
    · omega
    · have hle := hs.returned
      omega
  · intro hone
    rcases hlast with ⟨-, hin, hnone⟩ | ⟨hsame, -⟩
    · exact ⟨hin, hnone⟩
    · obtain ⟨hin, hnone⟩ := hs.gone (hsame ▸ hone)
      exact ⟨hst.issued hin, hst.gone hin hnone⟩
  · intro hall
    rw [List.all_cons, Bool.and_eq_true] at hall
    have hopen := hst.open_iff hmutex hall.1 e
    rw [List.countP_cons, List.countP_cons]
    rcases hs.produced hall.2 with ⟨heq, hclosed⟩ | ⟨heq, hop⟩
    · rcases hopen with ⟨hp, hr, -, hop'⟩ | ⟨-, -, hop', -⟩ | ⟨hp, hr, hiff⟩
      · exact .inr ⟨by simp [hp, hr, heq], hop'⟩
      · exact absurd hop' hclosed
      · exact .inl ⟨by simp [hp, hr, heq], fun h' => hclosed (hiff.1 h')⟩
    · rcases hopen with ⟨-, -, hclosed, -⟩ | ⟨hp, hr, -, hclosed⟩ | ⟨hp, hr, hiff⟩
      · exact absurd hop hclosed
      · exact .inl ⟨by simp [hp, hr, heq], hclosed⟩
      · exact .inr ⟨by simp [hp, hr, heq], hiff.2 hop⟩

theorem once {h : List (Label F κ)} {s : State F κ}
    (hs : ((system F κ).restrict Present).Reaches h s) (e : Uuid) : Once e h s := by
  apply hs.invariant (I := Once e)
  · rintro s ⟨-, -, -, -, hcall⟩
    refine ⟨Nat.zero_le 1, fun h0 => (nomatch h0), fun _ => .inl ⟨rfl, ?_⟩⟩
    rintro ⟨k, job, hk⟩
    rw [hcall k] at hk
    cases hk
  · intro h s l t hr hI hst
    exact hI.step (mutex hr.of_restrict) (used hr.of_restrict) (guarded hr) hst.2

def hookRead : DqlEntry mini where
  id := 2
  jobId := 1
  payload := true
  destination := "http://a.test"
  attempts := 0
  lastError := "blocked: no host"
  movedAt := 0

def remade (id : Uuid) : WebhookJob mini := redelivered hookRead id 1 0

def stored : Db := queued [(remade 3).row] [hookEntry] (List.nodup_singleton _) hookEntry_nodup

def moved : Db := queued [(remade 3).row] [] (List.nodup_singleton _) List.nodup_nil

def movedTwice : Db := queued [(remade 3).row, (remade 4).row] [] (by decide) List.nodup_nil

end D
end WebhookDelivery
