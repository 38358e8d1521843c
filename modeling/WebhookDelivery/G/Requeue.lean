/-
Requeues and the dead letters they meet.

`requeue_from_dlq` reads the status in one statement and writes the row in
another, which does not look at the status again.  A requeue is sound as long as
nothing has taken the row out of the dead letters since the status was read.
-/
import WebhookDelivery.G.Ownership

namespace WebhookDelivery
namespace G

open Sql Run

variable {J : Json}

def IsDead (id : String) (s : State) : Prop :=
  ∃ r, s.table.get? id = some r ∧ r.status = .deadLettered

/-- The final statement of this job and result is the one that dead-letters. -/
def exhausted (job : ClaimedJob) (res : Except String Unit) : Bool :=
  !succeeded res && decide (job.maxAttempts ≤ job.attempts + 1)

theorem asFinished_dead (job : ClaimedJob) (now delay : Int) (res : Except String Unit)
    (r : DeliveryRow) :
    (asFinished job now delay res r).status = .deadLettered ↔ exhausted job res = true := by
  cases res with
  | ok u => simp [asFinished, exhausted, succeeded]
  | error err =>
    by_cases hle : job.maxAttempts ≤ job.attempts + 1
    · simp [asFinished, exhausted, succeeded, hle]
    · simp [asFinished, exhausted, succeeded, hle]

/-! ## What the labels do to a dead letter -/

/-- A requeue of `id` finds it dead-lettered. -/
def Label.passes (id : String) : Label J → Bool
  | .requeueCheck id' (.ok _) => id' = id
  | _ => false

def Label.buries (id : String) : Label J → Bool
  | .finish job _ res => decide (job.id = id) && exhausted job res
  | _ => false

/-- The statement leaves `id` in a status other than `dead_lettered`. -/
def Label.exhumes (id : String) : Label J → Bool
  | .finish job _ res => decide (job.id = id) && !exhausted job res
  | .requeueUpdate id' _ => id' = id
  | _ => false

/-- The requeues of `id` that have answered with success. -/
def requeued (id : String) (h : List (Label J)) : Nat := h.countP (Label.requeues id)

def deadLetterings (id : String) (h : List (Label J)) : Nat := h.countP (Label.buries id)

theorem isDead_congr {id : String} {s t : State}
    (hrow : t.table.get? id = s.table.get? id) : IsDead id t ↔ IsDead id s := by
  unfold IsDead
  rw [hrow]

/-- A statement that changes rows without writing or reading `dead_lettered`
neither makes nor loses a dead letter. -/
theorem isDead_map {id : String} {s t : State} {f : DeliveryRow → DeliveryRow}
    (hrow : t.table.get? id = (s.table.get? id).map f)
    (hf : ∀ r, s.table.get? id = some r →
      ((f r).status = .deadLettered ↔ r.status = .deadLettered)) :
    IsDead id t ↔ IsDead id s := by
  unfold IsDead
  rw [hrow]
  cases hr : s.table.get? id with
  | none => simp
  | some r => simpa using hf r hr

/-- A delivery is a dead letter after a step if the step buries it, or if it was
one and the step does not exhume it. -/
theorem Step.dead {s t : State} {l : Label J} (hst : Step s l t) (hsnap : Snapshots s)
    (id : String) :
    IsDead id t ↔ l.buries id = true ∨ (l.exhumes id = false ∧ IsDead id s) := by
  have hquiet : l.buries id = false → l.exhumes id = false → (IsDead id t ↔ IsDead id s) →
      (IsDead id t ↔ l.buries id = true ∨ (l.exhumes id = false ∧ IsDead id s)) := by
    intro hb he hiff
    rw [hb, he, hiff]
    simp
  cases hst with
  | createWebhook payload check id' now fault res t' hcreate =>
    refine hquiet rfl rfl ?_
    rcases createWebhook_spec _ _ _ _ _ _ _ hcreate with ⟨e, -, rfl⟩ | ⟨req, -, -, hins⟩
    · exact Iff.rfl
    · by_cases hid : id' = id
      · subst hid
        have hnone : s.table.get? id' = none := Table.get?_of_insert? hins
        have hrow : t'.get? id' = some (newRow id' _ _ _ _) :=
          (Table.get?_insert? hins id').trans (if_pos rfl)
        constructor
        · rintro ⟨r, hr, hdead⟩
          have hr : t'.get? id' = some r := hr
          rw [hrow] at hr
          cases hr
          cases hdead
        · rintro ⟨r, hr, -⟩
          rw [hnone] at hr
          cases hr
      · exact isDead_congr ((Table.get?_insert? hins id).trans (if_neg hid))
  | reclaim now htick =>
    refine hquiet rfl rfl (isDead_map (get?_reclaim s.cfg now s.table id) fun r _ => ?_)
    by_cases hstale : isStale (staleCutoff s.cfg now) r = true
    · have hproc := (isStale_iff.1 hstale).1
      simp [hstale, asReclaimed, hproc]
    · simp [hstale]
  | claim now rows jobs htick hsel hjobs =>
    obtain ⟨-, hin, hout⟩ := claim_spec hsel hjobs
    refine hquiet rfl rfl ?_
    by_cases hk : id ∈ jobs.map ClaimedJob.id
    · obtain ⟨job, hjob, rfl⟩ := List.mem_map.1 hk
      obtain ⟨r, hr, hpend, -, -, hr'⟩ := hin job hjob
      have hrow := hr'.trans (congrArg (Option.map (asClaimed now)) hr).symm
      refine isDead_map hrow fun r' hr'' => ?_
      rw [hr] at hr''
      cases hr''
      simp [asClaimed, hpend]
    · exact isDead_congr (hout id hk)
  | finish pre post job claimedAt now delay res htasks =>
    by_cases hid : job.id = id
    · subst hid
      obtain ⟨r, hr, -⟩ := hsnap ⟨job, claimedAt, .called now res⟩ (htasks ▸ by simp)
      have hrow := get?_finish_self hr now delay res
      have hdead : IsDead job.id { s with
            table := G.finish job now delay res s.table, tasks := pre ++ post } ↔
          exhausted job res = true := by
        rw [← asFinished_dead job now delay res r]
        unfold IsDead
        simp [hrow]
      rw [hdead]
      cases hex : exhausted job res <;> simp [Label.buries, Label.exhumes, hex]
    · have hrow := (get?_finish job now delay res s.table id).trans (if_neg fun e => hid e.symm)
      exact hquiet (by simp [Label.buries, hid]) (by simp [Label.exhumes, hid])
        (isDead_congr hrow)
  | requeueUpdate id' now hmem =>
    by_cases hid : id' = id
    · subst hid
      have hrow : (requeue id' now s.table).get? id' = (s.table.get? id').map (asRequeued now) :=
        (get?_requeue id' now s.table id').trans (if_pos rfl)
      have halive : ¬IsDead id' { s with
          table := requeue id' now s.table, requeues := s.requeues.erase id' } := by
        rintro ⟨r, hr, hdead⟩
        obtain ⟨r', -, rfl⟩ := Option.map_eq_some_iff.1 (hrow.symm.trans hr)
        cases hdead
      simp [halive, Label.buries, Label.exhumes]
    · exact hquiet rfl (by simp [Label.exhumes, hid])
        (isDead_congr ((get?_requeue id' now s.table id).trans (if_neg fun e => hid e.symm)))
  | restart cfg now =>
    refine hquiet rfl rfl (isDead_map (get?_resetProcessing now s.table id) fun r _ => ?_)
    by_cases hproc : r.status = .processing
    · simp [isProcessing, hproc, asReclaimed]
    · simp [isProcessing, hproc]
  | tickFailed | deliverOnce | finishFailed | requeueCheck | requeueFailed =>
    exact hquiet rfl rfl Iff.rfl

/-! ## Requeues whose check still stands -/

/-- Nothing has exhumed `id` since a requeue last found it dead-lettered. -/
def checkStands (id : String) : List (Label J) → Bool
  | [] => false
  | l :: h => l.passes id || (!l.exhumes id && checkStands id h)

/-- Every requeue of the history updates while its check stands. -/
def Prompt : List (Label J) → Prop
  | [] => True
  | l :: h => (∀ id, l.requeues id = true → checkStands id h = true) ∧ Prompt h

theorem Step.dead_of_passes {s t : State} {l : Label J} (hst : Step s l t) {id : String}
    (hl : l.passes id = true) : IsDead id t := by
  cases hst with
  | requeueCheck id' =>
    cases hcheck : G.requeueCheck id' s.table with
    | error e => simp [hcheck, Label.passes] at hl
    | ok u =>
      have hid : id' = id := by simpa [hcheck, Label.passes] using hl
      exact hid ▸ requeueCheck_ok hcheck
  | _ => cases hl

theorem dead_of_checkStands {h : List (Label J)} {s : State} (hs : (system J).Reaches h s)
    {id : String} (hstands : checkStands id h = true) : IsDead id s := by
  refine hs.invariant (I := fun h s => checkStands id h = true → IsDead id s)
    (fun _ _ hnil => by cases hnil) (fun h s l t hreach hI hst hstands => ?_) hstands
  by_cases hpass : l.passes id = true
  · exact hst.dead_of_passes hpass
  · have hkeep : l.exhumes id = false ∧ checkStands id h = true := by
      simpa [checkStands, hpass] using hstands
    exact (hst.dead (snapshots hreach) id).2 (.inr ⟨hkeep.1, hI hkeep.2⟩)

/-- The dead-letterings of `id` pay for its requeues, and one is left over while
it is a dead letter. -/
theorem requeued_paid {h : List (Label J)} {s : State} (hs : (system J).Reaches h s)
    (hp : Prompt h) (id : String) :
    requeued id h ≤ deadLetterings id h ∧
      (IsDead id s → requeued id h + 1 ≤ deadLetterings id h) := by
  refine hs.invariant (I := fun h s => Prompt h → requeued id h ≤ deadLetterings id h ∧
      (IsDead id s → requeued id h + 1 ≤ deadLetterings id h))
    (fun s hinit _ => ⟨Nat.le_refl _, ?_⟩) (fun h s l t hreach hI hst hp => ?_) hp
  · rintro ⟨r, hr, -⟩
    rw [hinit.1] at hr
    cases hr
  · obtain ⟨hle, hdead⟩ := hI hp.2
    have hiff := hst.dead (snapshots hreach) id
    have hreq : requeued id (l :: h)
        = requeued id h + if l.requeues id = true then 1 else 0 := List.countP_cons
    have hbury : deadLetterings id (l :: h)
        = deadLetterings id h + if l.buries id = true then 1 else 0 := List.countP_cons
    rw [hreq, hbury]
    by_cases hr : l.requeues id = true
    · -- The check stands, so the requeue takes the dead letter that is left over.
      have hex : l.exhumes id = true ∧ l.buries id = false := by
        cases l with
        | requeueUpdate id' now => exact ⟨hr, rfl⟩
        | _ => cases hr
      have hone := hdead (dead_of_checkStands hreach (hp.1 id hr))
      have halive : ¬IsDead id t := by
        rw [hiff, hex.1, hex.2]
        simp
      rw [if_pos hr, hex.2]
      exact ⟨by omega, fun h => absurd h halive⟩
    · rw [if_neg hr]
      by_cases hb : l.buries id = true
      · rw [if_pos hb]
        exact ⟨by omega, fun _ => by omega⟩
      · rw [if_neg hb]
        refine ⟨by omega, fun ht => ?_⟩
        rcases hiff.1 ht with hb' | ⟨-, hs⟩
        · exact absurd hb' hb
        · have hone := hdead hs
          omega

/-- In the runs whose requeues update while their check stands, a requeue finds
its delivery dead-lettered, and no delivery is requeued more often than it was
dead-lettered. -/
theorem requeues_dead {h : List (Label J)} {s : State} (hs : (system J).Reaches h s)
    (hp : Prompt h) (id : String) :
    requeued id h ≤ deadLetterings id h ∧
      ∀ now t, Step s (.requeueUpdate id now : Label J) t →
        Prompt (.requeueUpdate id now :: h : List (Label J)) → IsDead id s := by
  refine ⟨(requeued_paid hs hp id).1, fun now t _ hnext => ?_⟩
  exact dead_of_checkStands hs (hnext.1 id (by simp [Label.requeues]))

/-! ## A requeue that comes too late -/

def hookDead : DeliveryRow :=
  asFinished (hookRow 1).job 5 0 (.error "request failed: timeout") (asClaimed 0 (hookRow 1))

def dying : List (Label Json.text) :=
  .finish (hookRow 1).job 0 (.error "request failed: timeout") ::
    .deliverOnce (hookRow 1).job 5 (.error "request failed: timeout") :: claiming 1

/-- The one attempt of the hook fails. -/
theorem dead_reached : (system Json.text).Reaches dying (one hookDead none [] []) := by
  let job := (hookRow 1).job
  let late : Except String Unit := .error "request failed: timeout"
  have h₀ : (system Json.text).Reaches (claiming 1)
      (one (asClaimed 0 (hookRow 1)) none [.spawn 0 job] []) :=
    (claimed_reached 1 (C := fun _ _ => True) trivial trivial trivial).of_restrict
  have h₁ : (system Json.text).Reaches _
      (one (asClaimed 0 (hookRow 1)) none [⟨job, 0, .called 5 late⟩] []) :=
    h₀.step (Step.deliverOnce _ [] [] job 0 5 (.ok ()) (.failed "timeout") rfl (by decide))
  exact h₁.step (Step.finish _ [] [] job 0 5 0 late rfl)

theorem requeues_dead_hook :
    requeued "a" (.requeueUpdate "a" 9 :: .requeueCheck "a" (.ok ()) :: dying) ≤
      deadLetterings "a" (.requeueUpdate "a" 9 :: .requeueCheck "a" (.ok ()) :: dying) ∧
    ∀ now t, Step (one (asRequeued 9 hookDead) none [] [])
      (.requeueUpdate "a" now : Label Json.text) t →
      Prompt (.requeueUpdate "a" now :: .requeueUpdate "a" 9 ::
        .requeueCheck "a" (.ok ()) :: dying) →
      IsDead "a" (one (asRequeued 9 hookDead) none [] []) := by
  have h₁ : (system Json.text).Reaches (.requeueCheck "a" (.ok ()) :: dying)
      (one hookDead none [] ["a"]) :=
    dead_reached.step (Step.requeueCheck _ "a")
  have h₂ : (system Json.text).Reaches
      (.requeueUpdate "a" 9 :: .requeueCheck "a" (.ok ()) :: dying)
      (one (asRequeued 9 hookDead) none [] []) :=
    h₁.step (Step.requeueUpdate _ "a" 9 (List.mem_singleton_self "a"))
  have hp : Prompt (.requeueUpdate "a" 9 :: .requeueCheck "a" (.ok ()) :: dying) := by
    refine ⟨fun id hid => ?_, ?_⟩
    · have hid : "a" = id := by simpa [Label.requeues] using hid
      subst hid
      rfl
    · simp [Prompt, dying, claiming, hookAccepted, Label.requeues]
  exact requeues_dead h₂ hp "a"

/-- Two requeues find the hook dead-lettered, and both update it. -/
theorem requeued_twice : ¬∀ h s, (system Json.text).Reaches h s → ∀ id,
    requeued id h ≤ deadLetterings id h ∧
      ∀ now t, Step s (.requeueUpdate id now : Label Json.text) t → IsDead id s := by
  intro hall
  have h₁ : (system Json.text).Reaches (.requeueCheck "a" (.ok ()) :: dying)
      (one hookDead none [] ["a"]) :=
    dead_reached.step (Step.requeueCheck _ "a")
  have h₂ : (system Json.text).Reaches
      (.requeueCheck "a" (.ok ()) :: .requeueCheck "a" (.ok ()) :: dying)
      (one hookDead none [] ["a", "a"]) :=
    h₁.step (Step.requeueCheck _ "a")
  have h₃ : (system Json.text).Reaches _ (one (asRequeued 9 hookDead) none [] ["a"]) :=
    h₂.step (Step.requeueUpdate _ "a" 9 (by simp [one]))
  have h₄ := Step.requeueUpdate (J := Json.text) (one (asRequeued 9 hookDead) none [] ["a"]) "a" 9
    (List.mem_singleton_self "a")
  have hle := (hall _ _ (h₃.step h₄) "a").1
  exact absurd hle (by decide)

end G
end WebhookDelivery
