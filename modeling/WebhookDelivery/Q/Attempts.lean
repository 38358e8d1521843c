/-
The sends of a delivery.

`process` decides from its snapshot whether an attempt was the last one, and
`claim` asks for the status only, so a snapshot that is older than a failed
attempt of another worker lets a delivery have more sends than its limit.  As
long as no claim wins with a snapshot that counts fewer attempts than the row,
the service simulates `Run.Retry` for each delivery and inherits its budget.
-/
import WebhookDelivery.Run.Retry
import WebhookDelivery.Q.Ownership

namespace WebhookDelivery
namespace Q

open Sql Run

variable {ω : Type}

/-- A claim that wins has a snapshot that counts no fewer attempts than the row. -/
def FreshClaim (s : State ω) : Label ω → Prop
  | .claim _ d _ true => ∀ r, s.db.row d.id = some r → r.attempts ≤ d.attempts
  | _ => True

/-- The copy of a claimed delivery is not behind its row. -/
def NotBehind (r : DeliveryRow) (d : Delivery) : Prop := r.attempts ≤ d.attempts

/-- What a worker has to do with the delivery `id`. -/
inductive View
  | none
  | claimed
  | sent (ok : Bool)
  deriving DecidableEq

def Pc.view (id : Uuid) : Pc → View
  | .claimed d _ => if d.id = id then .claimed else .none
  | .sent d out _ => if d.id = id then .sent (decide (out = .delivered)) else .none
  | .down | .polling | .batch _ => .none

theorem mem_heldIds_of_view {s : State ω} {w : ω} {id : Uuid} (h : (s.pc w).view id ≠ .none) :
    id ∈ s.heldIds w := by
  rw [mem_heldIds]
  cases hpc : s.pc w with
  | down | polling | batch ds => rw [hpc] at h; exact absurd rfl h
  | claimed d rest =>
    refine ⟨d, rfl, ?_⟩
    by_contra hne
    rw [hpc] at h
    exact h (if_neg hne)
  | sent d out rest =>
    refine ⟨d, rfl, ?_⟩
    by_contra hne
    rw [hpc] at h
    exact h (if_neg hne)

theorem Owned.view_unique {R : DeliveryRow → Delivery → Prop} {s : State ω} (hs : Owned R s)
    {id : Uuid} {v w : ω} (hv : (s.pc v).view id ≠ .none) (hw : (s.pc w).view id ≠ .none) :
    v = w :=
  hs.exclusive.unique v w id (mem_heldIds_of_view hv) (mem_heldIds_of_view hw)

/-! ## The simulation -/

/-- The row and the workers' views put the delivery at this stage. -/
def AtStage (id : Uuid) (s : State ω) (r : DeliveryRow) (calls : Nat) : Retry.Stage ω → Prop
  | .waiting => r.status = .pending ∧ r.attempts = calls
  | .held w => r.status = .inFlight ∧ r.attempts = calls ∧ (s.pc w).view id = .claimed
  | .called w ok => r.status = .inFlight ∧ r.attempts + 1 = calls ∧ (s.pc w).view id = .sent ok
  | .delivered => r.status = .delivered
  | .rejected => r.status = .deadLetter
  | .lost | .dead => False

def Tracks (id : Uuid) (s : State ω) : Option (Retry.Job ω) → Prop
  | none => s.db.row id = none
  | some j => ∃ r, s.db.row id = some r ∧ r.maxAttempts = j.maxAttempts ∧
      AtStage id s r j.calls j.stage

theorem Tracks.frame {id : Uuid} {s t : State ω} {a : Option (Retry.Job ω)}
    (h : Tracks id s a) (hrow : t.db.row id = s.db.row id)
    (hview : ∀ w, (t.pc w).view id = (s.pc w).view id) : Tracks id t a := by
  cases a with
  | none => exact hrow.trans h
  | some j =>
    obtain ⟨r, hr, hmax, hst⟩ := h
    refine ⟨r, hrow.trans hr, hmax, ?_⟩
    obtain ⟨m, stage, n, f⟩ := j
    cases stage <;> simp only [AtStage, hview] at hst ⊢ <;> exact hst

/-- The row of a tracked delivery, and its stage. -/
theorem Tracks.row {id : Uuid} {s : State ω} {a : Option (Retry.Job ω)} (h : Tracks id s a)
    {r : DeliveryRow} (hr : s.db.row id = some r) :
    ∃ stage n f, a = some ⟨r.maxAttempts, stage, n, f⟩ ∧ AtStage id s r n stage := by
  cases a with
  | none => rw [Tracks, hr] at h; cases h
  | some j =>
    obtain ⟨r', hr', hmax, hst⟩ := h
    rw [hr] at hr'
    cases hr'
    obtain ⟨m, stage, n, f⟩ := j
    subst hmax
    exact ⟨stage, n, f, rfl, hst⟩

theorem Tracks.held_of_inFlight {id : Uuid} {s : State ω} {a : Option (Retry.Job ω)}
    (h : Tracks id s a) {r : DeliveryRow} (hr : s.db.row id = some r)
    (hst : r.status = .inFlight) : ∃ w, id ∈ s.heldIds w := by
  obtain ⟨stage, n, f, -, hstage⟩ := h.row hr
  cases stage <;> simp only [AtStage, hst, true_and, reduceCtorEq, false_and] at hstage
  case held w => exact ⟨w, mem_heldIds_of_view (by rw [hstage.2]; decide)⟩
  case called w ok => exact ⟨w, mem_heldIds_of_view (by rw [hstage.2]; simp)⟩

theorem Tracks.of_pending {id : Uuid} {s : State ω} {a : Option (Retry.Job ω)}
    (h : Tracks id s a) {r : DeliveryRow} (hr : s.db.row id = some r)
    (hst : r.status = .pending) :
    ∃ n f, a = some ⟨r.maxAttempts, .waiting, n, f⟩ ∧ r.attempts = n := by
  obtain ⟨stage, n, f, ha, hstage⟩ := h.row hr
  cases stage <;> simp [AtStage, hst] at hstage
  exact ⟨n, f, ha, hstage⟩

theorem Tracks.of_deadLetter {id : Uuid} {s : State ω} {a : Option (Retry.Job ω)}
    (h : Tracks id s a) {r : DeliveryRow} (hr : s.db.row id = some r)
    (hst : r.status = .deadLetter) : ∃ n f, a = some ⟨r.maxAttempts, .rejected, n, f⟩ := by
  obtain ⟨stage, n, f, ha, hstage⟩ := h.row hr
  cases stage <;> simp [AtStage, hst] at hstage
  exact ⟨n, f, ha⟩

theorem Tracks.of_claimed {id : Uuid} {s : State ω} {a : Option (Retry.Job ω)}
    (h : Tracks id s a) (hs : Owned NotBehind s) {w : ω} (hw : (s.pc w).view id = .claimed)
    {r : DeliveryRow} (hr : s.db.row id = some r) :
    ∃ n f, a = some ⟨r.maxAttempts, .held w, n, f⟩ ∧ r.attempts = n := by
  have hne : (s.pc w).view id ≠ .none := by rw [hw]; decide
  have hfl := hs.inFlight (mem_heldIds_of_view hne) hr
  obtain ⟨stage, n, f, ha, hstage⟩ := h.row hr
  cases stage <;> simp only [AtStage, hfl, true_and, reduceCtorEq, false_and] at hstage
  case held v =>
    have hv : v = w := hs.view_unique (by rw [hstage.2]; decide) hne
    exact ⟨n, f, hv ▸ ha, hstage.1⟩
  case called v ok =>
    have hv : v = w := hs.view_unique (by rw [hstage.2]; simp) hne
    rw [hv, hw] at hstage
    cases hstage.2

theorem Tracks.of_sent {id : Uuid} {s : State ω} {a : Option (Retry.Job ω)}
    (h : Tracks id s a) (hs : Owned NotBehind s) {w : ω} {ok : Bool}
    (hw : (s.pc w).view id = .sent ok) {r : DeliveryRow} (hr : s.db.row id = some r) :
    ∃ n f, a = some ⟨r.maxAttempts, .called w ok, n, f⟩ ∧ r.attempts + 1 = n := by
  have hne : (s.pc w).view id ≠ .none := by rw [hw]; simp
  have hfl := hs.inFlight (mem_heldIds_of_view hne) hr
  obtain ⟨stage, n, f, ha, hstage⟩ := h.row hr
  cases stage <;> simp only [AtStage, hfl, true_and, reduceCtorEq, false_and] at hstage
  case held v =>
    have hv : v = w := hs.view_unique (by rw [hstage.2]; decide) hne
    rw [hv, hw] at hstage
    cases hstage.2
  case called v ok' =>
    have hv : v = w := hs.view_unique (by rw [hstage.2]; simp) hne
    subst hv
    rw [hw] at hstage
    cases hstage.2
    exact ⟨n, f, ha, hstage.1⟩

def outcomeEvent (w : ω) (d : Delivery) (out : Outcome) : Retry.Event ω :=
  if out = .delivered then .succeed w else if buries d out then .reject w else .retry w

/-- The step of the life of `id` that a label is. -/
def lifeEvent (id : Uuid) : Label ω → Option (Retry.Event ω)
  | .insert d _ => if d.id = id then some (.submit d.maxAttempts) else none
  | .replay id' _ accepted => if id' = id ∧ accepted = true then some .revive else none
  | .claim w d _ won => if d.id = id ∧ won = true then some (.claim w) else none
  | .send w d _ out => if d.id = id then some (.call w (decide (out = .delivered))) else none
  | .record w d out => if d.id = id then some (outcomeEvent w d out) else none
  | .start .. | .listDue .. | .refuse .. | .dbFail _ | .endPass .. | .restart _ => none

theorem outcomeEvent_counts (w : ω) (d : Delivery) (out : Outcome) :
    (outcomeEvent w d out).starts = false ∧ (outcomeEvent w d out).isCall = false := by
  unfold outcomeEvent
  split
  · exact ⟨rfl, rfl⟩
  · split <;> exact ⟨rfl, rfl⟩

theorem sends_eq (id : Uuid) (h : List (Label ω)) :
    sends id h = Retry.calls (h.filterMap (lifeEvent id)) := by
  refine countSince_filterMap (fun l hl => ?_) (fun l e hl => ?_) h
  · cases l <;> simp_all [lifeEvent, Label.starts, Label.sends]
  · cases l with
    | insert d now =>
      have hid : d.id = id ∧ Retry.Event.submit d.maxAttempts = e := by
        simpa [lifeEvent] using hl
      obtain ⟨rfl, rfl⟩ := hid
      exact ⟨by simp [Label.starts, Retry.Event.starts], rfl⟩
    | replay id' now accepted =>
      have hid : (id' = id ∧ accepted = true) ∧ Retry.Event.revive = e := by
        simpa [lifeEvent] using hl
      obtain ⟨⟨rfl, rfl⟩, rfl⟩ := hid
      exact ⟨by simp [Label.starts, Retry.Event.starts], rfl⟩
    | claim w d now won =>
      have hid : (d.id = id ∧ won = true) ∧ Retry.Event.claim w = e := by
        simpa [lifeEvent] using hl
      obtain ⟨-, rfl⟩ := hid
      exact ⟨rfl, rfl⟩
    | send w d attempt out =>
      have hid : d.id = id ∧ Retry.Event.call w (decide (out = .delivered)) = e := by
        simpa [lifeEvent] using hl
      obtain ⟨rfl, rfl⟩ := hid
      exact ⟨rfl, by simp [Label.sends, Retry.Event.isCall]⟩
    | record w d out =>
      have hid : d.id = id ∧ outcomeEvent w d out = e := by simpa [lifeEvent] using hl
      obtain ⟨rfl, rfl⟩ := hid
      obtain ⟨hstarts, hcall⟩ := outcomeEvent_counts w d out
      exact ⟨hstarts.symm, hcall.symm⟩
    | start | listDue | refuse | dbFail | endPass | restart => cases hl

variable [DecidableEq ω]

theorem view_setPc {id : Uuid} {s : State ω} {w : ω} (db : Db) {pc : Pc}
    (h : pc.view id = (s.pc w).view id) (v : ω) :
    ((State.setPc { s with db := db } w pc).pc v).view id = (s.pc v).view id := by
  by_cases hv : v = w
  · rw [hv, State.setPc_self, h]
  · rw [State.setPc_ne _ pc hv]

variable (ω) in
/-- The runs without a crash, a failing call or a failing check in which no
reset touches a claimed row and no claim wins with a stale count. -/
def freshSystem : System (State ω) (Label ω) :=
  (system ω).restrict fun s l =>
    (l.succeeds = true ∧ l.checksPass = true) ∧ Orderly s l ∧ FreshClaim s l

theorem owned_fresh {h : List (Label ω)} {s : State ω} (hs : (freshSystem ω).Reaches h s) :
    Owned NotBehind s := by
  have hinit : ∀ s, (freshSystem ω).init s → Owned NotBehind s := fun s hs => owned_init hs
  refine hs.invariant (I := fun _ s => Owned NotBehind s) hinit ?_
  intro h s l t _ hI hst
  obtain ⟨⟨-, hord, hfresh⟩, hst⟩ := hst
  refine hI.step hord (fun w d now r hl hr => ?_) hst
  subst hl
  exact hfresh r hr

theorem Tracks.stutter {id : Uuid} {s t : State ω} {l : Label ω} {a : Option (Retry.Job ω)}
    (h : Tracks id s a) (hord : Orderly s l) (hst : Step s l t) (hok : l.succeeds = true)
    (hpass : l.checksPass = true) (hl : lifeEvent id l = none) : Tracks id t a := by
  cases hst with
  | insert d now db hins =>
    have hne : ¬d.id = id := by simpa [lifeEvent] using hl
    exact h.frame ((row_insert hins id).2.1.trans (if_neg hne)) (fun _ => rfl)
  | replay id' now =>
    refine h.frame ((row_replayDeadLetter s.db id' now id).trans ?_) (fun _ => rfl)
    split
    · rename_i hk
      subst hk
      have hfst : ¬(replayDeadLetter s.db id now).1 = true := by simpa [lifeEvent] using hl
      rw [replayDeadLetter_fst] at hfst
      cases hr : s.db.row id with
      | none => rfl
      | some r =>
        have hnot : ¬r.status = .deadLetter := fun e => hfst ⟨r, hr, e⟩
        rw [Option.map_some, if_neg hnot]
    · rfl
  | start w now hpc =>
    refine h.frame ((row_resetStaleInFlight s.db now s.staleMs id).trans ?_)
      (view_setPc _ (by rw [hpc]; rfl))
    cases hr : s.db.row id with
    | none => rfl
    | some r =>
      -- A stale row would be in flight, so a worker would hold it.
      have hfresh : ¬isStale now s.staleMs r = true := by
        intro hstale
        obtain ⟨v, hv⟩ := h.held_of_inFlight hr (isStale_iff.1 hstale).1
        exact hord id r hr hstale v hv
      rw [Option.map_some, if_neg hfresh]
  | listDue w now ds hpc hlist => exact h.frame rfl (view_setPc s.db (by rw [hpc]; rfl))
  | refuse => cases hpass
  | claim w d rest now hpc =>
    refine h.frame ((row_claim s.db d.id now id).trans ?_) (view_setPc _ ?_)
    · split
      · rename_i hk
        subst hk
        have hfst : ¬(Q.claim s.db d.id now).1 = true := by simpa [lifeEvent] using hl
        rw [claim_fst] at hfst
        cases hr : s.db.row d.id with
        | none => rfl
        | some r =>
          have hnot : ¬r.status = .pending := fun e => hfst ⟨r, hr, e⟩
          rw [Option.map_some, if_neg hnot]
      · rfl
    · rw [hpc]
      split
      · rename_i hwon
        have hne : ¬(d.id = id ∧ (Q.claim s.db d.id now).1 = true) := by
          simpa [lifeEvent] using hl
        exact if_neg fun e => hne ⟨e, hwon⟩
      · rfl
  | send w d rest resp hpc =>
    have hne : ¬d.id = id := by simpa [lifeEvent] using hl
    refine h.frame rfl (view_setPc s.db ?_)
    rw [hpc]
    exact (if_neg hne).trans (if_neg hne).symm
  | record w d out rest c db hpc hrec =>
    have hne : ¬d.id = id := by simpa [lifeEvent] using hl
    refine h.frame ((recordOutcome_ok hrec id).1.trans (if_neg fun e => hne e.symm))
      (view_setPc _ ?_)
    rw [hpc]
    exact (if_neg hne).symm
  | dbFail => cases hok
  | endPass w now hpc => exact h.frame rfl (view_setPc s.db (by rw [hpc]; rfl))
  | restart => cases hok

theorem Tracks.step {id : Uuid} {s t : State ω} {l : Label ω} {a : Option (Retry.Job ω)}
    {e : Retry.Event ω} (h : Tracks id s a) (hs : Owned NotBehind s) (hlim : Limited s)
    (hst : Step s l t) (hl : lifeEvent id l = some e) :
    ∃ b, Retry.Step a e b ∧ Tracks id t b := by
  cases hst with
  | insert d now db hins =>
    have hid : d.id = id ∧ Retry.Event.submit d.maxAttempts = e := by
      simpa [lifeEvent] using hl
    obtain ⟨rfl, rfl⟩ := hid
    obtain ⟨hnone, hrow, -⟩ := row_insert hins d.id
    cases a with
    | some j =>
      obtain ⟨r, hr, -⟩ := h
      rw [hr] at hnone
      cases hnone
    | none =>
      exact ⟨_, Retry.Step.submit d.maxAttempts, newRow d now, hrow.trans (if_pos rfl), rfl,
        rfl, rfl⟩
  | replay id' now =>
    have hid : (id' = id ∧ (replayDeadLetter s.db id' now).1 = true) ∧
        Retry.Event.revive = e := by
      simpa [lifeEvent] using hl
    obtain ⟨⟨rfl, hfst⟩, rfl⟩ := hid
    obtain ⟨r, hr, hdead⟩ := (replayDeadLetter_fst _ _ _).1 hfst
    obtain ⟨n, f, rfl⟩ := h.of_deadLetter hr hdead
    refine ⟨_, Retry.Step.reviveRejected _ n f, asReplayed now r, ?_, rfl, rfl, rfl⟩
    refine (row_replayDeadLetter s.db id' now id').trans ?_
    rw [if_pos rfl, hr, Option.map_some, if_pos hdead]
  | claim w d rest now hpc =>
    have hid : (d.id = id ∧ (Q.claim s.db d.id now).1 = true) ∧ Retry.Event.claim w = e := by
      simpa [lifeEvent] using hl
    obtain ⟨⟨rfl, hwon⟩, rfl⟩ := hid
    obtain ⟨r, hr, hpend⟩ := (claim_fst _ _ _).1 hwon
    obtain ⟨n, f, rfl, hatt⟩ := h.of_pending hr hpend
    refine ⟨_, Retry.Step.claim _ n f w, asClaimed now r, ?_, rfl, rfl, hatt, ?_⟩
    · refine (row_claim s.db d.id now d.id).trans ?_
      rw [if_pos rfl, hr, Option.map_some, if_pos hpend]
    · rw [State.setPc_self, if_pos hwon]
      exact if_pos rfl
  | send w d rest resp hpc =>
    have hid : d.id = id ∧
        Retry.Event.call w (decide (resp.outcome = .delivered)) = e := by
      simpa [lifeEvent] using hl
    obtain ⟨rfl, rfl⟩ := hid
    have hview : (s.pc w).view d.id = .claimed := by
      rw [hpc]
      exact if_pos rfl
    obtain ⟨r, hr, hfl, -⟩ := hs.backed w d (by rw [hpc]; rfl)
    obtain ⟨n, f, rfl, hatt⟩ := h.of_claimed hs hview hr
    refine ⟨_, Retry.Step.call _ n f w _, r, hr, rfl, hfl, ?_, ?_⟩
    · show r.attempts + 1 = ((n + 1 : Nat) : Int)
      omega
    · rw [State.setPc_self]
      exact if_pos rfl
  | record w d out rest c db hpc hrec =>
    have hid : d.id = id ∧ outcomeEvent w d out = e := by simpa [lifeEvent] using hl
    obtain ⟨rfl, rfl⟩ := hid
    have hview : (s.pc w).view d.id = .sent (decide (out = .delivered)) := by
      rw [hpc]
      exact if_pos rfl
    obtain ⟨r, hr, -, hbehind⟩ := hs.backed w d (by rw [hpc]; rfl)
    obtain ⟨n, f, rfl, hn⟩ := h.of_sent hs hview hr
    have hrow : db.row d.id = some (asOutcome s.cfg c d out r) :=
      (recordOutcome_ok hrec d.id).1.trans (by rw [if_pos rfl, hr, Option.map_some])
    have hmax : r.maxAttempts = d.maxAttempts := by
      obtain ⟨r', hr', hmax⟩ := hlim.snapshots w d (by rw [hpc]; exact List.mem_cons_self)
      rw [hr] at hr'
      cases hr'
      exact hmax
    cases out with
    | delivered => exact ⟨_, Retry.Step.succeed _ n f w, _, hrow, rfl, rfl⟩
    | permanent err => exact ⟨_, Retry.Step.reject _ n f w, _, hrow, rfl, rfl⟩
    | retryable err =>
      by_cases hle : d.maxAttempts ≤ d.attempts + 1
      · have he : outcomeEvent w d (.retryable err) = .reject w := by
          simp [outcomeEvent, buries, hle]
        rw [he]
        refine ⟨_, Retry.Step.reject _ n f w, _, hrow, ?_, ?_⟩
        · exact (same_asOutcome s.cfg c d _ r).maxAttempts
        · simp [AtStage, asOutcome, hle, asDeadLettered]
      · have he : outcomeEvent w d (.retryable err) = .retry w := by
          simp [outcomeEvent, buries, hle]
        have hlt : (n : Int) < r.maxAttempts := by
          have hb : r.attempts ≤ d.attempts := hbehind
          omega
        rw [he]
        refine ⟨_, Retry.Step.retry _ n f w hlt, _, hrow, ?_, ?_, ?_⟩
        · exact (same_asOutcome s.cfg c d _ r).maxAttempts
        · simp [asOutcome, hle, asRetried]
        · simp [asOutcome, hle, asRetried, hn]
  | start | listDue | refuse | dbFail | endPass | restart => cases hl

variable (ω) in
theorem simulation (id : Uuid) :
    Simulation (freshSystem ω) (Retry.system ω) (lifeEvent id) (Tracks id) where
  init s hs := ⟨none, rfl, by rw [Tracks, hs.1]; rfl⟩
  stutter _ _ _ _ _ _ h hst hl := h.stutter hst.1.2.1 hst.2 hst.1.1.1 hst.1.1.2 hl
  step _ _ _ _ _ _ hr h hst hl :=
    h.step (owned_fresh hr) (limited hr.of_restrict) hst.2 hl

variable (ω) in
/-- The runs without a crash, a failing call or a failing check. -/
def calmSystem : System (State ω) (Label ω) :=
  (system ω).restrict fun _ l => l.succeeds = true ∧ l.checksPass = true

/-! ## The budget of sends -/

/-- A delivery has no more sends than its limit allows, in every run in which
the claims that win are fresh. -/
theorem sends_le {h : List (Label ω)} {s : State ω} (hs : (freshSystem ω).Reaches h s)
    {id : Uuid} {r : DeliveryRow} (hr : s.db.row id = some r) :
    (sends id h : Int) ≤ max 1 r.maxAttempts := by
  obtain ⟨a, ha, ht⟩ := (simulation ω id).reaches hs
  obtain ⟨stage, n, f, rfl, -⟩ := ht.row hr
  rw [sends_eq]
  exact Retry.calls_le ha

/-- The row of the hook after `n` failed attempts. -/
def failed (n : Int) : DeliveryRow :=
  { newRow hook 0 with attempts := n, lastError := some "HTTP 500" }

def sent500 : Outcome := .retryable "HTTP 500"

def alone (r : DeliveryRow) : Db := stored r [] List.nodup_nil

/-- The hook as it is listed after one failed attempt. -/
def hookFailed : Delivery := { hookRead with attempts := 1, lastError := some "HTTP 500" }

/-- The first worker sends while the second loses its claim.  The second lists the hook
again then, and makes the other attempt. -/
def twice : List (Label Bool) :=
  [.record true hookFailed sent500, .send true hookFailed 2 sent500, .claim true hookFailed 0 true,
    .listDue true 0 [hookFailed], .endPass true 0, .record false hookRead sent500,
    .claim true hookRead 0 false, .send false hookRead 1 sent500,
    .claim false hookRead 0 true] ++ listing

theorem sends_le_twice : sends 1 twice = 2 ∧ (sends 1 twice : Int) ≤ max 1 2 := by
  let S := freshSystem Bool
  let reason := "HTTP 500"
  let dead : Db := stored (asDeadLettered reason 0 (asClaimed 0 (failed 1)))
    [dlqRow 7 (asClaimed 0 (failed 1)) 1 reason 0] (List.nodup_singleton _)
  have hstart (db : Db) (w : Bool) (a b : Pc) (ha : a.held = none) (hb : b.held = none) :
      Orderly (duo db a b) (.start w 0) := orderly_start ha hb w 0
  have h₀ : S.Reaches (twice.drop 9) listed :=
    listed_reached ⟨⟨rfl, rfl⟩, trivial, trivial⟩ ⟨⟨rfl, rfl⟩, hstart _ _ _ _ rfl rfl, trivial⟩
      ⟨⟨rfl, rfl⟩, hstart _ _ _ _ rfl rfl, trivial⟩ ⟨⟨rfl, rfl⟩, trivial, trivial⟩
      ⟨⟨rfl, rfl⟩, trivial, trivial⟩
  have hfresh : ∀ r a b, ∀ d : Delivery, r.id = d.id → r.attempts ≤ (d.attempts : Int) →
      ∀ r', (duo (alone r) a b).db.row d.id = some r' → r'.attempts ≤ (d.attempts : Int) := by
    intro r a b d _ hle r' hr'
    rw [List.mem_singleton.1 (Table.mem_of_get? hr')]
    exact hle
  have h₁ : S.Reaches (twice.drop 8) (duo claimedDb (.claimed hookRead []) (.batch [hookRead])) :=
    (h₀.step (l := Label.claim false hookRead 0 true) ⟨⟨⟨rfl, rfl⟩, trivial,
      hfresh (newRow hook 0) _ _ hookRead rfl (by decide)⟩,
      Step.claim _ false hookRead [] 0 rfl⟩).of_eq (duo_ext rfl rfl rfl rfl)
  have h₂ : S.Reaches (twice.drop 7)
      (duo claimedDb (.sent hookRead sent500 []) (.batch [hookRead])) :=
    (h₁.step (l := Label.send false hookRead 1 sent500) ⟨⟨⟨rfl, rfl⟩, trivial, trivial⟩,
      Step.send _ false hookRead [] (.status 500) rfl⟩).of_eq (duo_ext rfl rfl rfl rfl)
  have h₃ : S.Reaches (twice.drop 6) (duo claimedDb (.sent hookRead sent500 []) (.batch [])) :=
    (h₂.step (l := Label.claim true hookRead 0 false) ⟨⟨⟨rfl, rfl⟩, trivial, trivial⟩,
      Step.claim _ true hookRead [] 0 rfl⟩).of_eq (duo_ext rfl rfl rfl rfl)
  have h₄ : S.Reaches (twice.drop 5) (duo (alone (failed 1)) (.batch []) (.batch [])) :=
    (h₃.step (l := Label.record false hookRead sent500) ⟨⟨⟨rfl, rfl⟩, trivial, trivial⟩,
      Step.record _ false hookRead sent500 [] noDraw (alone (failed 1)) rfl rfl⟩).of_eq
      (duo_ext rfl rfl rfl rfl)
  have h₅ : S.Reaches (twice.drop 4) (duo (alone (failed 1)) (.batch []) .polling) :=
    (h₄.step (l := Label.endPass true 0) ⟨⟨⟨rfl, rfl⟩, trivial, trivial⟩,
      Step.endPass _ true 0 rfl⟩).of_eq (duo_ext rfl rfl rfl rfl)
  have h₆ : S.Reaches (twice.drop 3) (duo (alone (failed 1)) (.batch []) (.batch [hookFailed])) :=
    (h₅.step (l := Label.listDue true 0 [hookFailed]) ⟨⟨⟨rfl, rfl⟩, trivial, trivial⟩,
      Step.listDue _ true 0 [hookFailed] rfl
        ⟨[failed 1], ⟨_, List.Perm.refl _, List.pairwise_singleton _ _, rfl⟩, rfl⟩⟩).of_eq
      (duo_ext rfl rfl rfl rfl)
  have h₇ : S.Reaches (twice.drop 2)
      (duo (alone (asClaimed 0 (failed 1))) (.batch []) (.claimed hookFailed [])) :=
    (h₆.step (l := Label.claim true hookFailed 0 true) ⟨⟨⟨rfl, rfl⟩, trivial,
      hfresh (failed 1) _ _ hookFailed rfl (by decide)⟩,
      Step.claim _ true hookFailed [] 0 rfl⟩).of_eq (duo_ext rfl rfl rfl rfl)
  have h₈ : S.Reaches (twice.drop 1)
      (duo (alone (asClaimed 0 (failed 1))) (.batch []) (.sent hookFailed sent500 [])) :=
    (h₇.step (l := Label.send true hookFailed 2 sent500) ⟨⟨⟨rfl, rfl⟩, trivial, trivial⟩,
      Step.send _ true hookFailed [] (.status 500) rfl⟩).of_eq (duo_ext rfl rfl rfl rfl)
  have h₉ : S.Reaches twice (duo dead (.batch []) (.batch [])) :=
    (h₈.step (l := Label.record true hookFailed sent500) ⟨⟨⟨rfl, rfl⟩, trivial, trivial⟩,
      Step.record _ true hookFailed sent500 [] noDraw dead rfl rfl⟩).of_eq
      (duo_ext rfl rfl rfl rfl)
  exact ⟨rfl, sends_le h₉ (r := asDeadLettered reason 0 (asClaimed 0 (failed 1))) rfl⟩

/-- Both workers send from the snapshot in which no attempt has failed, and a
third send follows. -/
theorem thrice_sent : ¬∀ h s, (calmSystem Bool).Reaches h s → ∀ id r, s.db.row id = some r →
    (sends id h : Int) ≤ max 1 r.maxAttempts := by
  intro hall
  let d₂ : Delivery := { hookRead with attempts := 2, lastError := some "HTTP 500" }
  have h₀ : (calmSystem Bool).Reaches listing listed :=
    listed_reached ⟨rfl, rfl⟩ ⟨rfl, rfl⟩ ⟨rfl, rfl⟩ ⟨rfl, rfl⟩ ⟨rfl, rfl⟩
  have h₁ : (calmSystem Bool).Reaches _
      (duo (alone (asClaimed 0 (newRow hook 0))) (.claimed hookRead []) (.batch [hookRead])) :=
    (h₀.step ⟨⟨rfl, rfl⟩, Step.claim _ false hookRead [] 0 rfl⟩).of_eq
      (duo_ext rfl rfl rfl rfl)
  have h₂ : (calmSystem Bool).Reaches _
      (duo (alone (asClaimed 0 (newRow hook 0))) (.sent hookRead sent500 []) (.batch [hookRead])) :=
    (h₁.step ⟨⟨rfl, rfl⟩, Step.send _ false hookRead [] (.status 500) rfl⟩).of_eq
      (duo_ext rfl rfl rfl rfl)
  have h₃ : (calmSystem Bool).Reaches _
      (duo (alone (failed 1)) (.batch []) (.batch [hookRead])) :=
    (h₂.step ⟨⟨rfl, rfl⟩,
      Step.record _ false hookRead sent500 [] noDraw (alone (failed 1)) rfl rfl⟩).of_eq
      (duo_ext rfl rfl rfl rfl)
  have h₄ : (calmSystem Bool).Reaches _
      (duo (alone (asClaimed 0 (failed 1))) (.batch []) (.claimed hookRead [])) :=
    (h₃.step ⟨⟨rfl, rfl⟩, Step.claim _ true hookRead [] 0 rfl⟩).of_eq
      (duo_ext rfl rfl rfl rfl)
  have h₅ : (calmSystem Bool).Reaches _
      (duo (alone (asClaimed 0 (failed 1))) (.batch []) (.sent hookRead sent500 [])) :=
    (h₄.step ⟨⟨rfl, rfl⟩, Step.send _ true hookRead [] (.status 500) rfl⟩).of_eq
      (duo_ext rfl rfl rfl rfl)
  have h₆ : (calmSystem Bool).Reaches _ (duo (alone (failed 2)) (.batch []) (.batch [])) :=
    (h₅.step ⟨⟨rfl, rfl⟩,
      Step.record _ true hookRead sent500 [] noDraw (alone (failed 2)) rfl rfl⟩).of_eq
      (duo_ext rfl rfl rfl rfl)
  have h₇ : (calmSystem Bool).Reaches _ (duo (alone (failed 2)) .polling (.batch [])) :=
    (h₆.step ⟨⟨rfl, rfl⟩, Step.endPass _ false 0 rfl⟩).of_eq (duo_ext rfl rfl rfl rfl)
  have h₈ : (calmSystem Bool).Reaches _ (duo (alone (failed 2)) (.batch [d₂]) (.batch [])) :=
    (h₇.step ⟨⟨rfl, rfl⟩, Step.listDue _ false 0 [d₂] rfl
      ⟨[failed 2], ⟨_, List.Perm.refl _, List.pairwise_singleton _ _, rfl⟩, rfl⟩⟩).of_eq
      (duo_ext rfl rfl rfl rfl)
  have h₉ : (calmSystem Bool).Reaches _
      (duo (alone (asClaimed 0 (failed 2))) (.claimed d₂ []) (.batch [])) :=
    (h₈.step ⟨⟨rfl, rfl⟩, Step.claim _ false d₂ [] 0 rfl⟩).of_eq (duo_ext rfl rfl rfl rfl)
  have h₁₀ := h₉.step ⟨⟨rfl, rfl⟩, Step.send _ false d₂ [] (.status 500) rfl⟩
  have hle : ((3 : Nat) : Int) ≤ max 1 2 := hall _ _ h₁₀ 1 (asClaimed 0 (failed 2)) rfl
  exact absurd hle (by decide)

end Q
end WebhookDelivery
