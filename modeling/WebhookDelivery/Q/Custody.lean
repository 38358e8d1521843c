/-
What becomes of a delivery that `q` has in flight.

It is with the worker that claimed it last, until that worker fails to store its outcome or
the process ends.  Once no worker has a copy of it, nothing touches it any more but a worker
that starts, and that only if the claim is old enough by then.
-/
import WebhookDelivery.Run.Progress
import WebhookDelivery.Q.Labels
import WebhookDelivery.Q.Recovery

namespace WebhookDelivery
namespace Q

open Sql Run

variable {ω : Type}

/-- The label is a claim of the delivery, and it is won. -/
def Label.takes (id : Uuid) : Label ω → Bool
  | .claim _ d _ won => decide (d.id = id) && won
  | _ => false

/-- The worker `w` lets go of the delivery with no outcome stored. -/
def Loses (w : ω) (id : Uuid) (e : State ω × Label ω) : Prop :=
  match e.2 with
  | .dbFail v => v = w ∧ ∃ d out rest, e.1.pc w = .sent d out rest ∧ d.id = id
  | .restart _ => True
  | _ => False

/-- The last claim of the delivery is in the history at the time its row shows, and the worker
that made it has the delivery as long as it has not lost it. -/
def ClaimedLast (h : List (State ω × Label ω)) (s : State ω) (r : DeliveryRow) : Prop :=
  ∃ h₁ s₀ w d h₀, h = h₁ ++ (s₀, .claim w d r.updatedAt true) :: h₀ ∧ d.id = r.id ∧
    (∀ e ∈ h₁, e.2.takes r.id = false) ∧ (r.id ∈ s.heldIds w ↔ ∀ e ∈ h₁, ¬Loses w r.id e)

variable [DecidableEq ω]

/-! ## One step -/

/-- A row in flight has just been claimed, or was in flight before. -/
theorem Step.inFlight_of {s t : State ω} {l : Label ω} (hst : Step s l t) {id : Uuid}
    {r : DeliveryRow} (hr : t.db.row id = some r) (hflight : r.status = .inFlight)
    (hno : l.takes id = false) : s.db.row id = some r := by
  cases hst with
  | insert d now db hins =>
    have hrow := (row_insert hins id).2.1
    by_cases hid : d.id = id
    · obtain rfl := Option.some.inj ((hrow.trans (if_pos hid)).symm.trans hr)
      cases hflight
    · exact (hrow.trans (if_neg hid)).symm.trans hr
  | replay id' now =>
    have hrow := row_replayDeadLetter s.db id' now id
    by_cases hid : id = id'
    · obtain ⟨r₀, hr₀, rfl⟩ := Option.map_eq_some_iff.1 ((hrow.trans (if_pos hid)).symm.trans hr)
      by_cases hdead : r₀.status = .deadLetter
      · rw [if_pos hdead] at hflight
        cases hflight
      · rw [if_neg hdead, hid, hr₀]
    · exact (hrow.trans (if_neg hid)).symm.trans hr
  | start w now hpc =>
    have hrow := row_resetStaleInFlight s.db now s.staleMs id
    obtain ⟨r₀, hr₀, rfl⟩ := Option.map_eq_some_iff.1 (hrow.symm.trans hr)
    by_cases hstale : isStale now s.staleMs r₀ = true
    · rw [if_pos hstale] at hflight
      cases hflight
    · rw [if_neg hstale, hr₀]
  | refuse w d rest check reason c entry db hpc hcheck hdl =>
    have hrow := (deadLetter_ok hdl id).1
    by_cases hid : id = d.id
    · obtain ⟨r₀, -, rfl⟩ := Option.map_eq_some_iff.1 ((hrow.trans (if_pos hid)).symm.trans hr)
      cases hflight
    · exact (hrow.trans (if_neg hid)).symm.trans hr
  | claim w d rest now hpc =>
    have hrow := row_claim s.db d.id now id
    by_cases hid : id = d.id
    · obtain ⟨r₀, hr₀, rfl⟩ := Option.map_eq_some_iff.1 ((hrow.trans (if_pos hid)).symm.trans hr)
      by_cases hpending : r₀.status = .pending
      · have hwon : (Q.claim s.db d.id now).1 = true :=
          (claim_fst s.db d.id now).2 ⟨r₀, hr₀, hpending⟩
        simp [Label.takes, hid, hwon] at hno
      · rw [if_neg hpending, hid, hr₀]
    · exact (hrow.trans (if_neg hid)).symm.trans hr
  | record w d out rest c db hpc hrec =>
    have hrow := (recordOutcome_ok hrec id).1
    by_cases hid : id = d.id
    · obtain ⟨r₀, -, rfl⟩ := Option.map_eq_some_iff.1 ((hrow.trans (if_pos hid)).symm.trans hr)
      exact absurd hflight (asOutcome_not_inFlight _ _ _ _ _)
    · exact (hrow.trans (if_neg hid)).symm.trans hr
  | listDue | send | dbFail | endPass | restart => exact hr

/-- What a worker has after a step it had before, but for a claim that it wins, the end of a
send and a restart. -/
theorem Step.heldIds {s t : State ω} {l : Label ω} (hst : Step s l t) (w : ω) :
    t.heldIds w = s.heldIds w ∨
      (∃ d now, l = .claim w d now true ∧ s.heldIds w = [] ∧ t.heldIds w = [d.id]) ∨
      (∃ d out rest, s.pc w = .sent d out rest ∧ (l = .dbFail w ∨ l = .record w d out) ∧
        t.heldIds w = []) ∨
      ∃ cfg, l = .restart cfg ∧ t.heldIds w = [] := by
  have hset : ∀ {v : ω} {db : Db} {pc : Pc},
      (v = w → pc.held = (s.pc w).held) →
      (State.setPc { s with db := db } v pc).heldIds w = s.heldIds w := by
    intro v db pc hpc
    unfold State.heldIds
    by_cases hw : w = v
    · rw [← hw, State.setPc_self, hpc hw.symm]
    · rw [State.setPc_ne _ _ hw]
  have hidle : ∀ {v : ω} {pc : Pc}, s.pc v = pc → pc.held = none → v = w →
      none = (s.pc w).held := by
    rintro v pc hpc hnone rfl
    rw [hpc, hnone]
  cases hst with
  | insert | replay => exact .inl rfl
  | start v now hpc => exact .inl (hset (hidle hpc rfl))
  | listDue v now ds hpc hlist => exact .inl (hset (hidle hpc rfl))
  | refuse v d rest check reason c entry db hpc hcheck hdl => exact .inl (hset (hidle hpc rfl))
  | endPass v now hpc => exact .inl (hset (hidle hpc rfl))
  | claim v d rest now hpc =>
    cases hwon : (Q.claim s.db d.id now).1 with
    | false => exact .inl (hset (hidle hpc rfl))
    | true =>
      by_cases hw : w = v
      · subst hw
        refine .inr (.inl ⟨d, now, rfl, by rw [State.heldIds, hpc]; rfl, ?_⟩)
        rw [State.heldIds, State.setPc_self]
        rfl
      · exact .inl (hset fun h => absurd h.symm hw)
  | send v d rest resp hpc =>
    refine .inl (hset fun h => ?_)
    subst h
    rw [hpc]
    rfl
  | record v d out rest c db hpc hrec =>
    by_cases hw : w = v
    · subst hw
      refine .inr (.inr (.inl ⟨d, out, rest, hpc, .inr rfl, ?_⟩))
      rw [State.heldIds, State.setPc_self]
      rfl
    · exact .inl (hset fun h => absurd h.symm hw)
  | dbFail v =>
    by_cases hw : w = v
    · subst hw
      cases hpc : s.pc w with
      | down | polling | batch ds | claimed d rest =>
        refine .inl (hset fun _ => ?_)
        rw [hpc]
        rfl
      | sent d out rest =>
        refine .inr (.inr (.inl ⟨d, out, rest, rfl, .inl rfl, ?_⟩))
        rw [State.heldIds, State.setPc_self]
        rfl
    · exact .inl (hset fun h => absurd h.symm hw)
  | restart cfg => exact .inr (.inr (.inr ⟨cfg, rfl, rfl⟩))

/-- A worker that loses a delivery has it no more. -/
theorem Step.lost {s t : State ω} {l : Label ω} (hst : Step s l t) {w : ω} {id : Uuid}
    (hloses : Loses w id (s, l)) : id ∉ t.heldIds w := by
  cases hst with
  | dbFail v =>
    obtain ⟨rfl, d, out, rest, hpc, -⟩ := hloses
    rw [State.heldIds, State.setPc_self, hpc]
    exact List.not_mem_nil
  | restart cfg => exact List.not_mem_nil
  | _ => exact hloses.elim

/-- While its row stays in flight, a worker has a delivery until it loses it. -/
theorem Step.keeps_held {s t : State ω} {l : Label ω} (hst : Step s l t) {w : ω} {id : Uuid}
    {r : DeliveryRow} (hr : t.db.row id = some r) (hflight : r.status = .inFlight)
    (hid : id ∈ s.heldIds w) (hkeeps : ¬Loses w id (s, l)) :
    id ∈ t.heldIds w := by
  rcases hst.heldIds w with hsame | ⟨d, now, -, hnone, -⟩ | ⟨d, out, rest, hpc, hl, -⟩ |
    ⟨cfg, rfl, -⟩
  · rw [hsame]
    exact hid
  · rw [hnone] at hid
    exact absurd hid List.not_mem_nil
  · obtain ⟨d', hd', rfl⟩ := mem_heldIds.1 hid
    rw [hpc] at hd'
    obtain rfl : d = d' := Option.some.inj hd'
    rcases hl with rfl | rfl
    · exact absurd ⟨rfl, d, out, rest, hpc, rfl⟩ hkeeps
    · cases hst with
      | record _ _ _ _ c db _ hrec =>
        have hrow := (recordOutcome_ok hrec d.id).1.symm.trans hr
        rw [if_pos rfl] at hrow
        obtain ⟨r₀, -, rfl⟩ := Option.map_eq_some_iff.1 hrow
        exact absurd hflight (asOutcome_not_inFlight _ _ _ _ _)
  · exact absurd trivial hkeeps

/-- What a worker has it had before, unless it has claimed it. -/
theorem Step.held_of {s t : State ω} {l : Label ω} (hst : Step s l t) {w : ω} {id : Uuid}
    (hid : id ∈ t.heldIds w) (hno : l.takes id = false) : id ∈ s.heldIds w := by
  rcases hst.heldIds w with hsame | ⟨d, now, rfl, -, hnow⟩ | ⟨-, -, -, -, -, hnone⟩ | ⟨-, -, hnone⟩
  · rw [← hsame]
    exact hid
  · rw [hnow, List.mem_singleton] at hid
    simp [Label.takes, hid] at hno
  · rw [hnone] at hid
    exact absurd hid List.not_mem_nil
  · rw [hnone] at hid
    exact absurd hid List.not_mem_nil

/-! ## From the last claim on -/

/-- A won claim sets the row to its time. -/
theorem Step.taken {s t : State ω} {l : Label ω} (hst : Step s l t) {id : Uuid}
    (htakes : l.takes id = true) {r : DeliveryRow} (hr : t.db.row id = some r) :
    ∃ w d, l = .claim w d r.updatedAt true ∧ d.id = id ∧ id ∈ t.heldIds w := by
  cases hst with
  | claim w d rest now hpc =>
    obtain ⟨hid, hwon⟩ := Bool.and_eq_true_iff.1 htakes
    obtain rfl : d.id = id := of_decide_eq_true hid
    obtain ⟨r₀, hr₀, hpending⟩ := (claim_fst s.db d.id now).1 hwon
    have hrow := (row_claim s.db d.id now d.id).symm.trans hr
    rw [if_pos rfl, hr₀, Option.map_some, if_pos hpending] at hrow
    obtain rfl := Option.some.inj hrow
    refine ⟨w, d, by rw [hwon]; rfl, rfl, ?_⟩
    rw [State.heldIds, State.setPc_self, if_pos hwon]
    exact List.mem_singleton_self _
  | _ => cases htakes

theorem claimed_last {h : List (State ω × Label ω)} {s : State ω}
    (hs : (system ω).logged.Reaches h s) {r : DeliveryRow} (hr : s.db.row r.id = some r)
    (hflight : r.status = .inFlight) : ClaimedLast h s r := by
  induction hs with
  | init hinit =>
    rw [hinit.1] at hr
    cases hr
  | @step h s e t hs hst ih =>
    obtain ⟨s', l⟩ := e
    obtain ⟨heq, hst⟩ := hst
    obtain rfl : s' = s := heq
    cases htakes : l.takes r.id with
    | true =>
      obtain ⟨w, d, rfl, hid, hheld⟩ := Step.taken hst htakes hr
      exact ⟨[], s', w, d, h, rfl, hid, fun e he => absurd he List.not_mem_nil,
        fun _ e he => absurd he List.not_mem_nil, fun _ => hheld⟩
    | false =>
      obtain ⟨h₁, s₀, w, d, h₀, rfl, hid, hnone, hiff⟩ :=
        ih (Step.inFlight_of hst hr hflight htakes)
      refine ⟨(s', l) :: h₁, s₀, w, d, h₀, rfl, hid, ?_, fun hheld => ?_, fun hkeeps => ?_⟩
      · exact List.forall_mem_cons.2 ⟨htakes, hnone⟩
      · refine List.forall_mem_cons.2 ⟨fun hloses => ?_, hiff.1 (Step.held_of hst hheld htakes)⟩
        exact Step.lost hst hloses hheld
      · obtain ⟨hnow, hbefore⟩ := List.forall_mem_cons.1 hkeeps
        exact Step.keeps_held hst hr hflight (hiff.2 hbefore) hnow

/-! ## Left in flight -/

/-- The row is in flight, and no worker has a copy of it. -/
structure LeftInFlight (s : State ω) (r : DeliveryRow) : Prop where
  row : s.db.row r.id = some r
  inFlight : r.status = .inFlight
  unlisted : ∀ w, ∀ d ∈ (s.pc w).snapshots, d.id ≠ r.id

/-- A worker starts when the claim is as old as its threshold, and puts the row back.  The
threshold is the setting if this is no number that its cast to `i64` makes negative. -/
def PutBack (r : DeliveryRow) (e : State ω × Label ω) : Prop :=
  ∃ w now t, e.2 = .start w now ∧ r.updatedAt ≤ now - e.1.staleMs ∧
    (e.1.cfg.staleInFlightMs < 2 ^ 63 → r.updatedAt + e.1.cfg.staleInFlightMs ≤ now) ∧
    Step e.1 e.2 t ∧ t.db.row r.id = some (asReset now r)

theorem LeftInFlight.step {s t : State ω} {l : Label ω} {r : DeliveryRow}
    (hs : LeftInFlight s r) (hst : Step s l t) : LeftInFlight t r ∨ PutBack r (s, l) := by
  rcases hst.row_unlisted hs.row hs.unlisted with hr | ⟨w, now, rfl, hstale, hr⟩ | ⟨now, hdead, -⟩
  · refine .inl ⟨hr, hs.inFlight, fun w d hd hid => ?_⟩
    rcases hst.snapshots hd with hd | ⟨r', now, ds, -, hr', hpending, -⟩
    · exact hs.unlisted w d hd hid
    · rw [hid, hs.row] at hr'
      obtain rfl := Option.some.inj hr'
      rw [hs.inFlight] at hpending
      cases hpending
  · have hold : r.updatedAt ≤ now - s.staleMs := (isStale_iff.1 hstale).2
    refine .inr ⟨w, now, t, rfl, hold, fun hsmall => ?_, hst, hr⟩
    rw [State.staleMs, asI64_of_lt hsmall] at hold
    omega
  · rw [hs.inFlight] at hdead
    cases hdead

/-- It stays as it is and is not sent until it is put back. -/
theorem LeftInFlight.path {s t : State ω} {h : List (State ω × Label ω)} {r : DeliveryRow}
    (hs : LeftInFlight s r) (hst : (system ω).logged.Path s h t) :
    (LeftInFlight t r ∧ ∀ e ∈ h, e.2.sends r.id = false) ∨
      ∃ h₁ e h₀, h = h₁ ++ e :: h₀ ∧ PutBack r e ∧ ∀ e ∈ h₀, e.2.sends r.id = false := by
  induction hst with
  | nil => exact .inl ⟨hs, fun e he => absurd he List.not_mem_nil⟩
  | @cons h t e u _ hl ih =>
    obtain ⟨t', l⟩ := e
    obtain ⟨heq, hl⟩ := hl
    obtain rfl : t' = t := heq
    rcases ih with ⟨hleft, hnone⟩ | ⟨h₁, e, h₀, rfl, hback⟩
    · rcases hleft.step hl with hu | hback
      · exact .inl ⟨hu, List.forall_mem_cons.2 ⟨Step.not_sent hl hleft.unlisted, hnone⟩⟩
      · exact .inr ⟨[], (t', l), h, rfl, hback, hnone⟩
    · exact .inr ⟨(t', l) :: h₁, e, h₀, rfl, hback⟩

/-- A delivery in flight is with the worker that claimed it last, if and only if this worker
has not failed to store its outcome since and no process has ended.  With no copy of it
anywhere it stays in flight, and it is not sent, until a worker starts at least the stale
threshold after that claim; such a start makes it pending. -/
theorem in_flight_exact {h : List (State ω × Label ω)} {s : State ω}
    (hs : (system ω).logged.Reaches h s) {r : DeliveryRow} (hr : s.db.row r.id = some r)
    (hflight : r.status = .inFlight) :
    ClaimedLast h s r ∧
      ((∀ w, ∀ d ∈ (s.pc w).snapshots, d.id ≠ r.id) → ∀ h' t, (system ω).logged.Path s h' t →
        (t.db.row r.id = some r ∧ ∀ e ∈ h', e.2.sends r.id = false) ∨
          ∃ h₁ e h₀, h' = h₁ ++ e :: h₀ ∧ PutBack r e ∧ ∀ e ∈ h₀, e.2.sends r.id = false) := by
  refine ⟨claimed_last hs hr hflight, fun hfree h' t hpath => ?_⟩
  rcases (LeftInFlight.mk hr hflight hfree).path hpath with ⟨hleft, hnone⟩ | hback
  · exact .inl ⟨hleft.row, hnone⟩
  · exact .inr hback

/-- The process dies with the hook claimed.  The first worker of the next one starts too
early for it, and the second puts it back. -/
theorem in_flight_exact_restart : ∃ h h' : List (State Bool × Label Bool),
    (system Bool).logged.Reaches h (duo claimedDb .down .down) ∧
      ClaimedLast h (duo claimedDb .down .down) (asClaimed 0 (newRow hook 0)) ∧
      ∃ h₁ e h₀, h' = h₁ ++ e :: h₀ ∧ PutBack (asClaimed 0 (newRow hook 0)) e ∧
        h'.map Prod.snd = [.start true 5000, .start false 1] := by
  have hdown : (system Bool).Reaches _ (duo claimedDb .down .down) :=
    (claiming_reached.step (Step.restart _ quick)).of_eq (duo_ext rfl rfl rfl rfl)
  obtain ⟨h, -, hlogged⟩ := hdown.logged
  obtain ⟨hlast, hpath⟩ := in_flight_exact hlogged (r := asClaimed 0 (newRow hook 0)) rfl rfl
  have hnone : ∀ w, ∀ d ∈ ((duo claimedDb .down .down).pc w).snapshots,
      d.id ≠ (asClaimed 0 (newRow hook 0)).id := by
    intro w d hd
    cases w with
    | false | true => exact absurd hd List.not_mem_nil
  have p₁ := System.Path.one (S := (system Bool).logged)
    (l := (duo claimedDb .down .down, Label.start false 1)) ⟨rfl, Step.start _ false 1 rfl⟩
  have p₂ := p₁.cons (l := (_, Label.start true 5000)) ⟨rfl, Step.start _ true 5000 rfl⟩
  rcases hpath hnone _ _ p₂ with ⟨hrow, -⟩ | ⟨h₁, e, h₀, heq, hback, -⟩
  · have hpending : DeliveryStatus.pending = .inFlight :=
      congrArg DeliveryRow.status (Option.some.inj hrow)
    cases hpending
  · exact ⟨h, _, hlogged, hlast, h₁, e, h₀, heq, hback, rfl⟩

end Q
end WebhookDelivery
