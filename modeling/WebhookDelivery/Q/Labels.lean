/-
What a label tells of its step.

A delivery ends, delivered or dead-lettered, in a step whose label says so, and
the labels of a worker tell where it was.
-/
import WebhookDelivery.Q.Snapshots

namespace WebhookDelivery
namespace Q

open Sql Run

variable {ω : Type}

/-- The final status that a label gives the delivery. -/
def Label.final (id : Uuid) : Label ω → Option DeliveryStatus
  | .refuse _ d _ => if d.id = id then some .deadLetter else none
  | .record _ d .delivered => if d.id = id then some .delivered else none
  | .record _ d out => if d.id = id ∧ buries d out then some .deadLetter else none
  | _ => none

theorem Label.of_final_delivered {id : Uuid} {l : Label ω} (h : l.final id = some .delivered) :
    ∃ w d, l = .record w d .delivered ∧ d.id = id := by
  cases l with
  | record w d out =>
    cases out with
    | delivered =>
      by_cases hid : d.id = id
      · exact ⟨w, d, rfl, hid⟩
      · simp [Label.final, hid] at h
    | retryable err | permanent err => simp [Label.final] at h
  | refuse w d check => simp [Label.final] at h
  | insert | replay | start | listDue | claim | send | dbFail | endPass | restart => cases h

variable [DecidableEq ω]

/-- A delivery gets its final status from the label that says so. -/
theorem Step.final {s t : State ω} {l : Label ω} (hst : Step s l t) {id : Uuid}
    {r' : DeliveryRow} (hr' : t.db.row id = some r')
    (hfinal : r'.status = .delivered ∨ r'.status = .deadLetter) :
    (∃ r, s.db.row id = some r ∧ r.status = r'.status) ∨ l.final id = some r'.status := by
  have hkeep : t.db.row id = s.db.row id → ∃ r, s.db.row id = some r ∧ r.status = r'.status :=
    fun h => ⟨r', h.symm.trans hr', rfl⟩
  -- an update of rows to a status that is not final
  have hlive : ∀ (p : DeliveryRow → Bool) (f : DeliveryRow → DeliveryRow),
      (∀ r, (f r).status ≠ .delivered ∧ (f r).status ≠ .deadLetter) →
      t.db.row id = (s.db.row id).map (fun r => if p r = true then f r else r) →
      ∃ r, s.db.row id = some r ∧ r.status = r'.status := by
    intro p f hf hrow
    obtain ⟨r, hr, hrr⟩ := Option.map_eq_some_iff.1 (hrow.symm.trans hr')
    by_cases hp : p r = true
    · rw [if_pos hp] at hrr
      subst hrr
      rcases hfinal with hdone | hdead
      · exact absurd hdone (hf r).1
      · exact absurd hdead (hf r).2
    · rw [if_neg hp] at hrr
      exact ⟨r, hr, congrArg DeliveryRow.status hrr⟩
  cases hst with
  | insert d now db hins =>
    obtain ⟨-, hrow, -⟩ := row_insert hins id
    by_cases hid : d.id = id
    · have hnew : r' = newRow d now :=
        (Option.some.inj ((hrow.trans (if_pos hid)).symm.trans hr')).symm
      subst hnew
      rcases hfinal with hdone | hdead
      · cases hdone
      · cases hdead
    · exact .inl (hkeep (hrow.trans (if_neg hid)))
  | replay id' now =>
    have hrow := row_replayDeadLetter s.db id' now id
    by_cases hid : id = id'
    · refine .inl (hlive (fun r => decide (r.status = .deadLetter)) (asReplayed now)
        (fun r => by simp [asReplayed]) ((hrow.trans (if_pos hid)).trans ?_))
      simp [hid]
    · exact .inl (hkeep (hrow.trans (if_neg hid)))
  | start w now hpc =>
    exact .inl (hlive (isStale now s.staleMs) (asReset now) (fun r => by simp [asReset])
      (row_resetStaleInFlight s.db now s.staleMs id))
  | refuse w d rest check reason c entry db hpc hcheck hdl =>
    have hrow := (deadLetter_ok hdl id).1
    by_cases hid : id = d.id
    · obtain ⟨r, -, rfl⟩ := Option.map_eq_some_iff.1 ((hrow.trans (if_pos hid)).symm.trans hr')
      exact .inr (by simp [Label.final, hid, asDeadLettered])
    · exact .inl (hkeep (hrow.trans (if_neg hid)))
  | claim w d rest now hpc =>
    have hrow := row_claim s.db d.id now id
    by_cases hid : id = d.id
    · refine .inl (hlive (fun r => decide (r.status = .pending)) (asClaimed now)
        (fun r => by simp [asClaimed]) ((hrow.trans (if_pos hid)).trans ?_))
      simp [hid]
    · exact .inl (hkeep (hrow.trans (if_neg hid)))
  | record w d out rest c db hpc hrec =>
    have hrow := (recordOutcome_ok hrec id).1
    by_cases hid : id = d.id
    · obtain ⟨r, -, rfl⟩ := Option.map_eq_some_iff.1 ((hrow.trans (if_pos hid)).symm.trans hr')
      refine .inr ?_
      cases out with
      | delivered => simp [Label.final, hid, asOutcome, asDelivered]
      | permanent err => simp [Label.final, hid, asOutcome, asDeadLettered, buries]
      | retryable err =>
        by_cases hle : d.maxAttempts ≤ d.attempts + 1
        · simp [Label.final, hid, asOutcome, asDeadLettered, buries, hle]
        · simp [asOutcome, asRetried, hle] at hfinal
    · exact .inl (hkeep (hrow.trans (if_neg hid)))
  | listDue | send | dbFail | endPass | restart => exact .inl (hkeep rfl)

/-- A worker that holds the outcome of a send has just made the send, or held
it before. -/
theorem Step.sent {s t : State ω} {l : Label ω} (hst : Step s l t) {w : ω} {d : Delivery}
    {out : Outcome} {rest : List Delivery} (hpc : t.pc w = .sent d out rest) :
    s.pc w = .sent d out rest ∨ l = .send w d (d.attempts + 1) out := by
  have hset : ∀ (v : ω) (db : Db) (pc : Pc), (∀ d out rest, pc ≠ .sent d out rest) →
      (State.setPc { s with db := db } v pc).pc w = .sent d out rest →
      s.pc w = .sent d out rest :=
    fun _ db pc hne => State.of_setPc (P := fun pc => pc = .sent d out rest) db pc
      (fun h => absurd h (hne d out rest)) w
  cases hst with
  | insert | replay => exact .inl hpc
  | start v now hv => exact .inl (hset v _ .polling (fun _ _ _ h => nomatch h) hpc)
  | listDue v now ds hv hlist =>
    exact .inl (hset v s.db (.batch ds) (fun _ _ _ h => nomatch h) hpc)
  | refuse v d' rest' check reason c entry db hv hcheck hdl =>
    exact .inl (hset v db (.batch rest') (fun _ _ _ h => nomatch h) hpc)
  | claim v d' rest' now hv =>
    refine .inl (hset v _ _ (fun _ _ _ h => ?_) hpc)
    split at h <;> cases h
  | send v d' rest' resp hv =>
    by_cases hw : w = v
    · subst hw
      rw [State.setPc_self] at hpc
      cases hpc
      exact .inr rfl
    · rw [State.setPc_ne _ _ hw] at hpc
      exact .inl hpc
  | record v d' out' rest' c db hv hrec =>
    exact .inl (hset v db (.batch rest') (fun _ _ _ h => nomatch h) hpc)
  | dbFail v =>
    by_cases hw : w = v
    · subst hw
      rw [State.setPc_self] at hpc
      cases hs : s.pc w <;> rw [hs] at hpc <;> cases hpc
    · rw [State.setPc_ne _ _ hw] at hpc
      exact .inl hpc
  | endPass v now hv => exact .inl (hset v s.db .polling (fun _ _ _ h => nomatch h) hpc)
  | restart cfg => cases hpc

/-- A check that fails dead-letters its delivery. -/
theorem Step.refused {s t : State ω} {w : ω} {d : Delivery} {check : Check}
    (hst : Step s (.refuse w d check) t) :
    ∃ reason c, check.reason = some reason ∧
      t.db.row d.id = (s.db.row d.id).map (asDeadLettered reason (Draw.now c)) := by
  cases hst with
  | refuse _ _ rest _ reason c entry db hpc hcheck hdl =>
    exact ⟨reason, c, hcheck, (deadLetter_ok hdl d.id).1.trans (if_pos rfl)⟩

/-- A delivery is marked delivered by the worker that has the outcome. -/
theorem Step.recorded {s t : State ω} {w : ω} {d : Delivery} {out : Outcome}
    (hst : Step s (.record w d out) t) : ∃ rest, s.pc w = .sent d out rest := by
  cases hst with
  | record _ _ _ rest c db hpc hrec => exact ⟨rest, hpc⟩

/-- A send is made of what the worker has claimed, and classified by its response. -/
theorem Step.claimed {s t : State ω} {w : ω} {d : Delivery} {n : Nat} {out : Outcome}
    (hst : Step s (.send w d n out) t) :
    (∃ rest, s.pc w = .claimed d rest) ∧ ∃ resp : Response, out = resp.outcome := by
  cases hst with
  | send _ _ rest resp hpc => exact ⟨⟨rest, hpc⟩, resp, rfl⟩

/-- A row that no worker has a copy of changes by a reset or a replay only. -/
theorem Step.row_unlisted {s t : State ω} {l : Label ω} (hst : Step s l t) {id : Uuid}
    {r : DeliveryRow} (hr : s.db.row id = some r)
    (hfree : ∀ w, ∀ d ∈ (s.pc w).snapshots, d.id ≠ id) :
    t.db.row id = some r ∨
      (∃ w now, l = .start w now ∧ isStale now s.staleMs r = true ∧
        t.db.row id = some (asReset now r)) ∨
      ∃ now, r.status = .deadLetter ∧ l = .replay id now true ∧
        t.db.row id = some (asReplayed now r) := by
  have hother : ∀ {w : ω} {d : Delivery}, d ∈ (s.pc w).snapshots → id ≠ d.id :=
    fun hd => (hfree _ _ hd).symm
  cases hst with
  | insert d now db hins => exact .inl (row_insert_of_some hins hr)
  | replay id' now =>
    have hrow := row_replayDeadLetter s.db id' now id
    by_cases hid : id = id'
    · subst hid
      rw [if_pos rfl, hr, Option.map_some] at hrow
      by_cases hdead : r.status = .deadLetter
      · rw [if_pos hdead] at hrow
        have hok : (replayDeadLetter s.db id now).1 = true :=
          (replayDeadLetter_fst s.db id now).2 ⟨r, hr, hdead⟩
        exact .inr (.inr ⟨now, hdead, by rw [hok], hrow⟩)
      · rw [if_neg hdead] at hrow
        exact .inl hrow
    · exact .inl ((hrow.trans (if_neg hid)).trans hr)
  | start w now hpc =>
    have hrow := row_resetStaleInFlight s.db now s.staleMs id
    rw [hr, Option.map_some] at hrow
    by_cases hstale : isStale now s.staleMs r = true
    · rw [if_pos hstale] at hrow
      exact .inr (.inl ⟨w, now, rfl, hstale, hrow⟩)
    · rw [if_neg hstale] at hrow
      exact .inl hrow
  | refuse w d rest check reason c entry db hpc hcheck hdl =>
    have hd : d ∈ (s.pc w).snapshots := by simp [hpc, Pc.snapshots]
    exact .inl (((deadLetter_ok hdl id).1.trans (if_neg (hother hd))).trans hr)
  | claim w d rest now hpc =>
    have hd : d ∈ (s.pc w).snapshots := by simp [hpc, Pc.snapshots]
    exact .inl (((row_claim s.db d.id now id).trans (if_neg (hother hd))).trans hr)
  | record w d out rest c db hpc hrec =>
    have hd : d ∈ (s.pc w).snapshots := by simp [hpc, Pc.snapshots]
    exact .inl (((recordOutcome_ok hrec id).1.trans (if_neg (hother hd))).trans hr)
  | listDue | send | dbFail | endPass | restart => exact .inl hr

/-- Nor is its delivery sent. -/
theorem Step.not_sent {s t : State ω} {l : Label ω} (hst : Step s l t) {id : Uuid}
    (hfree : ∀ w, ∀ d ∈ (s.pc w).snapshots, d.id ≠ id) : l.sends id = false := by
  cases l with
  | send w d attempt out =>
    obtain ⟨⟨rest, hpc⟩, -⟩ := hst.claimed
    have hd : d ∈ (s.pc w).snapshots := by simp [hpc, Pc.snapshots]
    exact decide_eq_false (hfree w d hd)
  | insert | replay | start | listDue | refuse | claim | record | dbFail | endPass | restart => rfl

end Q
end WebhookDelivery
