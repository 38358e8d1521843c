/-
The attempts that a dead letter shows.

With one worker, no crash and no failing call, the row of a delivery counts its
sends: all of them while none waits to be recorded.  `mark_delivered` and
`schedule_retry` count the send they record and `dead_letter` does not, so the
entry it makes counts one less, unless it comes from a check and not from a send.
-/
import WebhookDelivery.Q.Attempts
import WebhookDelivery.Q.Idempotency

namespace WebhookDelivery
namespace Q

open Sql Run

/-- One worker, no crash, and every call to the database succeeds. -/
def soleSystem : System (State Unit) (Label Unit) :=
  (system Unit).restrict fun _ l => l.succeeds = true

/-- The sends of `id` that are not recorded yet. -/
def Pc.unrecorded (id : Uuid) : Pc → Nat
  | .sent d _ _ => if d.id = id then 1 else 0
  | _ => 0

/-- What the worker has still to come to. -/
def Pc.queued : Pc → List Delivery
  | .down | .polling => []
  | .batch ds => ds
  | .claimed _ rest | .sent _ _ rest => rest

/-- The row, if it is a live one, counts `n` sends but for the last `u`. -/
def Counts (n u : Nat) (row : Option DeliveryRow) : Prop :=
  ∀ r, row = some r → r.status ≠ .deadLetter → 0 ≤ r.attempts ∧ r.attempts + u = n

/-- Live rows count the sends that are recorded, the worker's queue is pending, and
what it holds is in flight. -/
structure Accounted (h : List (Label Unit)) (s : State Unit) : Prop where
  counted : ∀ id, Counts (sends id h) ((s.pc ()).unrecorded id) (s.db.row id)
  queued : ∀ d ∈ (s.pc ()).queued, ∃ r, s.db.row d.id = some r ∧ r.status = .pending
  held : ∀ d, (s.pc ()).held = some d → ∃ r, s.db.row d.id = some r ∧ r.status = .inFlight
  distinct : ((s.pc ()).queued.map Delivery.id).Nodup

section Counts

variable {n u : Nat} {row : Option DeliveryRow}

theorem Counts.map {f : DeliveryRow → DeliveryRow} (h : Counts n u row)
    (hf : ∀ r, (f r).status ≠ .deadLetter → r.status ≠ .deadLetter ∧ (f r).attempts = r.attempts) :
    Counts n u (row.map f) := by
  intro r' hr' hlive
  obtain ⟨r, rfl, rfl⟩ := Option.map_eq_some_iff.1 hr'
  obtain ⟨hlive', hatt⟩ := hf r hlive
  rw [hatt]
  exact h r rfl hlive'

theorem Counts.dead (row : Option DeliveryRow) (n u : Nat) (err : String) (now : Int) :
    Counts n u (row.map (asDeadLettered err now)) := by
  intro r' hr' hlive
  obtain ⟨r, -, rfl⟩ := Option.map_eq_some_iff.1 hr'
  exact absurd rfl hlive

/-- Recording a send counts it, except in a dead letter. -/
theorem Counts.outcome {cfg : Config} {c : Draw} {d : Delivery} {out : Outcome}
    (h : Counts n 1 row) (hlive : ∀ r, row = some r → r.status ≠ .deadLetter) :
    Counts n 0 (row.map (asOutcome cfg c d out)) := by
  intro r' hr' hlive'
  obtain ⟨r, hr, rfl⟩ := Option.map_eq_some_iff.1 hr'
  have hcount := h r hr (hlive r hr)
  have hnext : 0 ≤ r.attempts + 1 ∧ r.attempts + 1 + (0 : Nat) = n := by
    obtain ⟨hpos, hsum⟩ := hcount
    omega
  cases out with
  | delivered => exact hnext
  | permanent err => exact absurd rfl hlive'
  | retryable err =>
    by_cases hle : d.maxAttempts ≤ d.attempts + 1
    · simp [asOutcome, hle, asDeadLettered] at hlive'
    · simpa [asOutcome, hle, asRetried] using hnext

theorem Counts.claimed (h : Counts n u row) (now : Int) :
    Counts n u (row.map fun r => if r.status = .pending then asClaimed now r else r) := by
  refine h.map fun r hlive => ?_
  by_cases hst : r.status = .pending
  · rw [if_pos hst]
    exact ⟨by rw [hst]; decide, rfl⟩
  · rw [if_neg hst] at hlive ⊢
    exact ⟨hlive, rfl⟩

theorem Counts.recovered (h : Counts n u row) (now staleMs : Int) :
    Counts n u (row.map fun r => if isStale now staleMs r = true then asReset now r else r) := by
  refine h.map fun r hlive => ?_
  by_cases hstale : isStale now staleMs r = true
  · rw [if_pos hstale]
    exact ⟨by rw [(isStale_iff.1 hstale).1]; decide, rfl⟩
  · rw [if_neg hstale] at hlive ⊢
    exact ⟨hlive, rfl⟩

end Counts

theorem sends_cons (id : Uuid) (l : Label Unit) (h : List (Label Unit)) :
    sends id (l :: h) =
      if l.starts id then 0 else if l.sends id then sends id h + 1 else sends id h := rfl

theorem unrecorded_of_not_held {pc : Pc} {id : Uuid} (h : ∀ d, pc.held = some d → d.id ≠ id) :
    pc.unrecorded id = 0 := by
  cases pc with
  | down | polling | batch ds | claimed d rest => rfl
  | sent d out rest => exact if_neg (h d rfl)

section Invariant

variable {h : List (Label Unit)} {s t : State Unit} {l : Label Unit}

/-- A queued delivery is not the one that is held. -/
theorem Accounted.apart (hs : Accounted h s) {d d' : Delivery} (hd : (s.pc ()).held = some d)
    (hd' : d' ∈ (s.pc ()).queued) : d'.id ≠ d.id := by
  intro e
  obtain ⟨r, hr, hfl⟩ := hs.held d hd
  obtain ⟨r', hr', hpend⟩ := hs.queued d' hd'
  rw [e, hr, Option.some.injEq] at hr'
  rw [hr', hpend] at hfl
  cases hfl

/-- What is neither pending nor in flight is not with the worker. -/
theorem Accounted.not_held (hs : Accounted h s) {id : Uuid}
    (hid : ∀ r, s.db.row id = some r → r.status ≠ .inFlight) :
    (s.pc ()).unrecorded id = 0 := by
  refine unrecorded_of_not_held fun d hd e => ?_
  obtain ⟨r, hr, hfl⟩ := hs.held d hd
  exact hid r (e ▸ hr) hfl

/-- A step that leaves the worker where it is, and the rows it has to do with. -/
theorem Accounted.frame (hs : Accounted h s) {db : Db}
    (hcount : ∀ id, Counts (sends id (l :: h)) ((s.pc ()).unrecorded id) (db.row id))
    (hrow : ∀ id r, s.db.row id = some r → r.status ≠ .deadLetter → db.row id = some r) :
    Accounted (l :: h) { s with db := db } where
  counted := hcount
  queued d hd := by
    obtain ⟨r, hr, hst⟩ := hs.queued d hd
    exact ⟨r, hrow d.id r hr (by rw [hst]; decide), hst⟩
  held d hd := by
    obtain ⟨r, hr, hst⟩ := hs.held d hd
    exact ⟨r, hrow d.id r hr (by rw [hst]; decide), hst⟩
  distinct := hs.distinct

/-- A step of the worker, which is at `pc` after it. -/
theorem Accounted.moved (db : Db) (pc : Pc)
    (hcount : ∀ id, Counts (sends id (l :: h)) (pc.unrecorded id) (db.row id))
    (hqueued : ∀ d ∈ pc.queued, ∃ r, db.row d.id = some r ∧ r.status = .pending)
    (hheld : ∀ d, pc.held = some d → ∃ r, db.row d.id = some r ∧ r.status = .inFlight)
    (hdistinct : (pc.queued.map Delivery.id).Nodup) (w : Unit) :
    Accounted (l :: h) (State.setPc { s with db := db } w pc) := by
  have hpc : (State.setPc { s with db := db } w pc).pc () = pc := State.setPc_self _ _ _
  constructor
  · rw [hpc]
    exact hcount
  · rw [hpc]
    exact hqueued
  · rw [hpc]
    exact hheld
  · rw [hpc]
    exact hdistinct

/-- Deliveries of the queue stay pending when another delivery's row is written. -/
theorem Accounted.still_queued (hs : Accounted h s) {db : Db} {id : Uuid} {ds : List Delivery}
    (hrow : ∀ k, k ≠ id → db.row k = s.db.row k)
    (hds : ∀ d ∈ ds, d ∈ (s.pc ()).queued ∧ d.id ≠ id) :
    ∀ d ∈ ds, ∃ r, db.row d.id = some r ∧ r.status = .pending := by
  intro d hd
  obtain ⟨hqueued, hne⟩ := hds d hd
  obtain ⟨r, hr, hst⟩ := hs.queued d hqueued
  exact ⟨r, (hrow d.id hne).trans hr, hst⟩

/-- The delivery whose turn it is stands once in the queue. -/
theorem Accounted.rest (hs : Accounted h s) {d : Delivery} {rest : List Delivery}
    (hpc : s.pc () = .batch (d :: rest)) :
    (∀ d' ∈ rest, d' ∈ (s.pc ()).queued ∧ d'.id ≠ d.id) ∧ (rest.map Delivery.id).Nodup := by
  have hdistinct := hs.distinct
  rw [hpc] at hdistinct
  obtain ⟨hnot, hnd⟩ := List.nodup_cons.1 hdistinct
  refine ⟨fun d' hd' => ⟨?_, fun e => hnot (e ▸ List.mem_map_of_mem hd')⟩, hnd⟩
  rw [hpc]
  exact List.mem_cons_of_mem d hd'

/-- A delivery starts with no attempts. -/
theorem Accounted.counted_insert (hs : Accounted h s) {d : NewDelivery} {now : Int} {db : Db}
    (hins : insert s.db d now = .ok db) (id : Uuid) :
    Counts (sends id (.insert d now :: h)) ((s.pc ()).unrecorded id) (db.row id) := by
  obtain ⟨hnone, hrow, -⟩ := row_insert hins id
  rw [hrow, sends_cons]
  by_cases hid : d.id = id
  · subst hid
    have hfree : (s.pc ()).unrecorded d.id = 0 := hs.not_held fun r hr => by
      rw [hnone] at hr
      cases hr
    rw [if_pos rfl, hfree]
    intro r hr _
    cases hr
    simp [Label.starts, newRow]
  · simpa [Label.starts, Label.sends, hid] using hs.counted id

/-- A replay of a dead letter starts again with none; any other does nothing. -/
theorem Accounted.counted_replay (hs : Accounted h s) (id' : Uuid) (now : Int) (id : Uuid) :
    Counts (sends id (.replay id' now (replayDeadLetter s.db id' now).1 :: h))
      ((s.pc ()).unrecorded id) ((replayDeadLetter s.db id' now).2.row id) := by
  rw [row_replayDeadLetter, sends_cons]
  by_cases hid : id = id'
  · subst hid
    rw [if_pos rfl]
    intro r' hr' _
    obtain ⟨r, hr, rfl⟩ := Option.map_eq_some_iff.1 hr'
    by_cases hdead : r.status = .deadLetter
    · have hacc := (replayDeadLetter_fst s.db id now).2 ⟨r, hr, hdead⟩
      have hfree : (s.pc ()).unrecorded id = 0 := hs.not_held fun r' hr' => by
        rw [hr, Option.some.injEq] at hr'
        rw [← hr', hdead]
        decide
      rw [if_pos hdead, hfree]
      simp [Label.starts, hacc, asReplayed]
    · have hacc : (replayDeadLetter s.db id now).1 = false := by
        rw [Bool.eq_false_iff, ne_eq, replayDeadLetter_fst, hr]
        simp [hdead]
      rw [if_neg hdead]
      simpa [Label.starts, Label.sends, hacc] using hs.counted id r hr hdead
  · have hid' : ¬id' = id := fun e => hid e.symm
    simpa [Label.starts, Label.sends, hid, hid'] using hs.counted id

/-- A send counts as one that is not recorded. -/
theorem Accounted.counted_send (hs : Accounted h s) {w : Unit} {d : Delivery}
    {rest : List Delivery} (hpc : s.pc () = .claimed d rest) (out : Outcome) (id : Uuid) :
    Counts (sends id (.send w d (d.attempts + 1) out :: h))
      (Pc.unrecorded id (.sent d out rest)) (s.db.row id) := by
  have hcount := hs.counted id
  rw [hpc] at hcount
  intro r hr hlive
  obtain ⟨hpos, hr₀⟩ := hcount r hr hlive
  refine ⟨hpos, ?_⟩
  rw [sends_cons]
  by_cases hid : d.id = id
  · have hnone : (Label.send w d (d.attempts + 1) out).starts id = false := rfl
    have hsend : (Label.send w d (d.attempts + 1) out).sends id = true := by
      simpa [Label.sends] using hid
    have hone : Pc.unrecorded id (.sent d out rest) = 1 := if_pos hid
    rw [hnone, hsend, hone]
    simp only [Pc.unrecorded] at hr₀
    simp
    omega
  · simpa [Label.starts, Label.sends, hid, Pc.unrecorded] using hr₀

/-- The record of a send counts it. -/
theorem Accounted.counted_record (hs : Accounted h s) {w : Unit} {d : Delivery} {out : Outcome}
    {rest : List Delivery} {cfg : Config} {c : Draw} {db : Db} (hpc : s.pc () = .sent d out rest)
    (hrec : recordOutcome cfg c s.db d out = .ok db) (id : Uuid) :
    Counts (sends id (.record w d out :: h)) 0 (db.row id) := by
  have hcount : Counts (sends id h) (Pc.unrecorded id (.sent d out rest)) (s.db.row id) := by
    rw [← hpc]
    exact hs.counted id
  rw [(recordOutcome_ok hrec id).1]
  by_cases hid : id = d.id
  · subst hid
    have hone : Pc.unrecorded d.id (.sent d out rest) = 1 := if_pos rfl
    rw [if_pos rfl]
    rw [hone] at hcount
    refine Counts.outcome hcount fun r hr => ?_
    obtain ⟨r', hr', hfl⟩ := hs.held d (by rw [hpc]; rfl)
    rw [hr, Option.some.injEq] at hr'
    rw [hr', hfl]
    decide
  · have hzero : Pc.unrecorded id (.sent d out rest) = 0 := if_neg fun e => hid e.symm
    rw [if_neg hid]
    rwa [hzero] at hcount

theorem Accounted.step (hs : Accounted h s) (hl : l.succeeds = true) (hst : Step s l t) :
    Accounted (l :: h) t := by
  cases hst with
  | insert d now db hins =>
    exact hs.frame (hs.counted_insert hins) fun id r hr _ => row_insert_of_some hins hr
  | replay id' now =>
    refine hs.frame (hs.counted_replay id' now) fun id r hr hlive => ?_
    rw [row_replayDeadLetter]
    by_cases hid : id = id'
    · rw [if_pos hid, ← hid, hr, Option.map_some, if_neg hlive]
    · rw [if_neg hid, hr]
  | start w now hpc =>
    refine Accounted.moved _ .polling (fun id => ?_) (fun d hd => by cases hd)
      (fun d hd => by cases hd) List.nodup_nil w
    have hcount := hs.counted id
    rw [hpc] at hcount
    rw [row_resetStaleInFlight]
    exact hcount.recovered now s.staleMs
  | listDue w now ds hpc hlist =>
    refine Accounted.moved s.db (.batch ds) (fun id => ?_) (fun d hd => ?_)
      (fun d hd => by cases hd) hlist.nodup w
    · have hcount := hs.counted id
      rwa [hpc] at hcount
    · obtain ⟨r, hr, hst, -⟩ := hlist.mem hd
      exact ⟨r, hr, hst⟩
  | refuse w d rest check reason c entry db hpc hcheck hdl =>
    obtain ⟨hrest, hnd⟩ := hs.rest hpc
    have hother : ∀ k, k ≠ d.id → db.row k = s.db.row k := fun k hk =>
      (deadLetter_ok hdl k).1.trans (if_neg hk)
    refine Accounted.moved db (.batch rest) (fun id => ?_) (hs.still_queued hother hrest)
      (fun d' hd' => by cases hd') hnd w
    rw [(deadLetter_ok hdl id).1]
    split
    · exact Counts.dead _ _ _ _ _
    · have hcount := hs.counted id
      rwa [hpc] at hcount
  | claim w d rest now hpc =>
    obtain ⟨hrest, hnd⟩ := hs.rest hpc
    have hother : ∀ k, k ≠ d.id → (claim s.db d.id now).2.row k = s.db.row k := fun k hk =>
      (row_claim s.db d.id now k).trans (if_neg hk)
    obtain ⟨r₀, hr₀, hpend⟩ := hs.queued d (by rw [hpc]; exact List.mem_cons_self)
    rw [(claim_fst s.db d.id now).2 ⟨r₀, hr₀, hpend⟩, if_pos rfl]
    refine Accounted.moved _ (.claimed d rest) (fun id => ?_) (hs.still_queued hother hrest)
      (fun d' hd' => ?_) hnd w
    · have hcount := hs.counted id
      rw [hpc] at hcount
      rw [row_claim]
      split
      · rename_i hid
        rw [← hid]
        exact hcount.claimed now
      · exact hcount
    · cases hd'
      refine ⟨asClaimed now r₀, ?_, rfl⟩
      rw [row_claim, if_pos rfl, hr₀, Option.map_some, if_pos hpend]
  | send w d rest resp hpc =>
    refine Accounted.moved s.db (.sent d resp.outcome rest) (hs.counted_send hpc resp.outcome)
      (fun d' hd' => ?_) (fun d' hd' => ?_) ?_ w
    · exact hs.queued d' (by rw [hpc]; exact hd')
    · exact hs.held d' (by rw [hpc]; exact hd')
    · have hdistinct := hs.distinct
      rwa [hpc] at hdistinct
  | record w d out rest c db hpc hrec =>
    have hheld : (s.pc ()).held = some d := by rw [hpc]; rfl
    have hother : ∀ k, k ≠ d.id → db.row k = s.db.row k := fun k hk =>
      (recordOutcome_ok hrec k).1.trans (if_neg hk)
    have hrest : ∀ d' ∈ rest, d' ∈ (s.pc ()).queued ∧ d'.id ≠ d.id := fun d' hd' =>
      have hmem : d' ∈ (s.pc ()).queued := by rw [hpc]; exact hd'
      ⟨hmem, hs.apart hheld hmem⟩
    refine Accounted.moved db (.batch rest) (hs.counted_record hpc hrec)
      (hs.still_queued hother hrest) (fun d' hd' => by cases hd') ?_ w
    have hdistinct := hs.distinct
    rwa [hpc] at hdistinct
  | dbFail w => cases hl
  | endPass w now hpc =>
    refine Accounted.moved s.db .polling (fun id => ?_) (fun d hd => by cases hd)
      (fun d hd => by cases hd) List.nodup_nil w
    have hcount := hs.counted id
    rwa [hpc] at hcount
  | restart cfg => cases hl

end Invariant

theorem accounted {h : List (Label Unit)} {s : State Unit} (hs : soleSystem.Reaches h s) :
    Accounted h s := by
  apply hs.invariant
  · rintro s ⟨hdb, hdown⟩
    have hrow : ∀ id, s.db.row id = none := fun id => by rw [hdb]; rfl
    refine ⟨fun id r hr => ?_, fun d hd => ?_, fun d hd => ?_, ?_⟩
    · rw [hrow] at hr
      cases hr
    · rw [hdown] at hd
      cases hd
    · rw [hdown] at hd
      cases hd
    · rw [hdown]
      exact List.nodup_nil
  · intro h s l t _ hI hst
    exact hI.step hst.1 hst.2

/-! ## Entries -/

/-- The step dead-letters a delivery for the outcome of a send. -/
def Label.buries : Label Unit → Bool
  | .record _ d out => Q.buries d out
  | _ => false

theorem recordOutcome_buries {cfg : Config} {c : Draw} {db db' : Db} {d : Delivery}
    {out : Outcome} (h : recordOutcome cfg c db d out = .ok db') :
    if buries d out = true then ∃ err e, deadLetter db d.id err c.entryId c.now = .ok (e, db')
    else db'.deadLetters = db.deadLetters := by
  have hdead : ∀ err, (deadLetter db d.id err c.entryId c.now).map Prod.snd = .ok db' →
      ∃ err e, deadLetter db d.id err c.entryId c.now = .ok (e, db') := by
    intro err hmap
    cases hdl : deadLetter db d.id err c.entryId c.now with
    | error e => rw [hdl] at hmap; cases hmap
    | ok res =>
      rw [hdl] at hmap
      cases hmap
      exact ⟨err, res.1, hdl⟩
  cases out with
  | delivered =>
    cases h
    rfl
  | permanent err => exact hdead err h
  | retryable err =>
    simp only [recordOutcome] at h
    by_cases hle : d.maxAttempts ≤ d.attempts + 1
    · rw [if_pos hle] at h
      rw [if_pos (by simpa [buries] using hle)]
      exact hdead err h
    · rw [if_neg hle] at h
      cases h
      rw [if_neg (by simpa [buries] using hle)]
      rfl

section Entries

variable {h : List (Label Unit)} {s t : State Unit} {l : Label Unit} {e : DlqRow}

/-- The entry of a row that is there shows the attempts the row counts. -/
theorem entry_of_deadLetter {db db' : Db} {id entryId : Uuid} {err : String} {now : Int}
    {entry : Option DlqEntry} (hdl : deadLetter db id err entryId now = .ok (entry, db'))
    (hnew : e ∈ db'.deadLetters.rows) (hold : e ∉ db.deadLetters.rows) :
    ∃ r, db.row id = some r ∧ e.deliveryId = id ∧ e.attempts = r.attempts := by
  rcases deadLetter_spec hdl with ⟨-, rfl⟩ | ⟨r, attempts, hr, hatt, -, hrows⟩
  · exact absurd hnew hold
  · rw [hrows, List.mem_append, List.mem_singleton] at hnew
    have he := hnew.resolve_left hold
    subst he
    exact ⟨r, hr, Table.key_of_get? hr, getI32_ok hatt⟩

/-- An entry shows the sends of its delivery, but for the one it is made for. -/
theorem Accounted.entry (hs : Accounted h s) (hst : Step s l t) (hnew : e ∈ t.db.deadLetters.rows)
    (hold : e ∉ s.db.deadLetters.rows) :
    0 ≤ e.attempts ∧
      e.attempts + (if l.buries = true then 1 else 0) = sends e.deliveryId h := by
  cases hst with
  | insert d now db hins =>
    rw [(insert_ok hins).2.2] at hnew
    exact absurd hnew hold
  | refuse w d rest check reason c entry db hpc hcheck hdl =>
    obtain ⟨r, hr, hid, hatt⟩ := entry_of_deadLetter hdl hnew hold
    obtain ⟨r', hr', hpend⟩ := hs.queued d (by rw [hpc]; exact List.mem_cons_self)
    have hcount := hs.counted d.id r hr (by
      rw [hr, Option.some.injEq] at hr'
      rw [hr', hpend]
      decide)
    rw [hpc] at hcount
    rw [hatt, hid]
    exact hcount
  | record w d out rest c db hpc hrec =>
    have hspec := recordOutcome_buries hrec
    by_cases hb : buries d out = true
    · rw [if_pos hb] at hspec
      obtain ⟨err, entry, hdl⟩ := hspec
      obtain ⟨r, hr, hid, hatt⟩ := entry_of_deadLetter hdl hnew hold
      obtain ⟨r', hr', hfl⟩ := hs.held d (by rw [hpc]; rfl)
      have hcount := hs.counted d.id r hr (by
        rw [hr, Option.some.injEq] at hr'
        rw [hr', hfl]
        decide)
      have hone : Pc.unrecorded d.id (.sent d out rest) = 1 := if_pos rfl
      rw [hpc, hone] at hcount
      have hbury : (Label.record w d out).buries = true := hb
      rw [if_pos hbury, hatt, hid]
      exact hcount
    · rw [if_neg hb] at hspec
      exact absurd (hspec ▸ hnew) hold
  | replay | start | listDue | claim | send | dbFail | endPass | restart => exact absurd hnew hold

/-- A send that dead-letters its delivery makes an entry. -/
theorem Accounted.buried (hs : Accounted h s) (hst : Step s l t) (hb : l.buries = true) :
    ∃ e ∈ t.db.deadLetters.rows, e ∉ s.db.deadLetters.rows := by
  cases hst with
  | record w d out rest c db hpc hrec =>
    have hbury : Q.buries d out = true := hb
    have hspec := recordOutcome_buries hrec
    rw [if_pos hbury] at hspec
    obtain ⟨err, entry, hdl⟩ := hspec
    obtain ⟨r', hr', -⟩ := hs.held d (by rw [hpc]; rfl)
    rcases deadLetter_spec hdl with ⟨hnone, -⟩ | ⟨r, attempts, hr, hatt, -, hrows⟩
    · rw [hr'] at hnone
      cases hnone
    · refine ⟨dlqRow c.entryId r attempts err c.now, ?_, fun hold => ?_⟩
      · show _ ∈ db.deadLetters.rows
        rw [hrows]
        exact List.mem_append_right _ (List.mem_singleton_self _)
      · have hnd := db.deadLetters.nodup
        rw [hrows, List.map_append, List.nodup_append] at hnd
        exact hnd.2.2 _ (List.mem_map_of_mem hold) _ (List.mem_singleton_self _) rfl
  | insert | replay | start | listDue | refuse | claim | send | dbFail | endPass | restart =>
    cases hb

end Entries

/-- The step `l`, which came after `h₀` in a run to `s` with the history `h`, stored
the entry `e`. -/
def StoredBy (h : List (Label Unit)) (s : State Unit) (e : DlqRow) (h₀ : List (Label Unit))
    (l : Label Unit) : Prop :=
  ∃ h₁ s₀ s₁, h = h₁ ++ l :: h₀ ∧ soleSystem.Reaches h₀ s₀ ∧ soleSystem.step s₀ l s₁ ∧
    soleSystem.Path s₁ h₁ s ∧ e ∉ s₀.db.deadLetters.rows ∧ e ∈ s₁.db.deadLetters.rows

/-- Each entry of a run shows the sends of its delivery, or one less if it was made
for the outcome of the last. -/
theorem storedBy_attempts {h h₀ : List (Label Unit)} {s : State Unit} {e : DlqRow}
    {l : Label Unit} (he : StoredBy h s e h₀ l) :
    0 ≤ e.attempts ∧
      e.attempts + (if l.buries = true then 1 else 0) = sends e.deliveryId h₀ := by
  obtain ⟨h₁, s₀, s₁, -, hs₀, hstep, -, hold, hnew⟩ := he
  exact (accounted hs₀).entry hstep.2 hnew hold

/-- The entries of a run show their sends exactly if none of them was made for the
outcome of a send. -/
theorem dead_letter_attempts_iff {h : List (Label Unit)} {s : State Unit}
    (hs : soleSystem.Reaches h s) :
    (∀ e h₀ l, StoredBy h s e h₀ l → 0 < sends e.deliveryId h₀ →
      e.attempts = sends e.deliveryId h₀) ↔ ∀ l ∈ h, l.buries = false := by
  constructor
  · intro hall l hl
    rw [Bool.eq_false_iff]
    intro hb
    obtain ⟨h₁, h₀, rfl⟩ := List.append_of_mem hl
    obtain ⟨s₀, s₁, hs₀, hstep, hpath⟩ := hs.cut
    obtain ⟨e, hnew, hold⟩ := (accounted hs₀).buried hstep.2 hb
    have he : StoredBy (h₁ ++ l :: h₀) s e h₀ l :=
      ⟨h₁, s₀, s₁, rfl, hs₀, hstep, hpath, hold, hnew⟩
    obtain ⟨hpos, hatt⟩ := storedBy_attempts he
    rw [if_pos hb] at hatt
    have heq := hall e h₀ l he (by omega)
    omega
  · intro hnone e h₀ l he _
    obtain ⟨-, hatt⟩ := storedBy_attempts he
    obtain ⟨h₁, s₀, s₁, rfl, -⟩ := he
    have hb := hnone l (List.mem_append_right _ List.mem_cons_self)
    rw [hb] at hatt
    simpa using hatt

/-! ## One worker with one delivery -/

def solo (db : Db) (pc : Pc) : State Unit where
  db := db
  cfg := quick
  pc _ := pc

theorem solo_ext {s : State Unit} {db : Db} {pc : Pc} (hdb : s.db = db) (hcfg : s.cfg = quick)
    (hpc : s.pc () = pc) : s = solo db pc := by
  obtain ⟨db', cfg, pc'⟩ := s
  subst hdb hcfg hpc
  rfl

/-- The hook's first send fails, and it is listed again. -/
def retrying : List (Label Unit) :=
  [.listDue () 0 [hookFailed], .endPass () 0, .record () hookRead sent500,
    .send () hookRead 1 sent500, .claim () hookRead 0 true, .listDue () 0 [hookRead],
    .start () 0, .insert hook 0]

theorem retrying_reached :
    soleSystem.Reaches retrying (solo (alone (failed 1)) (.batch [hookFailed])) := by
  have hlist : ListsDue (alone (newRow hook 0)) 0 20 (.ok [hookRead]) :=
    ⟨[newRow hook 0], ⟨_, List.Perm.refl _, List.pairwise_singleton _ _, rfl⟩, rfl⟩
  have hagain : ListsDue (alone (failed 1)) 0 20 (.ok [hookFailed]) :=
    ⟨[failed 1], ⟨_, List.Perm.refl _, List.pairwise_singleton _ _, rfl⟩, rfl⟩
  have r₀ : soleSystem.Reaches [] (solo Db.empty .down) := .init ⟨rfl, fun _ => rfl⟩
  have r₁ : soleSystem.Reaches _ (solo (alone (newRow hook 0)) .down) :=
    r₀.step ⟨rfl, Step.insert _ hook 0 (alone (newRow hook 0)) rfl⟩
  have r₂ : soleSystem.Reaches _ (solo (alone (newRow hook 0)) .polling) :=
    (r₁.step ⟨rfl, Step.start _ () 0 rfl⟩).of_eq (solo_ext rfl rfl rfl)
  have r₃ : soleSystem.Reaches _ (solo (alone (newRow hook 0)) (.batch [hookRead])) :=
    (r₂.step ⟨rfl, Step.listDue _ () 0 _ rfl hlist⟩).of_eq (solo_ext rfl rfl rfl)
  have r₄ : soleSystem.Reaches _
      (solo (alone (asClaimed 0 (newRow hook 0))) (.claimed hookRead [])) :=
    (r₃.step ⟨rfl, Step.claim _ () hookRead [] 0 rfl⟩).of_eq (solo_ext rfl rfl rfl)
  have r₅ : soleSystem.Reaches _
      (solo (alone (asClaimed 0 (newRow hook 0))) (.sent hookRead sent500 [])) :=
    (r₄.step ⟨rfl, Step.send _ () hookRead [] (.status 500) rfl⟩).of_eq (solo_ext rfl rfl rfl)
  have r₆ : soleSystem.Reaches _ (solo (alone (failed 1)) (.batch [])) :=
    (r₅.step ⟨rfl, Step.record _ () hookRead sent500 [] noDraw (alone (failed 1)) rfl rfl⟩).of_eq
      (solo_ext rfl rfl rfl)
  have r₇ : soleSystem.Reaches _ (solo (alone (failed 1)) .polling) :=
    (r₆.step ⟨rfl, Step.endPass _ () 0 rfl⟩).of_eq (solo_ext rfl rfl rfl)
  exact (r₇.step ⟨rfl, Step.listDue _ () 0 _ rfl hagain⟩).of_eq (solo_ext rfl rfl rfl)

/-- At its second turn a check of the hook fails. -/
theorem dead_letter_attempts_iff_refused : ∃ h s e h₀ l, StoredBy h s e h₀ l ∧
    sends e.deliveryId h₀ = 1 ∧ e.attempts = sends e.deliveryId h₀ := by
  have hrefuse := Step.refuse (solo (alone (failed 1)) (.batch [hookFailed])) () hookFailed []
    lookupFailed _ noDraw _ _ rfl rfl rfl
  have hstored : StoredBy (.refuse () hookFailed lookupFailed :: retrying) _
      (dlqRow 7 (failed 1) 1 lookupError 0) retrying _ :=
    ⟨[], _, _, rfl, retrying_reached, ⟨rfl, hrefuse⟩, .nil, List.not_mem_nil,
      List.mem_singleton_self _⟩
  exact ⟨_, _, _, _, _, hstored, rfl,
    (dead_letter_attempts_iff (retrying_reached.step ⟨rfl, hrefuse⟩)).2 (by decide) _ _ _ hstored
      (by decide)⟩

/-- Both attempts of the hook fail, and its entry shows one. -/
theorem last_send_not_counted : ¬∀ h s, soleSystem.Reaches h s → ∀ e h₀ l, StoredBy h s e h₀ l →
    0 < sends e.deliveryId h₀ → e.attempts = sends e.deliveryId h₀ := by
  intro hall
  have r₁ : soleSystem.Reaches _ (solo (alone (asClaimed 0 (failed 1))) (.claimed hookFailed [])) :=
    (retrying_reached.step ⟨rfl, Step.claim _ () hookFailed [] 0 rfl⟩).of_eq (solo_ext rfl rfl rfl)
  have r₂ : soleSystem.Reaches _
      (solo (alone (asClaimed 0 (failed 1))) (.sent hookFailed sent500 [])) :=
    (r₁.step ⟨rfl, Step.send _ () hookFailed [] (.status 500) rfl⟩).of_eq (solo_ext rfl rfl rfl)
  have hrecord := Step.record (solo (alone (asClaimed 0 (failed 1)))
    (.sent hookFailed sent500 [])) () hookFailed sent500 [] noDraw _ rfl rfl
  have hstored : StoredBy (.record () hookFailed sent500 :: _) _
      (dlqRow 7 (failed 1) 1 "HTTP 500" 0) _ _ :=
    ⟨[], _, _, rfl, r₂, ⟨rfl, hrecord⟩, .nil, List.not_mem_nil, List.mem_singleton_self _⟩
  exact absurd (hall _ _ (r₂.step ⟨rfl, hrecord⟩) _ _ _ hstored (by decide)) (by decide)

end Q
end WebhookDelivery
