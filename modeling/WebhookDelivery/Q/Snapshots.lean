/-
What a snapshot still says about its row.

No statement of the service deletes a delivery or assigns the columns a
submission sets.  A worker's copy may be arbitrarily old, but its destination,
payload and limit are those of the row.
-/
import WebhookDelivery.Q.Worker

namespace WebhookDelivery
namespace Q

open Sql Run

/-- `r'` differs from `r` only in what the workers write. -/
structure DeliveryRow.Same (r r' : DeliveryRow) : Prop where
  id : r'.id = r.id
  idempotencyKey : r'.idempotencyKey = r.idempotencyKey
  destination : r'.destination = r.destination
  payload : r'.payload = r.payload
  maxAttempts : r'.maxAttempts = r.maxAttempts
  createdAt : r'.createdAt = r.createdAt

theorem DeliveryRow.Same.refl (r : DeliveryRow) : r.Same r := ⟨rfl, rfl, rfl, rfl, rfl, rfl⟩

theorem DeliveryRow.Same.trans {r₁ r₂ r₃ : DeliveryRow} (h : r₁.Same r₂) (h' : r₂.Same r₃) :
    r₁.Same r₃ :=
  ⟨h'.id.trans h.id, h'.idempotencyKey.trans h.idempotencyKey,
    h'.destination.trans h.destination, h'.payload.trans h.payload,
    h'.maxAttempts.trans h.maxAttempts, h'.createdAt.trans h.createdAt⟩

/-- The row of `d` after `recordOutcome`. -/
def asOutcome (cfg : Config) (c : Draw) (d : Delivery) : Outcome → DeliveryRow → DeliveryRow
  | .delivered => asDelivered c.now
  | .retryable err =>
    if d.maxAttempts ≤ d.attempts + 1 then asDeadLettered err c.now
    else asRetried (retryAt cfg c (d.attempts + 1)) err c.now
  | .permanent err => asDeadLettered err c.now

/-- Whether `recordOutcome` dead-letters `d`. -/
def buries (d : Delivery) : Outcome → Bool
  | .delivered => false
  | .retryable _ => d.maxAttempts ≤ d.attempts + 1
  | .permanent _ => true

theorem same_asOutcome (cfg : Config) (c : Draw) (d : Delivery) (out : Outcome)
    (r : DeliveryRow) : r.Same (asOutcome cfg c d out r) := by
  cases out with
  | delivered | permanent err => exact ⟨rfl, rfl, rfl, rfl, rfl, rfl⟩
  | retryable err =>
    simp only [asOutcome]
    split <;> exact ⟨rfl, rfl, rfl, rfl, rfl, rfl⟩

/-- What an outcome write does: it assigns the row of `d`, and adds an entry
exactly if it dead-letters a row that is there. -/
theorem recordOutcome_ok {cfg : Config} {c : Draw} {db db' : Db} {d : Delivery} {out : Outcome}
    (h : recordOutcome cfg c db d out = .ok db') (k : Uuid) :
    db'.row k = (if k = d.id then (db.row d.id).map (asOutcome cfg c d out) else db.row k) ∧
      db'.entries k = db.entries k +
        if k = d.id ∧ (db.row d.id).isSome ∧ buries d out then 1 else 0 := by
  have hdead : ∀ err, (deadLetter db d.id err c.entryId c.now).map Prod.snd = .ok db' →
      db'.row k = (if k = d.id then (db.row d.id).map (asDeadLettered err c.now)
        else db.row k) ∧
      db'.entries k = db.entries k + if k = d.id ∧ (db.row d.id).isSome then 1 else 0 := by
    intro err hmap
    cases hdl : deadLetter db d.id err c.entryId c.now with
    | error e => rw [hdl] at hmap; cases hmap
    | ok res =>
      obtain ⟨e, db₁⟩ := res
      rw [hdl] at hmap
      cases hmap
      exact deadLetter_ok hdl k
  cases out with
  | delivered =>
    rw [recordOutcome, Except.ok.injEq] at h
    subst h
    refine ⟨Table.get?_update_at db.deliveries d.id (asDelivered c.now) (fun _ => rfl) k, ?_⟩
    simp [buries, Db.entries, markDelivered]
  | permanent err =>
    obtain ⟨hrow, hent⟩ := hdead err h
    exact ⟨hrow, by simpa [buries] using hent⟩
  | retryable err =>
    simp only [recordOutcome] at h
    by_cases hle : d.maxAttempts ≤ d.attempts + 1
    · rw [if_pos hle] at h
      obtain ⟨hrow, hent⟩ := hdead err h
      refine ⟨?_, by simpa [buries, hle] using hent⟩
      simpa [asOutcome, hle] using hrow
    · rw [if_neg hle, Except.ok.injEq] at h
      subst h
      refine ⟨?_, by simp [buries, hle, Db.entries, scheduleRetry]⟩
      have hout : asOutcome cfg c d (.retryable err)
          = asRetried (retryAt cfg c (d.attempts + 1)) err c.now := by
        funext r
        simp [asOutcome, hle]
      rw [hout]
      exact Table.get?_update_at db.deliveries d.id
        (asRetried (retryAt cfg c (d.attempts + 1)) err c.now) (fun _ => rfl) k

variable {ω : Type} [DecidableEq ω]

/-- What a step does to the row of `id`: it is submitted, or the workers'
columns of it are assigned. -/
theorem Step.row {s t : State ω} {l : Label ω} (hst : Step s l t) (id : Uuid) :
    (∃ d now, l = .insert d now ∧ d.id = id ∧ s.db.row id = none ∧
      t.db.row id = some (newRow d now)) ∨
    ∃ f : DeliveryRow → DeliveryRow, (∀ r, DeliveryRow.Same r (f r)) ∧
      t.db.row id = (s.db.row id).map f := by
  have hkeep : t.db.row id = s.db.row id →
      ∃ f : DeliveryRow → DeliveryRow, (∀ r, DeliveryRow.Same r (f r)) ∧
        t.db.row id = (s.db.row id).map f :=
    fun h => ⟨fun r => r, .refl, h.trans Option.map_id'.symm⟩
  cases hst with
  | insert d now db hins =>
    obtain ⟨hnone, hrow, -⟩ := row_insert hins id
    by_cases hid : d.id = id
    · exact .inl ⟨d, now, rfl, hid, hid ▸ hnone, hrow.trans (if_pos hid)⟩
    · exact .inr (hkeep (hrow.trans (if_neg hid)))
  | replay id' now =>
    have hrow := row_replayDeadLetter s.db id' now id
    by_cases hid : id = id'
    · refine .inr ⟨_, fun r => ?_, hrow.trans (by rw [if_pos hid, hid])⟩
      split <;> exact ⟨rfl, rfl, rfl, rfl, rfl, rfl⟩
    · exact .inr (hkeep (hrow.trans (if_neg hid)))
  | start w now hpc =>
    refine .inr ⟨_, fun r => ?_, row_resetStaleInFlight s.db now s.staleMs id⟩
    split <;> exact ⟨rfl, rfl, rfl, rfl, rfl, rfl⟩
  | refuse w d rest check reason c entry db hpc hcheck hdl =>
    have hrow := (deadLetter_ok hdl id).1
    by_cases hid : id = d.id
    · refine .inr ⟨asDeadLettered reason c.now, fun r => ⟨rfl, rfl, rfl, rfl, rfl, rfl⟩, ?_⟩
      exact hrow.trans (by rw [if_pos hid, hid])
    · exact .inr (hkeep (hrow.trans (if_neg hid)))
  | claim w d rest now hpc =>
    have hrow := row_claim s.db d.id now id
    by_cases hid : id = d.id
    · refine .inr ⟨_, fun r => ?_, hrow.trans (by rw [if_pos hid, hid])⟩
      split <;> exact ⟨rfl, rfl, rfl, rfl, rfl, rfl⟩
    · exact .inr (hkeep (hrow.trans (if_neg hid)))
  | record w d out rest c db hpc hrec =>
    have hrow := (recordOutcome_ok hrec id).1
    by_cases hid : id = d.id
    · refine .inr ⟨asOutcome s.cfg c d out, same_asOutcome s.cfg c d out, ?_⟩
      exact hrow.trans (by rw [if_pos hid, hid])
    · exact .inr (hkeep (hrow.trans (if_neg hid)))
  | listDue | send | dbFail | endPass | restart => exact .inr (hkeep rfl)

/-- A row stays, with the columns of its submission. -/
theorem Step.same {s t : State ω} {l : Label ω} (hst : Step s l t) {id : Uuid}
    {r : DeliveryRow} (hr : s.db.row id = some r) :
    ∃ r', t.db.row id = some r' ∧ r.Same r' := by
  rcases hst.row id with ⟨d, now, -, -, hnone, -⟩ | ⟨f, hf, hrow⟩
  · rw [hr] at hnone
    cases hnone
  · exact ⟨f r, by rw [hrow, hr, Option.map_some], hf r⟩

/-- A row that was not there has just been submitted. -/
theorem Step.submitted {s t : State ω} {l : Label ω} (hst : Step s l t) {id : Uuid}
    {r : DeliveryRow} (hs : s.db.row id = none) (hr : t.db.row id = some r) :
    ∃ d now, l = .insert d now ∧ d.id = id ∧ r = newRow d now := by
  rcases hst.row id with ⟨d, now, hl, hid, -, hrow⟩ | ⟨f, -, hrow⟩
  · rw [hr] at hrow
    exact ⟨d, now, hl, hid, Option.some.inj hrow⟩
  · rw [hr, hs] at hrow
    cases hrow

/-- The limit of a row is what was submitted, and a snapshot has the limit of
its row. -/
structure Limited (s : State ω) : Prop where
  rows : ∀ id r, s.db.row id = some r → 0 ≤ r.maxAttempts
  snapshots : ∀ w, ∀ d ∈ (s.pc w).snapshots, ∃ r, s.db.row d.id = some r ∧
    r.maxAttempts = d.maxAttempts

/-- The snapshots a worker has after a step are among those it had, or have
just been listed. -/
theorem Step.snapshots {s t : State ω} {l : Label ω} (hst : Step s l t) {w : ω} {d : Delivery}
    (hd : d ∈ (t.pc w).snapshots) :
    d ∈ (s.pc w).snapshots ∨
      ∃ r now ds, l = .listDue w now ds ∧ s.db.row d.id = some r ∧ r.status = .pending ∧
        r.nextRetryAt ≤ now ∧ mapDelivery r = .ok d := by
  have hset : ∀ (v : ω) (db : Db) (pc : Pc),
      (d ∈ pc.snapshots → d ∈ (s.pc v).snapshots) →
      d ∈ ((State.setPc { s with db := db } v pc).pc w).snapshots → d ∈ (s.pc w).snapshots :=
    fun _ db pc hsub => State.of_setPc (P := fun pc => d ∈ pc.snapshots) db pc hsub w
  cases hst with
  | insert | replay => exact .inl hd
  | start v now hpc => exact .inl (hset v _ .polling (fun h => absurd h List.not_mem_nil) hd)
  | listDue v now ds hpc hlist =>
    by_cases hw : w = v
    · subst hw
      rw [State.setPc_self] at hd
      obtain ⟨r, hr, hst, hdue, hmap⟩ := hlist.mem hd
      exact .inr ⟨r, now, ds, rfl, hr, hst, hdue, hmap⟩
    · rw [State.setPc_ne _ _ hw] at hd
      exact .inl hd
  | refuse v d' rest check reason c entry db hpc hcheck hdl =>
    refine .inl (hset v db (.batch rest) (fun h => ?_) hd)
    rw [hpc]
    exact List.mem_cons_of_mem d' h
  | claim v d' rest now hpc =>
    refine .inl (hset v _ _ (fun h => ?_) hd)
    rw [hpc]
    split at h
    · exact h
    · exact List.mem_cons_of_mem d' h
  | send v d' rest resp hpc =>
    refine .inl (hset v s.db _ (fun h => ?_) hd)
    rw [hpc]
    exact h
  | record v d' out rest c db hpc hrec =>
    refine .inl (hset v db (.batch rest) (fun h => ?_) hd)
    rw [hpc]
    exact List.mem_cons_of_mem d' h
  | dbFail v =>
    refine .inl (hset v s.db _ (fun h => ?_) hd)
    cases hpc : s.pc v with
    | down | polling => rw [hpc] at h; exact absurd h List.not_mem_nil
    | batch ds => rw [hpc] at h; exact List.mem_of_mem_tail h
    | claimed d' rest => rw [hpc] at h; exact h
    | sent d' out rest => rw [hpc] at h; exact List.mem_cons_of_mem d' h
  | endPass v now hpc =>
    exact .inl (hset v s.db .polling (fun h => absurd h List.not_mem_nil) hd)
  | restart cfg => exact absurd hd List.not_mem_nil

theorem Limited.step {s t : State ω} {l : Label ω} (hs : Limited s) (hst : Step s l t) :
    Limited t where
  rows id r' hr' := by
    cases hr : s.db.row id with
    | none =>
      obtain ⟨d, now, -, -, rfl⟩ := hst.submitted hr hr'
      exact Int.natCast_nonneg d.maxAttempts
    | some r =>
      obtain ⟨r₁, hr₁, hsame⟩ := hst.same hr
      rw [hr'] at hr₁
      cases hr₁
      rw [hsame.maxAttempts]
      exact hs.rows id r hr
  snapshots w d hd := by
    have hrow : ∃ r, s.db.row d.id = some r ∧ r.maxAttempts = d.maxAttempts := by
      rcases hst.snapshots hd with hd | ⟨r, -, -, -, hr, -, -, hmap⟩
      · exact hs.snapshots w d hd
      · refine ⟨r, hr, ?_⟩
        rw [(mapDelivery_ok hmap).2.2.2.2.1, asU32_of_nonneg (hs.rows d.id r hr)]
    obtain ⟨r, hr, hmax⟩ := hrow
    obtain ⟨r', hr', hsame⟩ := hst.same hr
    exact ⟨r', hr', hsame.maxAttempts.trans hmax⟩

theorem limited {h : List (Label ω)} {s : State ω} (hs : (system ω).Reaches h s) :
    Limited s := by
  refine hs.invariant (I := fun _ s => Limited s) (fun s hinit => ?_)
    (fun _ _ _ _ _ hI hst => hI.step hst)
  refine ⟨fun id r hr => ?_, fun w d hd => ?_⟩
  · rw [hinit.1] at hr
    cases hr
  · rw [hinit.2 w] at hd
    exact absurd hd List.not_mem_nil

end Q
end WebhookDelivery
