/-
Idempotency keys over whole runs of the store.

An operation of `Db` either appends the row of a submission or rewrites rows in
place, and no rewrite assigns the id or the key.  So a key stays with the row
that brought it in, wherever that row has gone since, and the lookup that
follows a constraint error finds this row and no other.
-/
import WebhookDelivery.Q.Snapshots

namespace WebhookDelivery
namespace Q

open Sql Run

/-- The operations of `Db` that change rows, with the clock readings and ids
they draw. -/
inductive Op
  | insert (d : NewDelivery) (now : Int)
  | claim (id : Uuid) (now : Int)
  | markDelivered (id : Uuid) (now : Int)
  | scheduleRetry (id : Uuid) (nextMs : Int) (err : String) (now : Int)
  | deadLetter (id : Uuid) (err : String) (entryId : Uuid) (now : Int)
  | replayDeadLetter (id : Uuid) (now : Int)
  | resetStaleInFlight (now staleMs : Int)

/-- The tables after an operation.  One that returns an error leaves them alone. -/
def Op.run (db : Db) : Op → Db
  | .insert d now =>
    match Q.insert db d now with
    | .ok db' => db'
    | .error _ => db
  | .claim id now => (Q.claim db id now).2
  | .markDelivered id now => Q.markDelivered db id now
  | .scheduleRetry id nextMs err now => Q.scheduleRetry db id nextMs err now
  | .deadLetter id err entryId now =>
    match Q.deadLetter db id err entryId now with
    | .ok (_, db') => db'
    | .error _ => db
  | .replayDeadLetter id now => (Q.replayDeadLetter db id now).2
  | .resetStaleInFlight now staleMs => Q.resetStaleInFlight db now staleMs

/-- Any callers of `Db`, in any order, on a fresh database. -/
def operations : System Db Op where
  init db := db = Db.empty
  step db op db' := db' = op.run db

/-! ## What an operation does to the rows -/

theorem insert_ok {db db' : Db} {d : NewDelivery} {now : Int} (h : insert db d now = .ok db') :
    db.withKey d.idempotencyKey = none ∧
      db'.deliveries.rows = db.deliveries.rows ++ [newRow d now] ∧
      db'.deadLetters = db.deadLetters := by
  obtain ⟨hkey, t, ht, rfl⟩ := insert_table h
  exact ⟨hkey, Table.rows_of_insert? ht, rfl⟩

/-- What an operation may do to a row. -/
inductive Op.Rewrites (op : Op) (r : DeliveryRow) : DeliveryRow → Prop
  | same : op.Rewrites r r
  | claimed (now : Int) : r.status = .pending → op.Rewrites r (asClaimed now r)
  | delivered (now : Int) : op.Rewrites r (asDelivered now r)
  | retried (nextMs : Int) (err : String) (now : Int) :
      op = .scheduleRetry r.id nextMs err now → op.Rewrites r (asRetried nextMs err now r)
  | deadLettered (err : String) (now : Int) : op.Rewrites r (asDeadLettered err now r)
  | replayed (now : Int) : op.Rewrites r (asReplayed now r)
  | reset (now : Int) : r.status = .inFlight → op.Rewrites r (asReset now r)

theorem Op.Rewrites.same_row {op : Op} {r r' : DeliveryRow} (h : op.Rewrites r r') :
    DeliveryRow.Same r r' := by
  cases h <;> exact ⟨rfl, rfl, rfl, rfl, rfl, rfl⟩

/-- The rows are rewritten in place, or a submission is appended whose id and key
no row has. -/
theorem Op.rows (db : Db) (op : Op) :
    (∃ f : DeliveryRow → DeliveryRow, (∀ r, op.Rewrites r (f r)) ∧
      (op.run db).deliveries.rows = db.deliveries.rows.map f) ∨
    ∃ d now, op = .insert d now ∧ db.row d.id = none ∧ db.withKey d.idempotencyKey = none ∧
      (op.run db).deliveries.rows = db.deliveries.rows ++ [newRow d now] := by
  have hsame : (op.run db).deliveries = db.deliveries →
      ∃ f : DeliveryRow → DeliveryRow, (∀ r, op.Rewrites r (f r)) ∧
        (op.run db).deliveries.rows = db.deliveries.rows.map f :=
    fun h => ⟨fun r => r, fun _ => .same, by rw [h, List.map_id']⟩
  have hupdate : ∀ (p : DeliveryRow → Bool) (f : DeliveryRow → DeliveryRow),
      (∀ r, p r = true → op.Rewrites r (f r)) →
      (op.run db).deliveries.rows = db.deliveries.rows.map (fun r => if p r then f r else r) →
      ∃ f : DeliveryRow → DeliveryRow, (∀ r, op.Rewrites r (f r)) ∧
        (op.run db).deliveries.rows = db.deliveries.rows.map f := by
    intro p f hf hrows
    refine ⟨_, fun r => ?_, hrows⟩
    split
    · rename_i hp
      exact hf r hp
    · exact .same
  cases op with
  | insert d now =>
    cases hins : Q.insert db d now with
    | error e => exact .inl (hsame (by simp [Op.run, hins]))
    | ok db' =>
      obtain ⟨hnone, hrows, -⟩ := insert_ok hins
      exact .inr ⟨d, now, rfl, (row_insert hins d.id).1, hnone,
        by simpa [Op.run, hins] using hrows⟩
  | claim id now =>
    refine .inl (hupdate (isPending id) (asClaimed now) (fun r hp => ?_) rfl)
    have hboth : r.id = id ∧ r.status = .pending := by simpa [isPending] using hp
    exact .claimed now hboth.2
  | markDelivered id now =>
    exact .inl (hupdate (fun r => r.id = id) (asDelivered now) (fun _ _ => .delivered now) rfl)
  | scheduleRetry id nextMs err now =>
    refine .inl (hupdate (fun r => r.id = id) (asRetried nextMs err now) (fun r hp => ?_) rfl)
    exact .retried nextMs err now (by rw [of_decide_eq_true hp])
  | replayDeadLetter id now =>
    exact .inl (hupdate (isDeadLetter id) (asReplayed now) (fun _ _ => .replayed now) rfl)
  | resetStaleInFlight now staleMs =>
    exact .inl (hupdate (isStale now staleMs) (asReset now)
      (fun _ hp => .reset now (isStale_iff.1 hp).1) rfl)
  | deadLetter id err entryId now =>
    cases hdl : Q.deadLetter db id err entryId now with
    | error e => exact .inl (hsame (by simp [Op.run, hdl]))
    | ok res =>
      obtain ⟨e, db'⟩ := res
      have hrun : Op.run db (.deadLetter id err entryId now) = db' := by simp [Op.run, hdl]
      rcases deadLetter_spec hdl with ⟨-, rfl⟩ | ⟨r, attempts, -, -, hrows, -⟩
      · exact .inl (hsame (by rw [hrun]))
      · exact .inl (hupdate (fun r => r.id = id) (asDeadLettered err now)
          (fun _ _ => .deadLettered err now) (by rw [hrun, hrows]; rfl))

/-- A row after an operation is a submission that has been stored, or a row from
before. -/
theorem Op.row_run {db : Db} {op : Op} {k : Uuid} {r' : DeliveryRow}
    (h : (op.run db).row k = some r') :
    (∃ d now, op = .insert d now ∧ db.row d.id = none ∧ db.withKey d.idempotencyKey = none ∧
      r' = newRow d now) ∨ ∃ r, db.row k = some r ∧ op.Rewrites r r' := by
  have hmem := Table.mem_of_get? h
  have hid : r'.id = k := Table.key_of_get? h
  rcases op.rows db with ⟨f, hf, hrows⟩ | ⟨d, now, hop, hfresh, hkey, hrows⟩
  · rw [hrows] at hmem
    obtain ⟨r, hr, rfl⟩ := List.mem_map.1 hmem
    rw [(hf r).same_row.id] at hid
    exact .inr ⟨r, hid ▸ Table.get?_of_mem hr, hf r⟩
  · rw [hrows, List.mem_append, List.mem_singleton] at hmem
    rcases hmem with hmem | rfl
    · exact .inr ⟨r', hid ▸ Table.get?_of_mem hmem, .same⟩
    · exact .inl ⟨d, now, hop, hfresh, hkey, rfl⟩

/-! ## Keys -/

/-- A row with the key `k` is stored under the id `i`. -/
def Db.HasKey (db : Db) (k : String) (i : Uuid) : Prop :=
  ∃ r ∈ db.deliveries.rows, r.idempotencyKey = some k ∧ r.id = i

/-- A key other than NULL belongs to one row at most. -/
def Db.UniqueKeys (db : Db) : Prop :=
  ∀ r₁ ∈ db.deliveries.rows, ∀ r₂ ∈ db.deliveries.rows, ∀ k,
    r₁.idempotencyKey = some k → r₂.idempotencyKey = some k → r₁ = r₂

theorem withKey_some {db : Db} {k : String} {r : DeliveryRow}
    (h : db.withKey (some k) = some r) :
    r ∈ db.deliveries.rows ∧ r.idempotencyKey = some k := by
  have h : db.deliveries.rows.find? (fun r => r.idempotencyKey = some k) = some r := h
  exact ⟨List.mem_of_find?_eq_some h, by simpa using List.find?_some h⟩

theorem withKey_none {db : Db} {k : String} (h : db.withKey (some k) = none)
    {r : DeliveryRow} (hr : r ∈ db.deliveries.rows) : r.idempotencyKey ≠ some k := by
  have h : db.deliveries.rows.find? (fun r => r.idempotencyKey = some k) = none := h
  simpa using List.find?_eq_none.1 h r hr

theorem Db.HasKey.run {db : Db} {k : String} {i : Uuid} (h : db.HasKey k i) (op : Op) :
    (op.run db).HasKey k i := by
  obtain ⟨r, hr, hkey, hid⟩ := h
  rcases op.rows db with ⟨f, hf, hrows⟩ | ⟨d, now, -, -, -, hrows⟩
  · have hsame := (hf r).same_row
    refine ⟨f r, hrows ▸ List.mem_map_of_mem hr, ?_, ?_⟩
    · rw [hsame.idempotencyKey, hkey]
    · rw [hsame.id, hid]
  · exact ⟨r, hrows ▸ List.mem_append_left _ hr, hkey, hid⟩

theorem Db.UniqueKeys.run {db : Db} (h : db.UniqueKeys) (op : Op) : (op.run db).UniqueKeys := by
  rcases op.rows db with ⟨f, hf, hrows⟩ | ⟨d, now, -, -, hnone, hrows⟩
  · intro r₁ hr₁ r₂ hr₂ k hk₁ hk₂
    rw [hrows] at hr₁ hr₂
    obtain ⟨x₁, hx₁, rfl⟩ := List.mem_map.1 hr₁
    obtain ⟨x₂, hx₂, rfl⟩ := List.mem_map.1 hr₂
    rw [(hf x₁).same_row.idempotencyKey] at hk₁
    rw [(hf x₂).same_row.idempotencyKey] at hk₂
    rw [h x₁ hx₁ x₂ hx₂ k hk₁ hk₂]
  · intro r₁ hr₁ r₂ hr₂ k hk₁ hk₂
    have hnew : ∀ r ∈ db.deliveries.rows, r.idempotencyKey = some k →
        (newRow d now).idempotencyKey ≠ some k := by
      intro r hr hk hkd
      have hkd : d.idempotencyKey = some k := hkd
      rw [hkd] at hnone
      exact withKey_none hnone hr hk
    rw [hrows, List.mem_append, List.mem_singleton] at hr₁ hr₂
    rcases hr₁ with hr₁ | rfl <;> rcases hr₂ with hr₂ | rfl
    · exact h r₁ hr₁ r₂ hr₂ k hk₁ hk₂
    · exact absurd hk₂ (hnew r₁ hr₁ hk₁)
    · exact absurd hk₁ (hnew r₂ hr₂ hk₂)
    · rfl

theorem unique_keys {ops : List Op} {db : Db} (h : operations.Reaches ops db) :
    db.UniqueKeys := by
  apply h.invariant (I := fun _ db => db.UniqueKeys)
  · rintro db rfl r hr
    exact absurd hr List.not_mem_nil
  · rintro ops db op db' _ hI rfl
    exact hI.run op

/-! ## Resubmission -/

/-- An insert under a key that is stored answers with the id it is stored under,
be the new id taken or not. -/
theorem insert_conflict {db : Db} (hunique : db.UniqueKeys) {k : String} {i : Uuid}
    (hk : db.HasKey k i) {d : NewDelivery} (hd : d.idempotencyKey = some k) (now : Int) :
    insert db d now = .error (.idempotencyConflict i) := by
  obtain ⟨r, hr, hkey, hid⟩ := hk
  cases hw : db.withKey (some k) with
  | none => exact absurd hkey (withKey_none hw hr)
  | some r' =>
    obtain ⟨hr', hkey'⟩ := withKey_some hw
    have heq : r' = r := hunique r' hr' r hr k hkey' hkey
    have hrow : insertRow db d now = none := by
      unfold insertRow
      rw [hd, hw, Option.isSome_some, if_pos rfl]
    unfold insert
    rw [hrow, hd, hw]
    simp only
    rw [heq, hid]

/-- An insert under a fresh id and a fresh key succeeds. -/
theorem insert_of_fresh {db : Db} {d : NewDelivery} (hrow : db.row d.id = none)
    (hkey : db.withKey d.idempotencyKey = none) (now : Int) :
    ∃ db', insert db d now = .ok db' := by
  have hins : ∃ t, db.deliveries.insert? (newRow d now) = some t :=
    Table.insert?_eq_some_iff.2 hrow
  obtain ⟨t, ht⟩ := hins
  refine ⟨{ db with deliveries := t }, ?_⟩
  unfold insert insertRow
  rw [hkey]
  simp [ht]

/-- An insert without a key fails on a taken id only. -/
theorem insert_keyless {db : Db} {d : NewDelivery} (hd : d.idempotencyKey = none)
    (hfresh : db.row d.id = none) (now : Int) : ∃ db', insert db d now = .ok db' := by
  have hkey : db.withKey d.idempotencyKey = none := by
    rw [hd]
    rfl
  exact insert_of_fresh hfresh hkey now

/-- A key belongs to one row at most.  Once an insert has brought it in, every
later insert under it is answered with the same id and changes nothing, and an
insert without a key and with a fresh id succeeds. -/
theorem insert_idempotent {ops : List Op} {db : Db} (h : operations.Reaches ops db) :
    db.UniqueKeys ∧
      (∀ d now db₁ ops' db₂ k, insert db d now = .ok db₁ → d.idempotencyKey = some k →
        operations.Path db₁ ops' db₂ → ∀ d' now', d'.idempotencyKey = some k →
        insert db₂ d' now' = .error (.idempotencyConflict d.id) ∧
          (Op.insert d' now').run db₂ = db₂) ∧
      ∀ d now, d.idempotencyKey = none → db.row d.id = none →
        ∃ db₁, insert db d now = .ok db₁ := by
  refine ⟨unique_keys h, ?_, fun d now hd hfresh => insert_keyless hd hfresh now⟩
  intro d now db₁ ops' db₂ k hins hk hpath d' now' hk'
  have hop : db₁ = (Op.insert d now).run db := by simp [Op.run, hins]
  have h₁ : operations.Reaches _ db₁ := h.step hop
  have hkey : db₂.HasKey k d.id := by
    apply hpath.keeps (P := fun db => db.HasKey k d.id)
    · rintro db op db' hI rfl
      exact hI.run op
    · obtain ⟨-, hrows, -⟩ := insert_ok hins
      exact ⟨newRow d now, hrows ▸ List.mem_append_right _ (List.mem_singleton_self _), hk, rfl⟩
  have hconflict := insert_conflict (unique_keys (h₁.path hpath)) hkey hk' now'
  exact ⟨hconflict, by simp [Op.run, hconflict]⟩

/-- A submission with a key, and its row. -/
def keyed (id : Uuid) : NewDelivery where
  id := id
  idempotencyKey := some "k"
  destination := "http://a.test"
  payload := []
  maxAttempts := 2

def keyedDb : Db :=
  { deliveries := ⟨[newRow (keyed 1) 0], List.nodup_singleton _⟩, deadLetters := Table.empty }

/-- The delivery is claimed, dead-lettered and replayed, and its key is used
again. -/
theorem insert_idempotent_keyed :
    insert (Op.run (Op.run (Op.run keyedDb (.claim 1 3)) (.deadLetter 1 "HTTP 404" 7 4))
      (.replayDeadLetter 1 5)) (keyed 2) 9 = .error (.idempotencyConflict 1) := by
  have hpath := ((System.Path.one (S := operations) (s := keyedDb) (l := .claim 1 3) rfl).cons
    (l := .deadLetter 1 "HTTP 404" 7 4) rfl).cons (l := .replayDeadLetter 1 5) rfl
  exact ((insert_idempotent (.init rfl)).2.1 (keyed 1) 0 keyedDb _ _ "k" rfl rfl hpath
    (keyed 2) 9 rfl).1

/-! ## The service -/

variable {ω : Type} [DecidableEq ω]

/-- What the service does to its tables is an operation of the store. -/
theorem Step.op {s t : State ω} {l : Label ω} (hst : Step s l t) :
    t.db = s.db ∨ ∃ op : Op, t.db = op.run s.db := by
  have hdead : ∀ {id entryId : Uuid} {err : String} {now : Int} {e : Option DlqEntry} {db : Db},
      deadLetter s.db id err entryId now = .ok (e, db) → ∃ op : Op, db = op.run s.db := by
    intro id entryId err now e db hdl
    exact ⟨.deadLetter id err entryId now, by simp [Op.run, hdl]⟩
  cases hst with
  | insert d now db hins => exact .inr ⟨.insert d now, by simp [Op.run, hins]⟩
  | replay id now => exact .inr ⟨.replayDeadLetter id now, rfl⟩
  | start w now hpc => exact .inr ⟨.resetStaleInFlight now s.staleMs, rfl⟩
  | refuse w d rest check reason c entry db hpc hcheck hdl => exact .inr (hdead hdl)
  | claim w d rest now hpc => exact .inr ⟨.claim d.id now, rfl⟩
  | record w d out rest c db hpc hrec =>
    refine .inr ?_
    have hmap : ∀ err, (deadLetter s.db d.id err c.entryId c.now).map Prod.snd = .ok db →
        ∃ op : Op, db = op.run s.db := by
      intro err hmap
      cases hdl : deadLetter s.db d.id err c.entryId c.now with
      | error e => rw [hdl] at hmap; cases hmap
      | ok res =>
        rw [hdl] at hmap
        cases hmap
        exact hdead hdl
    cases out with
    | delivered => exact ⟨.markDelivered d.id c.now, (Except.ok.inj hrec).symm⟩
    | permanent err => exact hmap err hrec
    | retryable err =>
      simp only [recordOutcome] at hrec
      split at hrec
      · exact hmap err hrec
      · exact ⟨.scheduleRetry d.id _ err c.now, (Except.ok.inj hrec).symm⟩
  | listDue | send | dbFail | endPass | restart => exact .inl rfl

/-- So its tables are those of a run of the store. -/
theorem operations_of_reaches {h : List (Label ω)} {s : State ω} (hs : (system ω).Reaches h s) :
    ∃ ops, operations.Reaches ops s.db := by
  apply hs.invariant (I := fun _ s => ∃ ops, operations.Reaches ops s.db)
  · rintro s ⟨hdb, -⟩
    exact ⟨[], .init hdb⟩
  · rintro h s l t _ ⟨ops, hops⟩ hst
    rcases hst.op with hdb | ⟨op, hdb⟩
    · exact ⟨ops, hdb ▸ hops⟩
    · exact ⟨op :: ops, hops.step hdb⟩

/-- A key belongs to one row at most in every state of the service. -/
theorem unique_keys_of_reaches {h : List (Label ω)} {s : State ω}
    (hs : (system ω).Reaches h s) : s.db.UniqueKeys := by
  obtain ⟨ops, hops⟩ := operations_of_reaches hs
  exact unique_keys hops

end Q
end WebhookDelivery
