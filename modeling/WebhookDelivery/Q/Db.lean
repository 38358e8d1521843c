/-
The statements of the `q` service.

One connection behind a mutex: each method of `Db` is one atomic step, and the
clock reading it takes is an argument.  `claim` and `replayDeadLetter` ask for
the status they expect.  The outcome writes, `deadLetter` among them, name a row
by its id and nothing else.
-/
import WebhookDelivery.Sql.Select
import WebhookDelivery.Q.Model

namespace WebhookDelivery
namespace Q

open Sql

structure Db where
  deliveries : Table DeliveryRow
  deadLetters : Table DlqRow

def Db.empty : Db := { deliveries := Table.empty, deadLetters := Table.empty }

/-- The row of a delivery. -/
def Db.row (db : Db) (id : Uuid) : Option DeliveryRow := db.deliveries.get? id

/-- The number of entries `dead_letters` has for a delivery. -/
def Db.entries (db : Db) (id : Uuid) : Nat :=
  db.deadLetters.affected fun e => decide (e.deliveryId = id)

def newRow (d : NewDelivery) (now : Int) : DeliveryRow where
  id := d.id
  idempotencyKey := d.idempotencyKey
  destination := d.destination
  payload := d.payload
  status := .pending
  attempts := 0
  maxAttempts := d.maxAttempts
  nextRetryAt := now
  lastError := none
  createdAt := now
  updatedAt := now

/-- `WHERE idempotency_key = ?`, which is false of a NULL. -/
def Db.withKey (db : Db) : Option String → Option DeliveryRow
  | none => none
  | some k => db.deliveries.rows.find? fun r => r.idempotencyKey = some k

/-- `INSERT`, with the two constraints of the table. -/
def insertRow (db : Db) (d : NewDelivery) (now : Int) : Option Db :=
  if (db.withKey d.idempotencyKey).isSome then none
  else (db.deliveries.insert? (newRow d now)).map fun t => { db with deliveries := t }

def insert (db : Db) (d : NewDelivery) (now : Int) : Except DbError Db :=
  match insertRow db d now with
  | some db' => .ok db'
  | none =>
    match db.withKey d.idempotencyKey with
    | some r => .error (.idempotencyConflict r.id)
    | none => .error .sqlite

/-! ## Polling and claiming -/

def isDue (now : Int) (r : DeliveryRow) : Bool := r.status = .pending ∧ r.nextRetryAt ≤ now

/-- `for row in rows { out.push(row?) }`. -/
def mapRows : List DeliveryRow → Except DbError (List Delivery)
  | [] => .ok []
  | r :: rows =>
    match mapDelivery r with
    | .error e => .error e
    | .ok d =>
      match mapRows rows with
      | .error e => .error e
      | .ok ds => .ok (d :: ds)

/-- `res` is an answer of `list_due`. -/
def ListsDue (db : Db) (now : Int) (limit : Int) (res : Except DbError (List Delivery)) : Prop :=
  ∃ rows, Ordered DeliveryRow.nextRetryAt limit (db.deliveries.select (isDue now)) rows ∧
    mapRows rows = res

def asClaimed (now : Int) (r : DeliveryRow) : DeliveryRow :=
  { r with status := .inFlight, updatedAt := now }

def isPending (id : Uuid) (r : DeliveryRow) : Bool :=
  decide (r.id = id) && decide (r.status = .pending)

def claim (db : Db) (id : Uuid) (now : Int) : Bool × Db :=
  (decide (db.deliveries.affected (isPending id) = 1),
    { db with deliveries := db.deliveries.update (isPending id) (asClaimed now) })

/-! ## Outcomes -/

def asDelivered (now : Int) (r : DeliveryRow) : DeliveryRow :=
  { r with
    status := .delivered, attempts := r.attempts + 1, lastError := none, updatedAt := now }

def asRetried (nextMs : Int) (err : String) (now : Int) (r : DeliveryRow) : DeliveryRow :=
  { r with
    status := .pending, attempts := r.attempts + 1, nextRetryAt := nextMs,
    lastError := some err, updatedAt := now }

def asDeadLettered (err : String) (now : Int) (r : DeliveryRow) : DeliveryRow :=
  { r with status := .deadLetter, lastError := some err, updatedAt := now }

def asReplayed (now : Int) (r : DeliveryRow) : DeliveryRow :=
  { r with
    status := .pending, attempts := 0, nextRetryAt := now, lastError := none, updatedAt := now }

def asReset (now : Int) (r : DeliveryRow) : DeliveryRow :=
  { r with status := .pending, nextRetryAt := now, updatedAt := now }

def markDelivered (db : Db) (id : Uuid) (now : Int) : Db :=
  { db with deliveries := db.deliveries.update (fun r => r.id = id) (asDelivered now) }

def scheduleRetry (db : Db) (id : Uuid) (nextMs : Int) (err : String) (now : Int) : Db :=
  { db with deliveries := db.deliveries.update (fun r => r.id = id) (asRetried nextMs err now) }

def dlqRow (entryId : Uuid) (r : DeliveryRow) (attempts : Int) (err : String) (now : Int) :
    DlqRow where
  id := entryId
  deliveryId := r.id
  destination := r.destination
  payload := r.payload
  attempts := attempts
  lastError := some err
  deadLetteredAt := now

def DlqRow.entry (e : DlqRow) : DlqEntry where
  id := e.id
  deliveryId := e.deliveryId
  destination := e.destination
  payload := e.payload
  attempts := asU32 e.attempts
  lastError := e.lastError
  deadLetteredAt := e.deadLetteredAt

/-- `dead_letter`.  The update and the new entry are one transaction, so an
error at either leaves both tables alone. -/
def deadLetter (db : Db) (id : Uuid) (err : String) (entryId : Uuid) (now : Int) :
    Except DbError (Option DlqEntry × Db) :=
  match db.row id with
  | none => .ok (none, db)
  | some r =>
    match getI32 r.attempts with
    | .error e => .error e
    | .ok attempts =>
      let entry := dlqRow entryId r attempts err now
      match db.deadLetters.insert? entry with
      | none => .error .sqlite
      | some t => .ok (some entry.entry, {
          deliveries := db.deliveries.update (fun r => r.id = id) (asDeadLettered err now)
          deadLetters := t })

/-! ## Replay and recovery -/

def isDeadLetter (id : Uuid) (r : DeliveryRow) : Bool :=
  decide (r.id = id) && decide (r.status = .deadLetter)

def replayDeadLetter (db : Db) (id : Uuid) (now : Int) : Bool × Db :=
  (decide (db.deliveries.affected (isDeadLetter id) = 1),
    { db with deliveries := db.deliveries.update (isDeadLetter id) (asReplayed now) })

/-- The rows `reset_stale_in_flight` takes. -/
def isStale (now staleMs : Int) (r : DeliveryRow) : Bool :=
  decide (r.status = .inFlight) && decide (r.updatedAt ≤ now - staleMs)

def resetStaleInFlight (db : Db) (now staleMs : Int) : Db :=
  { db with deliveries := db.deliveries.update (isStale now staleMs) (asReset now) }

/-! ## What the statements do to a row -/

/-- An accepted insert: its key is new, and the row is added to the table. -/
theorem insert_table {db db' : Db} {d : NewDelivery} {now : Int} (h : insert db d now = .ok db') :
    db.withKey d.idempotencyKey = none ∧ ∃ t, db.deliveries.insert? (newRow d now) = some t ∧
      db' = { db with deliveries := t } := by
  unfold insert at h
  cases hi : insertRow db d now with
  | none =>
    simp only [hi] at h
    split at h <;> cases h
  | some db₁ =>
    simp only [hi, Except.ok.injEq] at h
    subst h
    unfold insertRow at hi
    split at hi
    · cases hi
    · rename_i hnone
      obtain ⟨t, ht, rfl⟩ := Option.map_eq_some_iff.1 hi
      exact ⟨by simpa using hnone, t, ht, rfl⟩

theorem row_insert {db db' : Db} {d : NewDelivery} {now : Int} (h : insert db d now = .ok db')
    (k : Uuid) :
    db.row d.id = none ∧
      db'.row k = (if d.id = k then some (newRow d now) else db.row k) ∧
      db'.entries k = db.entries k := by
  obtain ⟨-, t, ht, rfl⟩ := insert_table h
  exact ⟨Table.get?_of_insert? ht, Table.get?_insert? ht k, rfl⟩

/-- An insert leaves the deliveries that are there. -/
theorem row_insert_of_some {db db' : Db} {d : NewDelivery} {now : Int} {k : Uuid}
    {r : DeliveryRow} (h : insert db d now = .ok db') (hr : db.row k = some r) :
    db'.row k = some r := by
  obtain ⟨hnone, hrow, -⟩ := row_insert h k
  refine (hrow.trans (if_neg fun e => ?_)).trans hr
  rw [e, hr] at hnone
  cases hnone

theorem row_claim (db : Db) (id : Uuid) (now : Int) (k : Uuid) :
    (claim db id now).2.row k =
      if k = id then (db.row id).map fun r => if r.status = .pending then asClaimed now r else r
      else db.row k := by
  refine (Table.get?_update_key db.deliveries id (fun r => decide (r.status = .pending))
    (asClaimed now) (fun _ => rfl) k).trans ?_
  simp [Db.row]

theorem claim_fst (db : Db) (id : Uuid) (now : Int) :
    (claim db id now).1 = true ↔ ∃ r, db.row id = some r ∧ r.status = .pending := by
  have h : db.deliveries.affected (isPending id) =
      if (db.row id).any (fun r => decide (r.status = .pending)) then 1 else 0 :=
    Table.affected_key db.deliveries id fun r => decide (r.status = .pending)
  simp only [claim, h, decide_eq_true_eq]
  cases hg : db.row id with
  | none => simp
  | some r => by_cases hr : r.status = .pending <;> simp [hr]

theorem row_replayDeadLetter (db : Db) (id : Uuid) (now : Int) (k : Uuid) :
    (replayDeadLetter db id now).2.row k =
      if k = id then
        (db.row id).map fun r => if r.status = .deadLetter then asReplayed now r else r
      else db.row k := by
  refine (Table.get?_update_key db.deliveries id (fun r => decide (r.status = .deadLetter))
    (asReplayed now) (fun _ => rfl) k).trans ?_
  simp [Db.row]

theorem replayDeadLetter_fst (db : Db) (id : Uuid) (now : Int) :
    (replayDeadLetter db id now).1 = true ↔
      ∃ r, db.row id = some r ∧ r.status = .deadLetter := by
  have h : db.deliveries.affected (isDeadLetter id) =
      if (db.row id).any (fun r => decide (r.status = .deadLetter)) then 1 else 0 :=
    Table.affected_key db.deliveries id fun r => decide (r.status = .deadLetter)
  simp only [replayDeadLetter, h, decide_eq_true_eq]
  cases hg : db.row id with
  | none => simp
  | some r => by_cases hr : r.status = .deadLetter <;> simp [hr]

theorem isStale_iff {now staleMs : Int} {r : DeliveryRow} :
    isStale now staleMs r = true ↔ r.status = .inFlight ∧ r.updatedAt ≤ now - staleMs := by
  simp [isStale]

theorem row_resetStaleInFlight (db : Db) (now staleMs : Int) (k : Uuid) :
    (resetStaleInFlight db now staleMs).row k =
      (db.row k).map fun r => if isStale now staleMs r then asReset now r else r :=
  Table.get?_update db.deliveries (isStale now staleMs) (asReset now) (fun _ => rfl) k

/-- What `dead_letter` does when it succeeds: nothing if there is no row, else
both its statements. -/
theorem deadLetter_spec {db db' : Db} {id entryId : Uuid} {err : String} {now : Int}
    {e : Option DlqEntry} (h : deadLetter db id err entryId now = .ok (e, db')) :
    (db.row id = none ∧ db' = db) ∨
      ∃ r attempts, db.row id = some r ∧ getI32 r.attempts = .ok attempts ∧
        db'.deliveries = db.deliveries.update (fun r => r.id = id) (asDeadLettered err now) ∧
        db'.deadLetters.rows = db.deadLetters.rows ++ [dlqRow entryId r attempts err now] := by
  unfold deadLetter at h
  cases hr : db.row id with
  | none =>
    simp only [hr, Except.ok.injEq, Prod.mk.injEq] at h
    exact .inl ⟨rfl, h.2.symm⟩
  | some r =>
    simp only [hr] at h
    split at h
    · cases h
    · rename_i attempts hatt
      split at h
      · cases h
      · rename_i t ht
        simp only [Except.ok.injEq, Prod.mk.injEq] at h
        obtain ⟨-, rfl⟩ := h
        exact .inr ⟨r, attempts, rfl, hatt, rfl, Table.rows_of_insert? ht⟩

theorem deadLetter_ok {db db' : Db} {id entryId : Uuid} {err : String} {now : Int}
    {e : Option DlqEntry} (h : deadLetter db id err entryId now = .ok (e, db')) (k : Uuid) :
    db'.row k = (if k = id then (db.row id).map (asDeadLettered err now) else db.row k) ∧
      db'.entries k = db.entries k + if k = id ∧ (db.row id).isSome then 1 else 0 := by
  rcases deadLetter_spec h with ⟨hnone, rfl⟩ | ⟨r, attempts, hr, -, hrows, hentries⟩
  · refine ⟨?_, by simp [hnone]⟩
    by_cases hk : k = id
    · rw [if_pos hk, hk, hnone, Option.map_none]
    · rw [if_neg hk]
  · have hid : r.id = id := Table.key_of_get? hr
    constructor
    · simp only [Db.row, hrows]
      exact Table.get?_update_at db.deliveries id (asDeadLettered err now) (fun _ => rfl) k
    · simp only [Db.entries, Table.affected, hentries, List.countP_append, List.countP_singleton,
        dlqRow, hid, hr, Option.isSome_some, and_true, decide_eq_true_eq]
      by_cases hk : k = id
      · simp [hk]
      · have hk' : ¬id = k := fun e => hk e.symm
        simp [hk, hk']

theorem mem_of_mapRows {rows : List DeliveryRow} {ds : List Delivery}
    (h : mapRows rows = .ok ds) {d : Delivery} (hd : d ∈ ds) :
    ∃ r ∈ rows, mapDelivery r = .ok d := by
  induction rows generalizing ds with
  | nil =>
    rw [mapRows, Except.ok.injEq] at h
    subst h
    exact absurd hd List.not_mem_nil
  | cons r rows ih =>
    unfold mapRows at h
    cases hr : mapDelivery r with
    | error e => simp [hr] at h
    | ok d₀ =>
      cases hrest : mapRows rows with
      | error e => simp [hr, hrest] at h
      | ok ds₀ =>
        simp only [hr, hrest, Except.ok.injEq] at h
        subst h
        rcases List.mem_cons.1 hd with rfl | hd
        · exact ⟨r, List.mem_cons_self, hr⟩
        · obtain ⟨r', hr', hm⟩ := ih hrest hd
          exact ⟨r', List.mem_cons_of_mem r hr', hm⟩

theorem mapRows_ids {rows : List DeliveryRow} {ds : List Delivery} (h : mapRows rows = .ok ds) :
    ds.map Delivery.id = rows.map DeliveryRow.id := by
  induction rows generalizing ds with
  | nil =>
    cases h
    rfl
  | cons r rows ih =>
    unfold mapRows at h
    cases hr : mapDelivery r with
    | error e => simp [hr] at h
    | ok d =>
      cases hrest : mapRows rows with
      | error e => simp [hr, hrest] at h
      | ok ds₀ =>
        simp only [hr, hrest, Except.ok.injEq] at h
        subst h
        rw [List.map_cons, List.map_cons, ih hrest, (mapDelivery_ok hr).1]

/-- No delivery is twice in a batch. -/
theorem ListsDue.nodup {db : Db} {now limit : Int} {ds : List Delivery}
    (h : ListsDue db now limit (.ok ds)) : (ds.map Delivery.id).Nodup := by
  obtain ⟨rows, hord, hmap⟩ := h
  have hids : ((db.deliveries.select (isDue now)).map DeliveryRow.id).Nodup :=
    db.deliveries.nodup.sublist (List.filter_sublist.map _)
  rw [mapRows_ids hmap]
  exact hord.nodup_map hids

/-- Nor are there more than the limit allows. -/
theorem ListsDue.length_le {db : Db} {now : Int} {limit : Nat} {ds : List Delivery}
    (h : ListsDue db now limit (.ok ds)) : ds.length ≤ limit := by
  obtain ⟨rows, hord, hmap⟩ := h
  have hids := congrArg List.length (mapRows_ids hmap)
  rw [List.length_map, List.length_map] at hids
  have hlen := hord.length_eq
  rw [if_neg (by omega), Int.toNat_natCast] at hlen
  omega

/-- A delivery of a batch is a row that was due when the batch was listed. -/
theorem ListsDue.mem {db : Db} {now limit : Int} {ds : List Delivery}
    (h : ListsDue db now limit (.ok ds)) {d : Delivery} (hd : d ∈ ds) :
    ∃ r, db.row d.id = some r ∧ r.status = .pending ∧ r.nextRetryAt ≤ now ∧
      mapDelivery r = .ok d := by
  obtain ⟨rows, hord, hmap⟩ := h
  obtain ⟨r, hr, hm⟩ := mem_of_mapRows hmap hd
  obtain ⟨hmem, hdue⟩ := List.mem_filter.1 (hord.mem hr)
  have hdue' : r.status = .pending ∧ r.nextRetryAt ≤ now := by simpa [isDue] using hdue
  have hid : d.id = r.id := (mapDelivery_ok hm).1
  exact ⟨r, hid ▸ Table.get?_of_mem hmem, hdue'.1, hdue'.2, hm⟩

end Q
end WebhookDelivery
