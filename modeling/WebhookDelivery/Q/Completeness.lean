/-
The link between a dead letter and its entries.

`dead_letter` writes two tables, in one transaction: the status of the delivery
and a new entry with a copy of it.  Nothing else writes the status, and nothing
at all rewrites or removes an entry, so each dead letter can be replayed through
an entry that shows what it was.
-/
import WebhookDelivery.Sql.Transaction
import WebhookDelivery.Q.Auth
import WebhookDelivery.Q.Idempotency
import WebhookDelivery.Q.Ownership

namespace WebhookDelivery
namespace Q

open Sql Run

/-! ## `dead_letter`, statement by statement -/

/-- The calls of `dead_letter` that may fail. -/
inductive Stage
  | select
  | begin
  | update
  | insert
  | commit
  deriving DecidableEq

theorem key_asDeadLettered (err : String) (now : Int) (r : DeliveryRow) :
    key (asDeadLettered err now r) = key r := rfl

/-- The two statements of the transaction. -/
def deadLetterBody (fault : Stage → Bool) (id entryId : Uuid) (r : DeliveryRow) (attempts : Int)
    (err : String) (now : Int) (tx : Db) : Except DbError (Option DlqEntry × Db) :=
  if fault .update then .error .sqlite
  else
    let tx := { tx with
      deliveries := tx.deliveries.update (fun r => r.id = id) (asDeadLettered err now)
        (key_asDeadLettered err now) }
    if fault .insert then .error .sqlite
    else
      let entry := dlqRow entryId r attempts err now
      match tx.deadLetters.insert? entry with
      | some t => .ok (some entry.entry, { tx with deadLetters := t })
      | none => .error .sqlite

/-- `dead_letter` with the calls that fail, and the tables it leaves. -/
def deadLetterAt (fault : Stage → Bool) (db : Db) (id : Uuid) (err : String) (entryId : Uuid)
    (now : Int) : Except DbError (Option DlqEntry) × Db :=
  if fault .select then (.error .sqlite, db)
  else
    match db.row id with
    | none => (.ok none, db)
    | some r =>
      match getI32 r.attempts with
      | .error e => (.error e, db)
      | .ok attempts =>
        if fault .begin then (.error .sqlite, db)
        else
          transaction db (deadLetterBody fault id entryId r attempts err now)
            (if fault .commit then some .sqlite else none)

/-- A call that fails part-way leaves both tables as they were. -/
theorem deadLetterAt_error {fault : Stage → Bool} {db db' : Db} {id entryId : Uuid}
    {err : String} {now : Int} {e : DbError}
    (h : deadLetterAt fault db id err entryId now = (.error e, db')) : db' = db := by
  unfold deadLetterAt at h
  split at h
  · exact (Prod.mk.inj h).2.symm
  · split at h
    · cases h
    · split at h
      · exact (Prod.mk.inj h).2.symm
      · split at h
        · exact (Prod.mk.inj h).2.symm
        · exact transaction_error h

/-- A call that does not fail is the `dead_letter` of the runs. -/
theorem deadLetterAt_ok {fault : Stage → Bool} {db db' : Db} {id entryId : Uuid} {err : String}
    {now : Int} {e : Option DlqEntry}
    (h : deadLetterAt fault db id err entryId now = (.ok e, db')) :
    deadLetter db id err entryId now = .ok (e, db') := by
  unfold deadLetterAt at h
  unfold deadLetter
  split at h
  · cases h
  · cases hr : db.row id with
    | none =>
      simp only [hr, Prod.mk.injEq, Except.ok.injEq] at h
      simp only [h.1, h.2]
    | some r =>
      simp only [hr] at h
      cases hatt : getI32 r.attempts with
      | error e' =>
        simp only [hatt] at h
        cases h
      | ok attempts =>
        simp only [hatt] at h
        split at h
        · cases h
        · have hbody := (transaction_ok h).1
          unfold deadLetterBody at hbody
          simp only [hatt]
          split at hbody
          · cases hbody
          · split at hbody
            · cases hbody
            · dsimp only at hbody
              split at hbody
              · rename_i t ht
                simp only [Except.ok.injEq, Prod.mk.injEq] at hbody
                obtain ⟨rfl, rfl⟩ := hbody
                simp only [ht]
              · cases hbody

/-! ## The replay endpoint -/

/-- `find_dlq_entry`. -/
def findDlqEntry (db : Db) (id : Uuid) : Except DbError (Option DlqEntry) :=
  match db.deadLetters.get? id with
  | none => .ok none
  | some e =>
    match getI32 e.attempts with
    | .error err => .error err
    | .ok _ => .ok (some e.entry)

/-- `text` is the `Display` of a `DbError`, which SQLite has a part in. -/
def dbErr (text : DbError → String) (e : DbError) : ApiError := .internal s!"db error: {text e}"

/-- `replay`, up to its lookup. -/
def replayLookup (text : DbError → String) (headers : HeaderMap) (adminKey : String) (db : Db)
    (id : Uuid) : Except ApiError Uuid :=
  match requireAdmin headers adminKey with
  | .error e => .error e
  | .ok _ =>
    match findDlqEntry db id with
    | .error e => .error (dbErr text e)
    | .ok none => .error (.notFound "unknown dead-letter id")
    | .ok (some entry) => .ok entry.deliveryId

/-- The rest of `replay`. -/
def replayUpdate (db : Db) (deliveryId : Uuid) (now : Int) : Except ApiError Uuid × Db :=
  match replayDeadLetter db deliveryId now with
  | (true, db') => (.ok deliveryId, db')
  | (false, db') => (.error (.notFound "delivery is not dead-lettered"), db')

/-! ## Entries -/

/-- The entry `e` shows the delivery `r`. -/
structure DlqRow.Shows (e : DlqRow) (r : DeliveryRow) : Prop where
  deliveryId : e.deliveryId = r.id
  destination : e.destination = r.destination
  payload : e.payload = r.payload

/-- Every dead letter has an entry that shows it, and the attempts of an entry
can be read back. -/
structure Db.Complete (db : Db) : Prop where
  shown : ∀ r ∈ db.deliveries.rows, r.status = .deadLetter →
    ∃ e ∈ db.deadLetters.rows, e.Shows r
  readable : ∀ e ∈ db.deadLetters.rows, ∃ n, getI32 e.attempts = .ok n

/-- The entries of a database stay, in their place. -/
theorem Op.entries (db : Db) (op : Op) :
    db.deadLetters.rows <+: (op.run db).deadLetters.rows := by
  have hsame : (op.run db).deadLetters = db.deadLetters →
      db.deadLetters.rows <+: (op.run db).deadLetters.rows := by
    intro h
    exact h.symm ▸ List.prefix_rfl
  cases op with
  | claim | markDelivered | scheduleRetry | replayDeadLetter | resetStaleInFlight =>
    exact hsame rfl
  | insert d now =>
    cases hins : Q.insert db d now with
    | error e => exact hsame (by simp [Op.run, hins])
    | ok db' => exact hsame (by simp [Op.run, hins, (insert_ok hins).2.2])
  | deadLetter id err entryId now =>
    cases hdl : Q.deadLetter db id err entryId now with
    | error e => exact hsame (by simp [Op.run, hdl])
    | ok res =>
      obtain ⟨e, db'⟩ := res
      have hrun : Op.run db (.deadLetter id err entryId now) = db' := by simp [Op.run, hdl]
      rw [hrun]
      rcases deadLetter_spec hdl with ⟨-, rfl⟩ | ⟨r, attempts, -, -, -, hentries⟩
      · exact List.prefix_rfl
      · rw [hentries]
        exact List.prefix_append _ _

/-- An operation that makes no dead letter keeps the link. -/
theorem Db.Complete.of_rows {db db' : Db} (h : db.Complete)
    (hrows : ∀ r' ∈ db'.deliveries.rows, r'.status = .deadLetter →
      ∃ r ∈ db.deliveries.rows, r.status = .deadLetter ∧ r.Same r')
    (hentries : db'.deadLetters = db.deadLetters) : db'.Complete where
  shown r' hr' hdead := by
    obtain ⟨r, hr, hdead, hsame⟩ := hrows r' hr' hdead
    obtain ⟨e, he, hshows⟩ := h.shown r hr hdead
    refine ⟨e, hentries ▸ he, ?_, ?_, ?_⟩
    · rw [hshows.deliveryId, hsame.id]
    · rw [hshows.destination, hsame.destination]
    · rw [hshows.payload, hsame.payload]
  readable e he := h.readable e (hentries ▸ he)

/-- What an `UPDATE` that writes another status leaves dead-lettered was so
before. -/
theorem dead_of_update {t : Table DeliveryRow} {p : DeliveryRow → Bool}
    {f : DeliveryRow → DeliveryRow} (hf : ∀ r, (f r).id = r.id)
    (hlive : ∀ r, (f r).status ≠ .deadLetter) {r' : DeliveryRow}
    (hr' : r' ∈ (t.update p f hf).rows) (hdead : r'.status = .deadLetter) :
    ∃ r ∈ t.rows, r.status = .deadLetter ∧ r.Same r' := by
  obtain ⟨r, hr, rfl⟩ := List.mem_map.1 hr'
  by_cases hp : p r = true
  · rw [if_pos hp] at hdead
    exact absurd hdead (hlive r)
  · rw [if_neg hp] at hdead ⊢
    exact ⟨r, hr, hdead, .refl r⟩

theorem Db.Complete.run {db : Db} (h : db.Complete) (op : Op) : (op.run db).Complete := by
  cases op with
  | insert d now =>
    cases hins : Q.insert db d now with
    | error e =>
      have hrun : Op.run db (.insert d now) = db := by simp [Op.run, hins]
      rw [hrun]
      exact h
    | ok db' =>
      obtain ⟨-, hrows, hentries⟩ := insert_ok hins
      have hrun : Op.run db (.insert d now) = db' := by simp [Op.run, hins]
      rw [hrun]
      refine h.of_rows (fun r' hr' hdead => ?_) hentries
      rw [hrows, List.mem_append, List.mem_singleton] at hr'
      rcases hr' with hr' | rfl
      · exact ⟨r', hr', hdead, .refl r'⟩
      · cases hdead
  | claim id now =>
    exact h.of_rows (fun r' hr' => dead_of_update (f := asClaimed now) (fun _ => rfl)
      (fun r => by simp [asClaimed]) hr') rfl
  | markDelivered id now =>
    exact h.of_rows (fun r' hr' => dead_of_update (f := asDelivered now) (fun _ => rfl)
      (fun r => by simp [asDelivered]) hr') rfl
  | scheduleRetry id nextMs err now =>
    exact h.of_rows (fun r' hr' => dead_of_update (f := asRetried nextMs err now) (fun _ => rfl)
      (fun r => by simp [asRetried]) hr') rfl
  | replayDeadLetter id now =>
    exact h.of_rows (fun r' hr' => dead_of_update (f := asReplayed now) (fun _ => rfl)
      (fun r => by simp [asReplayed]) hr') rfl
  | resetStaleInFlight now staleMs =>
    exact h.of_rows (fun r' hr' => dead_of_update (f := asReset now) (fun _ => rfl)
      (fun r => by simp [asReset]) hr') rfl
  | deadLetter id err entryId now =>
    cases hdl : Q.deadLetter db id err entryId now with
    | error e =>
      have hrun : Op.run db (.deadLetter id err entryId now) = db := by simp [Op.run, hdl]
      rw [hrun]
      exact h
    | ok res =>
      obtain ⟨e, db'⟩ := res
      have hrun : Op.run db (.deadLetter id err entryId now) = db' := by simp [Op.run, hdl]
      rw [hrun]
      rcases deadLetter_spec hdl with ⟨-, rfl⟩ | ⟨r₀, attempts, hr₀, hatt, hrows, hentries⟩
      · exact h
      · constructor
        · intro r' hr' hdead
          rw [hrows] at hr'
          obtain ⟨r, hr, rfl⟩ := List.mem_map.1 hr'
          rw [hentries]
          by_cases hid : r.id = id
          · -- The row is the one the entry was copied from.
            have hrow : db.row id = some r := hid ▸ Table.get?_of_mem hr
            rw [hr₀, Option.some.injEq] at hrow
            subst hrow
            refine ⟨_, List.mem_append_right _ (List.mem_singleton_self _), ?_⟩
            rw [if_pos (by simpa using hid)]
            exact ⟨rfl, rfl, rfl⟩
          · rw [if_neg (by simpa using hid)] at hdead ⊢
            obtain ⟨e, he, hshows⟩ := h.shown r hr hdead
            exact ⟨e, List.mem_append_left _ he, hshows⟩
        · intro e he
          rw [hentries, List.mem_append, List.mem_singleton] at he
          rcases he with he | rfl
          · exact h.readable e he
          · refine ⟨attempts, ?_⟩
            have hval : attempts = r₀.attempts := getI32_ok hatt
            show getI32 attempts = .ok attempts
            rw [hval] at hatt ⊢
            exact hatt

/-! ## The service -/

variable {ω : Type} [DecidableEq ω]

theorem complete {h : List (Label ω)} {s : State ω} (hs : (system ω).Reaches h s) :
    s.db.Complete := by
  apply hs.invariant (I := fun _ s => s.db.Complete)
  · rintro s ⟨hdb, -⟩
    rw [hdb]
    exact ⟨fun r hr => absurd hr List.not_mem_nil, fun e he => absurd he List.not_mem_nil⟩
  · intro h s l t _ hI hst
    rcases hst.op with hdb | ⟨op, hdb⟩
    · rw [hdb]
      exact hI
    · rw [hdb]
      exact hI.run op

theorem entries_prefix {h : List (Label ω)} {s t : State ω} (hst : (system ω).Path s h t) :
    s.db.deadLetters.rows <+: t.db.deadLetters.rows := by
  induction hst with
  | nil => exact List.prefix_rfl
  | cons _ hstep ih =>
    rcases Step.op hstep with hdb | ⟨op, hdb⟩
    · rw [hdb]
      exact ih
    · rw [hdb]
      exact ih.trans (op.entries _)

theorem findDlqEntry_of_mem {db : Db} (hdb : db.Complete) {e : DlqRow}
    (he : e ∈ db.deadLetters.rows) : findDlqEntry db e.id = .ok (some e.entry) := by
  obtain ⟨n, hn⟩ := hdb.readable e he
  have hget : db.deadLetters.get? e.id = some e := Table.get?_of_mem he
  unfold findDlqEntry
  simp only [hget, hn]

/-- Every dead letter has an entry that shows it, every entry stays as it is,
and an admin who replays a dead letter through an entry of it gets it back
pending, with no attempts.  A `dead_letter` that fails changes nothing, at whichever of its
calls, and one that does not fail is the step of the runs. -/
theorem dead_letters_complete {h : List (Label ω)} {s : State ω} (hs : (system ω).Reaches h s) :
    (∀ id r, s.db.row id = some r → r.status = .deadLetter →
      ∃ e ∈ s.db.deadLetters.rows, e.deliveryId = id ∧ e.destination = r.destination ∧
        e.payload = r.payload) ∧
      (∀ h' t, (system ω).Path s h' t → s.db.deadLetters.rows <+: t.db.deadLetters.rows) ∧
      (∀ e ∈ s.db.deadLetters.rows, ∀ text headers adminKey,
        requireAdmin headers adminKey = .ok () →
        replayLookup text headers adminKey s.db e.id = .ok e.deliveryId ∧
          ∀ h' t, (system ω).Path s h' t → ∀ r, t.db.row e.deliveryId = some r →
            r.status = .deadLetter → ∀ now, ∃ db r',
              replayUpdate t.db e.deliveryId now = (.ok e.deliveryId, db) ∧
                Step t (.replay e.deliveryId now true) { t with db := db } ∧
                db.row e.deliveryId = some r' ∧ r'.status = .pending ∧ r'.attempts = 0) ∧
      (∀ fault id err entryId now e db,
        deadLetterAt fault s.db id err entryId now = (.error e, db) → db = s.db) ∧
      ∀ fault id err entryId now e db,
        deadLetterAt fault s.db id err entryId now = (.ok e, db) →
          deadLetter s.db id err entryId now = .ok (e, db) := by
  have hdb := complete hs
  refine ⟨?_, fun h' t hst => entries_prefix hst, ?_, fun _ _ _ _ _ _ _ => deadLetterAt_error,
    fun _ _ _ _ _ _ _ => deadLetterAt_ok⟩
  · intro id r hr hdead
    obtain ⟨e, he, hshows⟩ := hdb.shown r (Table.mem_of_get? hr) hdead
    have hid : r.id = id := Table.key_of_get? hr
    exact ⟨e, he, hshows.deliveryId.trans hid, hshows.destination, hshows.payload⟩
  · intro e he text headers adminKey hadmin
    constructor
    · unfold replayLookup
      simp only [hadmin, findDlqEntry_of_mem hdb he]
      rfl
    · intro h' t _ r hr hdead now
      have htrue : (replayDeadLetter t.db e.deliveryId now).1 = true :=
        (replayDeadLetter_fst t.db e.deliveryId now).2 ⟨r, hr, hdead⟩
      refine ⟨(replayDeadLetter t.db e.deliveryId now).2, asReplayed now r, ?_, ?_, ?_, rfl, rfl⟩
      · unfold replayUpdate
        split
        · rename_i db heq
          rw [heq]
        · rename_i db heq
          rw [heq] at htrue
          cases htrue
      · rw [← htrue]
        exact Step.replay t e.deliveryId now
      · have hrow := row_replayDeadLetter t.db e.deliveryId now e.deliveryId
        rw [if_pos rfl, hr, Option.map_some, if_pos hdead] at hrow
        exact hrow

/-- The hook after its first check has failed. -/
def refusedDb : Db :=
  stored (asDeadLettered lookupError 0 (newRow hook 0))
    [dlqRow 7 (newRow hook 0) 0 lookupError 0] (List.nodup_singleton _)

theorem refused_reached : (system Bool).Reaches (.refuse false hookRead lookupFailed :: listing)
    (duo refusedDb (.batch []) (.batch [hookRead])) :=
  (listing_reached.step
    (Step.refuse _ false hookRead [] lookupFailed _ noDraw _ refusedDb rfl rfl rfl)).of_eq
    (duo_ext rfl rfl rfl rfl)

theorem dead_letters_complete_hook :
    ∃ e ∈ refusedDb.deadLetters.rows, e.deliveryId = 1 ∧ e.destination = "http://a.test" ∧
      e.payload = [] :=
  (dead_letters_complete refused_reached).1 1
    (asDeadLettered lookupError 0 (newRow hook 0)) rfl rfl

end Q
end WebhookDelivery
