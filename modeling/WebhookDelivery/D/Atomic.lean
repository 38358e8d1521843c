/-
`move_to_dlq` and `redeliver` when a statement fails.

Both insert into one table and then delete from the other, and each statement
commits by itself.  A call is atomic if an error leaves both tables as they were
and a success takes one row of one table to the other.  It is not if the second
statement fails after the first, or has nothing to delete.
-/
import WebhookDelivery.D.Lineage

namespace WebhookDelivery
namespace D

open Sql Run

variable {F : Formats} {κ : Type}

inductive Statement
  | select
  | insert
  | delete
  deriving DecidableEq

/-- An `INSERT` and then a `DELETE`, with the statements that fail.  `inserted` is
`none` if the `INSERT` meets its key. -/
def insertThenDelete (fails : Statement → Bool) (db : Db) (inserted : Option Db)
    (delete : Db → Db) : Except Unit Unit × Db :=
  if fails .insert then (.error (), db)
  else
    match inserted with
    | none => (.error (), db)
    | some db' => if fails .delete then (.error (), db') else (.ok (), delete db')

def moveToDlq (fails : Statement → Bool) (db : Db) (entryId : Uuid) (job : WebhookJob F)
    (error : String) (now : Int) : Except Unit Unit × Db :=
  insertThenDelete fails db (insertDlq db entryId job error now) fun db' => deleteJob db' job.id

/-- The answer of `redeliver` after its statements. -/
def answer (job : WebhookJob F) :
    Except Unit Unit × Db → Except Unit (Option (WebhookJob F)) × Db
  | (.error e, db') => (.error e, db')
  | (.ok (), db') => (.ok (some job), db')

/-- `redeliver`.  It looks the entry up in `found`, and takes the lock again to
write to `db`. -/
def redeliver (F : Formats) (fails : Statement → Bool) (found db : Db) (entryId : Uuid)
    (maxAttempts : Nat) (id : Uuid) (now : Int) : Except Unit (Option (WebhookJob F)) × Db :=
  if fails .select then (.error (), db)
  else
    match getDlq F found entryId with
    | none => (.error (), db)
    | some none => (.ok none, db)
    | some (some entry) =>
      let job := redelivered entry id maxAttempts now
      answer job (insertThenDelete fails db (enqueue db job) fun db' => deleteDlq db' entryId)

/-! ## Atomic calls -/

/-- An error leaves the tables as they were, and a success has `moved` its row. -/
def Atomic {α : Type} (moved : α → Db → Prop) (db : Db) : Except Unit α × Db → Prop
  | (.error _, db') => db' = db
  | (.ok a, db') => moved a db'

/-- The row of the job has left `jobs`, and `row`, with its content, has come to the dead
letters. -/
structure Buried (db : Db) (job : WebhookJob F) (row : DlqRow) (db' : Db) : Prop where
  left : (db.job job.id).isSome
  jobs : ∀ k, db'.job k = if k = job.id then none else db.job k
  fresh : db.entry row.id = none
  entries : ∀ k, db'.entry k = if row.id = k then some row else db.entry k
  jobId : row.jobId = job.id
  payload : row.payload = F.toString job.payload
  destination : row.destination = job.destination

/-- The entry has left the dead letters, and `row`, with its content, has come to `jobs`. -/
structure Revived (db : Db) (entryId : Uuid) (entry : DqlEntry F) (row : JobRow) (db' : Db) :
    Prop where
  left : (db.entry entryId).isSome
  entries : ∀ k, db'.entry k = if k = entryId then none else db.entry k
  fresh : db.job row.id = none
  jobs : ∀ k, db'.job k = if row.id = k then some row else db.job k
  payload : row.payload = F.toString entry.payload
  destination : row.destination = entry.destination

/-- What `redeliver` has done if it answers with a job, or with no entry. -/
def RevivedBy (found db : Db) (entryId : Uuid) (res : Option (WebhookJob F)) (db' : Db) : Prop :=
  match res with
  | some job => ∃ entry, getDlq F found entryId = some (some entry) ∧
      Revived db entryId entry job.row db'
  | none => db' = db

/-- The two statements are atomic if and only if the first fails, or the second
does not and has a row to delete. -/
theorem insertThenDelete_atomic_iff {fails : Statement → Bool} {db : Db} {inserted : Option Db}
    {delete : Db → Db} {moved : Db → Prop} {present : Prop}
    (hne : ∀ db', inserted = some db' → db' ≠ db)
    (hmoved : ∀ db', inserted = some db' → (moved (delete db') ↔ present)) :
    Atomic (fun _ => moved) db (insertThenDelete fails db inserted delete) ↔
      fails .insert = true ∨ inserted = none ∨ (fails .delete = false ∧ present) := by
  unfold insertThenDelete
  by_cases hinsert : fails .insert = true
  · simp [hinsert, Atomic]
  · rw [if_neg hinsert]
    cases inserted with
    | none => simp [Atomic]
    | some db' =>
      by_cases hdelete : fails .delete = true
      · simp [hinsert, hdelete, Atomic, hne db' rfl]
      · simp [hinsert, hdelete, Atomic, hmoved db' rfl]

theorem buried_iff {db db' : Db} {entryId : Uuid} {job : WebhookJob F} {error : String} {now : Int}
    (hins : insertDlq db entryId job error now = some db') :
    Buried db job (dlqRow entryId job error now) (deleteJob db' job.id) ↔
      (db.job job.id).isSome := by
  have hjobs : ∀ k, db'.job k = db.job k := fun k => by
    rw [Db.job, (insertDlq_some hins k).2.2, Db.job]
  refine ⟨Buried.left, fun hleft => ⟨hleft, fun k => ?_, (insertDlq_some hins entryId).1,
    fun k => (insertDlq_some hins k).2.1, rfl, rfl, rfl⟩⟩
  rw [job_deleteJob, hjobs]

theorem revived_iff {db db' : Db} {entryId : Uuid} {entry : DqlEntry F} {job : WebhookJob F}
    (hins : enqueue db job = some db') (hpayload : job.payload = entry.payload)
    (hdestination : job.destination = entry.destination) :
    Revived db entryId entry job.row (deleteDlq db' entryId) ↔ (db.entry entryId).isSome := by
  have hentries : ∀ k, db'.entry k = db.entry k := fun k => by
    rw [Db.entry, (enqueue_some hins k).2.2, Db.entry]
  refine ⟨Revived.left, fun hleft => ⟨hleft, fun k => ?_, (enqueue_some hins job.id).1,
    fun k => (enqueue_some hins k).2.1, congrArg F.toString hpayload, hdestination⟩⟩
  rw [entry_deleteDlq, hentries]

theorem insertDlq_ne {db db' : Db} {entryId : Uuid} {job : WebhookJob F} {error : String}
    {now : Int} (hins : insertDlq db entryId job error now = some db') : db' ≠ db := by
  rintro rfl
  obtain ⟨hfresh, hself, -⟩ := insertDlq_some hins entryId
  rw [if_pos rfl, hfresh] at hself
  cases hself

theorem enqueue_ne {db db' : Db} {job : WebhookJob F} (hins : enqueue db job = some db') :
    db' ≠ db := by
  rintro rfl
  obtain ⟨hfresh, hself, -⟩ := enqueue_some hins job.id
  rw [if_pos rfl, hfresh] at hself
  cases hself

theorem moveToDlq_atomic_iff (fails : Statement → Bool) (db : Db) (entryId : Uuid)
    (job : WebhookJob F) (error : String) (now : Int) :
    Atomic (fun _ => Buried db job (dlqRow entryId job error now)) db
        (moveToDlq fails db entryId job error now) ↔
      fails .insert = true ∨ (db.entry entryId).isSome ∨
        (fails .delete = false ∧ (db.job job.id).isSome) := by
  have hnone : insertDlq db entryId job error now = none ↔ (db.entry entryId).isSome := by
    rw [insertDlq, Option.map_eq_none_iff, Table.insert?_eq_none_iff]
    exact Iff.rfl
  rw [moveToDlq, insertThenDelete_atomic_iff (fun _ => insertDlq_ne) (fun _ => buried_iff), hnone]

theorem atomic_answer {found db : Db} {entryId : Uuid} {entry : DqlEntry F}
    (hfound : getDlq F found entryId = some (some entry)) {job : WebhookJob F}
    {res : Except Unit Unit × Db} :
    Atomic (RevivedBy found db entryId) db (answer job res) ↔
      Atomic (fun _ => Revived db entryId entry job.row) db res := by
  rcases res with ⟨⟨⟩ | ⟨⟩, db'⟩
  · exact Iff.rfl
  · show (∃ e, getDlq F found entryId = some (some e) ∧ Revived db entryId e job.row db') ↔
      Revived db entryId entry job.row db'
    refine ⟨fun ⟨e, he, hrevived⟩ => ?_, fun hrevived => ⟨entry, hfound, hrevived⟩⟩
    rw [hfound, Option.some.injEq, Option.some.injEq] at he
    exact he ▸ hrevived

/-- The lookup of a call of `redeliver` finds an entry. -/
def Finds (F : Formats) (fails : Statement → Bool) (found : Db) (entryId : Uuid) : Prop :=
  fails .select = false ∧ ∃ entry, getDlq F found entryId = some (some entry)

theorem redeliver_atomic_iff (fails : Statement → Bool) (found db : Db) (entryId : Uuid)
    (maxAttempts : Nat) (id : Uuid) (now : Int) :
    Atomic (RevivedBy found db entryId) db (redeliver F fails found db entryId maxAttempts id now) ↔
      ¬Finds F fails found entryId ∨ fails .insert = true ∨ (db.job id).isSome ∨
        (fails .delete = false ∧ (db.entry entryId).isSome) := by
  unfold redeliver Finds
  by_cases hselect : fails .select = true
  · simp [hselect, Atomic]
  · rw [if_neg hselect]
    cases hfound : getDlq F found entryId with
    | none => simp [Atomic]
    | some res =>
      cases res with
      | none => simp [Atomic, RevivedBy]
      | some entry =>
        have hnone : enqueue db (redelivered entry id maxAttempts now) = none ↔
            (db.job id).isSome := by
          rw [enqueue, Option.map_eq_none_iff, Table.insert?_eq_none_iff]
          exact Iff.rfl
        have hfinds : ¬¬(fails .select = false ∧ ∃ e, some (some entry) = some (some e)) :=
          not_not.2 ⟨Bool.eq_false_iff.2 hselect, entry, rfl⟩
        rw [or_iff_right hfinds, atomic_answer hfound, insertThenDelete_atomic_iff
          (fun _ => enqueue_ne) (fun _ hins => revived_iff hins rfl rfl), hnone]

/-- Each call is atomic if and only if it comes to no insertion, or its deletion
does not fail and finds its row. -/
theorem moves_atomic_iff (F : Formats) :
    (∀ fails db entryId (job : WebhookJob F) error now,
      (Atomic (fun _ => Buried db job (dlqRow entryId job error now)) db
          (moveToDlq fails db entryId job error now) ↔
        fails .insert = true ∨ (db.entry entryId).isSome ∨
          (fails .delete = false ∧ (db.job job.id).isSome))) ∧
      ∀ fails found db entryId maxAttempts id now,
        (Atomic (RevivedBy found db entryId) db
            (redeliver F fails found db entryId maxAttempts id now) ↔
          ¬Finds F fails found entryId ∨ fails .insert = true ∨ (db.job id).isSome ∨
            (fails .delete = false ∧ (db.entry entryId).isSome)) :=
  ⟨moveToDlq_atomic_iff, redeliver_atomic_iff⟩

/-- The second statement fails. -/
def deleteFails (stmt : Statement) : Bool := stmt = .delete

/-- With the hook in `jobs` and its `DELETE` failing, `move_to_dlq` answers with an
error and the hook is in both tables. -/
theorem move_to_dlq_half :
    ¬∀ (fails : Statement → Bool) (db : Db) (entryId : Uuid) (job : WebhookJob mini)
      (error : String) (now : Int),
      Atomic (fun _ => Buried db job (dlqRow entryId job error now)) db
        (moveToDlq fails db entryId job error now) := by
  intro h
  rcases (moveToDlq_atomic_iff _ _ _ _ _ _).1
    (h deleteFails accepted 2 (hookJob 1) "blocked: no host" 0) with hins | hentry | ⟨hdel, -⟩
  · cases hins
  · cases hentry
  · cases hdel

/-! ## The calls as steps of the service -/

theorem insertThenDelete_cases (fails : Statement → Bool) (db : Db) (inserted : Option Db)
    (delete : Db → Db) :
    insertThenDelete fails db inserted delete = (.error (), db) ∨
      ∃ db', inserted = some db' ∧ (insertThenDelete fails db inserted delete = (.error (), db') ∨
        insertThenDelete fails db inserted delete = (.ok (), delete db')) := by
  unfold insertThenDelete
  by_cases hinsert : fails .insert = true
  · exact .inl (if_pos hinsert)
  · rw [if_neg hinsert]
    cases inserted with
    | none => exact .inl rfl
    | some db' =>
      by_cases hdelete : fails .delete = true
      · exact .inr ⟨db', rfl, .inl (if_pos hdelete)⟩
      · exact .inr ⟨db', rfl, .inr (if_neg hdelete)⟩

/-- The worker inside `move_to_dlq`, with its entry made. -/
def State.between (s : State F κ) (db : Db) (job : WebhookJob F) (entryId : Uuid)
    (rest : List (WebhookJob F)) : State F κ :=
  { s with
    db := db, issued := entryId :: s.issued, lock := some .worker,
    pc := .deleting job entryId rest }

/-- A call of the worker that succeeds is its two steps. -/
theorem moveToDlq_path [DecidableEq κ] {s : State F κ} {job : WebhookJob F} {error : String}
    {rest : List (WebhookJob F)} (hpc : s.pc = .moving job error rest) (hlock : s.lock = none)
    {entryId : Uuid} (hnew : entryId ∉ s.issued) {now : Int} {fails : Statement → Bool} {db : Db}
    (hok : moveToDlq fails s.db entryId job error now = (.ok (), db)) :
    (system F κ).Path s [.deleteJob job, .insertDlq job entryId]
      { s with db := db, issued := entryId :: s.issued, lock := none, pc := .batch rest } := by
  rcases insertThenDelete_cases fails s.db (insertDlq s.db entryId job error now)
    (fun db' => deleteJob db' job.id) with hcall | ⟨db', hins, hcall | hcall⟩
  · cases congrArg Prod.fst (hcall.symm.trans hok)
  · cases congrArg Prod.fst (hcall.symm.trans hok)
  · obtain rfl : _ = db := congrArg Prod.snd (hcall.symm.trans hok)
    have hfirst := Step.insertDlq s job error rest entryId now db' hpc hlock hnew hins
    have hsecond := Step.deleteJob (s.between db' job entryId rest) job entryId rest rfl
    exact (System.Path.one hfirst).cons hsecond

/-- A call of the worker that fails has done nothing, or its first step. -/
theorem moveToDlq_failed [DecidableEq κ] {s : State F κ} {job : WebhookJob F} {error : String}
    {rest : List (WebhookJob F)} (hpc : s.pc = .moving job error rest) (hlock : s.lock = none)
    {entryId : Uuid} (hnew : entryId ∉ s.issued) {now : Int} {fails : Statement → Bool} {db : Db}
    (herr : moveToDlq fails s.db entryId job error now = (.error (), db)) :
    (system F κ).Path s [.workerFailed] { s with db := db, pc := .batch rest } ∨
      (system F κ).Path s [.workerFailed, .insertDlq job entryId]
        { s with db := db, issued := entryId :: s.issued, lock := none, pc := .batch rest } := by
  rcases insertThenDelete_cases fails s.db (insertDlq s.db entryId job error now)
    (fun db' => deleteJob db' job.id) with hcall | ⟨db', hins, hcall | hcall⟩
  · obtain rfl : s.db = db := congrArg Prod.snd (hcall.symm.trans herr)
    have hst := Step.workerFailed s
    rw [hpc] at hst
    exact .inl (System.Path.one hst)
  · obtain rfl : db' = db := congrArg Prod.snd (hcall.symm.trans herr)
    have hfirst := Step.insertDlq s job error rest entryId now db' hpc hlock hnew hins
    have hsecond := Step.workerFailed (s.between db' job entryId rest)
    exact .inr ((System.Path.one hfirst).cons hsecond)
  · cases congrArg Prod.fst (hcall.symm.trans herr)

end D
end WebhookDelivery
