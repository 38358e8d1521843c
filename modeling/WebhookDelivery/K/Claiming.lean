/-
One call of `claim_due_jobs`.

The rows are claimed one after the other, and any statement or row may fail with
some of them already in flight.  The transaction is dropped then, so the table is
the one before the call.  A call that commits has claimed every row the `SELECT`
returned, and no other.
-/
import WebhookDelivery.K.Ownership

namespace WebhookDelivery
namespace K

open Sql

variable {F : Formats}

/-- The row after a claim differs in `status`, `attempts` and `updated_at` only. -/
structure SameButClaimed (r r' : JobRow F) : Prop where
  id : r'.id = r.id
  destination : r'.destination = r.destination
  payload : r'.payload = r.payload
  maxAttempts : r'.maxAttempts = r.maxAttempts
  nextAttemptAt : r'.nextAttemptAt = r.nextAttemptAt
  lastError : r'.lastError = r.lastError
  createdAt : r'.createdAt = r.createdAt

/-- The rows that are due. -/
def dueRows (t : Jobs F) (now : F.DateTime) : List (JobRow F) := t.select (isDue (F.fmtTs now))

/-- The row of the job was due and is claimed, and is what the job says. -/
structure ClaimedFrom (now : F.DateTime) (t t' : Jobs F) (job : Job F) (r r' : JobRow F) :
    Prop where
  before : t.get? job.id = some r
  due : r.status = .pending ∧ r.nextAttemptAt ≤ F.fmtTs now
  after : t'.get? job.id = some r'
  inFlight : r'.status = .inFlight
  attempts : r'.attempts = r.attempts + 1
  same : SameButClaimed r r'
  returned : rowToJob r' = .ok job

theorem claimedFrom {now : F.DateTime} {t t' : Jobs F} {job : Job F} {r : JobRow F}
    (hr : t.get? job.id = some r) (hpend : r.status = .pending)
    (hdue : r.nextAttemptAt ≤ F.fmtTs now) (hr' : t'.get? job.id = some (asClaimed now r))
    (hjob : rowToJob (asClaimed now r) = .ok job) :
    ClaimedFrom now t t' job r (asClaimed now r) :=
  ⟨hr, ⟨hpend, hdue⟩, hr', rfl, rfl, ⟨rfl, rfl, rfl, rfl, rfl, rfl, rfl⟩, hjob⟩

theorem claimed_length {fault : Option Statement} {now : F.DateTime} {limit : Nat}
    {rows : List (JobRow F)} {t t' : Jobs F} {jobs : List (Job F)}
    (hsel : SelectsDue t now limit rows) (h : claimDueJobs fault now rows t = (.ok jobs, t')) :
    jobs.length = min limit (dueRows t now).length := by
  have hids := (claimLoop_ok hsel.nodup (claimDueJobs_ok h)).2.2.1
  have hlen := congrArg List.length hids
  rw [List.length_map, List.length_map, hsel.length_eq, if_neg (by omega)] at hlen
  exact hlen

/-- A due row that is not claimed is not due before one that is. -/
theorem claimed_first {fault : Option Statement} {now : F.DateTime} {limit : Int}
    {rows : List (JobRow F)} {t t' : Jobs F} {jobs : List (Job F)}
    (hsel : SelectsDue t now limit rows) (h : claimDueJobs fault now rows t = (.ok jobs, t'))
    {job : Job F} (hjob : job ∈ jobs) {r x : JobRow F} (hr : t.get? job.id = some r)
    (hx : x ∈ dueRows t now) (hout : x.id ∉ jobs.map Job.id) :
    r.nextAttemptAt ≤ x.nextAttemptAt := by
  have hids := (claimLoop_ok hsel.nodup (claimDueJobs_ok h)).2.2.1
  have hmem : job.id ∈ rows.map JobRow.id := hids ▸ List.mem_map_of_mem hjob
  obtain ⟨r₀, hr₀, hid⟩ := List.mem_map.1 hmem
  have hget := (hsel.pending hr₀).1
  rw [hid, hr] at hget
  cases hget
  refine hsel.le_of_left_out hr₀ hx fun hxin => hout ?_
  rw [hids]
  exact List.mem_map_of_mem hxin

/-- Whatever fails, the table is as before the call; and if nothing does, the call
returns the first due rows, as they are after it, and has claimed these alone. -/
theorem claim_all_or_nothing (fault : Option Statement) (now : F.DateTime) (limit : Nat)
    (t : Jobs F) {rows : List (JobRow F)} (hsel : SelectsDue t now limit rows) :
    (∃ e, claimDueJobs fault now rows t = (.error e, t)) ∨
      ∃ jobs t', claimDueJobs fault now rows t = (.ok jobs, t') ∧
        jobs.length = min limit (dueRows t now).length ∧ (jobs.map Job.id).Nodup ∧
        (∀ job ∈ jobs, ∃ r r', ClaimedFrom now t t' job r r' ∧
          ∀ x ∈ dueRows t now, x.id ∉ jobs.map Job.id → r.nextAttemptAt ≤ x.nextAttemptAt) ∧
        ∀ id, id ∉ jobs.map Job.id → t'.get? id = t.get? id := by
  rcases h : claimDueJobs fault now rows t with ⟨res, t'⟩
  cases res with
  | error e =>
    rw [claimDueJobs_error h]
    exact .inl ⟨e, rfl⟩
  | ok jobs =>
    obtain ⟨hnodup, hin, hout⟩ := claimDueJobs_spec hsel h
    refine .inr ⟨jobs, t', rfl, claimed_length hsel h, hnodup, fun job hjob => ?_, hout⟩
    obtain ⟨r, hr, hpend, hdue, hr', hdec⟩ := hin job hjob
    exact ⟨r, _, claimedFrom hr hpend hdue hr' hdec,
      fun x hx hleft => claimed_first hsel h hjob hr hx hleft⟩

/-! ## Two rows -/

def rowAt (id : Uuid) (due : Int) : JobRow Formats.millis :=
  newRow (F := Formats.millis) id "http://a.test" "{}" 3 due

def bothRows : List (JobRow Formats.millis) := [rowAt 1 0, rowAt 2 5]

def bothJobs : Jobs Formats.millis := ⟨bothRows, by decide⟩

/-- A failure at the second row undoes the first, and a claim of one takes the row
that is due first. -/
theorem claim_all_or_nothing_both :
    (claimDueJobs (some (.update 2)) (5 : Int) bothRows bothJobs).2 = bothJobs ∧
      ∃ jobs t', claimDueJobs none (5 : Int) [rowAt 1 0] bothJobs = (.ok jobs, t') ∧
        jobs.length = 1 ∧ t'.get? 2 = some (rowAt 2 5) := by
  have hsorted : bothRows.Pairwise fun a b => a.nextAttemptAt ≤ b.nextAttemptAt := by decide
  have htwo : SelectsDue bothJobs (5 : Int) (2 : Nat) bothRows :=
    ⟨bothRows, List.Perm.refl _, hsorted, rfl⟩
  have hone : SelectsDue bothJobs (5 : Int) (1 : Nat) [rowAt 1 0] :=
    ⟨bothRows, List.Perm.refl _, hsorted, rfl⟩
  constructor
  · rcases claim_all_or_nothing (some (.update 2)) (5 : Int) 2 bothJobs htwo with
      ⟨e, he⟩ | ⟨jobs, t', hok, -⟩
    · rw [he]
    · cases congrArg Prod.fst hok
  · rcases claim_all_or_nothing none (5 : Int) 1 bothJobs hone with
      ⟨e, he⟩ | ⟨jobs, t', hok, hlen, -, -, hout⟩
    · cases congrArg Prod.fst he
    · refine ⟨jobs, t', hok, hlen, ?_⟩
      have hids : jobs.map Job.id = [1] :=
        (claimLoop_ok hone.nodup (claimDueJobs_ok hok)).2.2.1
      exact hout 2 (by rw [hids]; decide)

end K
end WebhookDelivery
