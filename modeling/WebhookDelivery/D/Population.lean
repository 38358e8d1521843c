/-
How many jobs the `d` service has.

A job and a dead letter stand for one webhook each, and both moves between the two
tables make the copy before they delete the original.  So the tables hold one item
for each submission, and one more for each move that was torn between its two
statements and for each entry that two calls have redelivered.
-/
import WebhookDelivery.Run.Progress
import WebhookDelivery.D.Attempts
import WebhookDelivery.D.Redeliver

namespace WebhookDelivery
namespace D

open Sql Run

variable {F : Formats} {κ : Type}

/-- Why there is one item more. -/
inductive Cause
  | submitted
  | torn
  | redeliveredTwice
  deriving DecidableEq

/-- What a step adds for good.  A move is torn if it ends between its statements, and an
entry is redelivered twice if the second call finds it deleted. -/
def cause : State F κ × Label F κ → Option Cause
  | (_, .enqueue _) => some .submitted
  | (s, .workerFailed) =>
    match s.pc with
    | .deleting .. => some .torn
    | _ => none
  | (s, .callFailed k) =>
    match s.call k with
    | .inserted .. => some .torn
    | _ => none
  | (s, .restart _) => if s.lock.isSome then some .torn else none
  | (s, .deleteDlq _ entryId _) =>
    if (s.db.entry entryId).isSome then none else some .redeliveredTwice
  | _ => none

/-- The rows of both tables. -/
def Db.population (db : Db) : Nat := db.jobs.rows.length + db.deadLetters.rows.length

/-- A move holds the lock from its first statement to its second. -/
def State.underWay (s : State F κ) : Nat := if s.lock.isSome then 1 else 0

theorem length_causes (cs : List Cause) :
    cs.length = cs.count .submitted + cs.count .torn + cs.count .redeliveredTwice := by
  induction cs with
  | nil => rfl
  | cons c cs ih =>
    rw [List.length_cons, ih]
    cases c <;> simp only [List.count_cons] <;> simp <;> omega

/-! ## The rows of the jobs under way -/

/-- What the worker works at is in the table. -/
def Stored (s : State F κ) : Prop := ∀ job ∈ s.pc.jobs, (s.db.job job.id).isSome

variable [DecidableEq κ]

theorem Step.row_stays {s t : State F κ} {l : Label F κ} (hst : Step s l t) {id : Uuid}
    (hrow : (s.db.job id).isSome) (hno : l.empties ≠ some (.job id)) : (t.db.job id).isSome := by
  rw [hst.job_eq id]
  obtain ⟨r, hr⟩ := Option.isSome_iff_exists.1 hrow
  cases l with
  | enqueue job | insertJob _ _ job =>
    simp only [Label.rowAfter]
    split
    · rfl
    · exact hrow
  | markDelivered job | recordAttempt job attempts next =>
    simp only [Label.rowAfter]
    split
    · rename_i hid
      rw [← hid, hr]
      rfl
    · exact hrow
  | deleteJob job =>
    simp only [Label.rowAfter]
    rw [if_neg fun hid => hno (by rw [hid]; rfl)]
    exact hrow
  | fetchDue | block | send | insertDlq | workerFailed | endPass | getDlq | deleteDlq
  | callFailed | restart => exact hrow

theorem Stored.step {s t : State F κ} {l : Label F κ} (hs : Stored s) (hd : Distinct s)
    (hst : Step s l t) : Stored t := by
  intro job hjob
  have hbefore : (s.db.job job.id).isSome := by
    rcases hst.jobs hjob with ⟨job', hjob', hid, -⟩ | ⟨now, jobs, hfetch, hin⟩
    · rw [hid]
      exact hs job' hjob'
    · obtain ⟨r, hr, -⟩ := hfetch.mem hin
      rw [hr]
      rfl
  refine hst.row_stays hbefore fun hem => ?_
  cases hst with
  | deleteJob gone entryId rest hpc =>
    -- The jobs of a batch are distinct, so the row that goes is of none of the rest.
    rw [Distinct, hpc] at hd
    have hid : gone.id = job.id := by simpa [Label.empties] using hem
    exact (List.nodup_cons.1 hd).1 (hid ▸ List.mem_map_of_mem hjob)
  | _ => cases hem

theorem stored_of_reaches {h : List (Label F κ)} {s : State F κ}
    (hs : (system F κ).Reaches h s) : Stored s := by
  refine hs.invariant (I := fun _ s => Stored s) (fun s hinit => ?_)
    (fun _ _ _ _ hr hI hst => hI.step (distinct hr) hst)
  obtain ⟨-, -, -, hpc, -⟩ := hinit
  intro job hjob
  rw [hpc] at hjob
  exact absurd hjob List.not_mem_nil

/-! ## The balance -/

theorem length_enqueue {db db' : Db} {job : WebhookJob F} (h : enqueue db job = some db') :
    db'.population = db.population + 1 := by
  obtain ⟨t, ht, rfl⟩ := Option.map_eq_some_iff.1 h
  have hlen := congrArg List.length (Table.rows_of_insert? ht)
  rw [List.length_append, List.length_singleton] at hlen
  show t.rows.length + db.deadLetters.rows.length = db.jobs.rows.length + _ + 1
  omega

theorem length_insertDlq {db db' : Db} {entryId : Uuid} {job : WebhookJob F} {error : String}
    {now : Int} (h : insertDlq db entryId job error now = some db') :
    db'.population = db.population + 1 := by
  obtain ⟨t, ht, rfl⟩ := Option.map_eq_some_iff.1 h
  have hlen := congrArg List.length (Table.rows_of_insert? ht)
  rw [List.length_append, List.length_singleton] at hlen
  show db.jobs.rows.length + t.rows.length = db.jobs.rows.length + _ + 1
  omega

theorem length_deleteJob {db : Db} {id : Uuid} (hrow : (db.job id).isSome) :
    (deleteJob db id).population + 1 = db.population := by
  have hrow : (db.jobs.get? id).isSome := hrow
  have hlen := Table.length_delete_at db.jobs id
  rw [if_pos hrow] at hlen
  rw [Db.population, Db.population, ← hlen]
  exact Nat.add_right_comm _ _ _

theorem length_deleteDlq (db : Db) (entryId : Uuid) :
    (deleteDlq db entryId).population + (if (db.entry entryId).isSome then 1 else 0) =
      db.population := by
  rw [Db.population, Db.population, ← Table.length_delete_at db.deadLetters entryId]
  exact Nat.add_assoc _ _ _

/-- An item more is a submission, or a move begun, or one that did not take its original
away. -/
theorem Step.population {s t : State F κ} {l : Label F κ} (hst : Step s l t) (hm : Mutex s)
    (hstored : Stored s) :
    t.db.population + s.underWay =
      s.db.population + t.underWay + (cause (s, l)).toList.length := by
  have hsame : ∀ {u : State F κ}, u.db = s.db → u.lock = s.lock →
      u.db.population + s.underWay = s.db.population + u.underWay + 0 := by
    intro u hdb hlock
    rw [hdb, State.underWay, State.underWay, hlock]
    rfl
  cases hst with
  | enqueue req id now db hlock hnew hins =>
    show db.population + s.underWay = s.db.population + s.underWay + 1
    rw [length_enqueue hins]
    omega
  | markDelivered job rest hpc hlock =>
    show (s.db.jobs.rows.map _).length + s.db.deadLetters.rows.length + s.underWay =
      s.db.population + s.underWay + 0
    rw [List.length_map]
    rfl
  | recordAttempt job attempts rest next hpc hlock =>
    show (s.db.jobs.rows.map _).length + s.db.deadLetters.rows.length + s.underWay =
      s.db.population + s.underWay + 0
    rw [List.length_map]
    rfl
  | insertDlq job error rest entryId now db hpc hlock hnew hins =>
    show db.population + s.underWay = s.db.population + 1 + 0
    rw [length_insertDlq hins, State.underWay, hlock]
    rfl
  | insertJob k entryId entry id now db hcall hlock hnew hins =>
    show db.population + s.underWay = s.db.population + 1 + 0
    rw [length_enqueue hins, State.underWay, hlock]
    rfl
  | deleteJob job entryId rest hpc =>
    show (D.deleteJob s.db job.id).population + s.underWay = s.db.population + 0 + 0
    rw [State.underWay, hm.worker job entryId rest hpc]
    exact length_deleteJob (hstored job (by rw [hpc]; exact List.mem_cons_self))
  | deleteDlq k entryId job hcall =>
    have hlen := length_deleteDlq s.db entryId
    show (D.deleteDlq s.db entryId).population + s.underWay =
      s.db.population + 0 + (cause (s, .deleteDlq k entryId job)).toList.length
    rw [State.underWay, hm.call k entryId job hcall]
    by_cases hentry : (s.db.entry entryId).isSome
    · rw [if_pos hentry] at hlen
      simp only [cause, if_pos hentry]
      exact hlen
    · rw [if_neg hentry] at hlen
      simp only [cause, if_neg hentry]
      exact congrArg (· + 1) hlen
  | workerFailed =>
    cases hpc : s.pc with
    | deleting job entryId rest =>
      show s.db.population + s.underWay = s.db.population + 0 +
        (cause (s, (.workerFailed : Label F κ))).toList.length
      rw [State.underWay, hm.worker job entryId rest hpc]
      simp only [cause, hpc]
      rfl
    | fetching | batch | marking | retrying | moving =>
      simp only [cause, hpc]
      exact hsame rfl rfl
  | callFailed k =>
    cases hcall : s.call k with
    | inserted entryId job =>
      show s.db.population + s.underWay = s.db.population + 0 +
        (cause (s, (.callFailed k : Label F κ))).toList.length
      rw [State.underWay, hm.call k entryId job hcall]
      simp only [cause, hcall]
      rfl
    | idle | found =>
      simp only [cause, hcall]
      exact hsame rfl rfl
  | restart cfg =>
    show s.db.population + s.underWay = s.db.population + 0 +
      (cause (s, (.restart cfg : Label F κ))).toList.length
    by_cases hlock : s.lock.isSome
    · simp only [State.underWay, cause, if_pos hlock]
      rfl
    · simp only [State.underWay, cause, if_neg hlock]
      rfl
  | fetchDue | block | send | endPass | getDlq | notFound => exact hsame rfl rfl

/-- In every run, with any races of `redeliver`, failing statements and crashes, the two
tables hold as many items as were submitted, and one for each move torn between its
statements, for each entry redelivered a second time, and for the move under way. -/
theorem population_eq {h : List (State F κ × Label F κ)} {s : State F κ}
    (hs : (system F κ).logged.Reaches h s) :
    s.db.population = (h.filterMap cause).count .submitted + (h.filterMap cause).count .torn +
      (h.filterMap cause).count .redeliveredTwice + s.underWay := by
  have hbalance : s.db.population = s.underWay + (h.filterMap cause).length := by
    refine System.Reaches.balance (fun s => s.db.population) State.underWay cause
      (fun s hinit => ?_) (fun h s l t hr hst => ?_) hs
    · obtain ⟨hdb, -, hlock, -⟩ := hinit
      rw [hdb, State.underWay, hlock]
      rfl
    · exact hst.population (mutex hr) (stored_of_reaches hr)
  rw [hbalance, length_causes]
  exact Nat.add_comm _ _

/-- Two calls redeliver the buried hook, and there are two jobs of it. -/
theorem population_eq_twice : ∃ h : List (State mini Bool × Label mini Bool),
    (h.map Prod.snd).countP (Label.returns 2) = 2 ∧
      2 = (h.filterMap cause).count .submitted + (h.filterMap cause).count .torn +
        (h.filterMap cause).count .redeliveredTwice + 0 := by
  have r₀ := (buried_reached (C := fun _ _ => True) fun _ _ _ => trivial).of_restrict
  have r₁ := r₀.step (Step.getDlq _ false 2 hookRead rfl rfl rfl)
  have r₂ := r₁.step (Step.getDlq _ true 2 hookRead rfl rfl rfl)
  have r₃ := r₂.step (Step.insertJob _ false 2 hookRead 3 0 stored rfl rfl (by decide) rfl)
  have r₄ := r₃.step (Step.deleteDlq _ false 2 (remade 3) rfl)
  have r₅ := r₄.step (Step.insertJob _ true 2 hookRead 4 0 movedTwice rfl rfl (by decide) rfl)
  have r₆ := r₅.step (Step.deleteDlq _ true 2 (remade 4) rfl)
  obtain ⟨h, hlabels, hlogged⟩ := r₆.logged
  refine ⟨h, ?_, population_eq hlogged⟩
  rw [hlabels]
  decide

end D
end WebhookDelivery
