/-
The counters of `stats`.

The six counts are taken under one lock, so they are of one state.  A status has
no fifth text, and an operation adds a row or rewrites one, so the counters by
status add up to all submissions; the dead letters are fewer than the entries
because each has one of its own.
-/
import Mathlib.Data.List.Perm.Subperm
import WebhookDelivery.Q.Completeness

namespace WebhookDelivery
namespace Q

open Sql Run

structure Stats where
  submitted : Nat
  delivered : Nat
  deadLettered : Nat
  pending : Nat
  inFlight : Nat
  deadLetters : Nat

/-- `u64::try_from(n).unwrap_or(u64::MAX)`. -/
def asU64 (n : Int) : Nat := if 0 ≤ n then n.toNat else 2 ^ 64 - 1

/-- `SELECT COUNT(*) FROM deliveries WHERE status = …`. -/
def Db.countStatus (db : Db) (text : String) : Int :=
  db.deliveries.affected fun r => r.status.asStr = text

def stats (db : Db) : Stats where
  submitted := asU64 db.deliveries.rows.length
  delivered := asU64 (db.countStatus "delivered")
  deadLettered := asU64 (db.countStatus "dead_letter")
  pending := asU64 (db.countStatus "pending")
  inFlight := asU64 (db.countStatus "in_flight")
  deadLetters := asU64 db.deadLetters.rows.length

theorem asU64_natCast (n : Nat) : asU64 n = n := if_pos (Int.natCast_nonneg n)

theorem asStr_inj {s t : DeliveryStatus} : s.asStr = t.asStr ↔ s = t := by
  constructor
  · intro h
    have hparse := congrArg DeliveryStatus.parse h
    rwa [DeliveryStatus.parse_asStr, DeliveryStatus.parse_asStr, Option.some.injEq] at hparse
  · exact congrArg _

/-- The rows of a status. -/
def Db.withStatus (db : Db) (s : DeliveryStatus) : Nat :=
  db.deliveries.rows.countP fun r => r.status = s

theorem countStatus_eq (db : Db) (s : DeliveryStatus) :
    asU64 (db.countStatus s.asStr) = db.withStatus s := by
  rw [Db.countStatus, asU64_natCast]
  simp only [Table.affected, Db.withStatus, asStr_inj]

/-- What the counters are of a state. -/
theorem stats_eq (db : Db) :
    stats db =
      { submitted := db.deliveries.rows.length
        delivered := db.withStatus .delivered
        deadLettered := db.withStatus .deadLetter
        pending := db.withStatus .pending
        inFlight := db.withStatus .inFlight
        deadLetters := db.deadLetters.rows.length } := by
  unfold stats
  rw [asU64_natCast, asU64_natCast, ← countStatus_eq, ← countStatus_eq, ← countStatus_eq,
    ← countStatus_eq]
  rfl

/-- Each row has one of the four statuses. -/
theorem length_eq_statuses (db : Db) :
    db.deliveries.rows.length =
      db.withStatus .pending + db.withStatus .inFlight + db.withStatus .delivered +
        db.withStatus .deadLetter := by
  have hrows : ∀ rows : List DeliveryRow, rows.length =
      rows.countP (fun r => r.status = .pending) + rows.countP (fun r => r.status = .inFlight) +
        rows.countP (fun r => r.status = .delivered) +
          rows.countP (fun r => r.status = .deadLetter) := by
    intro rows
    induction rows with
    | nil => rfl
    | cons r rows ih =>
      simp only [List.length_cons, List.countP_cons, ih]
      cases r.status <;> simp <;> omega
  exact hrows db.deliveries.rows

/-- The dead letters have entries of their own, since an entry names its delivery. -/
theorem Db.Complete.dead_le {db : Db} (h : db.Complete) :
    db.withStatus .deadLetter ≤ db.deadLetters.rows.length := by
  have hids : (db.deliveries.rows.map DeliveryRow.id).Nodup := db.deliveries.nodup
  have hdead : ((db.deliveries.rows.filter fun r => r.status = .deadLetter).map
      DeliveryRow.id).Nodup := hids.sublist (List.filter_sublist.map _)
  have hsub : (db.deliveries.rows.filter fun r => r.status = .deadLetter).map DeliveryRow.id ⊆
      db.deadLetters.rows.map DlqRow.deliveryId := by
    intro id hid
    obtain ⟨r, hr, rfl⟩ := List.mem_map.1 hid
    obtain ⟨hmem, hst⟩ := List.mem_filter.1 hr
    obtain ⟨e, he, hshows⟩ := h.shown r hmem (of_decide_eq_true hst)
    exact List.mem_map.2 ⟨e, he, hshows.deliveryId⟩
  have hle := (hdead.subperm hsub).length_le
  rwa [List.length_map, List.length_map, ← List.countP_eq_length_filter] at hle

/-- No operation takes a row away. -/
theorem Op.length_le (db : Db) (op : Op) :
    db.deliveries.rows.length ≤ (op.run db).deliveries.rows.length := by
  rcases op.rows db with ⟨f, -, hrows⟩ | ⟨d, now, -, -, -, hrows⟩
  · rw [hrows, List.length_map]
  · rw [hrows, List.length_append]
    omega

section Service

variable {ω : Type} [DecidableEq ω]

theorem submitted_le {h : List (Label ω)} {s t : State ω} (hst : (system ω).Path s h t) :
    (stats s.db).submitted ≤ (stats t.db).submitted := by
  rw [stats_eq, stats_eq]
  induction hst with
  | nil => exact Nat.le_refl _
  | cons _ hstep ih =>
    rcases Step.op hstep with hdb | ⟨op, hdb⟩
    · rw [hdb]
      exact ih
    · rw [hdb]
      exact Nat.le_trans ih (op.length_le _)

/-- In every state of the service the counters by status add up to the submissions,
no step takes a submission back, and there is an entry for each dead letter. -/
theorem stats_consistent {h : List (Label ω)} {s : State ω} (hs : (system ω).Reaches h s) :
    (stats s.db).submitted =
        (stats s.db).pending + (stats s.db).inFlight + (stats s.db).delivered +
          (stats s.db).deadLettered ∧
      (∀ h' t, (system ω).Path s h' t → (stats s.db).submitted ≤ (stats t.db).submitted) ∧
      (stats s.db).deadLettered ≤ (stats s.db).deadLetters := by
  refine ⟨?_, fun h' t hst => submitted_le hst, ?_⟩
  · rw [stats_eq]
    exact length_eq_statuses s.db
  · rw [stats_eq]
    exact (complete hs).dead_le

end Service

theorem stats_consistent_refused :
    (stats refusedDb).submitted = 1 ∧
      (stats refusedDb).deadLettered ≤ (stats refusedDb).deadLetters :=
  ⟨rfl, (stats_consistent refused_reached).2.2⟩

end Q
end WebhookDelivery
