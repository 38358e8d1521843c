/-
Transactions.

The statements of a transaction work on a copy, and `COMMIT` makes the copy the
database.  A transaction that is dropped before, because one of its statements
or the commit itself has failed, leaves the database as it was.
-/

namespace WebhookDelivery
namespace Sql

universe u v w

variable {δ : Type u} {ε : Type v} {α : Type w}

/-- Runs `body` in a transaction on `db`.  `commit` is the error of the `COMMIT`,
if it fails. -/
def transaction (db : δ) (body : δ → Except ε (α × δ)) (commit : Option ε) : Except ε α × δ :=
  match body db, commit with
  | .ok (a, tx), none => (.ok a, tx)
  | .ok _, some e => (.error e, db)
  | .error e, _ => (.error e, db)

theorem transaction_error {db db' : δ} {body : δ → Except ε (α × δ)} {commit : Option ε} {e : ε}
    (h : transaction db body commit = (.error e, db')) : db' = db := by
  unfold transaction at h
  split at h
  · cases h
  · exact (Prod.mk.inj h).2.symm
  · exact (Prod.mk.inj h).2.symm

theorem transaction_ok {db db' : δ} {body : δ → Except ε (α × δ)} {commit : Option ε} {a : α}
    (h : transaction db body commit = (.ok a, db')) : body db = .ok (a, db') ∧ commit = none := by
  unfold transaction at h
  split at h
  · rename_i hbody
    cases h
    exact ⟨hbody, rfl⟩
  · cases h
  · cases h

end Sql
end WebhookDelivery
