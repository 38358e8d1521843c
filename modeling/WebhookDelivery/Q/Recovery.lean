/-
What a restart of the `q` service brings back.

`reset_stale_in_flight` runs once, when a worker starts, and takes the rows that
are stale at that moment.  If those are all the rows left in flight, a live
worker holds every row in flight from then on.  A row that was claimed too short
a time before the crash is not stale yet, and nothing comes back for it.
-/
import WebhookDelivery.Q.Ownership

namespace WebhookDelivery
namespace Q

open Sql Run

variable {ω : Type}

/-- A worker that starts finds no row in flight that is neither held nor stale,
and no reset or outcome write fails. -/
def Recoverable (s : State ω) : Label ω → Prop
  | .start _ now => ∀ id r, s.db.row id = some r → r.status = .inFlight →
      (∀ v, id ∉ s.heldIds v) → r.updatedAt ≤ now - s.staleMs
  | .dbFail w => s.pc w ≠ .down ∧ ∀ d out rest, s.pc w ≠ .sent d out rest
  | _ => True

/-- While a worker is live, every row in flight is held by one. -/
def Attended (s : State ω) : Prop :=
  (∃ w, s.pc w ≠ .down) → ∀ id r, s.db.row id = some r → r.status = .inFlight →
    ∃ v, id ∈ s.heldIds v

variable [DecidableEq ω]

variable (ω) in
def recoverable : System (State ω) (Label ω) := (system ω).restrict Recoverable

theorem mem_heldIds_setPc {s : State ω} {w v : ω} {db : Db} {pc : Pc} {id : Uuid}
    (hv : id ∈ s.heldIds v) (hpc : v = w → ∃ d, pc.held = some d ∧ d.id = id) :
    id ∈ (State.setPc { s with db := db } w pc).heldIds v := by
  rw [mem_heldIds]
  by_cases hvw : v = w
  · obtain ⟨d, hd, hid⟩ := hpc hvw
    exact ⟨d, by rw [hvw, State.setPc_self, hd], hid⟩
  · rw [State.setPc_ne _ _ hvw]
    exact mem_heldIds.1 hv

omit [DecidableEq ω] in
theorem not_mem_heldIds {s : State ω} {w : ω} (hpc : (s.pc w).held = none) (id : Uuid) :
    id ∉ s.heldIds w := by
  rw [State.heldIds, hpc]
  exact List.not_mem_nil

/-- A step of a live worker that puts no row in flight, and lets go of nothing
that stays in flight. -/
theorem Attended.frame {s : State ω} {w : ω} (hs : Attended s) (db : Db) {pc : Pc}
    (hlive : s.pc w ≠ .down)
    (hrow : ∀ id r, db.row id = some r → r.status = .inFlight → s.db.row id = some r)
    (hpc : ∀ id r, db.row id = some r → r.status = .inFlight → id ∈ s.heldIds w →
      ∃ d, pc.held = some d ∧ d.id = id) :
    Attended (State.setPc { s with db := db } w pc) := by
  intro _ id r hr hfl
  obtain ⟨v, hv⟩ := hs ⟨w, hlive⟩ id r (hrow id r hr hfl) hfl
  exact ⟨v, mem_heldIds_setPc hv fun e => hpc id r hr hfl (e ▸ hv)⟩

/-- The same of a worker that holds nothing. -/
theorem Attended.idle {s : State ω} {w : ω} (hs : Attended s) (db : Db) {pc : Pc}
    (hlive : s.pc w ≠ .down) (hfree : (s.pc w).held = none)
    (hrow : ∀ id r, db.row id = some r → r.status = .inFlight → s.db.row id = some r) :
    Attended (State.setPc { s with db := db } w pc) :=
  hs.frame db hlive hrow fun id _ _ _ hid => absurd hid (not_mem_heldIds hfree id)

/-- The row of a claim that wins is in flight with its new holder, and no other row
changes. -/
theorem Attended.claimed {s : State ω} {w : ω} {d : Delivery} {rest : List Delivery}
    (hs : Attended s) (hpc : s.pc w = .batch (d :: rest)) (now : Int) :
    Attended (State.setPc { s with db := (claim s.db d.id now).2 } w
      (if (claim s.db d.id now).1 then .claimed d rest else .batch rest)) := by
  have hnot : ∀ id, id ∉ s.heldIds w := not_mem_heldIds (by rw [hpc]; rfl)
  have hlive : s.pc w ≠ .down := by rw [hpc]; simp
  intro _ id r hr hfl
  have hr : (claim s.db d.id now).2.row id = some r := hr
  rw [row_claim] at hr
  have hkeep : s.db.row id = some r →
      ∃ v, id ∈ (State.setPc { s with db := (claim s.db d.id now).2 } w
        (if (claim s.db d.id now).1 then .claimed d rest else .batch rest)).heldIds v := by
    intro hr
    obtain ⟨v, hv⟩ := hs ⟨w, hlive⟩ id r hr hfl
    exact ⟨v, mem_heldIds_setPc hv fun e => absurd (e ▸ hv) (hnot id)⟩
  split at hr
  · rename_i hk
    obtain ⟨r₀, hr₀, rfl⟩ := Option.map_eq_some_iff.1 hr
    by_cases hp : r₀.status = .pending
    · have hwon : (claim s.db d.id now).1 = true := (claim_fst _ _ _).2 ⟨r₀, hr₀, hp⟩
      refine ⟨w, mem_heldIds.2 ⟨d, ?_, hk.symm⟩⟩
      rw [State.setPc_self, if_pos hwon]
      rfl
    · rw [if_neg hp] at hfl hkeep
      exact hkeep (hk ▸ hr₀)
  · exact hkeep hr

/-- No outcome leaves the row of its delivery in flight. -/
theorem asOutcome_not_inFlight (cfg : Config) (c : Draw) (d : Delivery) (out : Outcome)
    (r : DeliveryRow) : (asOutcome cfg c d out r).status ≠ .inFlight := by
  intro hfl
  cases out with
  | delivered | permanent err => cases hfl
  | retryable err =>
    simp only [asOutcome] at hfl
    split at hfl <;> cases hfl

theorem Attended.step {s t : State ω} {l : Label ω} (hs : Attended s) (hrec : Recoverable s l)
    (hst : Step s l t) : Attended t := by
  cases hst with
  | insert d now db hins =>
    intro hlive id r hr hfl
    obtain ⟨-, hrow, -⟩ := row_insert hins id
    have hr : db.row id = some r := hr
    rw [hrow] at hr
    split at hr
    · cases hr
      cases hfl
    · exact hs hlive id r hr hfl
  | replay id' now =>
    intro hlive id r hr hfl
    have hr : (replayDeadLetter s.db id' now).2.row id = some r := hr
    rw [row_replayDeadLetter] at hr
    split at hr
    · rename_i hk
      obtain ⟨r₀, hr₀, rfl⟩ := Option.map_eq_some_iff.1 hr
      split at hfl
      · cases hfl
      · exact hs hlive id r₀ (hk ▸ hr₀) hfl
    · exact hs hlive id r hr hfl
  | start w now hpc =>
    intro _ id r hr hfl
    have hr : (resetStaleInFlight s.db now s.staleMs).row id = some r := hr
    rw [row_resetStaleInFlight] at hr
    obtain ⟨r₀, hr₀, rfl⟩ := Option.map_eq_some_iff.1 hr
    split at hfl
    · cases hfl
    · rename_i hfresh
      -- The row was not stale, so some worker held it, and not the one that starts.
      by_contra hnone
      have hfree : ∀ v, id ∉ s.heldIds v := by
        intro v hv
        refine hnone ⟨v, mem_heldIds_setPc hv fun e => ?_⟩
        exact absurd (e ▸ hv) (not_mem_heldIds (by rw [hpc]; rfl) id)
      have hstale := hrec id r₀ hr₀ hfl hfree
      exact hfresh (isStale_iff.2 ⟨hfl, hstale⟩)
  | listDue w now ds hpc hlist =>
    exact hs.idle s.db (by rw [hpc]; simp) (by rw [hpc]; rfl) fun _ _ hr _ => hr
  | refuse w d rest check reason c entry db hpc hcheck hdl =>
    refine hs.idle db (by rw [hpc]; simp) (by rw [hpc]; rfl) fun id r hr hfl => ?_
    rw [(deadLetter_ok hdl id).1] at hr
    split at hr
    · obtain ⟨r₀, -, rfl⟩ := Option.map_eq_some_iff.1 hr
      cases hfl
    · exact hr
  | claim w d rest now hpc => exact hs.claimed hpc now
  | send w d rest resp hpc =>
    refine hs.frame s.db (by rw [hpc]; simp) (fun _ _ hr _ => hr) (fun id r _ _ hid => ?_)
    obtain ⟨d', hd', hid'⟩ := mem_heldIds.1 hid
    rw [hpc] at hd'
    exact ⟨d', hd', hid'⟩
  | record w d out rest c db hpc hrec' =>
    have hrow := fun id => (recordOutcome_ok hrec' id).1
    have hne : ∀ id r, db.row id = some r → r.status = .inFlight → id ≠ d.id := by
      intro id r hr hfl hk
      rw [hrow, if_pos hk] at hr
      obtain ⟨r₀, -, rfl⟩ := Option.map_eq_some_iff.1 hr
      exact asOutcome_not_inFlight _ _ _ _ _ hfl
    refine hs.frame db (by rw [hpc]; simp) (fun id r hr hfl => ?_) (fun id r hr hfl hid => ?_)
    · have hk := hne id r hr hfl
      rw [hrow, if_neg hk] at hr
      exact hr
    · obtain ⟨d', hd', hid'⟩ := mem_heldIds.1 hid
      rw [hpc] at hd'
      cases hd'
      exact absurd hid'.symm (hne id r hr hfl)
  | dbFail w =>
    refine hs.frame s.db hrec.1 (fun _ _ hr _ => hr) (fun id r _ _ hid => ?_)
    obtain ⟨d, hd, hid⟩ := mem_heldIds.1 hid
    cases hpc : s.pc w with
    | down | polling | batch ds => rw [hpc] at hd; cases hd
    | claimed d' rest => exact ⟨d, by rw [hpc] at hd; exact hd, hid⟩
    | sent d' out rest => exact absurd hpc (hrec.2 d' out rest)
  | endPass w now hpc =>
    exact hs.idle s.db (by rw [hpc]; simp) (by rw [hpc]; rfl) fun _ _ hr _ => hr
  | restart cfg =>
    rintro ⟨w, hw⟩
    exact absurd rfl hw

theorem attended {h : List (Label ω)} {s : State ω} (hs : (recoverable ω).Reaches h s) :
    Attended s := by
  have hinit : ∀ s, (recoverable ω).init s → Attended s := by
    rintro s hs ⟨w, hw⟩
    exact absurd (hs.2 w) hw
  exact hs.invariant (I := fun _ s => Attended s) hinit
    fun _ _ _ _ _ hI hst => hI.step hst.1 hst.2

/-- When a worker has finished a pass, a live worker holds every row in flight, and so
every one that has been for longer than the threshold. -/
theorem held_after_pass {h : List (Label ω)} {s : State ω} {w : ω} {now : Int}
    (hs : (recoverable ω).Reaches (.endPass w now :: h) s) {id : Uuid} {r : DeliveryRow}
    (hr : s.db.row id = some r) (hfl : r.status = .inFlight) : ∃ v, id ∈ s.heldIds v := by
  refine attended hs ⟨w, ?_⟩ id r hr hfl
  cases hs with
  | step hreach hst =>
    cases hst.2 with
    | endPass => rw [State.setPc_self]; simp

theorem recoverable_start {r : DeliveryRow} {a b : Pc}
    (hr : r.status = .inFlight → r.updatedAt ≤ 2000 - 1000) (w : Bool) :
    Recoverable (duo (stored r [] List.nodup_nil) a b) (.start w 2000) := by
  intro id r' hr' hfl _
  have hmem : r' ∈ [r] := Table.mem_of_get? hr'
  obtain rfl : r' = r := List.mem_singleton.1 hmem
  show r'.updatedAt ≤ 2000 - asI64 1000
  rw [asI64_of_lt (by decide)]
  exact hr hfl

/-- The hook once the process has died after its claim and the next one has reset it. -/
def resetRow : DeliveryRow := asReset 2000 (asClaimed 0 (newRow hook 0))

def resetRead : Delivery := { hookRead with nextRetryAt := 2000, updatedAt := 2000 }

/-- The next process finds the claim of the last one stale, and claims the hook again.
The other worker finishes a pass in the meantime. -/
theorem held_after_pass_reset :
    ∃ v, (1 : Uuid) ∈ (duo (stored (asClaimed 3000 resetRow) [] List.nodup_nil)
      (.claimed resetRead []) .polling).heldIds v := by
  let S := recoverable Bool
  let taken := stored (asClaimed 3000 resetRow) [] List.nodup_nil
  have hfirst : ∀ a b w, Recoverable (duo listed.db a b) (.start w 0 : Label Bool) := by
    intro a b w id r' hr' hfl
    have hmem : r' ∈ [newRow hook 0] := Table.mem_of_get? hr'
    rw [List.mem_singleton.1 hmem] at hfl
    cases hfl
  have h₀ : S.Reaches listing listed :=
    listed_reached trivial (hfirst _ _ _) (hfirst _ _ _) trivial trivial
  have h₁ := claimed_reached h₀ trivial
  have h₂ : S.Reaches _ (duo claimedDb .down .down) :=
    (h₁.step (l := Label.restart quick) ⟨trivial, Step.restart _ quick⟩).of_eq
      (duo_ext rfl rfl rfl rfl)
  have h₃ : S.Reaches _ (duo (stored resetRow [] List.nodup_nil) .polling .down) :=
    (h₂.step (l := Label.start false 2000) ⟨recoverable_start (fun _ => by decide) _,
      Step.start _ false 2000 rfl⟩).of_eq (duo_ext rfl rfl rfl rfl)
  have h₄ : S.Reaches _ (duo (stored resetRow [] List.nodup_nil) .polling .polling) :=
    (h₃.step (l := Label.start true 2000) ⟨recoverable_start (fun h => by cases h) _,
      Step.start _ true 2000 rfl⟩).of_eq (duo_ext rfl rfl rfl rfl)
  have h₅ : S.Reaches _ (duo (stored resetRow [] List.nodup_nil) (.batch [resetRead]) .polling) :=
    (h₄.step (l := Label.listDue false 2000 [resetRead]) ⟨trivial, Step.listDue _ false 2000 _ rfl
      ⟨[resetRow], ⟨_, List.Perm.refl _, List.pairwise_singleton _ _, rfl⟩, rfl⟩⟩).of_eq
      (duo_ext rfl rfl rfl rfl)
  have h₆ : S.Reaches _ (duo taken (.claimed resetRead []) .polling) :=
    (h₅.step (l := Label.claim false resetRead 3000 true)
      ⟨trivial, Step.claim _ false resetRead [] 3000 rfl⟩).of_eq (duo_ext rfl rfl rfl rfl)
  have h₇ : S.Reaches _ (duo taken (.claimed resetRead []) (.batch [])) :=
    (h₆.step (l := Label.listDue true 4000 []) ⟨trivial, Step.listDue _ true 4000 _ rfl
      ⟨[], ⟨[], List.Perm.refl _, List.Pairwise.nil, rfl⟩, rfl⟩⟩).of_eq (duo_ext rfl rfl rfl rfl)
  have h₈ : S.Reaches (.endPass true 4000 :: _) (duo taken (.claimed resetRead []) .polling) :=
    (h₇.step (l := Label.endPass true 4000) ⟨trivial, Step.endPass _ true 4000 rfl⟩).of_eq
      (duo_ext rfl rfl rfl rfl)
  exact held_after_pass h₈ (r := asClaimed 3000 resetRow) rfl rfl

/-- A process dies one millisecond after a claim.  The row is not stale when the
next one starts, and when it is, no worker looks. -/
theorem hook_left_behind : ¬∀ h s (w : Bool) now,
    (system Bool).Reaches (.endPass w now :: h) s → ∀ id r, s.db.row id = some r →
      r.status = .inFlight → r.updatedAt ≤ now - s.cfg.staleInFlightMs →
      ∃ v, id ∈ s.heldIds v := by
  intro hall
  have h₁ : (system Bool).Reaches _ (duo claimedDb .down .down) :=
    (claiming_reached.step (Step.restart _ quick)).of_eq (duo_ext rfl rfl rfl rfl)
  have h₂ : (system Bool).Reaches _ (duo claimedDb .polling .down) :=
    (h₁.step (Step.start _ false 1 rfl)).of_eq (duo_ext rfl rfl rfl rfl)
  have h₃ : (system Bool).Reaches _ (duo claimedDb (.batch []) .down) :=
    (h₂.step (Step.listDue _ false 2000 [] rfl
      ⟨[], ⟨[], List.Perm.refl _, List.Pairwise.nil, rfl⟩, rfl⟩)).of_eq
      (duo_ext rfl rfl rfl rfl)
  have h₄ : (system Bool).Reaches (.endPass false 2000 :: _) (duo claimedDb .polling .down) :=
    (h₃.step (Step.endPass _ false 2000 rfl)).of_eq (duo_ext rfl rfl rfl rfl)
  obtain ⟨v, hv⟩ := hall _ _ false 2000 h₄ 1 (asClaimed 0 (newRow hook 0)) rfl rfl (by decide)
  cases v with
  | false | true => exact absurd hv List.not_mem_nil

end Q
end WebhookDelivery
