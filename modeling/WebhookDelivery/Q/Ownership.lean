/-
When a claimed delivery belongs to one worker.

`claim` takes pending rows only, so at first a claim is exclusive.  Two
statements can break it, because they write a row in flight without holding it:
`reset_stale_in_flight`, which a starting worker runs over all rows, and the
`dead_letter` of a failed check, which comes before any claim.  A run is orderly
while neither touches a row that a worker has claimed.
-/
import WebhookDelivery.Run.Ownership
import WebhookDelivery.Q.Snapshots

namespace WebhookDelivery
namespace Q

open Sql Run

variable {ω : Type}

def State.heldIds (s : State ω) (w : ω) : List Uuid := (s.pc w).held.toList.map Delivery.id

theorem mem_heldIds {s : State ω} {w : ω} {id : Uuid} :
    id ∈ s.heldIds w ↔ ∃ d, (s.pc w).held = some d ∧ d.id = id := by
  simp [State.heldIds]

theorem heldIds_nodup (s : State ω) (w : ω) : (s.heldIds w).Nodup := by
  unfold State.heldIds
  cases (s.pc w).held with
  | none => exact List.nodup_nil
  | some d => exact List.nodup_singleton _

/-- The statements that ask for no claim leave the claimed rows alone. -/
def Orderly (s : State ω) : Label ω → Prop
  | .start _ now => ∀ id r, s.db.row id = some r → isStale now s.staleMs r = true →
      ∀ w, id ∉ s.heldIds w
  | .refuse _ d _ => ∀ r, s.db.row d.id = some r → r.status ≠ .inFlight
  | _ => True

/-- Each delivery is claimed by one worker at most, its row is in flight, and
the row and the worker's copy are related by `R`. -/
structure Owned (R : DeliveryRow → Delivery → Prop) (s : State ω) : Prop where
  exclusive : Exclusive s.heldIds
  backed : ∀ w d, (s.pc w).held = some d → ∃ r, s.db.row d.id = some r ∧
    r.status = .inFlight ∧ R r d

variable {R : DeliveryRow → Delivery → Prop}

theorem Owned.inFlight {s : State ω} (hs : Owned R s) {w : ω} {id : Uuid}
    (hid : id ∈ s.heldIds w) {r : DeliveryRow} (hr : s.db.row id = some r) :
    r.status = .inFlight := by
  obtain ⟨d, hd, rfl⟩ := mem_heldIds.1 hid
  obtain ⟨r', hr', hst, -⟩ := hs.backed w d hd
  rw [hr] at hr'
  cases hr'
  exact hst

theorem Owned.not_held {s : State ω} (hs : Owned R s) {id : Uuid} {r : DeliveryRow}
    (hr : s.db.row id = some r) (hst : r.status ≠ .inFlight) (w : ω) : id ∉ s.heldIds w :=
  fun hid => hst (hs.inFlight hid hr)

/-- Letting go of deliveries keeps the invariant if the rows of those still held
are left alone. -/
theorem Owned.shrink {s t : State ω} (hs : Owned R s)
    (hsub : ∀ w d, (t.pc w).held = some d → (s.pc w).held = some d)
    (hrow : ∀ w, ∀ id ∈ t.heldIds w, t.db.row id = s.db.row id) : Owned R t where
  exclusive := by
    refine hs.exclusive.release fun w => ?_
    unfold State.heldIds
    cases hd : (t.pc w).held with
    | none => exact List.nil_sublist _
    | some d => rw [hsub w d hd]
  backed w d hd := by
    rw [hrow w d.id (mem_heldIds.2 ⟨d, hd, rfl⟩)]
    exact hs.backed w d (hsub w d hd)

variable [DecidableEq ω]

/-- What a worker holds when only the place of `w` changes. -/
theorem held_setPc {s : State ω} {w : ω} (db : Db) (pc : Pc)
    (hpc : ∀ d, pc.held = some d → (s.pc w).held = some d) (v : ω) (d : Delivery)
    (hd : ((State.setPc { s with db := db } w pc).pc v).held = some d) :
    (s.pc v).held = some d :=
  State.of_setPc (P := fun pc => pc.held = some d) db pc (hpc d) v hd

/-- A worker that has recorded its delivery holds nothing, and no other worker
holds that delivery. -/
theorem Owned.not_held_after {s : State ω} (hs : Owned R s) {w : ω} {d : Delivery}
    (hd : (s.pc w).held = some d) {db : Db} {pc : Pc} (hpc : pc.held = none) (v : ω) :
    d.id ∉ (State.setPc { s with db := db } w pc).heldIds v := by
  intro hmem
  by_cases hv : v = w
  · rw [hv, State.heldIds, State.setPc_self, hpc] at hmem
    exact List.not_mem_nil hmem
  · rw [State.heldIds, State.setPc_ne _ _ hv] at hmem
    exact hv (hs.exclusive.unique v w d.id hmem (mem_heldIds.2 ⟨d, hd, rfl⟩))

/-- No statement but an outcome write touches the row of a claimed delivery. -/
theorem Owned.untouched {s t : State ω} {l : Label ω} (hs : Owned R s) (ho : Orderly s l)
    (hst : Step s l t) {w : ω} {id : Uuid} (hid : id ∈ s.heldIds w) :
    t.db.row id = s.db.row id ∨
      ∃ v d out c, l = .record v d out ∧ d.id = id ∧ (s.pc v).held = some d ∧
        t.db.row id = (s.db.row id).map (asOutcome s.cfg c d out) := by
  obtain ⟨d₀, hd₀, hid₀⟩ := mem_heldIds.1 hid
  obtain ⟨r, hr, -⟩ := hs.backed w d₀ hd₀
  rw [hid₀] at hr
  have hfl : r.status = .inFlight := hs.inFlight hid hr
  cases hst with
  | insert d now db hins => exact .inl ((row_insert_of_some hins hr).trans hr.symm)
  | replay id' now =>
    refine .inl ((row_replayDeadLetter s.db id' now id).trans ?_)
    split
    · rename_i hk
      subst hk
      rw [hr, Option.map_some, if_neg (by rw [hfl]; decide)]
    · rfl
  | start v now hpc =>
    refine .inl ((row_resetStaleInFlight s.db now s.staleMs id).trans ?_)
    have hfresh : ¬isStale now s.staleMs r = true := fun hstale => ho id r hr hstale w hid
    rw [hr, Option.map_some, if_neg hfresh]
  | refuse v d rest check reason c entry db hpc hcheck hdl =>
    refine .inl ((deadLetter_ok hdl id).1.trans (if_neg fun e => ?_))
    subst e
    exact ho r hr hfl
  | claim v d rest now hpc =>
    refine .inl ((row_claim s.db d.id now id).trans ?_)
    split
    · rename_i hk
      subst hk
      rw [hr, Option.map_some, if_neg (by rw [hfl]; decide)]
    · rfl
  | record v d out rest c db hpc hrec =>
    have hrow := (recordOutcome_ok hrec id).1
    by_cases hk : id = d.id
    · refine .inr ⟨v, d, out, c, rfl, hk.symm, by rw [hpc]; rfl, ?_⟩
      exact hrow.trans (by rw [if_pos hk, hk])
    · exact .inl (hrow.trans (if_neg hk))
  | listDue | send | dbFail | endPass | restart => exact .inl rfl

theorem Owned.step {s t : State ω} {l : Label ω} (hs : Owned R s) (ho : Orderly s l)
    (hclaim : ∀ w d now r, l = .claim w d now true → s.db.row d.id = some r →
      R (asClaimed now r) d)
    (hst : Step s l t) : Owned R t := by
  have hshrink : (∀ w d, (t.pc w).held = some d → (s.pc w).held = some d) →
      (∀ v d out, l = .record v d out → ∀ u, d.id ∉ t.heldIds u) → Owned R t := by
    intro hsub hrec
    refine hs.shrink hsub fun v id hid => ?_
    obtain ⟨d, hd, hde⟩ := mem_heldIds.1 hid
    rcases hs.untouched ho hst (mem_heldIds.2 ⟨d, hsub v d hd, hde⟩) with
      hrow | ⟨v', d', out, c, hl, hd', -, -⟩
    · exact hrow
    · exact absurd hid (hd' ▸ hrec v' d' out hl v)
  cases hst with
  | insert | replay => exact hshrink (fun _ _ hd => hd) (fun _ _ _ h => nomatch h)
  | start w now hpc =>
    exact hshrink (held_setPc _ .polling (fun _ h => nomatch h)) (fun _ _ _ h => nomatch h)
  | listDue w now ds hpc hlist =>
    exact hshrink (held_setPc s.db _ (fun _ h => nomatch h)) (fun _ _ _ h => nomatch h)
  | refuse w d rest check reason c entry db hpc hcheck hdl =>
    exact hshrink (held_setPc db (.batch rest) (fun _ h => nomatch h)) (fun _ _ _ h => nomatch h)
  | claim w d rest now hpc =>
    by_cases hwon : (Q.claim s.db d.id now).1 = true
    case neg =>
      refine hshrink (held_setPc _ _ fun d' hd' => ?_) (fun _ _ _ h => nomatch h)
      rw [if_neg hwon] at hd'
      cases hd'
    case pos =>
      obtain ⟨r, hr, hst⟩ := (claim_fst s.db d.id now).1 hwon
      have hfree : ∀ v, d.id ∉ s.heldIds v := hs.not_held hr (by rw [hst]; decide)
      have hrow := row_claim s.db d.id now
      let t := State.setPc { s with db := (Q.claim s.db d.id now).2 } w (.claimed d rest)
      have hself : t.heldIds w = [d.id] := by
        simp [t, State.heldIds, Pc.held]
      have hother : ∀ v, v ≠ w → t.heldIds v = s.heldIds v := by
        intro v hv
        simp only [t, State.heldIds, State.setPc_ne _ _ hv]
      rw [if_pos hwon]
      show Owned R t
      refine ⟨hs.exclusive.acquire w hother (heldIds_nodup t w) ?_, ?_⟩
      · intro k hk v _
        rw [hself, List.mem_singleton] at hk
        exact hk ▸ hfree v
      · intro v d' hd'
        by_cases hv : v = w
        · have hdd : d = d' := by
            simpa [t, hv, Pc.held] using hd'
          subst hdd
          refine ⟨asClaimed now r, ?_, rfl, hclaim w d now r (by rw [hwon]) hr⟩
          exact (hrow d.id).trans (by rw [if_pos rfl, hr, Option.map_some, if_pos hst])
        · have hd' : (s.pc v).held = some d' := by
            simpa [t, State.setPc_ne _ _ hv] using hd'
          obtain ⟨r', hr', hrest⟩ := hs.backed v d' hd'
          have hne : ¬d'.id = d.id := fun e => hfree v (mem_heldIds.2 ⟨d', hd', e⟩)
          exact ⟨r', ((hrow d'.id).trans (if_neg hne)).trans hr', hrest⟩
  | send w d rest resp hpc =>
    refine hshrink (held_setPc s.db _ fun d' hd' => ?_) (fun _ _ _ h => nomatch h)
    rw [hpc]
    exact hd'
  | record w d out rest c db hpc hrec =>
    have hheld : (s.pc w).held = some d := by rw [hpc]; rfl
    refine hshrink (held_setPc _ _ (fun _ h => nomatch h)) (fun v' d' out' h v => ?_)
    cases h
    exact hs.not_held_after hheld rfl v
  | dbFail w =>
    refine hshrink (held_setPc s.db _ fun d' hd' => ?_) (fun _ _ _ h => nomatch h)
    cases hpc : s.pc w with
    | claimed d rest => rw [hpc] at hd'; exact hd'
    | down | polling | batch | sent => rw [hpc] at hd'; cases hd'
  | endPass w now hpc =>
    exact hshrink (held_setPc s.db _ (fun _ h => nomatch h)) (fun _ _ _ h => nomatch h)
  | restart cfg => exact hshrink (fun _ _ h => nomatch h) (fun _ _ _ h => nomatch h)

theorem owned_init {s : State ω} (hs : (system ω).init s) : Owned R s := by
  have hnone : ∀ w, (s.pc w).held = none := fun w => by rw [hs.2 w]; rfl
  refine ⟨Exclusive.none fun w => ?_, fun w d hd => ?_⟩
  · rw [State.heldIds, hnone w]
    rfl
  · rw [hnone w] at hd
    cases hd

/-! ## Two workers with one snapshot -/

def hook : NewDelivery where
  id := 1
  idempotencyKey := none
  destination := "http://a.test"
  payload := []
  maxAttempts := 2

/-- The hook as `list_due` reads it. -/
def hookRead : Delivery where
  id := 1
  idempotencyKey := none
  destination := "http://a.test"
  payload := []
  status := .pending
  attempts := 0
  maxAttempts := 2
  nextRetryAt := 0
  lastError := none
  createdAt := 0
  updatedAt := 0

def stored (r : DeliveryRow) (es : List DlqRow) (h : (es.map key).Nodup) : Db where
  deliveries := ⟨[r], List.nodup_singleton _⟩
  deadLetters := ⟨es, h⟩

def quick : Config := { baseRetryDelayMs := 0, maxRetryDelayMs := 0, staleInFlightMs := 1000 }

/-- Two workers. -/
def duo (db : Db) (a b : Pc) : State Bool where
  db := db
  cfg := quick
  pc w := if w then b else a

theorem duo_ext {s : State Bool} {db : Db} {a b : Pc} (hdb : s.db = db)
    (hcfg : s.cfg = quick) (ha : s.pc false = a) (hb : s.pc true = b) :
    s = duo db a b := by
  obtain ⟨db', cfg, pc⟩ := s
  subst hdb hcfg ha hb
  have hpc : pc = fun w => if w then pc true else pc false := by
    funext w
    cases w <;> rfl
  exact congrArg (State.mk _ quick) hpc

/-- The hook is stored and both workers have listed it before either claims it. -/
def listed : State Bool :=
  duo (stored (newRow hook 0) [] List.nodup_nil) (.batch [hookRead]) (.batch [hookRead])

def listing : List (Label Bool) :=
  [.listDue true 0 [hookRead], .listDue false 0 [hookRead], .start true 0, .start false 0,
    .insert hook 0]

def noDraw : Draw := { rnd := 0, entryId := 7, clock := 0, now := 0 }

/-- The name of the hook's host does not resolve. -/
def lookupFailed : Check := .ssrf "dns resolution failed for temporary failure in name resolution"

def lookupError : String :=
  "ssrf: dns resolution failed for temporary failure in name resolution"

/-- Any condition that the five steps meet is met by the run. -/
theorem listed_reached {C : State Bool → Label Bool → Prop}
    (h₁ : C (duo Db.empty .down .down) (.insert hook 0))
    (h₂ : C (duo listed.db .down .down) (.start false 0))
    (h₃ : C (duo listed.db .polling .down) (.start true 0))
    (h₄ : C (duo listed.db .polling .polling) (.listDue false 0 [hookRead]))
    (h₅ : C (duo listed.db (.batch [hookRead]) .polling) (.listDue true 0 [hookRead])) :
    ((system Bool).restrict C).Reaches listing listed := by
  have hlist : ListsDue listed.db 0 20 (.ok [hookRead]) :=
    ⟨[newRow hook 0], ⟨_, List.Perm.refl _, List.pairwise_singleton _ _, rfl⟩, rfl⟩
  have r₀ : ((system Bool).restrict C).Reaches [] (duo Db.empty .down .down) :=
    .init ⟨rfl, fun w => by cases w <;> rfl⟩
  have r₁ : ((system Bool).restrict C).Reaches _ (duo listed.db .down .down) :=
    r₀.step ⟨h₁, Step.insert _ hook 0 listed.db rfl⟩
  have r₂ : ((system Bool).restrict C).Reaches _ (duo listed.db .polling .down) :=
    (r₁.step ⟨h₂, Step.start _ false 0 rfl⟩).of_eq (duo_ext rfl rfl rfl rfl)
  have r₃ : ((system Bool).restrict C).Reaches _ (duo listed.db .polling .polling) :=
    (r₂.step ⟨h₃, Step.start _ true 0 rfl⟩).of_eq (duo_ext rfl rfl rfl rfl)
  have r₄ : ((system Bool).restrict C).Reaches _ (duo listed.db (.batch [hookRead]) .polling) :=
    (r₃.step ⟨h₄, Step.listDue _ false 0 _ rfl hlist⟩).of_eq (duo_ext rfl rfl rfl rfl)
  exact (r₄.step ⟨h₅, Step.listDue _ true 0 _ rfl hlist⟩).of_eq (duo_ext rfl rfl rfl rfl)

theorem listing_reached : (system Bool).Reaches listing listed :=
  (listed_reached (C := fun _ _ => True) trivial trivial trivial trivial trivial).of_restrict

/-- The hook, claimed at time 0 by the worker `false`. -/
def claimedDb : Db := stored (asClaimed 0 (newRow hook 0)) [] List.nodup_nil

theorem claimed_reached {C : State Bool → Label Bool → Prop}
    (hs : ((system Bool).restrict C).Reaches listing listed)
    (hC : C listed (.claim false hookRead 0 true)) :
    ((system Bool).restrict C).Reaches (.claim false hookRead 0 true :: listing)
      (duo claimedDb (.claimed hookRead []) (.batch [hookRead])) :=
  (hs.step ⟨hC, Step.claim _ false hookRead [] 0 rfl⟩).of_eq (duo_ext rfl rfl rfl rfl)

theorem claiming_reached :
    (system Bool).Reaches (.claim false hookRead 0 true :: listing)
      (duo claimedDb (.claimed hookRead []) (.batch [hookRead])) :=
  (listing_reached.step (Step.claim _ false hookRead [] 0 rfl)).of_eq (duo_ext rfl rfl rfl rfl)

/-- A worker that starts while nothing is claimed disturbs nobody. -/
theorem orderly_start {db : Db} {a b : Pc} (ha : a.held = none) (hb : b.held = none) (w : Bool)
    (now : Int) : Orderly (duo db a b) (.start w now) := by
  intro id r _ _ v hid
  obtain ⟨d, hd, -⟩ := mem_heldIds.1 hid
  cases v with
  | false => exact absurd (ha.symm.trans hd) (by simp)
  | true => exact absurd (hb.symm.trans hd) (by simp)

end Q
end WebhookDelivery
