/-
Dead letters, and the finality of a success.

The worker that holds a delivery dead-letters it once.  A check that fails
dead-letters a delivery that nobody holds, from a snapshot that may be older
than a success or than another worker's dead letter, and `dead_letter` does not
look at the status.  What the outcome writes promise holds as long as no such
refusal meets a row that has moved on.
-/
import WebhookDelivery.Q.Ownership

namespace WebhookDelivery
namespace Q

open Sql Run

variable {ω : Type}

/-- No refusal meets a row in the status `st`. -/
def Spares (st : DeliveryStatus) (s : State ω) : Label ω → Prop
  | .refuse _ d _ => ∀ r, s.db.row d.id = some r → r.status ≠ st
  | _ => True

variable [DecidableEq ω]

variable (ω) in
/-- The orderly runs in which no refusal meets a row in the status `st`. -/
def sparing (st : DeliveryStatus) : System (State ω) (Label ω) :=
  (system ω).restrict fun s l => Orderly s l ∧ Spares st s l

theorem owned_sparing {st : DeliveryStatus} {h : List (Label ω)} {s : State ω}
    (hs : (sparing ω st).Reaches h s) : Owned (fun _ _ => True) s := by
  have hinit : ∀ s, (sparing ω st).init s → Owned (fun _ _ => True) s :=
    fun s hs => owned_init hs
  refine hs.invariant (I := fun _ s => Owned (fun _ _ => True) s) hinit ?_
  intro h s l t _ hI hst
  exact hI.step hst.1.1 (fun _ _ _ _ _ _ => trivial) hst.2

/-! ## Finality -/

/-- A delivered row is not written by a step that leaves the held rows alone and
refuses no delivered row. -/
theorem Owned.delivered_step {R : DeliveryRow → Delivery → Prop} {s t : State ω} {l : Label ω}
    (hs : Owned R s) (hsp : Spares .delivered s l) (hst : Step s l t) {id : Uuid}
    {r : DeliveryRow} (hr : s.db.row id = some r) (hdel : r.status = .delivered) :
    t.db.row id = some r := by
  cases hst with
  | insert d now db hins =>
    exact row_insert_of_some hins hr
  | replay id' now =>
    refine (row_replayDeadLetter s.db id' now id).trans ?_
    split
    · rename_i hk
      rw [← hk, hr, Option.map_some, if_neg (by rw [hdel]; decide)]
    · exact hr
  | start w now hpc =>
    refine (row_resetStaleInFlight s.db now s.staleMs id).trans ?_
    rw [hr, Option.map_some, if_neg (by simp [isStale, hdel])]
  | refuse w d rest check reason c entry db hpc hcheck hdl =>
    refine (deadLetter_ok hdl id).1.trans ?_
    split
    · rename_i hk
      subst hk
      exact absurd hdel (hsp r hr)
    · exact hr
  | claim w d rest now hpc =>
    refine (row_claim s.db d.id now id).trans ?_
    split
    · rename_i hk
      rw [← hk, hr, Option.map_some, if_neg (by rw [hdel]; decide)]
    · exact hr
  | record w d out rest c db hpc hrec =>
    have hmem : d.id ∈ s.heldIds w := mem_heldIds.2 ⟨d, by rw [hpc]; rfl, rfl⟩
    refine ((recordOutcome_ok hrec id).1.trans (if_neg fun e => ?_)).trans hr
    have hfl := hs.inFlight hmem (e ▸ hr)
    rw [hdel] at hfl
    cases hfl
  | listDue | send | dbFail | endPass | restart => exact hr

/-- A success is final. -/
theorem delivered_final {h : List (Label ω)} {s : State ω}
    (hs : (sparing ω .delivered).Reaches h s) {id : Uuid} {r : DeliveryRow}
    (hr : s.db.row id = some r) (hdel : r.status = .delivered) {h' : List (Label ω)}
    {t : State ω} (hst : (sparing ω .delivered).Path s h' t) :
    ∃ r', t.db.row id = some r' ∧ r'.status = .delivered := by
  refine ⟨r, ?_, hdel⟩
  refine hs.keeps (P := fun s => s.db.row id = some r) (fun h s l t hreach hrow hl => ?_) hst hr
  exact (owned_sparing hreach).delivered_step hl.1.2 hl.2 hrow hdel

theorem listed_sparing (st : DeliveryStatus) : (sparing Bool st).Reaches listing listed :=
  listed_reached ⟨trivial, trivial⟩ ⟨orderly_start rfl rfl _ _, trivial⟩
    ⟨orderly_start rfl rfl _ _, trivial⟩ ⟨trivial, trivial⟩ ⟨trivial, trivial⟩

/-- The database once one worker has delivered the hook. -/
def deliveredDb : Db :=
  stored (asDelivered 0 (asClaimed 0 (newRow hook 0))) [] List.nodup_nil

/-- The first worker delivers the hook while the second still has its snapshot. -/
theorem delivered_reached {C : State Bool → Label Bool → Prop} {h : List (Label Bool)}
    (hs : ((system Bool).restrict C).Reaches h listed)
    (hC : ∀ s, C s (.claim false hookRead 0 true) ∧ C s (.send false hookRead 1 .delivered) ∧
      C s (.record false hookRead .delivered)) :
    ∃ h', ((system Bool).restrict C).Reaches h'
      (duo deliveredDb (.batch []) (.batch [hookRead])) := by
  let db₁ : Db := stored (asClaimed 0 (newRow hook 0)) [] List.nodup_nil
  have h₁ : ((system Bool).restrict C).Reaches _
      (duo db₁ (.claimed hookRead []) (.batch [hookRead])) :=
    (hs.step ⟨(hC _).1, Step.claim _ false hookRead [] 0 rfl⟩).of_eq (duo_ext rfl rfl rfl rfl)
  have h₂ : ((system Bool).restrict C).Reaches _
      (duo db₁ (.sent hookRead .delivered []) (.batch [hookRead])) :=
    (h₁.step ⟨(hC _).2.1, Step.send _ false hookRead [] (.status 200) rfl⟩).of_eq
      (duo_ext rfl rfl rfl rfl)
  exact ⟨_, (h₂.step ⟨(hC _).2.2,
    Step.record _ false hookRead .delivered [] noDraw deliveredDb rfl rfl⟩).of_eq
      (duo_ext rfl rfl rfl rfl)⟩

/-- The second worker loses its claim after the first has delivered the hook, a replay is
asked for, and the process starts again. -/
theorem delivered_final_hook : ∃ h t, (sparing Bool .delivered).Path
    (duo deliveredDb (.batch []) (.batch [hookRead])) h t ∧ h.length = 6 ∧
      ∃ r', t.db.row 1 = some r' ∧ r'.status = .delivered := by
  obtain ⟨h', hs'⟩ := delivered_reached (listed_sparing .delivered) fun _ =>
    ⟨⟨trivial, trivial⟩, ⟨trivial, trivial⟩, ⟨trivial, trivial⟩⟩
  have h₁ := System.Path.one (S := sparing Bool .delivered) (l := Label.claim true hookRead 1 false)
    ⟨⟨trivial, trivial⟩,
      Step.claim (duo deliveredDb (.batch []) (.batch [hookRead])) true hookRead [] 1 rfl⟩
  have h₂ := h₁.cons (l := Label.endPass true 2) ⟨⟨trivial, trivial⟩, Step.endPass _ true 2 rfl⟩
  have h₃ := h₂.cons (l := Label.replay 1 3 false) ⟨⟨trivial, trivial⟩, Step.replay _ 1 3⟩
  have h₄ := h₃.cons (l := Label.restart quick) ⟨⟨trivial, trivial⟩, Step.restart _ quick⟩
  have h₅ := h₄.cons (l := Label.start true 5000)
    ⟨⟨fun _ _ _ _ w hw => absurd hw (by simp [State.heldIds, Pc.held]), trivial⟩,
      Step.start _ true 5000 rfl⟩
  have h₆ := h₅.cons (l := Label.listDue true 5000 []) ⟨⟨trivial, trivial⟩,
    Step.listDue _ true 5000 [] rfl ⟨[], ⟨[], List.Perm.refl _, List.Pairwise.nil, rfl⟩, rfl⟩⟩
  have hr : deliveredDb.row 1 = some (asDelivered 0 (asClaimed 0 (newRow hook 0))) := rfl
  exact ⟨_, _, h₆, rfl, delivered_final hs' hr rfl h₆⟩

/-- The second worker's check fails after the first has delivered the hook. -/
theorem delivered_refused : ¬∀ h s, (system Bool).Reaches h s → ∀ id r, s.db.row id = some r →
    r.status = .delivered → ∀ h' t, (system Bool).Path s h' t →
      ∃ r', t.db.row id = some r' ∧ r'.status = .delivered := by
  intro hall
  have hs₀ : ((system Bool).restrict fun _ _ => True).Reaches listing listed :=
    listed_reached trivial trivial trivial trivial trivial
  obtain ⟨h, hs⟩ := delivered_reached hs₀ fun _ => ⟨trivial, trivial, trivial⟩
  let r₁ : DeliveryRow := asDelivered 0 (asClaimed 0 (newRow hook 0))
  let err : String := lookupError
  let db : Db := stored (asDeadLettered err 0 r₁) [dlqRow 7 r₁ 1 err 0] (List.nodup_singleton _)
  have hstep := Step.refuse (duo deliveredDb (.batch []) (.batch [hookRead])) true hookRead []
    lookupFailed err noDraw _ db rfl rfl rfl
  obtain ⟨r', hr', hst⟩ := hall h _ hs.of_restrict 1 r₁ rfl rfl _ _ (System.Path.one hstep)
  have hr : asDeadLettered err 0 r₁ = r' := Option.some.inj hr'
  rw [← hr] at hst
  cases hst

/-! ## The ledger -/

def Db.isDeadLettered (db : Db) (id : Uuid) : Bool :=
  (db.row id).any fun r => decide (r.status = .deadLetter)

/-- Every dead letter of a delivery has been replayed, but for the one its row
still shows. -/
def Balanced (h : List (Label ω)) (s : State ω) : Prop :=
  ∀ id, s.db.entries id = replays id h + if s.db.isDeadLettered id then 1 else 0

omit [DecidableEq ω] in
theorem replays_cons (id : Uuid) (l : Label ω) (h : List (Label ω)) :
    replays id (l :: h) = replays id h + if l.replays id then 1 else 0 := by
  rw [replays, replays, List.countP_cons]

theorem isDeadLettered_eq {db : Db} {id : Uuid} {r : DeliveryRow} (h : db.row id = some r) :
    db.isDeadLettered id = decide (r.status = .deadLetter) := by
  rw [Db.isDeadLettered, h, Option.any_some]

theorem isDeadLettered_congr {db db' : Db} {id : Uuid} (h : db'.row id = db.row id) :
    db'.isDeadLettered id = db.isDeadLettered id := by
  rw [Db.isDeadLettered, Db.isDeadLettered, h]

omit [DecidableEq ω] in
/-- A step that adds no entry and replays nothing keeps the balance, if it
neither makes nor unmakes a dead letter. -/
theorem Balanced.frame {h : List (Label ω)} {s t : State ω} {l : Label ω} (hs : Balanced h s)
    (hent : ∀ id, t.db.entries id = s.db.entries id) (hl : ∀ id, l.replays id = false)
    (hdead : ∀ id, t.db.isDeadLettered id = s.db.isDeadLettered id) : Balanced (l :: h) t := by
  intro id
  rw [hent, replays_cons, hl, hdead, hs id]
  simp

/-- A statement that assigns a row that is not dead-lettered, and leaves it so. -/
theorem isDeadLettered_map {db db' : Db} {id : Uuid} {f : DeliveryRow → DeliveryRow}
    (hrow : db'.row id = (db.row id).map f)
    (hf : ∀ r, db.row id = some r → ((f r).status = .deadLetter ↔ r.status = .deadLetter)) :
    db'.isDeadLettered id = db.isDeadLettered id := by
  cases hr : db.row id with
  | none => exact isDeadLettered_congr (by rw [hrow, hr]; rfl)
  | some r =>
    rw [isDeadLettered_eq hr, isDeadLettered_eq (by rw [hrow, hr]; rfl)]
    exact decide_eq_decide.2 (hf r hr)

theorem buries_iff (cfg : Config) (c : Draw) (d : Delivery) (out : Outcome) (r : DeliveryRow) :
    (asOutcome cfg c d out r).status = .deadLetter ↔ buries d out = true := by
  cases out with
  | delivered => simp [asOutcome, buries, asDelivered]
  | permanent err => simp [asOutcome, buries, asDeadLettered]
  | retryable err =>
    by_cases hle : d.maxAttempts ≤ d.attempts + 1
    · simp [asOutcome, buries, hle, asDeadLettered]
    · simp [asOutcome, buries, hle, asRetried]

theorem Balanced.step {R : DeliveryRow → Delivery → Prop} {h : List (Label ω)} {s t : State ω}
    {l : Label ω} (hb : Balanced h s) (hs : Owned R s) (hsp : Spares .deadLetter s l)
    (hst : Step s l t) : Balanced (l :: h) t := by
  cases hst with
  | insert d now db hins =>
    refine hb.frame (fun id => (row_insert hins id).2.2) (fun _ => rfl) (fun id => ?_)
    obtain ⟨hnone, hrow, -⟩ := row_insert hins id
    by_cases hk : d.id = id
    · subst hk
      rw [if_pos rfl] at hrow
      show db.isDeadLettered d.id = _
      rw [isDeadLettered_eq hrow, Db.isDeadLettered, hnone]
      rfl
    · exact isDeadLettered_congr (hrow.trans (if_neg hk))
  | replay id' now =>
    intro id
    show s.db.entries id = _
    rw [hb id, replays_cons]
    by_cases hk : id' = id
    · subst hk
      have hrow := row_replayDeadLetter s.db id' now id'
      rw [if_pos rfl] at hrow
      cases hr : s.db.row id' with
      | none =>
        have hacc : (replayDeadLetter s.db id' now).1 = false := by
          rw [Bool.eq_false_iff, ne_eq, replayDeadLetter_fst, hr]
          simp
        rw [hr, Option.map_none] at hrow
        simp [Label.replays, hacc, Db.isDeadLettered, hr, hrow]
      | some r =>
        rw [hr, Option.map_some] at hrow
        by_cases hdl : r.status = .deadLetter
        · have hacc : (replayDeadLetter s.db id' now).1 = true :=
            (replayDeadLetter_fst _ _ _).2 ⟨r, hr, hdl⟩
          rw [if_pos hdl] at hrow
          simp [Label.replays, hacc, isDeadLettered_eq hr, isDeadLettered_eq hrow, hdl,
            asReplayed]
        · have hacc : (replayDeadLetter s.db id' now).1 = false := by
            rw [Bool.eq_false_iff, ne_eq, replayDeadLetter_fst, hr]
            simp [hdl]
          rw [if_neg hdl] at hrow
          simp [Label.replays, hacc, isDeadLettered_eq hr, isDeadLettered_eq hrow, hdl]
    · have hrow := (row_replayDeadLetter s.db id' now id).trans (if_neg fun e => hk e.symm)
      simp [Label.replays, hk, isDeadLettered_congr hrow]
  | start w now hpc =>
    refine hb.frame (fun _ => rfl) (fun _ => rfl) (fun id => ?_)
    refine isDeadLettered_map (row_resetStaleInFlight s.db now s.staleMs id) (fun r _ => ?_)
    by_cases hstale : isStale now s.staleMs r = true
    · rw [if_pos hstale, (isStale_iff.1 hstale).1]
      simp [asReset]
    · rw [if_neg hstale]
  | refuse w d rest check reason c entry db hpc hcheck hdl =>
    intro id
    obtain ⟨hrow, hent⟩ := deadLetter_ok hdl id
    show db.entries id = _ + if db.isDeadLettered id then 1 else 0
    rw [hent, hb id, replays_cons]
    by_cases hk : id = d.id
    · subst hk
      rw [if_pos rfl] at hrow
      cases hr : s.db.row d.id with
      | none =>
        rw [hr, Option.map_none] at hrow
        simp [Label.replays, Db.isDeadLettered, hr, hrow]
      | some r =>
        rw [hr, Option.map_some] at hrow
        simp [Label.replays, isDeadLettered_eq hr, isDeadLettered_eq hrow, hsp r hr,
          asDeadLettered]
    · rw [if_neg hk] at hrow
      simp [Label.replays, hk, isDeadLettered_congr hrow]
  | claim w d rest now hpc =>
    refine hb.frame (fun _ => rfl) (fun _ => rfl) (fun id => ?_)
    have hrow := row_claim s.db d.id now id
    by_cases hk : id = d.id
    · refine isDeadLettered_map (hrow.trans (by rw [if_pos hk, hk])) (fun r _ => ?_)
      by_cases hp : r.status = .pending
      · rw [if_pos hp, hp]
        simp [asClaimed]
      · rw [if_neg hp]
    · exact isDeadLettered_congr (hrow.trans (if_neg hk))
  | record w d out rest c db hpc hrec =>
    intro id
    obtain ⟨hrow, hent⟩ := recordOutcome_ok hrec id
    show db.entries id = _ + if db.isDeadLettered id then 1 else 0
    rw [hent, hb id, replays_cons]
    by_cases hk : id = d.id
    · subst hk
      obtain ⟨r, hr, hfl, -⟩ := hs.backed w d (by rw [hpc]; rfl)
      rw [if_pos rfl, hr, Option.map_some] at hrow
      have hnot : ¬r.status = .deadLetter := by rw [hfl]; decide
      simp [Label.replays, isDeadLettered_eq hr, isDeadLettered_eq hrow, hnot, hr, buries_iff]
    · rw [if_neg hk] at hrow
      simp [Label.replays, hk, isDeadLettered_congr hrow]
  | listDue | send | dbFail | endPass | restart =>
    exact hb.frame (fun _ => rfl) (fun _ => rfl) (fun _ => rfl)

/-- Each failure is dead-lettered once. -/
theorem entries_eq {h : List (Label ω)} {s : State ω}
    (hs : (sparing ω .deadLetter).Reaches h s) {id : Uuid} {r : DeliveryRow}
    (hr : s.db.row id = some r) :
    s.db.entries id = replays id h + if r.status = .deadLetter then 1 else 0 := by
  have hinit : ∀ s, (sparing ω .deadLetter).init s → Balanced [] s := by
    intro s hs id
    rw [hs.1]
    rfl
  have hb : Balanced h s := by
    refine hs.invariant hinit (fun h s l t hreach hI hl => ?_)
    exact hI.step (owned_sparing hreach) hl.1.2 hl.2
  rw [hb id, isDeadLettered_eq hr]
  simp

theorem entries_eq_hook :
    (stored (asDeadLettered "HTTP 404" 0 (asClaimed 0 (newRow hook 0)))
      [dlqRow 7 (asClaimed 0 (newRow hook 0)) 0 "HTTP 404" 0] (List.nodup_singleton _)).entries 1
      = replays 1 (.record false hookRead (.permanent "HTTP 404") ::
          .send false hookRead 1 (.permanent "HTTP 404") ::
          .claim false hookRead 0 true :: listing) + 1 := by
  let db₁ : Db := stored (asClaimed 0 (newRow hook 0)) [] List.nodup_nil
  let out : Outcome := .permanent "HTTP 404"
  have hC : ∀ s l, l ∈ [(.claim false hookRead 0 true : Label Bool), .send false hookRead 1 out,
      .record false hookRead out] → Orderly s l ∧ Spares .deadLetter s l := by
    intro s l hl
    simp only [List.mem_cons, List.not_mem_nil, or_false] at hl
    rcases hl with rfl | rfl | rfl <;> exact ⟨trivial, trivial⟩
  have h₁ : (sparing Bool .deadLetter).Reaches (.claim false hookRead 0 true :: listing)
      (duo db₁ (.claimed hookRead []) (.batch [hookRead])) :=
    ((listed_sparing .deadLetter).step
      ⟨hC _ (.claim false hookRead 0 true) (by simp),
        Step.claim _ false hookRead [] 0 rfl⟩).of_eq (duo_ext rfl rfl rfl rfl)
  have h₂ : (sparing Bool .deadLetter).Reaches
      (.send false hookRead 1 out :: .claim false hookRead 0 true :: listing)
      (duo db₁ (.sent hookRead out []) (.batch [hookRead])) :=
    (h₁.step ⟨hC _ (.send false hookRead 1 out) (by simp),
      Step.send _ false hookRead [] (.status 404) rfl⟩).of_eq
      (duo_ext rfl rfl rfl rfl)
  have h₃ : (sparing Bool .deadLetter).Reaches
      (.record false hookRead out :: .send false hookRead 1 out ::
        .claim false hookRead 0 true :: listing) _ :=
    h₂.step ⟨hC _ (.record false hookRead out) (by simp), Step.record _ false hookRead out [] noDraw
      (stored (asDeadLettered "HTTP 404" 0 (asClaimed 0 (newRow hook 0)))
        [dlqRow 7 (asClaimed 0 (newRow hook 0)) 0 "HTTP 404" 0] (List.nodup_singleton _)) rfl rfl⟩
  have hr : (stored (asDeadLettered "HTTP 404" 0 (asClaimed 0 (newRow hook 0)))
      [dlqRow 7 (asClaimed 0 (newRow hook 0)) 0 "HTTP 404" 0] (List.nodup_singleton _)).row 1
        = some (asDeadLettered "HTTP 404" 0 (asClaimed 0 (newRow hook 0))) := rfl
  exact entries_eq h₃ hr

/-- Two workers dead-letter the hook one after the other, from the one snapshot
in which it was pending. -/
theorem hook_refused_twice : ¬∀ h s,
    ((system Bool).restrict fun _ l => l.succeeds = true).Reaches h s →
    ∀ id r, s.db.row id = some r →
      s.db.entries id = replays id h + if r.status = .deadLetter then 1 else 0 := by
  intro hall
  let err : String := lookupError
  let r₁ : DeliveryRow := asDeadLettered err 0 (newRow hook 0)
  let db₁ : Db := stored r₁ [dlqRow 7 (newRow hook 0) 0 err 0] (List.nodup_singleton _)
  let db₂ : Db := stored (asDeadLettered err 0 r₁)
    [dlqRow 7 (newRow hook 0) 0 err 0, dlqRow 8 r₁ 0 err 0] (by decide)
  have h₀ : ((system Bool).restrict fun _ l => l.succeeds = true).Reaches listing listed :=
    listed_reached rfl rfl rfl rfl rfl
  have h₁ : ((system Bool).restrict fun _ l => l.succeeds = true).Reaches
      (.refuse false hookRead lookupFailed :: listing) (duo db₁ (.batch []) (.batch [hookRead])) :=
    (h₀.step ⟨rfl, Step.refuse _ false hookRead [] lookupFailed err noDraw _ db₁ rfl rfl rfl⟩).of_eq
      (duo_ext rfl rfl rfl rfl)
  have h₂ : ((system Bool).restrict fun _ l => l.succeeds = true).Reaches
      (.refuse true hookRead lookupFailed :: .refuse false hookRead lookupFailed :: listing)
      (duo db₂ (.batch []) (.batch [])) :=
    (h₁.step ⟨rfl, Step.refuse _ true hookRead [] lookupFailed err
      { noDraw with entryId := 8 } _ db₂
      rfl rfl rfl⟩).of_eq (duo_ext rfl rfl rfl rfl)
  have htwo : 2 = 0 + 1 := hall _ _ h₂ 1 (asDeadLettered err 0 r₁) rfl
  exact absurd htwo (by decide)

end Q
end WebhookDelivery
