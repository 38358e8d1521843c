/-
What survives every crash.

These results hold in every run, with late tasks, stale requeues and crashes.
A row is only ever inserted or written again, the worker alone puts it in
processing, and a task alone puts it in delivered, with its call behind it.
-/
import WebhookDelivery.G.Ownership

namespace WebhookDelivery
namespace G

open Sql Run

variable {J : Json}

/-! ## What a step leaves in a row -/

/-- The clock reading of a claim of `id`. -/
def Label.claimedAt (id : String) : Label J → Option Int
  | .claim now jobs => if id ∈ jobs.map ClaimedJob.id then some now else none
  | _ => none

/-- How the row of `id` after a step comes to be `r`. -/
inductive Written (id : String) (s : State) (l : Label J) (r : DeliveryRow) : Prop
  | kept : s.table.get? id = some r → l.claimedAt id = none → Written id s l r
  | pending : r.status = .pending → Written id s l r
  | dead : r.status = .deadLettered → Written id s l r
  | claimed (now : Int) :
      r.status = .processing → l.claimedAt id = some now → r.nextAttemptAt ≤ now →
      Written id s l r
  | delivered (k : Task) (now : Int) :
      r.status = .delivered → k ∈ s.tasks → k.id = id → k.pc = .called now (.ok ()) →
      Written id s l r

theorem Step.written {s t : State} {l : Label J} (hst : Step s l t) {id : String}
    {r : DeliveryRow} (hr : t.table.get? id = some r) : Written id s l r := by
  cases hst with
  | createWebhook payload check id' now fault res t' hcreate =>
    rcases createWebhook_spec _ _ _ _ _ _ _ hcreate with ⟨e, -, rfl⟩ | ⟨req, -, -, hins⟩
    · exact .kept hr rfl
    · have hrow : t'.get? id = if id' = id then some _ else s.table.get? id :=
        Table.get?_insert? hins id
      have hr : t'.get? id = some r := hr
      rw [hr] at hrow
      by_cases hid : id' = id
      · rw [if_pos hid] at hrow
        cases hrow
        exact .pending rfl
      · rw [if_neg hid] at hrow
        exact .kept hrow.symm rfl
  | reclaim now htick =>
    obtain ⟨r₀, hr₀, rfl⟩ := Option.map_eq_some_iff.1 ((get?_reclaim _ _ _ _).symm.trans hr)
    by_cases hstale : isStale (staleCutoff s.cfg now) r₀ = true
    · rw [if_pos hstale]
      exact .pending rfl
    · rw [if_neg hstale]
      exact .kept hr₀ rfl
  | claim now rows jobs htick hsel hjobs =>
    obtain ⟨-, hin, hout⟩ := claim_spec hsel hjobs
    by_cases hk : id ∈ jobs.map ClaimedJob.id
    · obtain ⟨job, hjob, rfl⟩ := List.mem_map.1 hk
      obtain ⟨r₀, -, -, hdue, -, hr₀⟩ := hin job hjob
      have hr : asClaimed now r₀ = r := Option.some.inj (hr₀.symm.trans hr)
      subst hr
      exact .claimed now rfl (if_pos hk) hdue
    · exact .kept ((hout id hk).symm.trans hr) (if_neg hk)
  | finish pre post job claimedAt now delay res htasks =>
    have hrow := get?_finish job now delay res s.table id
    have hr : (G.finish job now delay res s.table).get? id = some r := hr
    rw [hr] at hrow
    by_cases hid : id = job.id
    · rw [if_pos hid] at hrow
      obtain ⟨r₀, -, rfl⟩ := Option.map_eq_some_iff.1 hrow.symm
      have hmem : (⟨job, claimedAt, .called now res⟩ : Task) ∈ s.tasks := htasks ▸ by simp
      cases res with
      | ok u => exact .delivered _ now rfl hmem hid.symm rfl
      | error err =>
        by_cases hle : job.maxAttempts ≤ job.attempts + 1
        · exact .dead (by simp [asFinished, hle])
        · exact .pending (by simp [asFinished, hle])
    · rw [if_neg hid] at hrow
      exact .kept hrow.symm rfl
  | requeueUpdate id' now hmem =>
    have hrow := get?_requeue id' now s.table id
    have hr : (requeue id' now s.table).get? id = some r := hr
    rw [hr] at hrow
    by_cases hid : id = id'
    · rw [if_pos hid] at hrow
      obtain ⟨r₀, -, rfl⟩ := Option.map_eq_some_iff.1 hrow.symm
      exact .pending rfl
    · rw [if_neg hid] at hrow
      exact .kept hrow.symm rfl
  | restart cfg now =>
    obtain ⟨r₀, hr₀, rfl⟩ := Option.map_eq_some_iff.1 ((get?_resetProcessing _ _ _).symm.trans hr)
    by_cases hproc : isProcessing r₀ = true
    · rw [if_pos hproc]
      exact .pending rfl
    · rw [if_neg hproc]
      exact .kept hr₀ rfl
  | tickFailed | deliverOnce | finishFailed | requeueCheck | requeueFailed => exact .kept hr rfl

/-! ## The invariants -/

/-- Each accepted request has its row. -/
def Stored (h : List (Label J)) (s : State) : Prop :=
  ∀ cfg payload now resp,
    (.createWebhook cfg payload now (.ok resp) : Label J) ∈ h →
    ∃ req r, payload = .ok req ∧ s.table.get? resp.id = some r ∧
      r.destination = req.destination ∧ r.payload = J.toString req.data ∧
      r.maxAttempts = cfg.maxAttempts

theorem Stored.step {h : List (Label J)} {s t : State} {l : Label J} (hs : Stored h s)
    (hst : Step s l t) : Stored (l :: h) t := by
  intro cfg payload now resp hmem
  rcases List.mem_cons.1 hmem with rfl | hmem
  · cases hst with
    | createWebhook _ check id _ fault _ t' hcreate =>
      rcases createWebhook_spec _ _ _ _ _ _ _ hcreate with ⟨e, he, -⟩ | ⟨req, rfl, hres, hins⟩
      · cases he
      · cases hres
        have hrow := (Table.get?_insert? hins id).trans (if_pos rfl)
        exact ⟨req, _, rfl, hrow, rfl, rfl, rfl⟩
  · obtain ⟨req, r, hpay, hr, hdest, hbody, hmax⟩ := hs cfg payload now resp hmem
    obtain ⟨r', hr', hsame⟩ := hst.same hr
    exact ⟨req, r', hpay, hr', hsame.destination.trans hdest, hsame.payload.trans hbody,
      hsame.maxAttempts.trans hmax⟩

/-- The clock reading of the last tick that claimed `id`. -/
def lastClaim (id : String) (h : List (Label J)) : Option Int :=
  h.findSome? (Label.claimedAt id)

/-- A row in processing was due when it was claimed. -/
def ClaimedDue (h : List (Label J)) (s : State) : Prop :=
  ∀ id r, s.table.get? id = some r → r.status = .processing →
    ∃ c, lastClaim id h = some c ∧ r.nextAttemptAt ≤ c

theorem ClaimedDue.step {h : List (Label J)} {s t : State} {l : Label J} (hs : ClaimedDue h s)
    (hst : Step s l t) : ClaimedDue (l :: h) t := by
  intro id r hr hproc
  cases hst.written hr with
  | kept hr₀ hl =>
    obtain ⟨c, hc, hle⟩ := hs id r hr₀ hproc
    refine ⟨c, ?_, hle⟩
    rw [lastClaim, List.findSome?_cons, hl]
    exact hc
  | claimed now _ hl hle =>
    refine ⟨now, ?_, hle⟩
    rw [lastClaim, List.findSome?_cons, hl]
  | pending hst' | dead hst' | delivered _ _ hst' =>
    rw [hproc] at hst'
    cases hst'

/-- A call that a task holds the result of has been made. -/
def CallsMade (h : List (Label J)) (s : State) : Prop :=
  ∀ k ∈ s.tasks, ∀ now res, k.pc = .called now res → .deliverOnce k.job now res ∈ h

theorem CallsMade.step {h : List (Label J)} {s t : State} {l : Label J} (hs : CallsMade h s)
    (hst : Step s l t) : CallsMade (l :: h) t := by
  intro k hk now res hpc
  rcases hst.tasks hk with hk | ⟨now', jobs, -, -, hspawn⟩ | ⟨now', res', rfl, hpc', -⟩
  · exact List.mem_cons_of_mem _ (hs k hk now res hpc)
  · rw [hspawn] at hpc
    cases hpc
  · rw [hpc'] at hpc
    cases hpc
    exact List.mem_cons_self

/-- Behind each delivered row there is a successful call with its payload. -/
def Backed (h : List (Label J)) (s : State) : Prop :=
  ∀ id r, s.table.get? id = some r → r.status = .delivered →
    ∃ job now, .deliverOnce job now (.ok ()) ∈ h ∧ job.id = id ∧ job.payload = r.payload

theorem Backed.step {h : List (Label J)} {s t : State} {l : Label J} (hs : Backed h s)
    (hcalls : CallsMade h s) (hsnap : Snapshots s) (hst : Step s l t) : Backed (l :: h) t := by
  intro id r hr hdel
  cases hst.written hr with
  | kept hr₀ _ =>
    obtain ⟨job, now, hmem, hrest⟩ := hs id r hr₀ hdel
    exact ⟨job, now, List.mem_cons_of_mem _ hmem, hrest⟩
  | delivered k now _ hk hid hpc =>
    refine ⟨k.job, now, List.mem_cons_of_mem _ (hcalls k hk now _ hpc), hid, ?_⟩
    obtain ⟨r₀, hr₀, -, hpay, -⟩ := hsnap k hk
    rw [hid] at hr₀
    obtain ⟨r', hr', hsame⟩ := hst.same hr₀
    rw [hr] at hr'
    cases hr'
    exact (hsame.payload.trans hpay).symm
  | pending hst' | dead hst' | claimed _ hst' =>
    rw [hdel] at hst'
    cases hst'

/-! ## The guarantee -/

/-- After a restart a row is not in processing; one that was is pending, with
its attempts, and due from the time of its last claim on. -/
def Recovers (h : List (Label J)) (s : State) : Prop :=
  ∀ cfg now t, Step s (.restart cfg now : Label J) t →
    ∀ id r, s.table.get? id = some r → ∃ r', t.table.get? id = some r' ∧
      r'.status ≠ .processing ∧
      (r.status = .processing → r'.status = .pending ∧ r'.attempts = r.attempts ∧
        ∃ c, lastClaim id h = some c ∧ r'.nextAttemptAt ≤ c ∧
          ∀ later, c ≤ later → isDue later r' = true)

theorem ClaimedDue.recovers {h : List (Label J)} {s : State} (hs : ClaimedDue h s) :
    Recovers h s := by
  intro cfg now t hst id r hr
  cases hst
  have hrow := get?_resetProcessing now s.table id
  rw [hr, Option.map_some] at hrow
  refine ⟨_, hrow, ?_, fun hproc => ?_⟩
  · by_cases hproc : isProcessing r = true
    · simp [hproc, asReclaimed]
    · rw [if_neg hproc]
      simpa [isProcessing] using hproc
  · obtain ⟨c, hc, hle⟩ := hs id r hr hproc
    have hp : isProcessing r = true := by simp [isProcessing, hproc]
    rw [if_pos hp]
    refine ⟨rfl, rfl, c, hc, hle, fun later hlater => ?_⟩
    have hdue : r.nextAttemptAt ≤ later := Int.le_trans hle hlater
    simpa [isDue, asReclaimed] using hdue

/-- What holds of a state `s` that the history `h` has led to. -/
structure Durable (h : List (Label J)) (s : State) : Prop where
  stored : Stored h s
  recovers : Recovers h s
  backed : Backed h s

theorem durable_of_reaches {h : List (Label J)} {s : State} (hs : (system J).Reaches h s) :
    Durable h s := by
  have hall : Stored h s ∧ ClaimedDue h s ∧ CallsMade h s ∧ Backed h s := by
    refine hs.invariant (I := fun h s => Stored h s ∧ ClaimedDue h s ∧ CallsMade h s ∧
      Backed h s) (fun s hinit => ?_) (fun h s l t hreach hI hst => ?_)
    · have hempty : ∀ id r, s.table.get? id ≠ some r := by
        intro id r hr
        rw [hinit.1] at hr
        cases hr
      refine ⟨fun _ _ _ _ hmem => absurd hmem List.not_mem_nil,
        fun id r hr => absurd hr (hempty id r), fun k hk => ?_,
        fun id r hr => absurd hr (hempty id r)⟩
      rw [hinit.2.2.1] at hk
      exact absurd hk List.not_mem_nil
    · obtain ⟨hstored, hclaimed, hcalls, hbacked⟩ := hI
      exact ⟨hstored.step hst, hclaimed.step hst, hcalls.step hst,
        hbacked.step hcalls (snapshots hreach) hst⟩
  exact ⟨hall.1, hall.2.1.recovers, hall.2.2.2⟩

theorem durable_claimed : Durable (claiming 3)
    (one (asClaimed 0 (hookRow 3)) none [.spawn 0 (hookRow 3).job] []) :=
  durable_of_reaches
    (claimed_reached 3 (C := fun _ _ => True) trivial trivial trivial).of_restrict

end G
end WebhookDelivery
