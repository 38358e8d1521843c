/-
The jobs that the `k` service leaves behind.

A job in flight is with the worker that claimed it, until that worker records an
outcome or is lost.  What becomes of the job in the second case can be told from the
history, and nothing the service does changes it.
-/
import WebhookDelivery.K.Turns

namespace WebhookDelivery
namespace K

open Sql Run

variable {F : Formats} {ω : Type}

/-- The job is in flight, and no worker has it. -/
structure Stranded (s : State F ω) (id : Uuid) (r : JobRow F) : Prop where
  row : s.jobs.get? id = some r
  inFlight : r.status = .inFlight
  free : ∀ w, id ∉ s.heldIds w

/-- The label takes the job from the worker with no outcome stored. -/
def Label.Abandons (w : ω) (id : Uuid) : Label F ω → Prop
  | .recordFailed v job => v = w ∧ job.id = id
  | .stop v => v = w
  | .crash => True
  | _ => False

/-- The last claim of the job is in the history, and its worker has lost the job since. -/
def LostSince (h : List (Label F ω)) (id : Uuid) : Prop :=
  ∃ h₁ w now jobs h₀, h = h₁ ++ .claimDueJobs w now jobs :: h₀ ∧ id ∈ jobs.map Job.id ∧
    (∀ l ∈ h₁, ¬l.Claims id) ∧ ∃ l ∈ h₁, l.Abandons w id

variable [DecidableEq ω]

/-! ## One step -/

theorem heldIds_setPc (s : State F ω) (jobs : Jobs F) (w : ω) (pc : Pc F) (v : ω) :
    (State.setPc { s with jobs := jobs } w pc).heldIds v =
      if v = w then pc.held.map Job.id else s.heldIds v := by
  by_cases hv : v = w
  · rw [if_pos hv, hv, State.heldIds, State.setPc_self]
  · rw [if_neg hv, State.heldIds, State.setPc_ne _ _ hv]
    rfl

/-- A worker has no job that it had not, unless it claims it. -/
theorem Step.held_of {s t : State F ω} {l : Label F ω} (hst : Step s l t) {v : ω} {id : Uuid}
    (hid : id ∈ t.heldIds v) (hno : ¬l.Claims id) : id ∈ s.heldIds v := by
  have hset : ∀ {jobs : Jobs F} {w : ω} (pc : Pc F), pc.held.Sublist (s.pc w).held →
      id ∈ (State.setPc { s with jobs := jobs } w pc).heldIds v → id ∈ s.heldIds v := by
    intro jobs w pc hsub hmem
    rw [heldIds_setPc] at hmem
    split at hmem
    · rename_i hv
      rw [hv]
      exact (hsub.map Job.id).subset hmem
    · exact hmem
  cases hst with
  | insertJob | requeueDead => exact hid
  | claimDueJobs w now fault rows res t' hidle hsel hclaim =>
    rw [heldIds_setPc] at hid
    split at hid
    · exact absurd hid hno
    · exact hid
  | deliver w job rest resp hpc =>
    exact hset _ (by rw [hpc]; exact List.Sublist.refl _) hid
  | recordOutcome w job res rest next now hpc =>
    exact hset _ (by rw [hpc]; exact List.sublist_cons_self job rest) hid
  | recordFailed w job res rest hpc =>
    exact hset _ (by rw [hpc]; exact List.sublist_cons_self job rest) hid
  | nextPoll w hpc => exact hset .idle (List.nil_sublist _) hid
  | stop w => exact hset .stopped (List.nil_sublist _) hid
  | crash | spawnWorkers => exact absurd hid List.not_mem_nil

/-- The write of an outcome ends a flight. -/
theorem not_inFlight_asOutcome (job : Job F) (res : Except DeliveryError Unit)
    (next now : F.DateTime) (r : JobRow F) :
    (asOutcome job res next now r).status ≠ .inFlight := by
  intro hflight
  cases res with
  | ok u => cases hflight
  | error e =>
    by_cases hlast : job.maxAttempts ≤ job.attempts
    · rw [asOutcome, if_pos hlast] at hflight
      cases hflight
    · rw [asOutcome, if_neg hlast] at hflight
      cases hflight

theorem not_inFlight_recorded {t : Jobs F} {job : Job F} {res : Except DeliveryError Unit}
    {next now : F.DateTime} {r : JobRow F}
    (hr : (recordOutcome t job res next now).get? job.id = some r) : r.status ≠ .inFlight := by
  rw [get?_recordOutcome, if_pos rfl] at hr
  obtain ⟨r₀, -, rfl⟩ := Option.map_eq_some_iff.1 hr
  exact not_inFlight_asOutcome job res next now r₀

/-- A row in flight has just been claimed, or was in flight before. -/
theorem Step.inFlight_of {s t : State F ω} {l : Label F ω} (hst : Step s l t) {id : Uuid}
    {r : JobRow F} (hr : t.jobs.get? id = some r) (hflight : r.status = .inFlight)
    (hno : ¬l.Claims id) : s.jobs.get? id = some r := by
  rcases hst.row_of hr with ⟨r₀, hr₀, hrow⟩ | ⟨destination, payload, maxAttempts, now, -, rfl⟩
  · cases hrow with
    | kept => exact hr₀
    | requeueDead now => cases hflight
    | claimDueJobs w now jobs job r hjob hid => exact absurd (hid ▸ List.mem_map_of_mem hjob) hno
    | recordOutcome w job res next now =>
      exact absurd hflight (not_inFlight_asOutcome job res next now r₀)
  · cases hflight

/-- A worker keeps a job until it stores its outcome or is lost, and then it has it no
more. -/
theorem Step.lets_go {s t : State F ω} {l : Label F ω} (hst : Step s l t) (howned : Owned s)
    {w : ω} {id : Uuid} (hid : id ∈ s.heldIds w) :
    (id ∈ t.heldIds w ∧ ¬l.Abandons w id) ∨ (id ∉ t.heldIds w ∧ l.Abandons w id) ∨
      ∃ v job res, l = .recordOutcome v job res ∧ job.id = id := by
  have hpcs : ∀ {pc : Pc F}, s.pc w = pc → id ∈ pc.held.map Job.id := fun hpc => hpc ▸ hid
  cases hst with
  | insertJob | requeueDead => exact .inl ⟨hid, fun h => h⟩
  | claimDueJobs v now fault rows res t' hidle hsel hclaim =>
    refine .inl ⟨?_, fun h => h⟩
    rw [heldIds_setPc, if_neg ?_]
    · exact hid
    · rintro rfl
      exact absurd (hpcs hidle) List.not_mem_nil
  | deliver v job rest resp hpc =>
    refine .inl ⟨?_, fun h => h⟩
    show id ∈ (State.setPc { s with jobs := s.jobs } v _).heldIds w
    rw [heldIds_setPc]
    split
    · rename_i hw
      subst hw
      have hin := hpcs hpc
      exact hin
    · exact hid
  | recordOutcome v job res rest next now hpc =>
    by_cases hrec : job.id = id
    · exact .inr (.inr ⟨v, job, res, rfl, hrec⟩)
    · refine .inl ⟨?_, fun h => h⟩
      rw [heldIds_setPc]
      split
      · rename_i hw
        subst hw
        exact List.mem_of_ne_of_mem (Ne.symm hrec) (hpcs hpc)
      · exact hid
  | recordFailed v job res rest hpc =>
    show (id ∈ (State.setPc { s with jobs := s.jobs } v _).heldIds w ∧ _) ∨ (id ∉ _ ∧ _) ∨ _
    rw [heldIds_setPc]
    by_cases hw : w = v
    · subst hw
      rw [if_pos rfl]
      by_cases hrec : job.id = id
      · refine .inr (.inl ⟨fun hin => ?_, rfl, hrec⟩)
        have hnd := howned.exclusive.nodup w
        rw [State.heldIds, hpc] at hnd
        exact (List.nodup_cons.1 hnd).1 (hrec ▸ hin)
      · exact .inl ⟨List.mem_of_ne_of_mem (Ne.symm hrec) (hpcs hpc), fun h => hrec h.2⟩
    · rw [if_neg hw]
      exact .inl ⟨hid, fun h => hw h.1.symm⟩
  | nextPoll v hpc =>
    refine .inl ⟨?_, fun h => h⟩
    show id ∈ (State.setPc { s with jobs := s.jobs } v _).heldIds w
    rw [heldIds_setPc, if_neg ?_]
    · exact hid
    · rintro rfl
      exact absurd (hpcs hpc) List.not_mem_nil
  | stop v =>
    show (id ∈ (State.setPc { s with jobs := s.jobs } v _).heldIds w ∧ _) ∨ (id ∉ _ ∧ _) ∨ _
    rw [heldIds_setPc]
    by_cases hw : w = v
    · rw [if_pos hw]
      exact .inr (.inl ⟨List.not_mem_nil, hw.symm⟩)
    · rw [if_neg hw]
      exact .inl ⟨hid, fun h => hw h.symm⟩
  | crash => exact .inr (.inl ⟨List.not_mem_nil, trivial⟩)
  | spawnWorkers hall => exact absurd (hpcs (hall w)) List.not_mem_nil

/-- Nothing is done to a job that is stranded. -/
theorem Stranded.step {s t : State F ω} {l : Label F ω} {id : Uuid} {r : JobRow F}
    (h : Stranded s id r) (hst : Step s l t) :
    Stranded t id r ∧ l.delivers id = false ∧ l.starts id = false ∧ ¬l.Claims id := by
  have hno : ¬l.Claims id := by
    intro hclaims
    cases hst with
    | claimDueJobs w now fault rows res t' hidle hsel hclaim =>
      obtain ⟨job, hjob, rfl⟩ := List.mem_map.1 hclaims
      obtain ⟨r', hr', hpend, -⟩ := (claimDueJobs_spec hsel hclaim).2.1 job hjob
      obtain rfl := Option.some.inj (h.row.symm.trans hr')
      exact absurd (h.inFlight.symm.trans hpend) (by decide)
    | _ => exact hclaims
  have hfree : ∀ w, id ∉ t.heldIds w := fun w hw => h.free w (hst.held_of hw hno)
  have hheld : ∀ (w : ω) (job : Job F), job ∈ (s.pc w).held → job.id ≠ id := by
    rintro w job hjob rfl
    exact h.free w (List.mem_map_of_mem hjob)
  have hrow : t.jobs.get? id = some r := by
    obtain ⟨r', hr', hstep⟩ := hst.row h.row
    cases hstep with
    | kept => exact hr'
    | requeueDead now r hdead => exact absurd (h.inFlight.symm.trans hdead) (by decide)
    | claimDueJobs w now jobs job r hjob hid hpend =>
      exact absurd (h.inFlight.symm.trans hpend) (by decide)
    | recordOutcome w job res next now r hjob hid => exact absurd hid (hheld w job hjob)
  have hlabel : l.delivers id = false ∧ l.starts id = false := by
    cases hst with
    | insertJob id' destination payload maxAttempts now t' hins =>
      refine ⟨rfl, decide_eq_false ?_⟩
      rintro rfl
      have hnone : s.jobs.get? id' = none := Table.get?_of_insert? hins
      rw [h.row] at hnone
      cases hnone
    | requeueDead id' now =>
      have hdead : id' = id → (requeueDead s.jobs id' now).1 = false := by
        rintro rfl
        refine Bool.eq_false_iff.2 fun hok => ?_
        obtain ⟨r', hr', hst⟩ := (requeueDead_fst s.jobs id' now).1 hok
        obtain rfl := Option.some.inj (h.row.symm.trans hr')
        exact absurd (h.inFlight.symm.trans hst) (by decide)
      refine ⟨rfl, ?_⟩
      by_cases hid : id' = id
      · simp only [Label.starts, hdead hid, Bool.and_false]
      · simp only [Label.starts, decide_eq_false hid, Bool.false_and]
    | deliver w job rest resp hpc =>
      exact ⟨decide_eq_false (hheld w job (by rw [hpc]; exact List.mem_cons_self)), rfl⟩
    | claimDueJobs | recordOutcome | recordFailed | nextPoll | stop | crash | spawnWorkers =>
      exact ⟨rfl, rfl⟩
  exact ⟨⟨hrow, h.inFlight, hfree⟩, hlabel.1, hlabel.2, hno⟩

/-! ## From the last claim on -/

/-- What has become of a job since `w` claimed it. -/
inductive Custody (h : List (Label F ω)) (w : ω) (id : Uuid) (s : State F ω) : Prop
  | held : id ∈ s.heldIds w → (∀ l ∈ h, ¬l.Abandons w id) → Custody h w id s
  | lost : (∀ v, id ∉ s.heldIds v) → (∃ l ∈ h, l.Abandons w id) → Custody h w id s
  | closed : (∀ r, s.jobs.get? id = some r → r.status ≠ .inFlight) → Custody h w id s

theorem Custody.step {h : List (Label F ω)} {w : ω} {id : Uuid} {s t : State F ω}
    {l : Label F ω} (hs : Custody h w id s) (howned : Owned s) (hst : Step s l t)
    (hno : ¬l.Claims id) : Custody (l :: h) w id t := by
  cases hs with
  | held hheld hnone =>
    rcases hst.lets_go howned hheld with ⟨hin, hkeeps⟩ | ⟨hout, hdrops⟩ | ⟨v, job, res, rfl, rfl⟩
    · refine .held hin fun l' hl' => ?_
      rcases List.mem_cons.1 hl' with rfl | hl'
      · exact hkeeps
      · exact hnone l' hl'
    · refine .lost (fun v hv => ?_) ⟨l, List.mem_cons_self, hdrops⟩
      obtain rfl := howned.exclusive.unique v w id (hst.held_of hv hno) hheld
      exact hout hv
    · cases hst with
      | recordOutcome _ _ _ rest next now hpc =>
        exact .closed fun r hr => not_inFlight_recorded hr
  | lost hfree hcause =>
    obtain ⟨l', hl', hdrops⟩ := hcause
    exact .lost (fun v hv => hfree v (hst.held_of hv hno))
      ⟨l', List.mem_cons_of_mem l hl', hdrops⟩
  | closed hnot =>
    exact .closed fun r hr hflight => hnot r (hst.inFlight_of hr hflight hno) hflight

theorem custody {s₀ s : State F ω} {h : List (Label F ω)} {w : ω} {id : Uuid}
    (hpath : (system F ω).Path s₀ h s) (howned : Owned s₀) (hid : id ∈ s₀.heldIds w)
    (hno : ∀ l ∈ h, ¬l.Claims id) : Custody h w id s := by
  have hboth : Owned s ∧ Custody h w id s := by
    induction hpath with
    | nil => exact ⟨howned, .held hid fun _ hl => absurd hl List.not_mem_nil⟩
    | cons hpath hst ih =>
      obtain ⟨ho, hc⟩ := ih fun l hl => hno l (List.mem_cons_of_mem _ hl)
      exact ⟨ho.step hst, hc.step ho hst (hno _ List.mem_cons_self)⟩
  exact hboth.2

/-- A job in flight has a last claim, from which the rest follows. -/
theorem last_claim {h : List (Label F ω)} {s : State F ω} (hs : (system F ω).Reaches h s)
    {id : Uuid} {r : JobRow F} (hr : s.jobs.get? id = some r) (hflight : r.status = .inFlight) :
    ∃ h₁ w now jobs h₀, h = h₁ ++ .claimDueJobs w now jobs :: h₀ ∧ id ∈ jobs.map Job.id ∧
      ∀ l ∈ h₁, ¬l.Claims id := by
  induction hs generalizing r with
  | init hinit =>
    rw [hinit.1] at hr
    cases hr
  | @step h s l t hs hst ih =>
    by_cases hclaims : l.Claims id
    · cases l with
      | claimDueJobs w now jobs =>
        exact ⟨[], w, now, jobs, h, rfl, hclaims, fun _ hl => absurd hl List.not_mem_nil⟩
      | _ => exact hclaims.elim
    · obtain ⟨h₁, w, now, jobs, h₀, rfl, hid, hnone⟩ :=
        ih (hst.inFlight_of hr hflight hclaims) hflight
      refine ⟨l :: h₁, w, now, jobs, h₀, rfl, hid, fun l' hl' => ?_⟩
      rcases List.mem_cons.1 hl' with rfl | hl'
      · exact hclaims
      · exact hnone l' hl'

theorem Stranded.path {s u : State F ω} {h : List (Label F ω)} {id : Uuid} {r : JobRow F}
    (hs : Stranded s id r) (hpath : (system F ω).Path s h u) :
    Stranded u id r ∧
      ∀ l ∈ h, l.delivers id = false ∧ l.starts id = false ∧ ¬l.Claims id := by
  induction hpath with
  | nil => exact ⟨hs, fun _ hl => absurd hl List.not_mem_nil⟩
  | cons _ hst ih =>
    obtain ⟨hbefore, hnone⟩ := ih
    obtain ⟨hafter, hstep⟩ := hbefore.step hst
    refine ⟨hafter, fun l' hl' => ?_⟩
    rcases List.mem_cons.1 hl' with rfl | hl'
    · exact hstep
    · exact hnone l' hl'

/-- A job in flight that no worker has was lost by the worker of its last claim: it
failed to store the outcome, was stopped, or crashed, and only that.  From then on the
row stays as it is, with no claim, no call and no requeue, whatever runs or restarts. -/
theorem stranded_exact {h : List (Label F ω)} {s : State F ω} (hs : (system F ω).Reaches h s)
    {id : Uuid} {r : JobRow F} (hr : s.jobs.get? id = some r) (hflight : r.status = .inFlight) :
    ((∀ w, id ∉ s.heldIds w) ↔ LostSince h id) ∧
      ((∀ w, id ∉ s.heldIds w) → ∀ h' u, (system F ω).Path s h' u →
        u.jobs.get? id = some r ∧
          ∀ l ∈ h', l.delivers id = false ∧ l.starts id = false ∧ ¬l.Claims id) := by
  -- From a last claim on, the worker either still has the job or has lost it.
  have hsince : ∀ {h₁ w now jobs h₀}, h = h₁ ++ .claimDueJobs w now jobs :: h₀ →
      id ∈ jobs.map Job.id → (∀ l ∈ h₁, ¬l.Claims id) → Custody h₁ w id s := by
    rintro h₁ w now jobs h₀ rfl hid hnone
    obtain ⟨s₀, s₁, hs₀, hst, hpath⟩ := hs.cut
    refine custody hpath (owned (hs₀.step hst)) ?_ hnone
    cases hst with
    | claimDueJobs _ _ fault rows res t' hidle hsel hclaim =>
      rw [heldIds_setPc, if_pos rfl]
      exact hid
  refine ⟨⟨fun hfree => ?_, ?_⟩, fun hfree h' u hpath => ?_⟩
  · obtain ⟨h₁, w, now, jobs, h₀, hh, hid, hnone⟩ := last_claim hs hr hflight
    cases hsince hh hid hnone with
    | held hheld _ => exact absurd hheld (hfree w)
    | lost _ hcause => exact ⟨h₁, w, now, jobs, h₀, hh, hid, hnone, hcause⟩
    | closed hnot => exact absurd hflight (hnot r hr)
  · rintro ⟨h₁, w, now, jobs, h₀, hh, hid, hnone, l, hl, hdrops⟩
    cases hsince hh hid hnone with
    | held _ hkeeps => exact absurd hdrops (hkeeps l hl)
    | lost hfree _ => exact hfree
    | closed hnot => exact absurd hflight (hnot r hr)
  · obtain ⟨hlater, hnone⟩ := Stranded.path ⟨hr, hflight, hfree⟩ hpath
    exact ⟨hlater.row, hnone⟩

/-- A crash loses the claimed job. -/
theorem stranded_exact_crash : LostSince
    (.crash :: [.claimDueJobs () epoch (claimedState.pc ()).held, .spawnWorkers,
      .insertJob 1 "http://a.test" "{}" 2 epoch]) 1 := by
  have hr : claimedState.jobs.get? 1
      = some (asClaimed epoch (newRow 1 "http://a.test" "{}" 2 epoch)) := rfl
  exact (stranded_exact (claimedState_reached.step (Step.crash claimedState)) hr rfl).1.1
    fun _ hid => absurd hid List.not_mem_nil

end K
end WebhookDelivery
