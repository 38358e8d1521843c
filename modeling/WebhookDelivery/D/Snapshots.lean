/-
Where a payload is stored, and what the copies in memory still say of it.

A place is a row of one of the two tables.  No statement rewrites the payload or
the destination of a place: it is filled once, under an id never used before,
and it may be emptied.  So a copy read at any time agrees with its place for as
long as that holds anything.
-/
import WebhookDelivery.D.Worker

namespace WebhookDelivery
namespace D

open Sql Run

variable {F : Formats} {κ : Type}

inductive Place
  | job (id : Uuid)
  | entry (id : Uuid)
  deriving DecidableEq

def Place.id : Place → Uuid
  | .job id | .entry id => id

/-- The text of a payload and a destination. -/
abbrev Content := String × String

def WebhookJob.content (job : WebhookJob F) : Content := (F.toString job.payload, job.destination)

def DqlEntry.content (e : DqlEntry F) : Content := (F.toString e.payload, e.destination)

/-- What a place holds. -/
def Db.content (db : Db) : Place → Option Content
  | .job id => (db.job id).map fun r => (r.payload, r.destination)
  | .entry id => (db.entry id).map fun r => (r.payload, r.destination)

/-- The place a label fills. -/
def Label.fills : Label F κ → Option (Place × Content)
  | .enqueue job | .insertJob _ _ job => some (.job job.id, job.content)
  | .insertDlq job entryId => some (.entry entryId, job.content)
  | _ => none

/-- The place a label empties. -/
def Label.empties : Label F κ → Option Place
  | .deleteJob job => some (.job job.id)
  | .deleteDlq _ entryId _ => some (.entry entryId)
  | _ => none

/-! ## What the statements do to a place -/

theorem content_enqueue {db db' : Db} {job : WebhookJob F} (h : enqueue db job = some db')
    (x : Place) :
    db'.content x = if x = .job job.id then some job.content else db.content x := by
  cases x with
  | job id =>
    obtain ⟨-, hjob, -⟩ := enqueue_some h id
    by_cases hid : id = job.id
    · subst hid
      rw [if_pos rfl] at hjob
      rw [if_pos rfl]
      show (db'.job job.id).map _ = _
      rw [hjob]
      rfl
    · have hne : ¬Place.job id = Place.job job.id := fun e => hid (Place.job.inj e)
      rw [if_neg fun e => hid e.symm] at hjob
      rw [if_neg hne]
      show (db'.job id).map _ = (db.job id).map _
      rw [hjob]
  | entry id =>
    obtain ⟨-, -, hdead⟩ := enqueue_some h id
    rw [if_neg (by simp)]
    simp only [Db.content, Db.entry, hdead]

theorem content_insertDlq {db db' : Db} {entryId : Uuid} {job : WebhookJob F} {error : String}
    {now : Int} (h : insertDlq db entryId job error now = some db') (x : Place) :
    db'.content x = if x = .entry entryId then some job.content else db.content x := by
  cases x with
  | entry id =>
    obtain ⟨-, hentry, -⟩ := insertDlq_some h id
    by_cases hid : id = entryId
    · subst hid
      rw [if_pos rfl] at hentry
      rw [if_pos rfl]
      show (db'.entry id).map _ = _
      rw [hentry]
      rfl
    · have hne : ¬Place.entry id = Place.entry entryId := fun e => hid (Place.entry.inj e)
      rw [if_neg fun e => hid e.symm] at hentry
      rw [if_neg hne]
      show (db'.entry id).map _ = (db.entry id).map _
      rw [hentry]
  | job id =>
    obtain ⟨-, -, hjobs⟩ := insertDlq_some h id
    rw [if_neg (by simp)]
    simp only [Db.content, Db.job, hjobs]

theorem content_deleteJob (db : Db) (id : Uuid) (x : Place) :
    (deleteJob db id).content x = if x = .job id then none else db.content x := by
  cases x with
  | job k =>
    show ((deleteJob db id).job k).map _ = _
    rw [job_deleteJob]
    by_cases hk : k = id
    · simp [hk]
    · simp [hk, Db.content]
  | entry k =>
    rw [if_neg (by simp)]
    rfl

theorem content_deleteDlq (db : Db) (entryId : Uuid) (x : Place) :
    (deleteDlq db entryId).content x = if x = .entry entryId then none else db.content x := by
  cases x with
  | entry k =>
    show ((deleteDlq db entryId).entry k).map _ = _
    rw [entry_deleteDlq]
    by_cases hk : k = entryId
    · simp [hk]
    · simp [hk, Db.content]
  | job k =>
    rw [if_neg (by simp)]
    rfl

/-- `UPDATE` statements that assign neither the payload nor the destination. -/
theorem content_update (db : Db) (id : Uuid) (f : JobRow → JobRow) (hkey : ∀ r, key (f r) = key r)
    (hf : ∀ r, (f r).payload = r.payload ∧ (f r).destination = r.destination) (x : Place) :
    Db.content { db with jobs := db.jobs.update (fun r => decide (key r = id)) f hkey } x =
      db.content x := by
  cases x with
  | job k =>
    show (Table.get? _ k).map _ = _
    rw [Table.get?_update_at]
    by_cases hk : k = id
    · subst hk
      rw [if_pos rfl, Option.map_map]
      show (db.jobs.get? k).map _ = (db.jobs.get? k).map _
      congr 1
      funext r
      simp [hf r]
    · rw [if_neg hk]
      rfl
  | entry k => rfl

/-- What a step does to a place. -/
inductive Effect (s : State F κ) (l : Label F κ) (t : State F κ) (x : Place) : Prop
  | filled (c : Content) : l.fills = some (x, c) → x.id ∉ s.issued → x.id ∈ t.issued →
      t.db.content x = some c → Effect s l t x
  | emptied : l.empties = some x → t.db.content x = none → Effect s l t x
  | kept : (∀ c, l.fills ≠ some (x, c)) → l.empties ≠ some x →
      t.db.content x = s.db.content x → Effect s l t x

theorem Effect.of_fills {s t : State F κ} {l : Label F κ} {x y : Place} {c : Content}
    (hf : l.fills = some (y, c)) (he : l.empties = none) (hnew : y.id ∉ s.issued)
    (hin : y.id ∈ t.issued)
    (hc : t.db.content x = if x = y then some c else s.db.content x) : Effect s l t x := by
  by_cases hxy : x = y
  · subst hxy
    exact .filled c hf hnew hin (hc.trans (if_pos rfl))
  · refine .kept (fun c' e => hxy ?_) (by rw [he]; simp) (hc.trans (if_neg hxy))
    rw [hf] at e
    exact (congrArg Prod.fst (Option.some.inj e)).symm

theorem Effect.of_empties {s t : State F κ} {l : Label F κ} {x y : Place}
    (hf : l.fills = none) (he : l.empties = some y)
    (hc : t.db.content x = if x = y then none else s.db.content x) : Effect s l t x := by
  by_cases hxy : x = y
  · subst hxy
    exact .emptied he (hc.trans (if_pos rfl))
  · refine .kept (fun c => by rw [hf]; simp) (fun e => hxy ?_) (hc.trans (if_neg hxy))
    rw [he] at e
    exact (Option.some.inj e).symm

theorem Effect.of_quiet {s t : State F κ} {l : Label F κ} {x : Place} (hf : l.fills = none)
    (he : l.empties = none) (hc : t.db.content x = s.db.content x) : Effect s l t x :=
  .kept (fun c => by rw [hf]; simp) (by rw [he]; simp) hc

/-! ## The lock -/

/-- Who is between two statements holds the lock. -/
structure Mutex (s : State F κ) : Prop where
  worker : ∀ job entryId rest, s.pc = .deleting job entryId rest → s.lock = some .worker
  call : ∀ k entryId job, s.call k = .inserted entryId job → s.lock = some (.call k)

theorem Mutex.free {s : State F κ} (hs : Mutex s) (hlock : s.lock = none) :
    (∀ job entryId rest, s.pc ≠ .deleting job entryId rest) ∧
      ∀ k entryId job, s.call k ≠ .inserted entryId job := by
  constructor
  · intro job entryId rest hpc
    have h := hs.worker job entryId rest hpc
    rw [hlock] at h
    cases h
  · intro k entryId job hcall
    have h := hs.call k entryId job hcall
    rw [hlock] at h
    cases h

/-! ## The copies -/

/-- Whatever `x` holds is `c`. -/
def Db.Agrees (db : Db) (x : Place) (c : Content) : Prop := ∀ c', db.content x = some c' → c' = c

/-- The id of `x` has been used, and whatever `x` holds is `c`. -/
def Known (s : State F κ) (x : Place) (c : Content) : Prop := x.id ∈ s.issued ∧ s.db.Agrees x c

/-- The ids of the places that hold something have been used. -/
def Used (s : State F κ) : Prop := ∀ x c, s.db.content x = some c → x.id ∈ s.issued

/-- Every place was filled with the text of a value, and every copy agrees with
its place. -/
structure Faithful (s : State F κ) : Prop where
  printed : ∀ x c, s.db.content x = some c → ∃ v, c.1 = F.toString v
  jobs : ∀ job ∈ s.pc.jobs, Known s (.job job.id) job.content
  found : ∀ k e entry, s.call k = .found e entry → Known s (.entry e) entry.content
  inserted : ∀ k e job, s.call k = .inserted e job → Known s (.entry e) job.content

/-- The text of a value reads back as that value, so it is printed again as it
was. -/
theorem toString_fromStr (hparse : ∀ v : F.Value, F.fromStr (F.toString v) = some v)
    {text : String} {v : F.Value} (htext : ∃ v, text = F.toString v)
    (hread : F.fromStr text = some v) : F.toString v = text := by
  obtain ⟨v', rfl⟩ := htext
  rw [hparse v', Option.some.injEq] at hread
  rw [hread]

theorem Faithful.read_job (hparse : ∀ v : F.Value, F.fromStr (F.toString v) = some v)
    {s : State F κ} (hs : Faithful s) (hused : Used s) {now limit : Int}
    {jobs : List (WebhookJob F)}
    (hfetch : FetchesDue F s.db now limit (some jobs)) {job : WebhookJob F} (hjob : job ∈ jobs) :
    Known s (.job job.id) job.content := by
  obtain ⟨r, hr, -, hdec⟩ := hfetch.mem hjob
  have hcontent : s.db.content (.job job.id) = some (r.payload, r.destination) := by
    show (s.db.job job.id).map _ = _
    rw [hr]
    rfl
  have htext := hs.printed _ _ hcontent
  obtain ⟨-, hpayload, hdest⟩ := rowToJob_some hdec
  refine ⟨hused _ _ hcontent, fun c hc => ?_⟩
  rw [hcontent, Option.some.injEq] at hc
  subst hc
  exact Prod.ext (toString_fromStr hparse htext hpayload).symm hdest.symm

theorem Faithful.read_entry (hparse : ∀ v : F.Value, F.fromStr (F.toString v) = some v)
    {s : State F κ} (hs : Faithful s) (hused : Used s) {entryId : Uuid} {entry : DqlEntry F}
    (hget : getDlq F s.db entryId = some (some entry)) :
    Known s (.entry entryId) entry.content := by
  obtain ⟨-, r, hr, hdec⟩ := getDlq_some hget
  have hcontent : s.db.content (.entry entryId) = some (r.payload, r.destination) := by
    show (s.db.entry entryId).map _ = _
    rw [hr]
    rfl
  have htext := hs.printed _ _ hcontent
  obtain ⟨-, hpayload, hdest⟩ := rowToDlq_some hdec
  refine ⟨hused _ _ hcontent, fun c hc => ?_⟩
  rw [hcontent, Option.some.injEq] at hc
  subst hc
  exact Prod.ext (toString_fromStr hparse htext hpayload).symm hdest.symm

theorem Label.fills_text {l : Label F κ} {x : Place} {c : Content} (h : l.fills = some (x, c)) :
    ∃ v, c.1 = F.toString v := by
  unfold Label.fills at h
  split at h
  · rename_i job
    cases h
    exact ⟨job.payload, rfl⟩
  · rename_i job
    cases h
    exact ⟨job.payload, rfl⟩
  · rename_i job _
    cases h
    exact ⟨job.payload, rfl⟩
  · cases h

/-! ## Steps -/

variable [DecidableEq κ]

/-- A step fills a place whose id is new, or empties one, or leaves it as it is. -/
theorem Step.effect {s t : State F κ} {l : Label F κ} (hst : Step s l t) (x : Place) :
    Effect s l t x := by
  cases hst with
  | enqueue req id now db hlock hnew hins =>
    exact .of_fills (y := .job id) rfl rfl hnew List.mem_cons_self (content_enqueue hins x)
  | insertDlq job error rest entryId now db hpc hlock hnew hins =>
    exact .of_fills (y := .entry entryId) rfl rfl hnew List.mem_cons_self
      (content_insertDlq hins x)
  | insertJob k entryId entry id now db hcall hlock hnew hins =>
    exact .of_fills (y := .job id) rfl rfl hnew List.mem_cons_self (content_enqueue hins x)
  | deleteJob job entryId rest hpc =>
    exact .of_empties rfl rfl (content_deleteJob s.db job.id x)
  | deleteDlq k entryId job hcall =>
    exact .of_empties rfl rfl (content_deleteDlq s.db entryId x)
  | markDelivered job rest hpc hlock =>
    exact .of_quiet rfl rfl
      (content_update s.db job.id asDelivered (fun _ => rfl) (fun _ => ⟨rfl, rfl⟩) x)
  | recordAttempt job attempts rest next hpc hlock =>
    exact .of_quiet rfl rfl
      (content_update s.db job.id (asAttempted F attempts (some next)) (fun _ => rfl)
        (fun _ => ⟨rfl, rfl⟩) x)
  | fetchDue | block | send | workerFailed | endPass | getDlq | notFound | callFailed | restart =>
    exact .of_quiet rfl rfl rfl

theorem Step.issued {s t : State F κ} {l : Label F κ} (hst : Step s l t) {id : Uuid}
    (hid : id ∈ s.issued) : id ∈ t.issued := by
  cases hst with
  | enqueue | insertDlq | insertJob => exact List.mem_cons_of_mem _ hid
  | fetchDue | block | send | markDelivered | recordAttempt | deleteJob | workerFailed | endPass
  | getDlq | notFound | deleteDlq | callFailed | restart => exact hid

/-- What is in a place a step does not empty stays there. -/
theorem Step.keeps {s t : State F κ} {l : Label F κ} (hst : Step s l t) {x : Place} {c : Content}
    (hx : s.db.content x = some c) (hid : x.id ∈ s.issued) (he : l.empties ≠ some x) :
    t.db.content x = some c := by
  cases hst.effect x with
  | filled c' _ hnew => exact absurd hid hnew
  | emptied hem => exact absurd hem he
  | kept _ _ hc => exact hc.trans hx

/-- A place whose id has been used is never filled with something else. -/
theorem Step.agrees {s t : State F κ} {l : Label F κ} (hst : Step s l t) {x : Place} {c : Content}
    (hid : x.id ∈ s.issued) (hx : s.db.Agrees x c) : t.db.Agrees x c := by
  intro c' hc'
  cases hst.effect x with
  | filled _ _ hnew => exact absurd hid hnew
  | emptied _ hnone =>
    rw [hnone] at hc'
    cases hc'
  | kept _ _ hsame => exact hx c' (hsame.symm.trans hc')

theorem Known.step {s t : State F κ} {l : Label F κ} {x : Place} {c : Content}
    (hx : Known s x c) (hst : Step s l t) : Known t x c :=
  ⟨hst.issued hx.1, hst.agrees hx.1 hx.2⟩

/-- Only one call changes, so the others are where they were. -/
theorem setCall_eq {s : State F κ} {k k' : κ} {call call' : Call F}
    (h : (s.setCall k call).call k' = call') :
    (k' = k ∧ call = call') ∨ (k' ≠ k ∧ s.call k' = call') := by
  by_cases hk : k' = k
  · subst hk
    rw [State.setCall_self] at h
    exact .inl ⟨rfl, h⟩
  · rw [State.setCall_ne s call hk] at h
    exact .inr ⟨hk, h⟩

theorem Mutex.step {s t : State F κ} {l : Label F κ} (hs : Mutex s) (hst : Step s l t) :
    Mutex t := by
  cases hst with
  | enqueue req id now db hlock hnew hins => exact ⟨hs.worker, hs.call⟩
  | notFound k entryId hcall hlock hget => exact hs
  | fetchDue | block | markDelivered | recordAttempt | endPass =>
    exact ⟨fun _ _ _ h => (nomatch h), hs.call⟩
  | send job rest resp hpc =>
    refine ⟨fun job' entryId rest' h => ?_, hs.call⟩
    have h : afterSend job resp rest = .deleting job' entryId rest' := h
    unfold afterSend handleFailure at h
    split at h
    · cases h
    · dsimp only at h
      split at h <;> cases h
  | insertDlq job error rest entryId now db hpc hlock hnew hins =>
    refine ⟨fun _ _ _ _ => rfl, fun k e j h => ?_⟩
    exact absurd h ((hs.free hlock).2 k e j)
  | deleteJob job entryId rest hpc =>
    refine ⟨fun _ _ _ h => (nomatch h), fun k e j h => ?_⟩
    have hcall := hs.call k e j h
    rw [hs.worker job entryId rest hpc] at hcall
    cases hcall
  | workerFailed =>
    constructor
    · intro job entryId rest h
      have h : s.pc.afterFailure = .deleting job entryId rest := h
      unfold Pc.afterFailure at h
      split at h <;> cases h
    · intro k e j h
      have hcall := hs.call k e j h
      show s.pc.released s.lock = _
      unfold Pc.released
      split
      · rename_i job entryId rest hpc
        rw [hs.worker job entryId rest hpc] at hcall
        cases hcall
      · exact hcall
  | getDlq k entryId entry hcall hlock hget =>
    refine ⟨hs.worker, fun k' e j h => ?_⟩
    rcases setCall_eq h with ⟨-, h'⟩ | ⟨-, h'⟩
    · cases h'
    · exact hs.call k' e j h'
  | insertJob k entryId entry id now db hcall hlock hnew hins =>
    refine ⟨fun job e rest h => absurd h ((hs.free hlock).1 job e rest), fun k' e j h => ?_⟩
    rcases setCall_eq h with ⟨rfl, -⟩ | ⟨-, h'⟩
    · rfl
    · exact absurd h' ((hs.free hlock).2 k' e j)
  | deleteDlq k entryId job hcall =>
    have hheld := hs.call k entryId job hcall
    constructor
    · intro job' e rest h
      have hworker := hs.worker job' e rest h
      rw [hheld] at hworker
      cases hworker
    · intro k' e j h
      rcases setCall_eq h with ⟨-, h'⟩ | ⟨hk, h'⟩
      · cases h'
      · have hother := hs.call k' e j h'
        rw [hheld] at hother
        cases hother
        exact absurd rfl hk
  | callFailed k =>
    constructor
    · intro job e rest h
      have hworker := hs.worker job e rest h
      show (s.call k).released s.lock = _
      unfold Call.released
      split
      · rename_i e' j' hcall
        rw [hs.call k e' j' hcall] at hworker
        cases hworker
      · exact hworker
    · intro k' e j h
      rcases setCall_eq h with ⟨-, h'⟩ | ⟨hk, h'⟩
      · cases h'
      have hother := hs.call k' e j h'
      show (s.call k).released s.lock = _
      unfold Call.released
      split
      · rename_i e' j' hcall
        rw [hs.call k e' j' hcall] at hother
        cases hother
        exact absurd rfl hk
      · exact hother
  | restart cfg => exact ⟨fun _ _ _ h => (nomatch h), fun _ _ _ h => (nomatch h)⟩

theorem mutex {h : List (Label F κ)} {s : State F κ} (hs : (system F κ).Reaches h s) :
    Mutex s := by
  apply hs.invariant (I := fun _ s => Mutex s)
  · rintro s ⟨-, -, -, hpc, hcall⟩
    constructor
    · intro job entryId rest h
      rw [hpc] at h
      cases h
    · intro k entryId job h
      rw [hcall k] at h
      cases h
  · intro h s l t _ hI hst
    exact hI.step hst

/-- The jobs of the worker were its jobs before, up to the attempts, or have
just been fetched. -/
theorem Step.jobs {s t : State F κ} {l : Label F κ} (hst : Step s l t) {job : WebhookJob F}
    (hjob : job ∈ t.pc.jobs) :
    (∃ job' ∈ s.pc.jobs, job.id = job'.id ∧ job.content = job'.content) ∨
      ∃ now jobs, FetchesDue F s.db now 10 (some jobs) ∧ job ∈ jobs := by
  have hsame : job ∈ s.pc.jobs →
      (∃ job' ∈ s.pc.jobs, job.id = job'.id ∧ job.content = job'.content) ∨
        ∃ now jobs, FetchesDue F s.db now 10 (some jobs) ∧ job ∈ jobs :=
    fun h => .inl ⟨job, h, rfl, rfl⟩
  cases hst with
  | enqueue | getDlq | notFound | insertJob | deleteDlq | callFailed => exact hsame hjob
  | endPass | restart => exact absurd hjob List.not_mem_nil
  | fetchDue now jobs hpc hlock hfetch => exact .inr ⟨now, jobs, hfetch, hjob⟩
  | block job' rest err hpc =>
    apply hsame
    rw [hpc]
    exact hjob
  | send job' rest resp hpc =>
    have hjob : job ∈ (afterSend job' resp rest).jobs := hjob
    rw [hpc]
    unfold afterSend handleFailure at hjob
    split at hjob
    · exact .inl ⟨job, hjob, rfl, rfl⟩
    · dsimp only at hjob
      split at hjob
      · rcases List.mem_cons.1 hjob with rfl | hrest
        · exact .inl ⟨job', List.mem_cons_self, rfl, rfl⟩
        · exact .inl ⟨job, List.mem_cons_of_mem job' hrest, rfl, rfl⟩
      · exact .inl ⟨job, hjob, rfl, rfl⟩
  | markDelivered job' rest hpc hlock =>
    apply hsame
    rw [hpc]
    exact List.mem_cons_of_mem job' hjob
  | recordAttempt job' attempts rest next hpc hlock =>
    apply hsame
    rw [hpc]
    exact List.mem_cons_of_mem job' hjob
  | insertDlq job' error rest entryId now db hpc hlock hnew hins =>
    apply hsame
    rw [hpc]
    exact hjob
  | deleteJob job' entryId rest hpc =>
    apply hsame
    rw [hpc]
    exact List.mem_cons_of_mem job' hjob
  | workerFailed =>
    apply hsame
    have hjob : job ∈ s.pc.afterFailure.jobs := hjob
    unfold Pc.afterFailure at hjob
    split at hjob
    · exact absurd hjob List.not_mem_nil
    all_goals
      rename_i hpc
      rw [hpc]
      first
        | exact hjob
        | exact List.mem_cons_of_mem _ hjob

/-- A call has its entry from before, or has just read it. -/
theorem Step.found {s t : State F κ} {l : Label F κ} (hst : Step s l t) {k : κ} {e : Uuid}
    {entry : DqlEntry F} (h : t.call k = .found e entry) :
    s.call k = .found e entry ∨ D.getDlq F s.db e = some (some entry) := by
  cases hst with
  | enqueue | fetchDue | block | send | markDelivered | recordAttempt | insertDlq | deleteJob
  | workerFailed | endPass | notFound => exact .inl h
  | getDlq k' e' entry' hcall hlock hget =>
    rcases setCall_eq h with ⟨-, h'⟩ | ⟨-, h'⟩
    · cases h'
      exact .inr hget
    · exact .inl h'
  | insertJob | deleteDlq | callFailed =>
    rcases setCall_eq h with ⟨-, h'⟩ | ⟨-, h'⟩
    · cases h'
    · exact .inl h'
  | restart cfg => cases h

/-- A call has its job from before, or has just stored it. -/
theorem Step.inserted {s t : State F κ} {l : Label F κ} (hst : Step s l t) {k : κ} {e : Uuid}
    {job : WebhookJob F} (h : t.call k = .inserted e job) :
    s.call k = .inserted e job ∨
      ∃ entry, s.call k = .found e entry ∧ job.content = entry.content ∧
        l = .insertJob k e job := by
  cases hst with
  | enqueue | fetchDue | block | send | markDelivered | recordAttempt | insertDlq | deleteJob
  | workerFailed | endPass | notFound => exact .inl h
  | getDlq | deleteDlq | callFailed =>
    rcases setCall_eq h with ⟨-, h'⟩ | ⟨-, h'⟩
    · cases h'
    · exact .inl h'
  | insertJob k' e' entry' id now db hcall hlock hnew hins =>
    rcases setCall_eq h with ⟨rfl, h'⟩ | ⟨-, h'⟩
    · cases h'
      exact .inr ⟨entry', hcall, rfl, rfl⟩
    · exact .inl h'
  | restart cfg => cases h

theorem Used.step {s t : State F κ} {l : Label F κ} (hs : Used s) (hst : Step s l t) :
    Used t := by
  intro x c hc
  cases hst.effect x with
  | filled _ _ _ hin => exact hin
  | emptied _ hnone =>
    rw [hnone] at hc
    cases hc
  | kept _ _ hsame => exact hst.issued (hs x c (hsame.symm.trans hc))

theorem used {h : List (Label F κ)} {s : State F κ} (hs : (system F κ).Reaches h s) :
    Used s := by
  apply hs.invariant (I := fun _ s => Used s)
  · rintro s ⟨hdb, -⟩ x c hc
    rw [hdb] at hc
    cases x <;> cases hc
  · intro h s l t _ hI hst
    exact hI.step hst

theorem Faithful.step (hparse : ∀ v : F.Value, F.fromStr (F.toString v) = some v)
    {s t : State F κ} {l : Label F κ} (hs : Faithful s) (hused : Used s) (hst : Step s l t) :
    Faithful t where
  printed x c hc := by
    cases hst.effect x with
    | filled c' hfill _ _ hc' =>
      rw [hc', Option.some.injEq] at hc
      subst hc
      exact Label.fills_text hfill
    | emptied _ hnone =>
      rw [hnone] at hc
      cases hc
    | kept _ _ hsame => exact hs.printed x c (hsame.symm.trans hc)
  jobs job hjob := by
    rcases hst.jobs hjob with ⟨job', hjob', hid, hcontent⟩ | ⟨now, jobs, hfetch, hmem⟩
    · rw [hid, hcontent]
      exact (hs.jobs job' hjob').step hst
    · exact (hs.read_job hparse hused hfetch hmem).step hst
  found k e entry hcall := by
    rcases hst.found hcall with h | hget
    · exact (hs.found k e entry h).step hst
    · exact (hs.read_entry hparse hused hget).step hst
  inserted k e job hcall := by
    rcases hst.inserted hcall with h | ⟨entry, h, hcontent, -⟩
    · exact (hs.inserted k e job h).step hst
    · rw [hcontent]
      exact (hs.found k e entry h).step hst

theorem faithful (hparse : ∀ v : F.Value, F.fromStr (F.toString v) = some v)
    {h : List (Label F κ)} {s : State F κ} (hs : (system F κ).Reaches h s) : Faithful s := by
  apply hs.invariant (I := fun _ s => Faithful s)
  · rintro s ⟨hdb, -, -, hpc, hcall⟩
    constructor
    · intro x c hc
      rw [hdb] at hc
      cases x <;> cases hc
    · intro job hjob
      rw [hpc] at hjob
      exact absurd hjob List.not_mem_nil
    · intro k e entry hk
      rw [hcall k] at hk
      cases hk
    · intro k e job hk
      rw [hcall k] at hk
      cases hk
  · intro h s l t hr hI hst
    exact hI.step hparse (used hr) hst

end D
end WebhookDelivery
