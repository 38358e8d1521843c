/-
No accepted webhook is lost.

A job moves to the dead letters and back by being copied and then deleted, and
every one of these statements commits by itself.  So a payload is looked for not
under the id it was accepted with but in the places copied from there, and the
copy has been made before its original goes.
-/
import WebhookDelivery.Run.Lineage
import WebhookDelivery.D.Snapshots

namespace WebhookDelivery
namespace D

open Sql Run

variable {F : Formats} {κ : Type}

/-- The copy a label makes: a job's entry, or the job made of an entry. -/
def Label.copy : Label F κ → Option (Place × Place)
  | .insertDlq job entryId => some (.job job.id, .entry entryId)
  | .insertJob _ entryId job => some (.entry entryId, .job job.id)
  | _ => none

def copies (h : List (Label F κ)) : List (Place × Place) := h.filterMap Label.copy

theorem copies_cons {h : List (Label F κ)} {l : Label F κ} {e : Place × Place}
    (he : e ∈ copies h) : e ∈ copies (l :: h) := by
  obtain ⟨l', hl', hcopy⟩ := List.mem_filterMap.1 he
  exact List.mem_filterMap.2 ⟨l', List.mem_cons_of_mem l hl', hcopy⟩

theorem copies_head {h : List (Label F κ)} {l : Label F κ} {e : Place × Place}
    (he : l.copy = some e) : e ∈ copies (l :: h) :=
  List.mem_filterMap.2 ⟨l, List.mem_cons_self, he⟩

/-- A move that has made its first statement has made its copy. -/
structure Moving (h : List (Label F κ)) (s : State F κ) : Prop where
  deleting : ∀ job e rest, s.pc = .deleting job e rest →
    (.job job.id, .entry e) ∈ copies h ∧ s.db.content (.entry e) = some job.content
  inserted : ∀ k e job, s.call k = .inserted e job →
    (.entry e, .job job.id) ∈ copies h ∧ s.db.content (.job job.id) = some job.content

variable [DecidableEq κ]

theorem Step.fills {s t : State F κ} {l : Label F κ} (hst : Step s l t) {x : Place} {c : Content}
    (h : l.fills = some (x, c)) : t.db.content x = some c := by
  cases hst.effect x with
  | filled c' hfill _ _ hc' =>
    rw [h, Option.some.injEq, Prod.mk.injEq] at hfill
    rw [hfill.2]
    exact hc'
  | emptied hem => cases l <;> simp [Label.fills, Label.empties] at h hem
  | kept hno => exact absurd h (hno c)

/-- A place is emptied by the second statement of a move. -/
theorem Step.empties {s t : State F κ} {l : Label F κ} (hst : Step s l t) {x : Place}
    (h : l.empties = some x) :
    (∃ job e rest, s.pc = .deleting job e rest ∧ x = .job job.id) ∨
      ∃ k e job, s.call k = .inserted e job ∧ x = .entry e := by
  cases hst with
  | deleteJob job e rest hpc =>
    exact .inl ⟨job, e, rest, hpc, (Option.some.inj h).symm⟩
  | deleteDlq k e job hcall =>
    exact .inr ⟨k, e, job, hcall, (Option.some.inj h).symm⟩
  | enqueue | fetchDue | block | send | markDelivered | recordAttempt | insertDlq | workerFailed
  | endPass | getDlq | notFound | insertJob | callFailed | restart => cases h

theorem Step.deleting {s t : State F κ} {l : Label F κ} (hst : Step s l t) {job : WebhookJob F}
    {e : Uuid} {rest : List (WebhookJob F)} (h : t.pc = .deleting job e rest) :
    s.pc = .deleting job e rest ∨ l = .insertDlq job e := by
  cases hst with
  | enqueue | getDlq | notFound | insertJob | deleteDlq | callFailed => exact .inl h
  | fetchDue | block | markDelivered | recordAttempt | deleteJob | endPass | restart => cases h
  | send job' rest' resp hpc =>
    have h : afterSend job' resp rest' = .deleting job e rest := h
    unfold afterSend handleFailure at h
    split at h
    · cases h
    · dsimp only at h
      split at h <;> cases h
  | insertDlq job' error rest' e' now db hpc hlock hnew hins =>
    cases h
    exact .inr rfl
  | workerFailed =>
    have h : s.pc.afterFailure = .deleting job e rest := h
    unfold Pc.afterFailure at h
    split at h <;> cases h

theorem Moving.step {h : List (Label F κ)} {s t : State F κ} {l : Label F κ} (hs : Moving h s)
    (hmutex : Mutex s) (hused : Used s) (hst : Step s l t) : Moving (l :: h) t where
  deleting job e rest hpc := by
    rcases hst.deleting hpc with hpc' | rfl
    · obtain ⟨hcopy, hcontent⟩ := hs.deleting job e rest hpc'
      refine ⟨copies_cons hcopy, ?_⟩
      apply hst.keeps hcontent (hused _ _ hcontent)
      intro hem
      have hworker := hmutex.worker job e rest hpc'
      rcases hst.empties hem with ⟨_, _, _, _, hx⟩ | ⟨k, e', job', hcall, -⟩
      · cases hx
      · rw [hmutex.call k e' job' hcall] at hworker
        cases hworker
    · exact ⟨copies_head rfl, hst.fills rfl⟩
  inserted k e job hcall := by
    rcases hst.inserted hcall with hcall' | ⟨entry, -, -, rfl⟩
    · obtain ⟨hcopy, hcontent⟩ := hs.inserted k e job hcall'
      refine ⟨copies_cons hcopy, ?_⟩
      apply hst.keeps hcontent (hused _ _ hcontent)
      intro hem
      have hheld := hmutex.call k e job hcall'
      rcases hst.empties hem with ⟨job', e', rest, hpc, -⟩ | ⟨_, _, _, _, hx⟩
      · rw [hmutex.worker job' e' rest hpc] at hheld
        cases hheld
      · cases hx
    · exact ⟨copies_head rfl, hst.fills rfl⟩

theorem moving {h : List (Label F κ)} {s : State F κ} (hs : (system F κ).Reaches h s) :
    Moving h s := by
  apply hs.invariant (I := Moving)
  · rintro s ⟨-, -, -, hpc, hcall⟩
    constructor
    · intro job e rest h
      rw [hpc] at h
      cases h
    · intro k e job h
      rw [hcall k] at h
      cases h
  · intro h s l t hr hI hst
    exact hI.step (mutex hr) (used hr) hst

/-- A step that keeps or moves what is stored loses none of it: the place it
empties has a copy with the same content. -/
theorem Step.carried {h : List (Label F κ)} {s t : State F κ} {l : Label F κ} (hst : Step s l t)
    (hmoving : Moving h s) (hused : Used s) (hfaithful : Faithful s) {a : Place} {c : Content}
    (hc : Carried (copies h) (fun x => s.db.content x = some c) a) :
    Carried (copies (l :: h)) (fun x => t.db.content x = some c) a := by
  have hkeep : ∀ x, l.empties ≠ some x → s.db.content x = some c → t.db.content x = some c :=
    fun x hx hlive => hst.keeps hlive (hused x c hlive) hx
  have hdrop : ∀ (x y : Place) (c' : Content), l.empties = some x → x ≠ y → (x, y) ∈ copies h →
      Known s x c' → s.db.content y = some c' →
      Carried (copies (l :: h)) (fun x => t.db.content x = some c) a := by
    intro x y c' hem hxy hcopy hknown hy
    have hc' : Carried (copies (l :: h)) (fun x => s.db.content x = some c) a :=
      hc.mono (fun _ => copies_cons) (fun _ hlive => hlive)
    apply hc'.drop (copies_cons hcopy)
    · intro hx
      have hcc : c = c' := hknown.2 c hx
      subst hcc
      exact hkeep y (fun e => hxy (Option.some.inj (hem.symm.trans e))) hy
    · intro b hb hlive
      exact hkeep b (fun e => hb (Option.some.inj (e.symm.trans hem))) hlive
  cases hem : l.empties with
  | none =>
    exact hc.mono (fun _ => copies_cons) fun x hlive => hkeep x (by rw [hem]; simp) hlive
  | some x =>
    rcases hst.empties hem with ⟨job, e, rest, hpc, rfl⟩ | ⟨k, e, job, hcall, rfl⟩
    · obtain ⟨hcopy, hcontent⟩ := hmoving.deleting job e rest hpc
      have hjob : job ∈ s.pc.jobs := by
        rw [hpc]
        exact List.mem_cons_self
      exact hdrop _ _ _ hem (by simp) hcopy (hfaithful.jobs job hjob) hcontent
    · obtain ⟨hcopy, hcontent⟩ := hmoving.inserted k e job hcall
      exact hdrop _ _ _ hem (by simp) hcopy (hfaithful.inserted k e job hcall) hcontent

/-- Every job ever enqueued has a row with its payload and destination: its own,
its entry among the dead letters, or that of a job redelivered from there. -/
theorem no_job_lost (hparse : ∀ v : F.Value, F.fromStr (F.toString v) = some v)
    {h : List (Label F κ)} {s : State F κ} (hs : (system F κ).Reaches h s)
    {job : WebhookJob F} (hjob : .enqueue job ∈ h) :
    ∃ x, Descends (copies h) (.job job.id) x ∧
      s.db.content x = some (F.toString job.payload, job.destination) := by
  have hall : ∀ job : WebhookJob F, .enqueue job ∈ h →
      Carried (copies h) (fun x => s.db.content x = some job.content) (.job job.id) := by
    apply hs.invariant (I := fun h s => ∀ job : WebhookJob F, .enqueue job ∈ h →
      Carried (copies h) (fun x => s.db.content x = some job.content) (.job job.id))
    · intro s _ job hmem
      exact absurd hmem List.not_mem_nil
    · intro h s l t hr hI hst job hmem
      rcases List.mem_cons.1 hmem with rfl | hmem
      · exact Carried.self (hst.fills rfl)
      · exact hst.carried (moving hr) (used hr) (faithful hparse hr) (hI job hmem)
  exact hall job hjob

/-! ## A job that is moved -/

/-- JSON booleans and one instant. -/
def mini : Formats where
  Value := Bool
  toString b := if b then "true" else "false"
  fromStr s := if s = "true" then some true else if s = "false" then some false else none
  toRfc3339 _ := "1970-01-01T00:00:00+00:00"
  parseFromRfc3339 s := if s = "1970-01-01T00:00:00+00:00" then some 0 else none

theorem mini_parse (b : Bool) : mini.fromStr (mini.toString b) = some b := by
  cases b <;> rfl

def hook : WebhookRequest mini := { data := true, destination := "http://a.test" }

/-- The job made of the hook under the id `id`. -/
def hookJob (id : Uuid) : WebhookJob mini := .new hook id 1 0

def hookEntry : DlqRow := dlqRow 2 (hookJob 1) "blocked: no host" 0

def queued (rows : List JobRow) (entries : List DlqRow) (h : (rows.map key).Nodup)
    (h' : (entries.map key).Nodup) : Db where
  jobs := ⟨rows, h⟩
  deadLetters := ⟨entries, h'⟩

def accepted : Db := queued [(hookJob 1).row] [] (List.nodup_singleton _) List.nodup_nil

theorem hookEntry_nodup : ([hookEntry].map key).Nodup := List.nodup_singleton _

def copied : Db := queued [(hookJob 1).row] [hookEntry] (List.nodup_singleton _) hookEntry_nodup

def buried : Db := queued [] [hookEntry] List.nodup_nil hookEntry_nodup

/-- Two callers of `redeliver`. -/
def pairAt (db : Db) (issued : List Uuid) (lock : Option (Holder Bool)) (pc : Pc mini)
    (a b : Call mini) : State mini Bool where
  db := db
  cfg := { maxAttempts := 1 }
  issued := issued
  lock := lock
  pc := pc
  call k := if k then b else a

theorem pairAt_ext {s : State mini Bool} {db : Db} {issued : List Uuid}
    {lock : Option (Holder Bool)} {pc : Pc mini} {a b : Call mini} (hdb : s.db = db)
    (hcfg : s.cfg = { maxAttempts := 1 }) (hissued : s.issued = issued) (hlock : s.lock = lock)
    (hpc : s.pc = pc) (ha : s.call false = a) (hb : s.call true = b) :
    s = pairAt db issued lock pc a b := by
  obtain ⟨db', cfg, issued', lock', pc', call⟩ := s
  subst hdb hcfg hissued hlock hpc ha hb
  have hcall : call = fun k => if k then call true else call false := by
    funext k
    cases k <;> rfl
  exact congrArg (State.mk db' _ issued' lock' pc') hcall

def burying : List (Label mini Bool) :=
  [.deleteJob (hookJob 1), .insertDlq (hookJob 1) 2, .block (hookJob 1) "no host",
    .fetchDue 0 [hookJob 1], .enqueue (hookJob 1)]

/-- The hook is enqueued, refused and moved to the dead letters. -/
theorem buried_reached {C : State mini Bool → Label mini Bool → Prop}
    (hC : ∀ s l, (∀ k e job, l ≠ .insertJob k e job) → C s l) :
    ((system mini Bool).restrict C).Reaches burying
      (pairAt buried [2, 1] none (.batch []) .idle .idle) := by
  have hfetch : FetchesDue mini accepted 0 10 (some [hookJob 1]) :=
    ⟨[(hookJob 1).row], ⟨_, List.Perm.refl _, List.pairwise_singleton _ _, rfl⟩, rfl⟩
  have r₀ : ((system mini Bool).restrict C).Reaches []
      (pairAt Db.empty [] none .fetching .idle .idle) :=
    .init ⟨rfl, rfl, rfl, rfl, fun k => by cases k <;> rfl⟩
  have r₁ := r₀.step ⟨hC _ _ (by simp), Step.enqueue _ hook 1 0 accepted rfl (by decide) rfl⟩
  have r₂ := r₁.step ⟨hC _ _ (by simp), Step.fetchDue _ 0 [hookJob 1] rfl rfl hfetch⟩
  have r₃ := r₂.step ⟨hC _ _ (by simp), Step.block _ (hookJob 1) [] "no host" rfl⟩
  have r₄ := r₃.step
    ⟨hC _ _ (by simp), Step.insertDlq _ (hookJob 1) _ [] 2 0 copied rfl rfl (by decide) rfl⟩
  exact r₄.step ⟨hC _ _ (by simp), Step.deleteJob _ (hookJob 1) 2 [] rfl⟩

theorem no_job_lost_buried :
    ∃ x, Descends (copies burying) (.job 1) x ∧
      buried.content x = some ("true", "http://a.test") := by
  have hs := (buried_reached (C := fun _ _ => True) fun _ _ _ => trivial).of_restrict
  have hjob : Label.enqueue (hookJob 1) ∈ burying := by simp [burying]
  exact no_job_lost mini_parse hs hjob

end D
end WebhookDelivery
