/-
What the `d` service shows of its dead letters.

`list_dlq` reads every entry and fails if one does not decode.  Entries are written by
`move_to_dlq` alone, from jobs that were read back before, and deleted by the last
statement of `redeliver` alone, so each entry reads, says how its job ended, and stays as
it was listed until a redelivery of it is through.  The order is that of the timestamp
texts, which is that of the instants in the years 0 to 9999.
-/
import WebhookDelivery.Run.Progress
import WebhookDelivery.D.Due
import WebhookDelivery.D.Origin

namespace WebhookDelivery
namespace D

open Sql Run Text

variable {F : Formats} {κ : Type}

/-! ## The handler -/

/-- `res` is an answer of `Db::list_dlq`, a query without a `LIMIT`. -/
def ListsDlq (F : Formats) (db : Db) (res : Option (List (DqlEntry F))) : Prop :=
  ∃ rows, Ordered (fun r => OrderDual.toDual r.movedAt) (-1) db.deadLetters.rows rows ∧
    collect (rowToDlq F) rows = res

/-- An entry as the API shows it. -/
structure DlqItem (F : Formats) where
  id : Uuid
  jobId : Uuid
  payload : F.Value
  destination : String
  attempts : Nat
  lastError : String
  movedAt : String

def DqlEntry.item (e : DqlEntry F) : DlqItem F where
  id := e.id
  jobId := e.jobId
  payload := e.payload
  destination := e.destination
  attempts := e.attempts
  lastError := e.lastError
  movedAt := F.toRfc3339 e.movedAt

structure DlqPage (F : Formats) where
  entries : List (DlqItem F)
  count : Nat

/-- The answer of `list_dlq`; a row that does not decode makes it a 500. -/
def listDlq (res : Option (List (DqlEntry F))) : Option (DlqPage F) :=
  res.map fun entries => { entries := entries.map DqlEntry.item, count := entries.length }

/-! ## The entries of a run -/

variable [DecidableEq κ]

/-- An entry stays until the last statement of a redelivery of it. -/
theorem Step.entry_stays {s t : State F κ} {l : Label F κ} (hst : Step s l t) {id : Uuid}
    {r : DlqRow} (hr : s.db.entry id = some r) :
    (∃ k job, l = .deleteDlq k id job) ∨ t.db.entry id = some r := by
  cases hst with
  | enqueue req id' now db hlock hnew hins =>
    exact .inr ((congrArg (·.get? id) (enqueue_some hins id).2.2).trans hr)
  | insertJob k e entry id' now db hcall hlock hnew hins =>
    exact .inr ((congrArg (·.get? id) (enqueue_some hins id).2.2).trans hr)
  | insertDlq job error rest entryId now db hpc hlock hnew hins =>
    obtain ⟨hnone, hget, -⟩ := insertDlq_some hins id
    refine .inr (hget.trans ?_)
    rw [if_neg ?_, hr]
    rintro rfl
    rw [hnone] at hr
    cases hr
  | deleteDlq k e job hcall =>
    by_cases hid : id = e
    · exact .inl ⟨k, job, hid ▸ rfl⟩
    · exact .inr ((entry_deleteDlq s.db e id).trans ((if_neg hid).trans hr))
  | fetchDue | block | send | markDelivered | recordAttempt | deleteJob | workerFailed | endPass
  | getDlq | notFound | callFailed | restart => exact .inr hr

/-- The entries that the step makes are stamped with an instant of the years 0 to 9999. -/
def StampsInYears (s : State F κ) (_ : Label F κ) (t : State F κ) : Prop :=
  ∀ id r, t.db.entry id = some r → s.db.entry id = none →
    ∃ m, InYears m ∧ r.movedAt = F.toRfc3339 m

theorem stamped {h : List (Label F κ)} {s : State F κ}
    (hs : ((system F κ).within StampsInYears).Reaches h s) :
    ∀ id r, s.db.entry id = some r → ∃ m, InYears m ∧ r.movedAt = F.toRfc3339 m := by
  refine hs.invariant (I := fun _ s => ∀ id r, s.db.entry id = some r →
    ∃ m, InYears m ∧ r.movedAt = F.toRfc3339 m) (fun s hinit id r hr => ?_)
    (fun h s l t _ hI hst id r hr => ?_)
  · rw [hinit.1] at hr
    cases hr
  · obtain ⟨hstamps, hst⟩ := hst
    cases hbefore : s.db.entry id with
    | none => exact hstamps id r hr hbefore
    | some r₀ =>
      rcases hst.entry_stays hbefore with ⟨k, job, rfl⟩ | hkept
      · cases hst with
        | deleteDlq _ _ _ hcall =>
          have hgone : (deleteDlq s.db id).entry id = none :=
            (entry_deleteDlq s.db id id).trans (if_pos rfl)
          cases hgone.symm.trans hr
      · obtain rfl := Option.some.inj (hkept.symm.trans hr)
        exact hI id r₀ hbefore

/-- What holds of an entry that is listed. -/
structure Listed (h : List (Label F κ)) (s : State F κ) (e : DqlEntry F) : Prop where
  stored : ∃ r, s.db.entry e.id = some r ∧ rowToDlq F r = some e ∧ e.item.movedAt = r.movedAt
  submitted : Rooted h (.entry e.id) e.content
  ended : EndedWith h e.jobId e.lastError
  stays : ∀ h' u, (system F κ).Path s h' u → (∀ k job, .deleteDlq k e.id job ∉ h') →
    getDlq F u.db e.id = some (some e)

/-- The fields of an entry are those of its row. -/
theorem rowToDlq_read {r : DlqRow} {e : DqlEntry F} (h : rowToDlq F r = some e) :
    F.parseFromRfc3339 r.movedAt = some e.movedAt ∧ e.jobId = r.jobId ∧
      e.lastError = r.lastError := by
  unfold rowToDlq at h
  split at h
  · rename_i payload movedAt hp hm
    rw [Option.some.injEq] at h
    subst h
    exact ⟨hm, rfl, rfl⟩
  · cases h

/-- Every entry of a run can be read, and reads as it was written. -/
theorem entry_reads (hparse : ∀ v : F.Value, F.fromStr (F.toString v) = some v)
    (hF : PrintsRfc3339 F) (hread : ReadsRfc3339 F) {h : List (Label F κ)} {s : State F κ}
    (hs : ((system F κ).within StampsInYears).Reaches h s) {r : DlqRow}
    (hr : s.db.entry r.id = some r) : ∃ e, rowToDlq F r = some e ∧ InYears e.movedAt ∧
      e.item.movedAt = r.movedAt ∧ s.db.content (.entry r.id) = some e.content := by
  have hcontent : s.db.content (.entry r.id) = some (r.payload, r.destination) := by
    show (s.db.entry r.id).map _ = _
    rw [hr]
    rfl
  obtain ⟨v, hv⟩ := (faithful hparse hs.of_within).printed _ _ hcontent
  obtain ⟨m, hm, hstamp⟩ := stamped hs r.id r hr
  have hpayload : F.fromStr r.payload = some v := (congrArg F.fromStr hv).trans (hparse v)
  have hmoved : F.parseFromRfc3339 r.movedAt = some m :=
    (congrArg F.parseFromRfc3339 hstamp).trans (hF.parse hread hm)
  let e : DqlEntry F := {
    id := r.id
    jobId := r.jobId
    payload := v
    destination := r.destination
    attempts := asU32 r.attempts
    lastError := r.lastError
    movedAt := m }
  have hdec : rowToDlq F r = some e := by rw [rowToDlq, hpayload, hmoved]
  refine ⟨e, hdec, hm, hstamp.symm, ?_⟩
  rw [hcontent]
  exact congrArg (fun p => some (p, r.destination)) hv

/-- In no state of a run does `list_dlq` fail.  It lists every entry, once, the last moved
first, with the content that was submitted and the error its job ended with; and what is
listed is found by `redeliver` as it was listed, until a redelivery of it is through.
`hparse` is about the payloads: their text reads back. -/
theorem dead_letters_listed (hparse : ∀ v : F.Value, F.fromStr (F.toString v) = some v)
    (hF : PrintsRfc3339 F) (hread : ReadsRfc3339 F) {h : List (Label F κ)} {s : State F κ}
    (hs : ((system F κ).within StampsInYears).Reaches h s) {res : Option (List (DqlEntry F))}
    (hlist : ListsDlq F s.db res) :
    ∃ entries : List (DqlEntry F), listDlq res = some
        { entries := entries.map DqlEntry.item, count := s.db.deadLetters.rows.length } ∧
      (entries.map DqlEntry.id).Perm (s.db.deadLetters.rows.map DlqRow.id) ∧
      entries.Pairwise (fun a b => b.movedAt ≤ a.movedAt) ∧ ∀ e ∈ entries, Listed h s e := by
  obtain ⟨rows, hord, rfl⟩ := hlist
  have hrow : ∀ r ∈ rows, s.db.entry r.id = some r := fun r hr => Table.get?_of_mem (hord.mem hr)
  have hreads := fun r hr => entry_reads hparse hF hread hs (hrow r hr)
  have hcollect : ∃ entries, collect (rowToDlq F) rows = some entries :=
    exists_collect fun r hr => (hreads r hr).imp fun _ h => h.1
  obtain ⟨entries, hentries⟩ := hcollect
  have hids : (entries.map DqlEntry.id).Perm (s.db.deadLetters.rows.map DlqRow.id) := by
    rw [map_collect (g := DlqRow.id) (fun r e hdec => (rowToDlq_some hdec).1) hentries]
    obtain ⟨sorted, hperm, -, rfl⟩ := hord
    exact hperm.map _
  have hcount : entries.length = s.db.deadLetters.rows.length := by
    simpa using hids.length_eq
  refine ⟨entries, by rw [hentries, ← hcount]; rfl, hids, ?_, fun e he => ?_⟩
  · refine pairwise_collect hentries hord.sorted fun a ha b hb x y hx hy hle => ?_
    obtain ⟨x', hx', hxin, hxtext, -⟩ := hreads a ha
    obtain ⟨y', hy', hyin, hytext, -⟩ := hreads b hb
    obtain rfl := Option.some.inj (hx'.symm.trans hx)
    obtain rfl := Option.some.inj (hy'.symm.trans hy)
    have htexts : b.movedAt ≤ a.movedAt := OrderDual.toDual_le_toDual.1 hle
    rw [← hxtext, ← hytext] at htexts
    exact (hF.le_iff hyin hxin).1 htexts
  · obtain ⟨r, hr, hdec⟩ := mem_of_collect hentries he
    have hid : e.id = r.id := (rowToDlq_some hdec).1
    obtain ⟨e', hdec', -, htext, hcontent⟩ := hreads r hr
    obtain rfl := Option.some.inj (hdec'.symm.trans hdec)
    have hget : s.db.entry e'.id = some r := hid ▸ hrow r hr
    obtain ⟨-, hjob, herror⟩ := rowToDlq_read hdec
    refine ⟨⟨r, hget, hdec, htext⟩, ?_, ?_, fun h' u hpath hnone => ?_⟩
    · exact (traced hparse hs.of_within).places _ _ (hid ▸ hcontent)
    · rw [hjob, herror]
      exact (ended hs.of_within).entries e'.id r hget
    · have hstep : ∀ (s : State F κ) l t, s.db.entry e'.id = some r → Step s l t →
          (∃ k job, l = .deleteDlq k e'.id job) ∨ t.db.entry e'.id = some r :=
        fun s l t hkept hst => hst.entry_stays hkept
      rcases hpath.unless hstep hget with ⟨l, hl, k, job, rfl⟩ | hkept
      · exact absurd hl (hnone k job)
      · rw [getDlq, hkept]
        exact congrArg (Option.map some) hdec

/-! ## An entry of a refused job -/

/-- The second id is that of the entry. -/
def refusing : List (Label rfc3339 Unit) :=
  [.deleteJob halfSecond, .insertDlq halfSecond 2, .block halfSecond "no host",
    .fetchDue 500000000 [halfSecond], .enqueue halfSecond]

def halfEntry : DlqRow := dlqRow 2 halfSecond "blocked: no host" 500000000

def refused : Db where
  jobs := Table.empty
  deadLetters := ⟨[halfEntry], List.nodup_singleton _⟩

theorem halfSecond_inYears : InYears 500000000 := inYears_of_day (by decide) (by decide)

theorem halfSecond_reads : rowToJob rfc3339 halfSecond.row = some halfSecond := by
  have htime := rfc3339_prints.parse (fun _ _ h => h) halfSecond_inYears
  have hnext : halfSecond.row.nextAttemptAt = rfc3339.toRfc3339 500000000 := by
    simp only [halfSecond, WebhookJob.new, WebhookJob.row]
  have hcreated : halfSecond.row.createdAt = rfc3339.toRfc3339 500000000 := by
    simp only [halfSecond, WebhookJob.new, WebhookJob.row]
  rw [rowToJob, hnext, hcreated, htime]
  rfl

theorem halfSecond_fetched :
    FetchesDue rfc3339 single 500000000 10 (some [halfSecond]) := by
  have hdb : Stamped rfc3339 (fun _ => 500000000) single.jobs := by
    intro r hr
    obtain rfl := List.mem_singleton.1 hr
    refine ⟨halfSecond_inYears, ?_⟩
    simp only [halfSecond, WebhookJob.new, WebhookJob.row]
  refine (hdb.fetchesDue rfc3339_prints halfSecond_inYears 10 _).2 ⟨[halfSecond.row],
    ⟨[halfSecond.row], List.Perm.refl _, List.pairwise_singleton _ _, rfl⟩, ?_⟩
  rw [collect, halfSecond_reads]
  rfl

omit [DecidableEq κ] in
/-- A step that makes no entry stamps none. -/
theorem stampsInYears_of_eq {s t : State F κ} {l : Label F κ}
    (hentries : t.db.deadLetters = s.db.deadLetters) : StampsInYears s l t := by
  intro id r hr hnone
  have hr : s.db.entry id = some r := (congrArg (·.get? id) hentries).symm.trans hr
  rw [hnone] at hr
  cases hr

theorem refused_reached : ((system rfc3339 Unit).within StampsInYears).Reaches refusing
    { idle refused [2, 1] with pc := .batch [] } := by
  have hstep : ∀ {s t : State rfc3339 Unit} {l}, Step s l t →
      t.db.deadLetters = s.db.deadLetters →
        ((system rfc3339 Unit).within StampsInYears).step s l t :=
    fun hst hentries => ⟨stampsInYears_of_eq hentries, hst⟩
  let copied : Db := { single with deadLetters := refused.deadLetters }
  have r₀ : ((system rfc3339 Unit).within StampsInYears).Reaches [] (idle Db.empty []) :=
    .init ⟨rfl, rfl, rfl, rfl, fun _ => rfl⟩
  have r₁ := r₀.step (hstep (Step.enqueue _ request 1 500000000 single rfl (by decide) rfl) rfl)
  have r₂ := r₁.step (hstep (Step.fetchDue _ 500000000 _ rfl rfl halfSecond_fetched) rfl)
  have r₃ := r₂.step (hstep (Step.block _ halfSecond [] "no host" rfl) rfl)
  have r₄ := r₃.step
    ⟨?_, Step.insertDlq _ halfSecond _ [] 2 500000000 copied rfl rfl (by decide) rfl⟩
  · exact r₄.step (hstep (Step.deleteJob _ halfSecond 2 [] rfl) rfl)
  · intro id r hr _
    have hr : r ∈ [halfEntry] := Table.mem_of_get? hr
    obtain rfl := List.mem_singleton.1 hr
    refine ⟨500000000, halfSecond_inYears, ?_⟩
    simp only [halfEntry, dlqRow]

theorem dead_letters_listed_refused : ∃ entries : List (DqlEntry rfc3339),
    (entries.map DqlEntry.id).Perm [2] ∧
      ∀ e ∈ entries, Listed refusing { idle refused [2, 1] with pc := .batch [] } e := by
  have hlist : ListsDlq rfc3339 refused (collect (rowToDlq rfc3339) [halfEntry]) :=
    ⟨[halfEntry], ⟨[halfEntry], List.Perm.refl _, List.pairwise_singleton _ _, rfl⟩, rfl⟩
  obtain ⟨entries, -, hids, -, hall⟩ :=
    dead_letters_listed (fun _ => rfl) rfc3339_prints (fun _ _ h => h) refused_reached hlist
  exact ⟨entries, hids, hall⟩

end D
end WebhookDelivery
