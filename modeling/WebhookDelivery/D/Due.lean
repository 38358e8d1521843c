/-
The due test by the instants that were stored.

The queue keeps the text of the time of the next attempt, and `fetch_due` compares
and orders these texts, which have fractions of different lengths.  Each is the
text of the instant last written for the row, so the jobs fetched are those that
are due by that instant, in its order.
-/
import WebhookDelivery.D.Worker
import WebhookDelivery.Text.Rfc3339

namespace WebhookDelivery
namespace D

open Sql Run Text

variable {F : Formats} {κ : Type}

/-- What chrono documents of `to_rfc3339` for the years 0 to 9999. -/
def PrintsRfc3339 (F : Formats) : Prop := ∀ t (h : InYears t), F.toRfc3339 t = autoString t h

theorem PrintsRfc3339.le_iff (hF : PrintsRfc3339 F) {t u : Int} (ht : InYears t)
    (hu : InYears u) : F.toRfc3339 t ≤ F.toRfc3339 u ↔ t ≤ u := by
  rw [hF t ht, hF u hu, autoString_le_iff]

theorem PrintsRfc3339.bytes_le_iff (hF : PrintsRfc3339 F) {t u : Int} (ht : InYears t)
    (hu : InYears u) : utf8 (F.toRfc3339 t) ≤ utf8 (F.toRfc3339 u) ↔ t ≤ u := by
  rw [hF t ht, hF u hu, autoString_bytes, autoString_le_iff]

/-- What chrono documents of `parse_from_rfc3339`: a text of RFC 3339 is read as
its instant. -/
def ReadsRfc3339 (F : Formats) : Prop :=
  ∀ s t, readInstant s.toList = some t → F.parseFromRfc3339 s = some t

theorem PrintsRfc3339.parse (hF : PrintsRfc3339 F) (hread : ReadsRfc3339 F) {t : Int}
    (ht : InYears t) : F.parseFromRfc3339 (F.toRfc3339 t) = some t := by
  refine hread _ _ ?_
  rw [hF t ht, autoString, String.toList_ofList, readInstant_autoText,
    DateTime.instant_ofInstant]

/-! ## A table whose texts are of known instants -/

/-- The row is pending, and due by the instant of its next attempt. -/
def dueBy (next : Uuid → Int) (now : Int) (r : JobRow) : Bool :=
  r.status = .pending ∧ next r.id ≤ now

/-- Each row holds the text of its instant. -/
def Stamped (F : Formats) (next : Uuid → Int) (t : Table JobRow) : Prop :=
  ∀ r ∈ t.rows, InYears (next r.id) ∧ r.nextAttemptAt = F.toRfc3339 (next r.id)

/-- `fetch_due` selects the jobs that are due by their instants, and orders them
so. -/
theorem Stamped.fetchesDue (hF : PrintsRfc3339 F) {next : Uuid → Int} {db : Db}
    (hdb : Stamped F next db.jobs) {now : Int} (hnow : InYears now) (limit : Int)
    (res : Option (List (WebhookJob F))) :
    FetchesDue F db now limit res ↔
      ∃ rows, Ordered (fun r => next r.id) limit (db.jobs.select (dueBy next now)) rows ∧
        collect (rowToJob F) rows = res := by
  have hselect : db.jobs.select (isDue (F.toRfc3339 now)) = db.jobs.select (dueBy next now) := by
    refine List.filter_congr fun r hr => ?_
    obtain ⟨hin, htext⟩ := hdb r hr
    have hle : r.nextAttemptAt ≤ F.toRfc3339 now ↔ next r.id ≤ now := by
      rw [htext, hF.le_iff hin hnow]
    exact decide_eq_decide.2 (and_congr_right fun _ => hle)
  have hkey : ∀ a ∈ db.jobs.select (dueBy next now), ∀ b ∈ db.jobs.select (dueBy next now),
      (a.nextAttemptAt ≤ b.nextAttemptAt ↔ next a.id ≤ next b.id) := by
    intro a ha b hb
    obtain ⟨hina, htexta⟩ := hdb a (List.mem_of_mem_filter ha)
    obtain ⟨hinb, htextb⟩ := hdb b (List.mem_of_mem_filter hb)
    rw [htexta, htextb, hF.le_iff hina hinb]
  unfold FetchesDue
  rw [hselect]
  exact exists_congr fun rows => and_congr_left fun _ => Ordered.congr_key hkey

/-- The jobs fetched have the instants of their rows, none is early, and they come
in order. -/
theorem Stamped.fetched (hF : PrintsRfc3339 F) (hread : ReadsRfc3339 F) {next : Uuid → Int}
    {db : Db} (hdb : Stamped F next db.jobs) {now : Int} (hnow : InYears now) {limit : Int}
    {jobs : List (WebhookJob F)} (h : FetchesDue F db now limit (some jobs)) :
    (∀ job ∈ jobs, job.nextAttemptAt = next job.id ∧ next job.id ≤ now) ∧
      jobs.Pairwise fun a b => a.nextAttemptAt ≤ b.nextAttemptAt := by
  have hall : ∀ job ∈ jobs, job.nextAttemptAt = next job.id ∧ next job.id ≤ now := by
    intro job hjob
    obtain ⟨r, hr, hdue, hdec⟩ := h.mem hjob
    obtain ⟨hin, htext⟩ := hdb r (Table.mem_of_get? hr)
    have hid : r.id = job.id := Table.key_of_get? hr
    rw [hid] at hin htext
    have htime := rowToJob_nextAttemptAt hdec
    rw [htext, hF.parse hread hin, Option.some.injEq] at htime
    have hle : r.nextAttemptAt ≤ F.toRfc3339 now := (of_decide_eq_true hdue).2
    rw [htext, hF.le_iff hin hnow] at hle
    exact ⟨htime.symm, hle⟩
  obtain ⟨rows, hord, hcol⟩ := (hdb.fetchesDue hF hnow limit (some jobs)).1 h
  have hnext : jobs.map (fun job => next job.id) = rows.map fun r => next r.id :=
    map_collect (fun r job hdec => by rw [(rowToJob_some hdec).1]) hcol
  have hsorted : (jobs.map fun job => next job.id).Pairwise (· ≤ ·) := by
    rw [hnext]
    exact List.pairwise_map.2 hord.sorted
  refine ⟨hall, (List.pairwise_map.1 hsorted).imp_of_mem fun ha hb hle => ?_⟩
  rw [(hall _ ha).1, (hall _ hb).1]
  exact hle

/-! ## The tables of a run -/

/-- The instant that a step writes as the next attempt of a job. -/
def Label.writes : Label F κ → Option (Uuid × Int)
  | .enqueue job | .insertJob _ _ job => some (job.id, job.nextAttemptAt)
  | .recordAttempt job _ next => some (job.id, next)
  | _ => none

/-- The instant written last for a job. -/
def written : List (Label F κ) → Uuid → Option Int
  | [], _ => none
  | l :: h, id =>
    match l.writes with
    | some (k, t) => if k = id then some t else written h id
    | none => written h id

theorem written_self {l : Label F κ} {id : Uuid} {t : Int} (hl : l.writes = some (id, t))
    (h : List (Label F κ)) : written (l :: h) id = some t := by
  simp [written, hl]

theorem written_other {l : Label F κ} {id : Uuid} (hl : ∀ t, l.writes ≠ some (id, t))
    (h : List (Label F κ)) : written (l :: h) id = written h id := by
  rw [written]
  split
  · rename_i k t hw
    refine if_neg fun (e : k = id) => hl t ?_
    rw [hw, e]
  · rfl

theorem writes_of_written {h : List (Label F κ)} {id : Uuid} {t : Int}
    (hw : written h id = some t) : ∃ l ∈ h, l.writes = some (id, t) := by
  induction h with
  | nil => cases hw
  | cons l h ih =>
    by_cases hl : ∃ u, l.writes = some (id, u)
    · obtain ⟨u, hu⟩ := hl
      rw [written_self hu, Option.some.injEq] at hw
      exact ⟨l, List.mem_cons_self, hw ▸ hu⟩
    · rw [written_other fun u hu => hl ⟨u, hu⟩] at hw
      obtain ⟨l', hl', hw'⟩ := ih hw
      exact ⟨l', List.mem_cons_of_mem l hl', hw'⟩

variable [DecidableEq κ]

/-- What a step does to the column of a row. -/
theorem Step.nextAttemptAt {s t : State F κ} {l : Label F κ} (hst : Step s l t) {id : Uuid}
    {r : JobRow} (hr : t.db.job id = some r) :
    (∃ u, l.writes = some (id, u) ∧ r.nextAttemptAt = F.toRfc3339 u) ∨
      ((∀ u, l.writes ≠ some (id, u)) ∧
        ∃ r', s.db.job id = some r' ∧ r.nextAttemptAt = r'.nextAttemptAt) := by
  have hnone : ∀ u, (none : Option (Uuid × Int)) ≠ some (id, u) := by simp
  rw [hst.job_eq id] at hr
  cases l with
  | enqueue job | insertJob _ _ job =>
    simp only [Label.rowAfter] at hr
    by_cases hid : job.id = id
    · rw [if_pos hid, Option.some.injEq] at hr
      subst hr
      exact .inl ⟨job.nextAttemptAt, by rw [← hid]; rfl, rfl⟩
    · rw [if_neg hid] at hr
      exact .inr ⟨fun u e => hid (Prod.mk.inj (Option.some.inj e)).1, r, hr, rfl⟩
  | recordAttempt job attempts next =>
    simp only [Label.rowAfter] at hr
    by_cases hid : id = job.id
    · rw [if_pos hid] at hr
      obtain ⟨r', hr', rfl⟩ := Option.map_eq_some_iff.1 hr
      exact .inl ⟨next, by rw [hid]; rfl, rfl⟩
    · rw [if_neg hid] at hr
      exact .inr ⟨fun u e => hid (Prod.mk.inj (Option.some.inj e)).1.symm, r, hr, rfl⟩
  | markDelivered job =>
    simp only [Label.rowAfter] at hr
    refine .inr ⟨hnone, ?_⟩
    by_cases hid : id = job.id
    · rw [if_pos hid] at hr
      obtain ⟨r', hr', rfl⟩ := Option.map_eq_some_iff.1 hr
      exact ⟨r', hid ▸ hr', rfl⟩
    · rw [if_neg hid] at hr
      exact ⟨r, hr, rfl⟩
  | deleteJob job =>
    simp only [Label.rowAfter] at hr
    refine .inr ⟨hnone, ?_⟩
    by_cases hid : id = job.id
    · rw [if_pos hid] at hr
      cases hr
    · rw [if_neg hid] at hr
      exact ⟨r, hr, rfl⟩
  | fetchDue | block | send | insertDlq | workerFailed | endPass | getDlq | deleteDlq
  | callFailed | restart => exact .inr ⟨hnone, r, hr, rfl⟩

/-- Each row holds the text of the instant written last for it. -/
def Tracked (h : List (Label F κ)) (s : State F κ) : Prop :=
  ∀ id r, s.db.job id = some r →
    ∃ t, written h id = some t ∧ r.nextAttemptAt = F.toRfc3339 t

theorem tracked_written {h : List (Label F κ)} {s : State F κ} (hs : (system F κ).Reaches h s) :
    Tracked h s := by
  apply hs.invariant
  · rintro s ⟨hdb, -⟩ id r hr
    rw [hdb] at hr
    cases hr
  · intro h s l t _ hI hst id r hr
    rcases hst.nextAttemptAt hr with ⟨u, hl, htext⟩ | ⟨hl, r', hr', htext⟩
    · exact ⟨u, written_self hl h, htext⟩
    · obtain ⟨u, hu, hru⟩ := hI id r' hr'
      exact ⟨u, (written_other hl h).trans hu, htext.trans hru⟩

/-- The instant of the next attempt of a job that has a row. -/
def nextOf (h : List (Label F κ)) (id : Uuid) : Int := (written h id).getD 0

omit [DecidableEq κ] in
theorem Tracked.stamped {h : List (Label F κ)} {s : State F κ} (hs : Tracked h s)
    (hclock : ∀ l ∈ h, ∀ w, l.writes = some w → InYears w.2) :
    Stamped F (nextOf h) s.db.jobs := by
  intro r hr
  obtain ⟨t, ht, htext⟩ := hs r.id r (Table.get?_of_mem hr)
  obtain ⟨l, hl, hw⟩ := writes_of_written ht
  rw [nextOf, ht, Option.getD_some]
  exact ⟨hclock l hl _ hw, htext⟩

/-- In a run, a job is fetched with the instant that was written last for it, once
that has come. -/
theorem fetched_on_time (hF : PrintsRfc3339 F) (hread : ReadsRfc3339 F) {h : List (Label F κ)}
    {s : State F κ} (hs : (system F κ).Reaches h s)
    (hclock : ∀ l ∈ h, ∀ w, l.writes = some w → InYears w.2) {now : Int} (hnow : InYears now)
    {limit : Int} {jobs : List (WebhookJob F)} (hfetch : FetchesDue F s.db now limit (some jobs)) :
    ∀ job ∈ jobs, written h job.id = some job.nextAttemptAt ∧ job.nextAttemptAt ≤ now := by
  intro job hjob
  have hstamped := (tracked_written hs).stamped hclock
  obtain ⟨htime, hle⟩ := (hstamped.fetched hF hread hnow hfetch).1 job hjob
  obtain ⟨r, hr, -⟩ := hfetch.mem hjob
  obtain ⟨t, ht, -⟩ := tracked_written hs job.id r hr
  have hnext : nextOf h job.id = t := by rw [nextOf, ht, Option.getD_some]
  rw [ht, htime, hnext]
  exact ⟨rfl, hnext ▸ hle⟩

/-- The texts of `to_rfc3339` are ordered as the instants, byte by byte, so
`fetch_due` returns the pending jobs that are due, in the order of the instants:
in any table whose texts are of known instants, and so in every state of a run. -/
theorem due_exact (hF : PrintsRfc3339 F) :
    (∀ t u, InYears t → InYears u →
      (utf8 (F.toRfc3339 t) ≤ utf8 (F.toRfc3339 u) ↔ t ≤ u) ∧
        (F.toRfc3339 t ≤ F.toRfc3339 u ↔ t ≤ u)) ∧
      (∀ next db now limit res, Stamped F next (Db.jobs db) → InYears now →
        (FetchesDue F db now limit res ↔
          ∃ rows, Ordered (fun r => next r.id) limit (db.jobs.select (dueBy next now)) rows ∧
            collect (rowToJob F) rows = res)) ∧
      ∀ h s, (system F κ).Reaches h s → (∀ l ∈ h, ∀ w, l.writes = some w → InYears w.2) →
        ∀ now limit res, InYears now →
          (FetchesDue F s.db now limit res ↔
            ∃ rows, Ordered (fun r => nextOf h r.id) limit
                (s.db.jobs.select (dueBy (nextOf h) now)) rows ∧
              collect (rowToJob F) rows = res) := by
  refine ⟨fun t u ht hu => ⟨hF.bytes_le_iff ht hu, hF.le_iff ht hu⟩,
    fun next db now limit res hdb hnow => hdb.fetchesDue hF hnow limit res, ?_⟩
  intro h s hs hclock now limit res hnow
  exact ((tracked_written hs).stamped hclock).fetchesDue hF hnow limit res

/-! ## Two instants -/

/-- Payloads that are kept as they are, and the texts of RFC 3339. -/
def rfc3339 : Formats where
  Value := String
  toString := id
  fromStr := some
  toRfc3339 t := if h : InYears t then autoString t h else ""
  parseFromRfc3339 s := readInstant s.toList

theorem rfc3339_prints : PrintsRfc3339 rfc3339 := fun _ h => dif_pos h

example : ReadsRfc3339 rfc3339 := fun _ _ h => h

def request : WebhookRequest rfc3339 := { data := "{}", destination := "http://a.test" }

/-- A job that is due half a second into the epoch. -/
def halfSecond : WebhookJob rfc3339 := .new request 1 3 500000000

def single : Db where
  jobs := ⟨[halfSecond.row], List.nodup_singleton _⟩
  deadLetters := Table.empty

/-- The service with an idle worker. -/
def idle (db : Db) (issued : List Uuid) : State rfc3339 Unit where
  db := db
  cfg := { maxAttempts := 3 }
  issued := issued
  lock := none
  pc := .fetching
  call _ := .idle

theorem single_reached : (system rfc3339 Unit).Reaches [.enqueue halfSecond] (idle single [1]) := by
  have hinit : (system rfc3339 Unit).Reaches [] (idle Db.empty []) :=
    .init ⟨rfl, rfl, rfl, rfl, fun _ => rfl⟩
  exact hinit.step (Step.enqueue _ request 1 500000000 single rfl (by decide) rfl)

/-- One text has no fraction and the other has three digits; a job is not fetched
a nanosecond early, and is on time. -/
theorem due_exact_half :
    utf8 (rfc3339.toRfc3339 0) ≤ utf8 (rfc3339.toRfc3339 500000000) ∧
      FetchesDue rfc3339 single 499999999 10 (some []) ∧
      FetchesDue rfc3339 single 500000000 10 (collect (rowToJob rfc3339) [halfSecond.row]) := by
  have hday : ∀ t : Int, 0 ≤ t → t < nanosPerDay → InYears t := fun t => inYears_of_day
  have h₀ := hday 0 (by decide) (by decide)
  have h₁ := hday 499999999 (by decide) (by decide)
  have h₂ := hday 500000000 (by decide) (by decide)
  obtain ⟨horder, htable, hrun⟩ := @due_exact rfc3339 Unit _ rfc3339_prints
  have hdb : Stamped rfc3339 (fun _ => 500000000) single.jobs := by
    intro r hr
    obtain rfl := List.mem_singleton.1 hr
    refine ⟨h₂, ?_⟩
    simp only [halfSecond, WebhookJob.new, WebhookJob.row]
  have hclock : ∀ l ∈ [Label.enqueue halfSecond], ∀ w, (l : Label rfc3339 Unit).writes = some w →
      InYears w.2 := by
    intro l hl w hw
    obtain rfl := List.mem_singleton.1 hl
    cases hw
    exact h₂
  refine ⟨(horder 0 500000000 h₀ h₂).1.2 (by decide), ?_, ?_⟩
  · exact (htable _ single 499999999 10 (some []) hdb h₁).2
      ⟨[], ⟨[], List.Perm.nil, List.Pairwise.nil, rfl⟩, rfl⟩
  · exact (hrun _ _ single_reached hclock 500000000 10 _ h₂).2 ⟨[halfSecond.row],
      ⟨[halfSecond.row], List.Perm.refl _, List.pairwise_singleton _ _, rfl⟩, rfl⟩

end D
end WebhookDelivery
