/-
The due test by milliseconds.

`fmt_ts` prints an instant with three digits of its second, so the texts are
ordered as the instants rounded down to the millisecond, and `parse_ts` reads the
rounded instant back.  `claim_due_jobs` compares and orders the texts; with the
instants that the rows were written from, it selects by their milliseconds.
-/
import WebhookDelivery.K.Recovery
import WebhookDelivery.Text.Rfc3339

namespace WebhookDelivery
namespace K

open Sql Run Text

/-- An instant in the years 0 to 9999. -/
abbrev Instant := { t : Int // InYears t }

/-- The instant at the start of its millisecond. -/
def Instant.floorMs (t : Instant) : Instant := ⟨floorMillis t.1, floorMillis_inYears t.2⟩

/-- The formats of a service that stores its instants as texts. -/
abbrev Formats.texts (V : Type) (toString : V → String) (fromStr : String → Option V)
    (fmtTs : Instant → String) (parseTs : String → Option Instant) : Formats where
  Value := V
  DateTime := Instant
  Stamp := String
  order := inferInstance
  toString := toString
  fromStr := fromStr
  fmtTs := fmtTs
  parseTs := parseTs

/-- What chrono documents of `to_rfc3339_opts(SecondsFormat::Millis, true)`. -/
def PrintsMillis (fmtTs : Instant → String) : Prop := ∀ t, fmtTs t = millisString t.1 t.2

/-- What chrono documents of `parse_from_rfc3339`: a text of RFC 3339 is read as
its instant. -/
def ReadsRfc3339 (parseTs : String → Option Instant) : Prop :=
  ∀ s (t : Instant), readInstant s.toList = some t.1 → parseTs s = some t

variable {V : Type} {toString : V → String} {fromStr : String → Option V}
  {fmtTs : Instant → String} {parseTs : String → Option Instant}

theorem PrintsMillis.le_iff (hfmt : PrintsMillis fmtTs) (t u : Instant) :
    fmtTs t ≤ fmtTs u ↔ t.floorMs ≤ u.floorMs := by
  rw [hfmt, hfmt, millisString_le_iff]
  exact Iff.rfl

theorem PrintsMillis.bytes_le_iff (hfmt : PrintsMillis fmtTs) (t u : Instant) :
    utf8 (fmtTs t) ≤ utf8 (fmtTs u) ↔ t.floorMs ≤ u.floorMs := by
  rw [← hfmt.le_iff, hfmt, hfmt, millisString_bytes]

theorem PrintsMillis.parse (hfmt : PrintsMillis fmtTs) (hparse : ReadsRfc3339 parseTs)
    (t : Instant) : parseTs (fmtTs t) = some t.floorMs := by
  refine hparse _ _ ?_
  rw [hfmt, millisString, String.toList_ofList, readInstant_millisText,
    DateTime.instant_ofInstant]
  rfl

/-! ## Claiming by instants -/

/-- The row is pending, and by the instant of its next attempt it is due in this
millisecond. -/
def dueBy {F : Formats} (next : Uuid → Instant) (now : Instant) (r : JobRow F) : Bool :=
  r.status = .pending ∧ (next r.id).floorMs.1 ≤ now.floorMs.1

/-- Each row holds the text of its instant. -/
def Stamped (next : Uuid → Instant) (t : Jobs (.texts V toString fromStr fmtTs parseTs)) : Prop :=
  ∀ r ∈ t.rows, r.nextAttemptAt = fmtTs (next r.id)

/-- The `SELECT` of `claim_due_jobs` is by the milliseconds of the instants. -/
theorem Stamped.selectsDue (hfmt : PrintsMillis fmtTs) {next : Uuid → Instant}
    {t : Jobs (.texts V toString fromStr fmtTs parseTs)} (ht : Stamped next t) (now : Instant)
    (n : Int) (rows : List (JobRow (.texts V toString fromStr fmtTs parseTs))) :
    SelectsDue t now n rows ↔
      Ordered (fun r => (next r.id).floorMs) n (t.select (dueBy next now)) rows := by
  have hselect : t.select (isDue (fmtTs now)) = t.select (dueBy next now) := by
    refine List.filter_congr fun r hr => ?_
    have hle : r.nextAttemptAt ≤ fmtTs now ↔ (next r.id).floorMs ≤ now.floorMs := by
      rw [ht r hr, hfmt.le_iff]
    exact decide_eq_decide.2 (and_congr_right fun _ => hle)
  have hkey : ∀ a ∈ t.select (dueBy next now), ∀ b ∈ t.select (dueBy next now),
      (a.nextAttemptAt ≤ b.nextAttemptAt ↔ (next a.id).floorMs ≤ (next b.id).floorMs) := by
    intro a ha b hb
    rw [ht a (List.mem_of_mem_filter ha), ht b (List.mem_of_mem_filter hb), hfmt.le_iff]
  refine Iff.trans ?_ (Ordered.congr_key hkey)
  rw [← hselect]
  rfl

/-- A table that the service has written holds the texts of instants. -/
theorem exists_stamped {t : Jobs (.texts V toString fromStr fmtTs parseTs)}
    (ht : ∀ id r, t.get? id = some r → Written r) : ∃ next, Stamped next t := by
  have hall : ∀ id, ∃ u, ∀ r, t.get? id = some r → r.nextAttemptAt = fmtTs u := by
    intro id
    cases hr : t.get? id with
    | none =>
      have hzero : InYears 0 := inYears_of_day (by decide) (by decide)
      exact ⟨⟨0, hzero⟩, fun r e => by cases e⟩
    | some r =>
      obtain ⟨u, htext⟩ := (ht id r hr).nextAttemptAt
      exact ⟨u, fun r' e => by cases e; exact htext⟩
  choose next hnext using hall
  exact ⟨next, fun r hr => hnext r.id r (Table.get?_of_mem hr)⟩

theorem Stamped.claims (hfmt : PrintsMillis fmtTs) {next : Uuid → Instant}
    {t t' : Jobs (.texts V toString fromStr fmtTs parseTs)} (ht : Stamped next t) {now : Instant}
    {n : Int} {rows : List (JobRow (.texts V toString fromStr fmtTs parseTs))}
    (hrows : SelectsDue t now n rows) {fault : Option Statement}
    {jobs : List (Job (.texts V toString fromStr fmtTs parseTs))}
    (hclaim : claimDueJobs fault now rows t = (.ok jobs, t')) :
    ∃ rows', Ordered (fun r => (next r.id).floorMs) n (t.select (dueBy next now)) rows' ∧
      jobs.map Job.id = rows'.map JobRow.id :=
  ⟨rows, (ht.selectsDue hfmt now n rows).1 hrows,
    (claimLoop_ok hrows.nodup (claimDueJobs_ok hclaim)).2.2.1⟩

/-- The texts are ordered, byte by byte, as the instants rounded down to the
millisecond, and are read as these.  So a claim selects, in any table of such
texts and so in every state of a run, the pending jobs that are due in the
millisecond of the clock, in the order of the milliseconds. -/
theorem stamps_exact (ω : Type) [DecidableEq ω] (toString : V → String)
    (fromStr : String → Option V) (hfmt : PrintsMillis fmtTs) (hparse : ReadsRfc3339 parseTs) :
    (∀ t u, (utf8 (fmtTs t) ≤ utf8 (fmtTs u) ↔ t.floorMs ≤ u.floorMs) ∧
      (fmtTs t ≤ fmtTs u ↔ t.floorMs ≤ u.floorMs)) ∧
      (∀ t, parseTs (fmtTs t) = some t.floorMs) ∧
      (∀ next (t : Jobs (.texts V toString fromStr fmtTs parseTs)), Stamped next t →
        ∀ (now : Instant) n rows,
          (SelectsDue t now n rows ↔
            Ordered (fun r => (next r.id).floorMs) n (t.select (dueBy next now)) rows) ∧
          ∀ fault jobs t', SelectsDue t now n rows →
            claimDueJobs fault now rows t = (.ok jobs, t') →
            ∃ rows', Ordered (fun r => (next r.id).floorMs) n (t.select (dueBy next now)) rows' ∧
              jobs.map Job.id = rows'.map JobRow.id) ∧
      ∀ h s, (system (.texts V toString fromStr fmtTs parseTs) ω).Reaches h s →
        ∃ next, Stamped next s.jobs :=
  ⟨fun t u => ⟨hfmt.bytes_le_iff t u, hfmt.le_iff t u⟩, hfmt.parse hparse,
    fun _ _ ht now n rows => ⟨ht.selectsDue hfmt now n rows,
      fun _ _ _ hrows hclaim => ht.claims hfmt hrows hclaim⟩,
    fun _ _ hs => exists_stamped (allWritten hs)⟩

/-! ## A job that waits for its millisecond -/

def printTs (t : Instant) : String := millisString t.1 t.2

def readTs (s : String) : Option Instant :=
  match readInstant s.toList with
  | some t => if h : InYears t then some ⟨t, h⟩ else none
  | none => none

theorem printTs_prints : PrintsMillis printTs := fun _ => rfl

theorem readTs_reads : ReadsRfc3339 readTs := by
  intro s t h
  unfold readTs
  rw [h]
  exact dif_pos t.2

/-- Texts of JSON that are kept as they are. -/
abbrev stored : Formats := .texts String id some printTs readTs

/-- An instant of the first day of 1970. -/
def nanosecond (n : Nat) (h : n < nanosPerDay) : Instant :=
  ⟨n, inYears_of_day (Int.natCast_nonneg n) (Int.ofNat_lt.2 h)⟩

/-- A job that is due a millisecond and a half into the epoch. -/
def waiting : JobRow stored :=
  newRow (F := stored) 1 "http://a.test" "{}" 3 (nanosecond 1500000 (by decide))

def waitingJobs : Jobs stored := ⟨[waiting], List.nodup_singleton _⟩

def stoppedState (t : Jobs stored) : State stored Unit := ⟨t, fun _ => .stopped⟩

theorem waiting_reached : (system stored Unit).Reaches
    [.insertJob 1 "http://a.test" "{}" 3 (nanosecond 1500000 (by decide))]
    (stoppedState waitingJobs) := by
  have hinit : (system stored Unit).Reaches [] (stoppedState Table.empty) :=
    .init ⟨rfl, fun _ => rfl⟩
  have hins : insertJob (F := stored) Table.empty 1 "http://a.test" "{}" 3
      (nanosecond 1500000 (by decide)) = some waitingJobs := rfl
  have hst : Step (stoppedState Table.empty)
      (.insertJob 1 "http://a.test" "{}" 3 (nanosecond 1500000 (by decide)))
      (stoppedState waitingJobs) :=
    Step.insertJob (stoppedState Table.empty) 1 "http://a.test" "{}" 3 _ waitingJobs hins
  exact hinit.step hst

/-- The job is selected at the start of its millisecond, and not before. -/
theorem stamps_exact_waiting :
    readTs (printTs (nanosecond 1500000 (by decide))) = some (nanosecond 1000000 (by decide)) ∧
      SelectsDue (F := stored) waitingJobs (nanosecond 1000000 (by decide)) 8 [waiting] ∧
      SelectsDue (F := stored) waitingJobs (nanosecond 999999 (by decide)) 8 [] ∧
      ∃ next, Stamped next waitingJobs := by
  obtain ⟨-, hparse, htable, hrun⟩ := stamps_exact Unit id some printTs_prints readTs_reads
  have hstamped : Stamped (fun _ => nanosecond 1500000 (by decide)) waitingJobs := by
    intro r hr
    obtain rfl := List.mem_singleton.1 hr
    rfl
  refine ⟨hparse _, ?_, ?_, hrun _ _ waiting_reached⟩
  · exact ((htable _ _ hstamped _ 8 [waiting]).1).2
      ⟨[waiting], List.Perm.refl _, List.pairwise_singleton _ _, rfl⟩
  · exact ((htable _ _ hstamped _ 8 []).1).2 ⟨[], List.Perm.nil, List.Pairwise.nil, rfl⟩

end K
end WebhookDelivery
