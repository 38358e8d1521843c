/-
What the `g` service shows of its deliveries.

`get_webhook`, `list_dlq` and `get_stats` read the table and write nothing.  What they
may show is therefore what holds of every row in every run: the columns of an outcome
go together, and the attempts stay within the budget.  A task that comes late writes
over the outcome of another, but it writes all of them.
-/
import WebhookDelivery.Sql.Group
import WebhookDelivery.Text.Numeral
import WebhookDelivery.G.Ledger
import WebhookDelivery.G.Requeue

namespace WebhookDelivery
namespace G

open Sql Run

variable {J : Json}

/-! ## The three handlers -/

/-- A delivery as the API shows it. -/
structure DeliveryStatus where
  id : String
  status : String
  destination : String
  attempts : Int
  maxAttempts : Int
  createdAt : String
  updatedAt : String
  nextAttemptAt : Option String
  deliveredAt : Option String
  lastError : Option String

/-- `utc` is `to_rfc3339` of the instant, if chrono has it. -/
def millisToRfc3339 (utc : Int → Option String) (ms : Int) : String := (utc ms).getD (toString ms)

def mapRow (utc : Int → Option String) (r : DeliveryRow) : DeliveryStatus where
  id := r.id
  status := r.status.text
  destination := r.destination
  attempts := r.attempts
  maxAttempts := r.maxAttempts
  createdAt := millisToRfc3339 utc r.createdAt
  updatedAt := millisToRfc3339 utc r.updatedAt
  nextAttemptAt := some (millisToRfc3339 utc r.nextAttemptAt)
  deliveredAt := r.deliveredAt.map (millisToRfc3339 utc)
  lastError := r.lastError

/-- `fault` is the error of the `SELECT` if it fails. -/
def getWebhook (utc : Int → Option String) (id : String) (fault : Option String)
    (t : Deliveries) : Except ApiError DeliveryStatus :=
  match fault, t.get? id with
  | some e, _ => .error (.internal e)
  | none, none => .error .notFound
  | none, some r => .ok (mapRow utc r)

/-- The page size, from the value of the query parameter `limit`. -/
def dlqLimit (param : Option String) : Int :=
  let limit := (param.bind fun v => Text.parseSigned 64 v.toList).getD 100
  max 1 (min limit 500)

example : dlqLimit none = 100 ∧ dlqLimit (some "-7") = 1 ∧ dlqLimit (some "+700") = 500 ∧
    dlqLimit (some "7 ") = 100 := by decide

def isDeadLettered (r : DeliveryRow) : Bool := decide (r.status = .deadLettered)

/-- `ORDER BY updated_at DESC LIMIT …` over the dead letters. -/
def SelectsDlq (t : Deliveries) (limit : Int) (rows : List DeliveryRow) : Prop :=
  Ordered (fun r => -r.updatedAt) limit (t.select isDeadLettered) rows

structure DlqPage where
  count : Nat
  deliveries : List DeliveryStatus

/-- `page` is an answer of `list_dlq`. -/
def ListsDlq (utc : Int → Option String) (param : Option String) (t : Deliveries)
    (page : DlqPage) : Prop :=
  ∃ rows, SelectsDlq t (dlqLimit param) rows ∧
    page = { count := rows.length, deliveries := rows.map (mapRow utc) }

/-- The entries of the object that `get_stats` answers with. -/
def getStats (t : Deliveries) : List (String × Nat) := groupCounts (fun r => r.status.text) t.rows

/-! ## What holds of a row -/

/-- A number of attempts that leaves room for another call. -/
def Unspent (attempts maxAttempts : Int) : Prop :=
  0 ≤ attempts ∧ (attempts = 0 ∨ attempts < maxAttempts)

/-- The columns of a row agree. -/
structure Coherent (r : DeliveryRow) : Prop where
  unspent : r.status = .pending ∨ r.status = .processing → Unspent r.attempts r.maxAttempts
  bounded : 0 ≤ r.attempts ∧ r.attempts ≤ max 1 r.maxAttempts
  delivered : r.status = .delivered → r.lastError = none ∧ r.deliveredAt = some r.updatedAt
  dead : r.status = .deadLettered → r.deliveredAt = none ∧ r.maxAttempts ≤ r.attempts

/-- Every row is coherent, and a task has a copy from before its last call. -/
structure Sound (s : State) : Prop where
  rows : ∀ id r, s.table.get? id = some r → Coherent r
  tasks : ∀ k ∈ s.tasks, Unspent k.job.attempts k.job.maxAttempts

theorem Unspent.bounded {a m : Int} (h : Unspent a m) : 0 ≤ a ∧ a ≤ max 1 m := by
  obtain ⟨h0, hlt⟩ := h
  omega

theorem coherent_open {r : DeliveryRow} (h : Unspent r.attempts r.maxAttempts)
    (hst : r.status = .pending ∨ r.status = .processing) : Coherent r where
  unspent _ := h
  bounded := h.bounded
  delivered hdel := by
    rw [hdel] at hst
    rcases hst with hst | hst <;> cases hst
  dead hdead := by
    rw [hdead] at hst
    rcases hst with hst | hst <;> cases hst

/-- The final statement of a task writes columns that agree, whatever it finds. -/
theorem coherent_asFinished {job : ClaimedJob} (now delay : Int) (res : Except String Unit)
    {r : DeliveryRow} (hjob : Unspent job.attempts job.maxAttempts)
    (hmax : r.maxAttempts = job.maxAttempts) : Coherent (asFinished job now delay res r) := by
  have hnext : 0 ≤ job.attempts + 1 ∧ job.attempts + 1 ≤ max 1 job.maxAttempts := by
    obtain ⟨h0, hlt⟩ := hjob
    omega
  cases res with
  | ok u =>
    refine ⟨fun hst => ?_, hmax ▸ hnext, fun _ => ⟨rfl, rfl⟩, fun hdead => by cases hdead⟩
    rcases hst with hst | hst <;> cases hst
  | error err =>
    by_cases hle : job.maxAttempts ≤ job.attempts + 1
    · simp only [asFinished, if_pos hle]
      refine ⟨fun hst => ?_, hmax ▸ hnext, fun hdel => (by cases hdel), fun _ => ⟨rfl, hmax ▸ hle⟩⟩
      rcases hst with hst | hst <;> cases hst
    · simp only [asFinished, if_neg hle]
      refine coherent_open ⟨hnext.1, .inr ?_⟩ (.inl rfl)
      show job.attempts + 1 < r.maxAttempts
      omega

/-- A step that changes no row other than as the final statements, the claims, the
reclaims and the requeues do. -/
theorem Sound.step {s t : State} {l : Label J} (hs : Sound s) (hsnap : Snapshots s)
    (hst : Step s l t) : Sound t := by
  have hreclaimed : ∀ {now : Int} {r : DeliveryRow}, Coherent r → r.status = .processing →
      Coherent (asReclaimed now r) :=
    fun hr hproc => coherent_open (r := asReclaimed _ _) (hr.unspent (.inr hproc)) (.inl rfl)
  constructor
  · intro id r hr
    cases hst with
    | createWebhook payload check id' now fault res t' hcreate =>
      rcases createWebhook_spec _ _ _ _ _ _ _ hcreate with ⟨e, -, rfl⟩ | ⟨req, -, -, hins⟩
      · exact hs.rows id r hr
      · have hrow := (Table.get?_insert? hins id).symm.trans hr
        split at hrow
        · cases hrow
          exact coherent_open (r := newRow _ _ _ _ _) ⟨Int.le_refl 0, .inl rfl⟩ (.inl rfl)
        · exact hs.rows id r hrow
    | reclaim now htick =>
      obtain ⟨r₀, hr₀, rfl⟩ := Option.map_eq_some_iff.1 ((get?_reclaim _ _ _ _).symm.trans hr)
      split
      · rename_i hstale
        exact hreclaimed (hs.rows id r₀ hr₀) (isStale_iff.1 hstale).1
      · exact hs.rows id r₀ hr₀
    | claim now rows jobs htick hsel hjobs =>
      obtain ⟨-, hin, hout⟩ := claim_spec hsel hjobs
      by_cases hk : id ∈ jobs.map ClaimedJob.id
      · obtain ⟨job, hjob, rfl⟩ := List.mem_map.1 hk
        obtain ⟨r₀, hr₀, hpend, -, -, hr₁⟩ := hin job hjob
        obtain rfl : asClaimed now r₀ = r := Option.some.inj (hr₁.symm.trans hr)
        exact coherent_open (r := asClaimed now r₀) ((hs.rows _ r₀ hr₀).unspent (.inl hpend))
          (.inr rfl)
      · exact hs.rows id r ((hout id hk).symm.trans hr)
    | finish pre post job claimedAt now delay res htasks =>
      have hk : (⟨job, claimedAt, .called now res⟩ : Task) ∈ s.tasks := htasks ▸ by simp
      have hrow := (get?_finish job now delay res s.table id).symm.trans hr
      split at hrow
      · obtain ⟨r₀, hr₀, rfl⟩ := Option.map_eq_some_iff.1 hrow
        obtain ⟨r₁, hr₁, -, -, hmax⟩ := hsnap _ hk
        obtain rfl : r₁ = r₀ := Option.some.inj (hr₁.symm.trans hr₀)
        exact coherent_asFinished now delay res (hs.tasks _ hk) hmax
      · exact hs.rows id r hrow
    | requeueUpdate id' now hmem =>
      have hrow := (get?_requeue id' now s.table id).symm.trans hr
      split at hrow
      · obtain ⟨r₀, -, rfl⟩ := Option.map_eq_some_iff.1 hrow
        exact coherent_open (r := asRequeued now r₀) ⟨Int.le_refl 0, .inl rfl⟩ (.inl rfl)
      · exact hs.rows id r hrow
    | restart cfg now =>
      obtain ⟨r₀, hr₀, rfl⟩ :=
        Option.map_eq_some_iff.1 ((get?_resetProcessing _ _ _).symm.trans hr)
      split
      · rename_i hproc
        exact hreclaimed (hs.rows id r₀ hr₀) (by simpa [isProcessing] using hproc)
      · exact hs.rows id r₀ hr₀
    | tickFailed | deliverOnce | finishFailed | requeueCheck | requeueFailed =>
      exact hs.rows id r hr
  · intro k hk
    rcases hst.tasks hk with hk | ⟨now, jobs, rfl, hjob, -⟩ | ⟨now, res, -, -, hk⟩
    · exact hs.tasks k hk
    · cases hst with
      | claim _ rows _ htick hsel hjobs =>
        obtain ⟨r, hr, hpend, -, hjr, -⟩ := (claim_spec hsel hjobs).2.1 k.job hjob
        rw [hjr]
        exact (hs.rows _ r hr).unspent (.inl hpend)
    · exact hs.tasks ⟨k.job, k.claimedAt, .waiting⟩ hk

theorem sound {h : List (Label J)} {s : State} (hs : (system J).Reaches h s) : Sound s := by
  refine hs.invariant (I := fun _ s => Sound s) (fun s hinit => ⟨fun id r hr => ?_, fun k hk => ?_⟩)
    (fun _ _ _ _ hr hI hst => hI.step (snapshots hr) hst)
  · rw [hinit.1] at hr
    cases hr
  · rw [hinit.2.2.1] at hk
    exact absurd hk List.not_mem_nil

/-! ## What the handlers say -/

/-- The ids answered with 202. -/
def Label.accepted : Label J → Option String
  | .createWebhook _ _ _ (.ok resp) => some resp.id
  | _ => none

def acceptedIds (h : List (Label J)) : List String := h.filterMap Label.accepted

/-- What a delivery that is shown has behind it in the history. -/
structure Told (utc : Int → Option String) (h : List (Label J)) (v : DeliveryStatus) : Prop where
  accepted : ∃ cfg req now status,
    .createWebhook cfg (.ok req) now (.ok { id := v.id, status := status }) ∈ h ∧
      v.destination = req.destination ∧ v.maxAttempts = cfg.maxAttempts ∧
      v.createdAt = millisToRfc3339 utc now
  bounded : 0 ≤ v.attempts ∧ v.attempts ≤ max 1 v.maxAttempts
  delivered : v.status = "delivered" → v.lastError = none ∧ v.deliveredAt = some v.updatedAt ∧
    ∃ job now, .deliverOnce job now (.ok ()) ∈ h ∧ job.id = v.id
  dead : v.status = "dead_lettered" → v.deliveredAt = none ∧ v.maxAttempts ≤ v.attempts ∧
    ∃ job now err, .deliverOnce job now (.error err) ∈ h ∧ job.id = v.id ∧ v.lastError = some err

theorem Status.text_inj {a b : Status} (h : a.text = b.text) : a = b := by
  cases a <;> cases b <;> first | rfl | exact absurd h (by decide)

theorem told_of_row {h : List (Label J)} {s : State} (hs : (system J).Reaches h s)
    (utc : Int → Option String) {id : String} {r : DeliveryRow} (hr : s.table.get? id = some r) :
    Told utc h (mapRow utc r) := by
  obtain rfl : r.id = id := Table.key_of_get? hr
  have hcoh := (sound hs).rows r.id r hr
  constructor
  · obtain ⟨cfg, req, now, status, hmem, heq⟩ := created_of_row hs hr
    refine ⟨cfg, req, now, status, hmem, congrArg Submitted.destination heq,
      congrArg Submitted.maxAttempts heq, ?_⟩
    exact congrArg (fun b => millisToRfc3339 utc b.createdAt) heq
  · exact hcoh.bounded
  · intro hst
    have hdel : r.status = .delivered := Status.text_inj hst
    obtain ⟨herr, hat⟩ := hcoh.delivered hdel
    exact ⟨herr, congrArg (Option.map (millisToRfc3339 utc)) hat, delivered_by_call hs hr hdel⟩
  · intro hst
    have hdead : r.status = .deadLettered := Status.text_inj hst
    obtain ⟨hat, hspent⟩ := hcoh.dead hdead
    exact ⟨congrArg (Option.map (millisToRfc3339 utc)) hat, hspent, dead_by_call hs hr hdead⟩

theorem getWebhook_row (utc : Int → Option String) {id : String} {r : DeliveryRow}
    {t : Deliveries} (hr : t.get? id = some r) : getWebhook utc id none t = .ok (mapRow utc r) := by
  simp only [getWebhook, hr]

theorem mem_acceptedIds {h : List (Label J)} {s : State} (hs : (system J).Reaches h s)
    (id : String) : (acceptedIds h).count id = if (s.table.get? id).isSome then 1 else 0 := by
  rw [← accepts_once hs id, acceptedIds, List.count, List.countP_filterMap]
  refine List.countP_congr fun l _ => ?_
  cases l with
  | createWebhook cfg payload now res =>
    cases res with
    | error e => exact Iff.rfl
    | ok resp => simp [Label.accepted, Label.accepts]
  | reclaim | claim | tickFailed | deliverOnce | finish | finishFailed | requeueCheck
  | requeueUpdate | requeueFailed | restart => exact Iff.rfl

/-- The rows are those of the accepted ids. -/
theorem acceptedIds_perm {h : List (Label J)} {s : State} (hs : (system J).Reaches h s) :
    (acceptedIds h).Perm (s.table.rows.map DeliveryRow.id) := by
  rw [List.perm_iff_count]
  intro id
  rw [mem_acceptedIds hs id]
  cases hr : s.table.get? id with
  | some r =>
    have hmem : id ∈ s.table.rows.map DeliveryRow.id :=
      List.mem_map.2 ⟨r, Table.mem_of_get? hr, Table.key_of_get? hr⟩
    exact (List.count_eq_one_of_mem s.table.nodup hmem).symm
  | none =>
    refine (List.count_eq_zero.2 fun hmem => ?_).symm
    obtain ⟨r, hr', hid⟩ := List.mem_map.1 hmem
    exact Table.get?_eq_none_iff.1 hr r hr' hid

/-- `GET /webhook/{id}` answers 200 for the accepted ids and 404 for all others, and
what it shows is so: the columns of the request are those of the request, and an
outcome has the call behind it that it shows. -/
theorem get_webhook_exact {h : List (Label J)} {s : State} (hs : (system J).Reaches h s)
    (utc : Int → Option String) (id : String) :
    (id ∉ acceptedIds h ∧ getWebhook utc id none s.table = .error .notFound) ∨
      ∃ v, id ∈ acceptedIds h ∧ getWebhook utc id none s.table = .ok v ∧ v.id = id ∧
        Told utc h v := by
  have hcount := mem_acceptedIds hs id
  cases hr : s.table.get? id with
  | none =>
    refine .inl ⟨fun hmem => ?_, by simp only [getWebhook, hr]⟩
    rw [hr] at hcount
    exact List.count_eq_zero.1 hcount hmem
  | some r =>
    refine .inr ⟨mapRow utc r, ?_, getWebhook_row utc hr, Table.key_of_get? hr,
      told_of_row hs utc hr⟩
    rw [hr, Option.isSome_some, if_pos rfl] at hcount
    exact List.count_pos_iff.1 (hcount ▸ Nat.one_pos)

/-- A dead letter is shown, and has its failed call behind it. -/
theorem get_webhook_exact_dead : ∃ v, getWebhook (fun _ => none) "a" none
      (one hookDead none [] []).table = .ok v ∧ Told (fun _ => none) dying v := by
  rcases get_webhook_exact dead_reached (fun _ => none) "a" with ⟨-, hno⟩ | ⟨v, -, hv, -, htold⟩
  · cases hno
  · exact ⟨v, hv, htold⟩

/-- `GET /webhook/{id}` shows the status. -/
def showsStatus (utc : Int → Option String) (t : Deliveries) (text id : String) : Bool :=
  match getWebhook utc id none t with
  | .ok v => decide (v.status = text)
  | .error _ => false

theorem countP_shows {h : List (Label J)} {s : State} (hs : (system J).Reaches h s)
    (utc : Int → Option String) (text : String) :
    (acceptedIds h).countP (showsStatus utc s.table text)
      = s.table.rows.countP fun r => r.status.text = text := by
  rw [(acceptedIds_perm hs).countP_eq, List.countP_map]
  refine List.countP_congr fun r hr => ?_
  have hget := getWebhook_row utc (Table.get?_of_mem hr)
  simp only [key_delivery] at hget
  simp [showsStatus, hget, mapRow]

/-- `GET /stats` agrees with `GET /webhook/{id}`: each status that it lists has the
number of accepted ids that are shown in it, no status that is shown is missing, and
all numbers together are the number of the 202 answers. -/
theorem stats_exact {h : List (Label J)} {s : State} (hs : (system J).Reaches h s)
    (utc : Int → Option String) :
    ((getStats s.table).map Prod.fst).Nodup ∧
      (∀ text n, (text, n) ∈ getStats s.table ↔
        n = (acceptedIds h).countP (showsStatus utc s.table text) ∧ 0 < n) ∧
      ((getStats s.table).map Prod.snd).sum = h.countP fun l => l.accepted.isSome := by
  refine ⟨nodup_groupCounts _ _, fun text n => ?_, ?_⟩
  · rw [countP_shows hs utc text]
    exact mem_groupCounts
  · rw [getStats, sum_groupCounts, ← List.length_map DeliveryRow.id,
      ← (acceptedIds_perm hs).length_eq, acceptedIds, List.length_filterMap_eq_countP]

/-- `GET /dlq` lists dead letters that `GET /webhook/{id}` shows the same way, each
once and never more than 500, whatever the query says.  It leaves one out only if the
page is full, and then none whose `updated_at` is later than that of one it lists. -/
theorem list_dlq_exact {h : List (Label J)} {s : State} (hs : (system J).Reaches h s)
    {utc : Int → Option String} {param : Option String} {page : DlqPage}
    (hpage : ListsDlq utc param s.table page) :
    (page.count : Int) = min (dlqLimit param)
        ((acceptedIds h).countP (showsStatus utc s.table "dead_lettered")) ∧
      page.count = page.deliveries.length ∧ (page.deliveries.map DeliveryStatus.id).Nodup ∧
      (1 ≤ dlqLimit param ∧ dlqLimit param ≤ 500) ∧
      (∀ v ∈ page.deliveries, getWebhook utc v.id none s.table = .ok v ∧
        v.status = "dead_lettered" ∧ Told utc h v) ∧
      ∀ r r', s.table.get? r.id = some r → r.status = .deadLettered →
        mapRow utc r ∉ page.deliveries → s.table.get? r'.id = some r' →
        mapRow utc r' ∈ page.deliveries → r.updatedAt ≤ r'.updatedAt := by
  obtain ⟨rows, hsel, rfl⟩ := hpage
  have hlimit : 1 ≤ dlqLimit param ∧ dlqLimit param ≤ 500 := by
    simp only [dlqLimit]
    omega
  have hdead : ∀ r ∈ rows, s.table.get? r.id = some r ∧ r.status = .deadLettered := by
    intro r hr
    obtain ⟨hmem, hst⟩ := List.mem_filter.1 (hsel.mem hr)
    exact ⟨Table.get?_of_mem hmem, of_decide_eq_true hst⟩
  have hids : (rows.map (mapRow utc)).map DeliveryStatus.id = rows.map DeliveryRow.id := by
    rw [List.map_map]
    rfl
  have hlisted : ∀ r, s.table.get? r.id = some r → mapRow utc r ∈ rows.map (mapRow utc) →
      r ∈ rows := by
    intro r hr hin
    obtain ⟨r', hr', heq⟩ := List.mem_map.1 hin
    have hid : r'.id = r.id := congrArg DeliveryStatus.id heq
    have hrow := (hdead r' hr').1
    rw [hid, hr] at hrow
    exact Option.some.inj hrow ▸ hr'
  refine ⟨?_, (List.length_map _).symm, ?_, hlimit, fun v hv => ?_, ?_⟩
  · have hlen := hsel.length_eq
    have hcount : (s.table.select isDeadLettered).length
        = (acceptedIds h).countP (showsStatus utc s.table "dead_lettered") := by
      rw [countP_shows hs utc, Table.select, ← List.countP_eq_length_filter]
      refine List.countP_congr fun r _ => ?_
      simp only [isDeadLettered, decide_eq_true_eq]
      exact ⟨fun hst => by rw [hst]; rfl, fun hst => Status.text_inj hst⟩
    rw [if_neg (by omega), hcount] at hlen
    show (rows.length : Int) = _
    omega
  · rw [hids]
    exact hsel.nodup_map (s.table.nodup.sublist (List.filter_sublist.map _))
  · obtain ⟨r, hr, rfl⟩ := List.mem_map.1 hv
    obtain ⟨hrow, hst⟩ := hdead r hr
    refine ⟨getWebhook_row utc hrow, ?_, told_of_row hs utc hrow⟩
    show r.status.text = _
    rw [hst]
    rfl
  · intro r r' hr hst hout hr' hin
    have hmem : r ∈ s.table.select isDeadLettered :=
      List.mem_filter.2 ⟨Table.mem_of_get? hr, decide_eq_true hst⟩
    have hle := hsel.le_of_left_out (hlisted r' hr' hin) hmem fun hrin =>
      hout (List.mem_map_of_mem hrin)
    omega

theorem list_dlq_exact_dead : ∃ page, ListsDlq (fun _ => none) (some "0")
    (one hookDead none [] []).table page ∧ (page.deliveries.map DeliveryStatus.id).Nodup := by
  have hpage : ListsDlq (fun _ => none) (some "0") (one hookDead none [] []).table
      ⟨1, [mapRow (fun _ => none) hookDead]⟩ :=
    ⟨[hookDead], ⟨_, List.Perm.refl _, List.pairwise_singleton _ _, rfl⟩, rfl⟩
  exact ⟨_, hpage, (list_dlq_exact dead_reached hpage).2.2.1⟩

end G
end WebhookDelivery
