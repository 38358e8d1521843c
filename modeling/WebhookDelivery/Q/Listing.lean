/-
`list_due` on the rows that the store has written.

The attempts of a row and their limit are written as 64-bit integers and read as
`i32`.  One due row that does not fit fails the whole call, and the worker takes
that for an empty queue.  The rows that `list_due` can come to fit as long as no
submission is stored with a limit from `2 ^ 31` on, and no retry is counted that
takes the attempts there.
-/
import WebhookDelivery.Q.Idempotency

namespace WebhookDelivery
namespace Q

open Sql Run

/-! ## Decoding -/

/-- What the row says, whatever its size. -/
def DeliveryRow.delivery (r : DeliveryRow) : Delivery where
  id := r.id
  idempotencyKey := r.idempotencyKey
  destination := r.destination
  payload := r.payload
  status := r.status
  attempts := r.attempts.toNat
  maxAttempts := r.maxAttempts.toNat
  nextRetryAt := r.nextRetryAt
  lastError := r.lastError
  createdAt := r.createdAt
  updatedAt := r.updatedAt

/-- The counters of the row are counts. -/
def DeliveryRow.Counts (r : DeliveryRow) : Prop := 0 ≤ r.attempts ∧ 0 ≤ r.maxAttempts

/-- The counters of the row can be read. -/
def DeliveryRow.Fits (r : DeliveryRow) : Prop := r.attempts < 2 ^ 31 ∧ r.maxAttempts < 2 ^ 31

theorem getI32_of_lt {n : Int} (hpos : 0 ≤ n) (hlt : n < 2 ^ 31) : getI32 n = .ok n :=
  if_pos ⟨by omega, hlt⟩

theorem getI32_of_ge {n : Int} (h : ¬n < 2 ^ 31) : getI32 n = .error .sqlite :=
  if_neg fun hn => h hn.2

theorem mapDelivery_of_fits {r : DeliveryRow} (hcounts : r.Counts) (hfits : r.Fits) :
    mapDelivery r = .ok r.delivery := by
  unfold mapDelivery
  rw [getI32_of_lt hcounts.1 hfits.1, getI32_of_lt hcounts.2 hfits.2]
  simp only [asU32, if_pos hcounts.1, if_pos hcounts.2]
  rfl

theorem mapDelivery_of_not_fits {r : DeliveryRow} (h : ¬r.Fits) :
    mapDelivery r = .error .sqlite := by
  unfold mapDelivery
  by_cases hattempts : r.attempts < 2 ^ 31
  · have hmax : ¬r.maxAttempts < 2 ^ 31 := fun hmax => h ⟨hattempts, hmax⟩
    rw [getI32_of_ge hmax]
    cases hread : getI32 r.attempts with
    | ok n => rfl
    | error e =>
      unfold getI32 at hread
      split at hread
      · cases hread
      · cases hread
        rfl
  · rw [getI32_of_ge hattempts]

/-- The rows are returned as they are if all of them fit. -/
theorem mapRows_of_fits {rows : List DeliveryRow} (hcounts : ∀ r ∈ rows, r.Counts)
    (hfits : ∀ r ∈ rows, r.Fits) : mapRows rows = .ok (rows.map DeliveryRow.delivery) := by
  induction rows with
  | nil => rfl
  | cons r rows ih =>
    have hr := mapDelivery_of_fits (hcounts r List.mem_cons_self) (hfits r List.mem_cons_self)
    have hrest := ih (fun x hx => hcounts x (List.mem_cons_of_mem r hx))
      fun x hx => hfits x (List.mem_cons_of_mem r hx)
    simp only [mapRows, hr, hrest]
    rfl

/-- One row that does not fit fails the call. -/
theorem mapRows_of_not_fits {rows : List DeliveryRow} {r : DeliveryRow} (hr : r ∈ rows)
    (h : ¬r.Fits) : ∃ e, mapRows rows = .error e := by
  induction rows with
  | nil => cases hr
  | cons x rows ih =>
    unfold mapRows
    rcases List.mem_cons.1 hr with rfl | hr
    · rw [mapDelivery_of_not_fits h]
      exact ⟨_, rfl⟩
    · obtain ⟨e, he⟩ := ih hr
      rw [he]
      cases hx : mapDelivery x with
      | ok d => exact ⟨e, rfl⟩
      | error e' => exact ⟨e', rfl⟩

/-! ## Answers of `list_due` -/

def dueRows (db : Db) (now : Int) : List DeliveryRow := db.deliveries.select (isDue now)

/-- `i64::try_from(limit).unwrap_or(i64::MAX)`. -/
def limitArg (limit : Nat) : Int := min limit (2 ^ 63 - 1 : Nat)

/-- The delivery is the row as it is, and what was submitted is as it was. -/
structure Read (ops : List Op) (r : DeliveryRow) (d : Delivery) : Prop where
  delivery : d = r.delivery
  attempts : (d.attempts : Int) = r.attempts
  submitted : ∃ n now, .insert n now ∈ ops ∧ d.id = n.id ∧ d.idempotencyKey = n.idempotencyKey ∧
    d.destination = n.destination ∧ d.payload = n.payload ∧ d.maxAttempts = n.maxAttempts ∧
      d.createdAt = now

/-- The answer is the first due rows in their order, none of them twice. -/
structure Lists (ops : List Op) (db : Db) (now : Int) (limit : Nat) (ds : List Delivery) :
    Prop where
  length : ds.length = min limit (dueRows db now).length
  sorted : ds.Pairwise fun a b => a.nextRetryAt ≤ b.nextRetryAt
  nodup : (ds.map Delivery.id).Nodup
  read : ∀ d ∈ ds, ∃ r ∈ dueRows db now, Read ops r d
  first : ∀ d ∈ ds, ∀ x ∈ dueRows db now, x.id ∉ ds.map Delivery.id →
    d.nextRetryAt ≤ x.nextRetryAt

/-- Every call of `list_due` succeeds and lists what is due. -/
def Serves (ops : List Op) (db : Db) : Prop :=
  ∀ now limit res, ListsDue db now (limitArg limit) res → ∃ ds, res = .ok ds ∧
    Lists ops db now limit ds

/-! ## The rows of a run -/

/-- Where a row comes from, and that its counters are counts. -/
structure Sourced (ops : List Op) (r : DeliveryRow) : Prop where
  counts : r.Counts
  submitted : ∃ n now, .insert n now ∈ ops ∧ DeliveryRow.Same (newRow n now) r

theorem Sourced.rewrites {ops : List Op} {op : Op} {r r' : DeliveryRow} (h : Sourced ops r)
    (hr : op.Rewrites r r') : Sourced (op :: ops) r' := by
  obtain ⟨n, now, hmem, hsame⟩ := h.submitted
  have hsame' := hr.same_row
  refine ⟨⟨?_, hsame'.maxAttempts ▸ h.counts.2⟩,
    n, now, List.mem_cons_of_mem op hmem, hsame.trans hsame'⟩
  have hpos := h.counts.1
  cases hr with
  | same | claimed | deadLettered | reset => exact hpos
  | delivered now => exact Int.le_trans hpos (Int.le_add_of_nonneg_right (by decide))
  | retried nextMs err now hop => exact Int.le_trans hpos (Int.le_add_of_nonneg_right (by decide))
  | replayed now => exact Int.le_refl 0

theorem sourced {ops : List Op} {db : Db} (h : operations.Reaches ops db) :
    ∀ k r, db.row k = some r → Sourced ops r := by
  apply h.invariant (I := fun ops db => ∀ k r, db.row k = some r → Sourced ops r)
  · rintro db rfl k r hr
    cases hr
  · rintro ops db op db' _ hI rfl k r' hr'
    rcases Op.row_run hr' with ⟨d, now, rfl, -, -, rfl⟩ | ⟨r, hr, hrewrites⟩
    · exact ⟨⟨Int.le_refl 0, Int.natCast_nonneg _⟩, d, now, List.mem_cons_self, .refl _⟩
    · exact (hI k r hr).rewrites hrewrites

/-! ## What fits -/

/-- A row that is due, or may become due again with the attempts it has. -/
def DeliveryRow.Live (r : DeliveryRow) : Prop := r.status = .pending ∨ r.status = .inFlight

/-- A submission that is stored has a limit that can be read, and a retry leaves
such attempts. -/
def Op.Fits (db : Db) : Op → Prop
  | .insert d _ =>
    (db.row d.id).isSome ∨ (db.withKey d.idempotencyKey).isSome ∨ d.maxAttempts < 2 ^ 31
  | .scheduleRetry id .. => ∀ r, db.row id = some r → r.attempts + 1 < 2 ^ 31
  | _ => True

/-- The runs whose operations all fit. -/
def fitting : System Db Op := operations.restrict fun db op => op.Fits db

theorem fits_of_rewrites {db : Db} {op : Op} (hop : op.Fits db) {k : Uuid} {r r' : DeliveryRow}
    (hr : db.row k = some r) (hfits : r.Live → r.Fits) (hrewrites : op.Rewrites r r')
    (hlive : r'.Live) (hmax : r.maxAttempts < 2 ^ 31) : r'.Fits := by
  cases hrewrites with
  | same => exact hfits hlive
  | claimed now hpending => exact hfits (.inl hpending)
  | delivered now => rcases hlive with h | h <;> cases h
  | retried nextMs err now hretry =>
    subst hretry
    have hid : r.id = k := Table.key_of_get? hr
    exact ⟨hop r (hid ▸ hr), hmax⟩
  | deadLettered err now => rcases hlive with h | h <;> cases h
  | replayed now => exact ⟨show (0 : Int) < 2 ^ 31 by decide, hmax⟩
  | reset now hflight => exact hfits (.inr hflight)

/-- In a run that fits, every row that is due, or may be, fits. -/
theorem live_fits {ops : List Op} {db : Db} (h : fitting.Reaches ops db) :
    ∀ k r, db.row k = some r → r.maxAttempts < 2 ^ 31 ∧ (r.Live → r.Fits) := by
  apply h.invariant (I := fun _ db => ∀ k r, db.row k = some r →
    r.maxAttempts < 2 ^ 31 ∧ (r.Live → r.Fits))
  · rintro db rfl k r hr
    cases hr
  · rintro ops db op db' - hI ⟨hop, rfl⟩ k r' hr'
    rcases Op.row_run hr' with ⟨d, now, rfl, hfresh, hkey, rfl⟩ | ⟨r, hr, hrewrites⟩
    · have hmax : d.maxAttempts < 2 ^ 31 := by
        rcases hop with hrow | hwith | hmax
        · rw [hfresh] at hrow
          cases hrow
        · rw [hkey] at hwith
          cases hwith
        · exact hmax
      have hmax' : (newRow d now).maxAttempts < 2 ^ 31 := by
        show (d.maxAttempts : Int) < 2 ^ 31
        omega
      exact ⟨hmax', fun _ => ⟨show (0 : Int) < 2 ^ 31 by decide, hmax'⟩⟩
    · obtain ⟨hmax, hfits⟩ := hI k r hr
      have hmax' : r'.maxAttempts < 2 ^ 31 := hrewrites.same_row.maxAttempts ▸ hmax
      exact ⟨hmax', fun hlive => fits_of_rewrites hop hr hfits hrewrites hlive hmax⟩

/-! ## Calls that succeed -/

theorem mem_dueRows {db : Db} {now : Int} {r : DeliveryRow} :
    r ∈ dueRows db now ↔ db.row r.id = some r ∧ r.status = .pending ∧ r.nextRetryAt ≤ now := by
  unfold dueRows Table.select
  rw [List.mem_filter, isDue, decide_eq_true_eq]
  exact and_congr_left fun _ => ⟨Table.get?_of_mem, Table.mem_of_get?⟩

theorem read_of_sourced {ops : List Op} {r : DeliveryRow} (h : Sourced ops r) :
    Read ops r r.delivery := by
  obtain ⟨n, now, hmem, hsame⟩ := h.submitted
  refine ⟨rfl, Int.toNat_of_nonneg h.counts.1, n, now, hmem, hsame.id, hsame.idempotencyKey,
    hsame.destination, hsame.payload, ?_, hsame.createdAt⟩
  show r.maxAttempts.toNat = n.maxAttempts
  rw [hsame.maxAttempts]
  exact Int.toNat_natCast _

/-- With every due row fit, the answer is the rows that the query returns. -/
theorem serves_of_fits {ops : List Op} {db : Db} (hsourced : ∀ k r, db.row k = some r →
      Sourced ops r) (hfits : ∀ k r, db.row k = some r → r.status = .pending → r.Fits)
    (hsize : db.deliveries.rows.length < 2 ^ 63) : Serves ops db := by
  rintro now limit res ⟨rows, hord, rfl⟩
  have hdue : ∀ r ∈ rows, r ∈ dueRows db now := fun r hr => hord.mem hr
  have hrow : ∀ r ∈ rows, db.row r.id = some r := fun r hr => (mem_dueRows.1 (hdue r hr)).1
  have hids : (rows.map DeliveryRow.delivery).map Delivery.id = rows.map DeliveryRow.id :=
    List.map_map
  have hlist := mapRows_of_fits (fun r hr => (hsourced _ r (hrow r hr)).counts)
    fun r hr => hfits _ r (hrow r hr) (mem_dueRows.1 (hdue r hr)).2.1
  refine ⟨_, hlist, ?_, ?_, ?_, ?_, ?_⟩
  · have hlen := hord.length_eq
    have hle : (dueRows db now).length ≤ db.deliveries.rows.length := List.length_filter_le _ _
    have harg : ¬limitArg limit < 0 := by
      unfold limitArg
      omega
    have hnat : (limitArg limit).toNat = min limit (2 ^ 63 - 1) := by
      unfold limitArg
      omega
    rw [if_neg harg, hnat] at hlen
    rw [List.length_map, hlen]
    unfold dueRows at hle ⊢
    omega
  · exact List.pairwise_map.2 hord.sorted
  · rw [hids]
    exact hord.nodup_map (db.deliveries.nodup.sublist (List.filter_sublist.map _))
  · intro d hd
    obtain ⟨r, hr, rfl⟩ := List.mem_map.1 hd
    exact ⟨r, hdue r hr, read_of_sourced (hsourced _ r (hrow r hr))⟩
  · intro d hd x hx hout
    obtain ⟨r, hr, rfl⟩ := List.mem_map.1 hd
    refine hord.le_of_left_out hr hx fun hmem => hout ?_
    rw [hids]
    exact List.mem_map_of_mem hmem

/-! ## Calls that fail -/

/-- A row that is pending and does not fit fails a call, once it is due. -/
theorem not_serves_of_row {ops : List Op} {db : Db} (hsize : db.deliveries.rows.length < 2 ^ 63)
    {k : Uuid} {r : DeliveryRow} (hr : db.row k = some r) (hpending : r.status = .pending)
    (h : ¬r.Fits) : ¬Serves ops db := by
  intro hserves
  have hdue : r ∈ dueRows db r.nextRetryAt := by
    have hid : r.id = k := Table.key_of_get? hr
    exact mem_dueRows.2 ⟨hid ▸ hr, hpending, le_refl _⟩
  have hle : (dueRows db r.nextRetryAt).length ≤ db.deliveries.rows.length :=
    List.length_filter_le _ _
  have hord := orderBy_ordered DeliveryRow.nextRetryAt (limitArg db.deliveries.rows.length)
    (dueRows db r.nextRetryAt)
  have hmem := hord.mem_of_length_le (by unfold limitArg; omega) hdue
  obtain ⟨e, he⟩ := mapRows_of_not_fits hmem h
  obtain ⟨ds, hok, -⟩ := hserves r.nextRetryAt db.deliveries.rows.length (.error e) ⟨_, hord, he⟩
  cases hok

/-- An operation that does not fit leaves a row that fails a call. -/
theorem not_serves_of_not_fits {ops : List Op} {db : Db} {op : Op} (hop : ¬op.Fits db)
    (hsize : (op.run db).deliveries.rows.length < 2 ^ 63) : ¬Serves ops (op.run db) := by
  cases op with
  | insert d now =>
    simp only [Op.Fits, not_or, Bool.not_eq_true, Option.isSome_eq_false_iff,
      Option.isNone_iff_eq_none] at hop
    obtain ⟨hrow, hkey, hmax⟩ := hop
    obtain ⟨db', hins⟩ := insert_of_fresh hrow hkey now
    have hrun : Op.run db (.insert d now) = db' := by simp [Op.run, hins]
    have hnew : (Op.run db (.insert d now)).row d.id = some (newRow d now) := by
      rw [hrun, (row_insert hins d.id).2.1, if_pos rfl]
    refine not_serves_of_row hsize hnew rfl fun hfits => hmax ?_
    have hlt : (d.maxAttempts : Int) < 2 ^ 31 := hfits.2
    omega
  | scheduleRetry id nextMs err now =>
    simp only [Op.Fits, not_forall] at hop
    obtain ⟨r, hr, hlarge⟩ := hop
    have hnew : (Op.run db (.scheduleRetry id nextMs err now)).row id =
        some (asRetried nextMs err now r) := by
      refine (Table.get?_update_at db.deliveries id (asRetried nextMs err now) (fun _ => rfl)
        id).trans ?_
      rw [if_pos rfl]
      exact Option.map_eq_some_iff.2 ⟨r, hr, rfl⟩
    exact not_serves_of_row hsize hnew rfl fun hfits => hlarge hfits.1
  | claim | markDelivered | deadLetter | replayDeadLetter | resetStaleInFlight =>
    exact absurd trivial hop

/-- While every operation fits, `list_due` lists what is due; an operation that
does not fit leaves a store whose calls can fail.  SQLite numbers the rows of a
table by positive 64-bit integers, so there are fewer than `2 ^ 63`. -/
theorem list_due_exact (ops : List Op) (db : Db) :
    (fitting.Reaches ops db → db.deliveries.rows.length < 2 ^ 63 → Serves ops db) ∧
      ∀ op, operations.Reaches ops db → ¬op.Fits db →
        (op.run db).deliveries.rows.length < 2 ^ 63 → ¬Serves (op :: ops) (op.run db) := by
  refine ⟨fun h hsize => ?_, fun op _ hop hsize => not_serves_of_not_fits hop hsize⟩
  exact serves_of_fits (sourced h.of_restrict)
    (fun k r hr hpending => (live_fits h k r hr).2 (.inl hpending)) hsize

/-! ## One row and the others -/

/-- A submission under the largest `MAX_ATTEMPTS` that is read back. -/
def readable : NewDelivery where
  id := 1
  idempotencyKey := none
  destination := "http://a.test"
  payload := []
  maxAttempts := 2 ^ 31 - 1

/-- A submission under one more. -/
def unreadable : NewDelivery := { readable with id := 2, maxAttempts := 2 ^ 31 }

def readableOps : List Op := [.claim 1 1, .insert readable 0]

def readableDb : Db := Op.run (Op.run Db.empty (.insert readable 0)) (.claim 1 1)

theorem list_due_exact_readable :
    Serves readableOps readableDb ∧
      ¬Serves (.insert unreadable 2 :: readableOps) (Op.run readableDb (.insert unreadable 2)) := by
  have hinsert : Op.Fits Db.empty (.insert readable 0) := .inr (.inr (by decide))
  have hclaim : Op.Fits (Op.run Db.empty (.insert readable 0)) (.claim 1 1) := trivial
  have hstored : fitting.Reaches [.insert readable 0] (Op.run Db.empty (.insert readable 0)) :=
    (System.Reaches.init rfl).step ⟨hinsert, rfl⟩
  have hfits : fitting.Reaches readableOps readableDb := hstored.step ⟨hclaim, rfl⟩
  have hunfit : ¬Op.Fits readableDb (.insert unreadable 2) := by
    rintro (hrow | hkey | hmax)
    · cases hrow
    · cases hkey
    · exact absurd hmax (by decide)
  exact ⟨(list_due_exact _ _).1 hfits (by decide),
    (list_due_exact _ _).2 _ hfits.of_restrict hunfit (by decide)⟩

/-- After a submission with the limit `2 ^ 31`, which is a `u32`, `list_due` fails. -/
theorem list_due_stopped :
    ¬∀ ops db, operations.Reaches ops db →
      (∀ d now, Op.insert d now ∈ ops → d.maxAttempts < 2 ^ 32) →
      db.deliveries.rows.length < 2 ^ 63 → Serves ops db := by
  intro h
  have hreach :
      operations.Reaches [.insert unreadable 0] (Op.run Db.empty (.insert unreadable 0)) :=
    (System.Reaches.init rfl : operations.Reaches [] Db.empty).step (l := .insert unreadable 0) rfl
  have hserves := h _ _ hreach (fun d now hmem => ?_) (by decide)
  · exact not_serves_of_row (by decide) (k := 2) rfl rfl
      (fun hfits => absurd hfits.2 (by decide)) hserves
  · cases List.mem_singleton.1 hmem
    decide

end Q
end WebhookDelivery
