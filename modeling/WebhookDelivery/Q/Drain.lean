/-
A worker of `q` can always finish, unless there is a row that it cannot read.

A worker that starts late enough takes back whatever is in flight, and then works off the
queue by itself, twenty deliveries at a time.  The clock has to come to such a time, which
with a threshold of centuries it does not.  What no worker can finish at any time is a
delivery whose counters do not fit: `list_due` fails on such a row, or leaves it out, and so
no copy of it is ever made.
-/
import WebhookDelivery.Run.Progress
import WebhookDelivery.Q.Labels
import WebhookDelivery.Q.Listing
import WebhookDelivery.Q.Ownership

namespace WebhookDelivery
namespace Q

open Sql Run

variable {ω : Type} [DecidableEq ω]

/-- A step of the worker `w`, at a clock reading from `T` to `L`: no call of the database
fails, every check passes and every send succeeds. -/
def Label.works (w : ω) (T L : Int) : Label ω → Bool
  | .start v now | .listDue v now _ | .claim v _ now _ | .endPass v now =>
    decide (v = w) && decide (T ≤ now ∧ now ≤ L)
  | .send v _ _ out => decide (v = w) && decide (out = .delivered)
  | .record v _ _ => decide (v = w)
  | .insert .. | .replay .. | .refuse .. | .dbFail _ | .restart _ => false

/-- The worker by itself, its clock between `T` and `L`. -/
def working (w : ω) (T L : Int) : System (State ω) (Label ω) :=
  (system ω).restrict fun _ l => l.works w T L = true

/-! ## A batch -/

/-- A listed delivery whose row is pending is claimed, sent and marked delivered. -/
theorem deliver_path {T L : Int} (hTL : T ≤ L) {s : State ω} {w : ω} {d : Delivery}
    {rest : List Delivery} (hpc : s.pc w = .batch (d :: rest)) {r : DeliveryRow}
    (hr : s.db.row d.id = some r) (hpending : r.status = .pending) :
    ∃ h t, (working w T L).Path s h t ∧ t.pc w = .batch rest ∧
      ∀ k, t.db.row k =
        if k = d.id then some (asDelivered T (asClaimed T r)) else s.db.row k := by
  have hwon : (claim s.db d.id T).1 = true := (claim_fst s.db d.id T).2 ⟨r, hr, hpending⟩
  let s₁ := State.setPc { s with db := (claim s.db d.id T).2 } w
    (if (claim s.db d.id T).1 then .claimed d rest else .batch rest)
  have hpc₁ : s₁.pc w = .claimed d rest := by
    rw [State.setPc_self, if_pos hwon]
  have h₁ : (working w T L).step s (.claim w d T (claim s.db d.id T).1) s₁ :=
    ⟨by simp [Label.works, hTL], Step.claim s w d rest T hpc⟩
  let s₂ := s₁.setPc w (.sent d .delivered rest)
  have h₂ : (working w T L).step s₁ (.send w d (d.attempts + 1) .delivered) s₂ :=
    ⟨by simp [Label.works], Step.send s₁ w d rest (.status 200) hpc₁⟩
  let c : Draw := { rnd := 0, entryId := 0, clock := T, now := T }
  have hrec : recordOutcome s₂.cfg c s₂.db d .delivered = .ok (markDelivered s₁.db d.id T) := rfl
  have h₃ : (working w T L).step s₂ (.record w d .delivered)
      (State.setPc { s₂ with db := markDelivered s₁.db d.id T } w (.batch rest)) :=
    ⟨by simp [Label.works],
      Step.record s₂ w d .delivered rest c _ (State.setPc_self ..) hrec⟩
  refine ⟨_, _, ((System.Path.one h₁).cons h₂).cons h₃, State.setPc_self .., fun k => ?_⟩
  show (markDelivered s₁.db d.id T).row k = _
  rw [(recordOutcome_ok hrec k).1]
  show (if k = d.id then ((claim s.db d.id T).2.row d.id).map (asDelivered T)
    else (claim s.db d.id T).2.row k) = _
  rw [row_claim, row_claim, if_pos rfl, hr, Option.map_some, if_pos hpending]
  by_cases hk : k = d.id
  · rw [if_pos hk, if_pos hk, Option.map_some]
  · rw [if_neg hk, if_neg hk, if_neg hk]

/-- A worker delivers a whole batch of deliveries that are still pending, and goes back to
polling. -/
theorem work_off (w : ω) {T L : Int} (hTL : T ≤ L) {ds : List Delivery} {s : State ω}
    (hpc : s.pc w = .batch ds) (hnodup : (ds.map Delivery.id).Nodup)
    (hpending : ∀ d ∈ ds, ∃ r, s.db.row d.id = some r ∧ r.status = .pending) :
    ∃ h t, (working w T L).Path s h t ∧ t.pc w = .polling ∧
      (∀ k, k ∉ ds.map Delivery.id → t.db.row k = s.db.row k) ∧
      ∀ k ∈ ds.map Delivery.id, ∀ r, t.db.row k = some r → r.status = .delivered := by
  induction ds generalizing s with
  | nil =>
    have hend : (working w T L).step s (.endPass w T) (s.setPc w .polling) :=
      ⟨by simp [Label.works, hTL], Step.endPass s w T hpc⟩
    exact ⟨_, _, .one hend, State.setPc_self .., fun _ _ => rfl,
      fun _ hk => absurd hk List.not_mem_nil⟩
  | cons d rest ih =>
    rw [List.map_cons, List.nodup_cons] at hnodup
    obtain ⟨r, hr, hst⟩ := hpending d List.mem_cons_self
    obtain ⟨h₁, s₁, hpath₁, hpc₁, hrow₁⟩ := deliver_path hTL hpc hr hst
    have hother : ∀ k, k ≠ d.id → s₁.db.row k = s.db.row k := by
      intro k hk
      rw [hrow₁, if_neg hk]
    have hrest : ∀ d' ∈ rest, ∃ r, s₁.db.row d'.id = some r ∧ r.status = .pending := by
      intro d' hd'
      have hne : d'.id ≠ d.id := fun e => hnodup.1 (e ▸ List.mem_map_of_mem hd')
      rw [hother _ hne]
      exact hpending d' (List.mem_cons_of_mem d hd')
    obtain ⟨h₂, t, hpath₂, hpoll, hkeep, hdone⟩ := ih hpc₁ hnodup.2 hrest
    refine ⟨_, t, hpath₁.trans hpath₂, hpoll, fun k hk => ?_, fun k hk r' hr' => ?_⟩
    · rw [List.map_cons, List.mem_cons, not_or] at hk
      rw [hkeep k hk.2, hother k hk.1]
    · by_cases hin : k ∈ rest.map Delivery.id
      · exact hdone k hin r' hr'
      · obtain rfl : k = d.id := (List.mem_cons.1 hk).resolve_right hin
        rw [hkeep _ hin, hrow₁, if_pos rfl] at hr'
        obtain rfl := Option.some.inj hr'
        rfl

/-! ## A start -/

/-- The row can be listed at `now`, or it needs no delivery: it has had one, or it is the
dead letter that it was in `before`. -/
def Ready (before : Db) (now : Int) (db : Db) : Prop :=
  ∀ id r, db.row id = some r →
    (r.status = .pending ∧ r.nextRetryAt ≤ now ∧ r.Counts ∧ r.Fits) ∨ r.status = .delivered ∨
      (before.row id = some r ∧ r.status = .deadLetter)

/-- At `now` what is pending is due, and what is in flight is stale. -/
def Late (now staleMs : Int) (db : Db) : Prop :=
  ∀ id r, db.row id = some r →
    (r.status = .pending → r.nextRetryAt ≤ now) ∧
      (r.status = .inFlight → r.updatedAt ≤ now - staleMs)

/-- A start that comes late enough leaves every live row ready. -/
theorem ready_of_reset {db : Db} {now staleMs : Int}
    (hcounts : ∀ id r, db.row id = some r → r.Counts)
    (hfits : ∀ id r, db.row id = some r → r.Live → r.Fits)
    (hlate : Late now staleMs db) :
    Ready db now (resetStaleInFlight db now staleMs) := by
  intro id r hr
  rw [row_resetStaleInFlight] at hr
  obtain ⟨r₀, hr₀, rfl⟩ := Option.map_eq_some_iff.1 hr
  obtain ⟨hdue, hold⟩ := hlate id r₀ hr₀
  by_cases hstale : isStale now staleMs r₀ = true
  · rw [if_pos hstale]
    have hflight := (isStale_iff.1 hstale).1
    exact .inl ⟨rfl, le_refl now, hcounts id r₀ hr₀, hfits id r₀ hr₀ (.inr hflight)⟩
  · rw [if_neg hstale]
    cases hst : r₀.status with
    | pending => exact .inl ⟨rfl, hdue hst, hcounts id r₀ hr₀, hfits id r₀ hr₀ (.inl hst)⟩
    | inFlight => exact absurd (isStale_iff.2 ⟨hst, hold hst⟩) hstale
    | delivered => exact .inr (.inl rfl)
    | deadLetter => exact .inr (.inr ⟨hr₀, rfl⟩)

/-! ## Rounds -/

def isWaiting (r : DeliveryRow) : Bool := r.status = .pending

/-- One pass over a queue that is ready leaves fewer rows waiting. -/
theorem pass_path {T L : Int} (hTL : T ≤ L) {before : Db} {s : State ω} {w : ω}
    (hpc : s.pc w = .polling) (hready : Ready before L s.db)
    (hwaiting : 0 < (s.db.deliveries.select isWaiting).length) :
    ∃ h t, (working w T L).Path s h t ∧ (t.pc w = .polling ∧ Ready before L t.db) ∧
      (t.db.deliveries.select isWaiting).length < (s.db.deliveries.select isWaiting).length := by
  let rows := orderBy DeliveryRow.nextRetryAt 20 (s.db.deliveries.select (isDue L))
  have hord : Ordered DeliveryRow.nextRetryAt 20 (s.db.deliveries.select (isDue L)) rows :=
    orderBy_ordered _ _ _
  have hrow : ∀ r ∈ rows, s.db.row r.id = some r ∧ r.status = .pending := by
    intro r hr
    obtain ⟨hmem, hdue⟩ := List.mem_filter.1 (hord.mem hr)
    exact ⟨Table.get?_of_mem hmem, (of_decide_eq_true hdue).1⟩
  have hreads : ∀ r ∈ rows, r.Counts ∧ r.Fits := by
    intro r hr
    obtain ⟨hget, hpending⟩ := hrow r hr
    rcases hready r.id r hget with h | h | h
    · exact h.2.2
    · rw [hpending] at h
      cases h
    · rw [hpending] at h
      cases h.2
  have hids : (rows.map DeliveryRow.delivery).map Delivery.id = rows.map DeliveryRow.id := by
    rw [List.map_map]
    rfl
  have hlist : ListsDue s.db L 20 (.ok (rows.map DeliveryRow.delivery)) :=
    ⟨rows, hord, mapRows_of_fits (fun r hr => (hreads r hr).1) fun r hr => (hreads r hr).2⟩
  have hstep : (working w T L).step s (.listDue w L (rows.map DeliveryRow.delivery))
      (s.setPc w (.batch (rows.map DeliveryRow.delivery))) :=
    ⟨by simp [Label.works, hTL], Step.listDue s w L _ hpc hlist⟩
  obtain ⟨h, t, hpath, hpoll, hkeep, hdone⟩ := work_off w hTL (State.setPc_self s w _) hlist.nodup
    (by
      intro d hd
      obtain ⟨r, hr, rfl⟩ := List.mem_map.1 hd
      exact ⟨r, hrow r hr⟩)
  rw [hids] at hkeep hdone
  refine ⟨_, t, (System.Path.one hstep).trans hpath, ⟨hpoll, fun id r hr => ?_⟩, ?_⟩
  · by_cases hin : id ∈ rows.map DeliveryRow.id
    · exact .inr (.inl (hdone id hin r hr))
    · exact hready id r ((hkeep id hin).symm.trans hr)
  -- Some row is listed, and what waits afterwards has waited before and was not listed.
  · obtain ⟨r₀, hr₀⟩ := List.exists_mem_of_length_pos hwaiting
    obtain ⟨hmem₀, hwaits₀⟩ := List.mem_filter.1 hr₀
    have hpending₀ : r₀.status = .pending := of_decide_eq_true hwaits₀
    have hdue : r₀ ∈ s.db.deliveries.select (isDue L) := by
      refine List.mem_filter.2 ⟨hmem₀, decide_eq_true ⟨hpending₀, ?_⟩⟩
      rcases hready r₀.id r₀ (Table.get?_of_mem hmem₀) with h | h | h
      · exact h.2.1
      · rw [hpending₀] at h
        cases h
      · rw [hpending₀] at h
        cases h.2
    obtain ⟨c, hc⟩ : ∃ c, c ∈ rows := by
      have hlen := hord.length_eq
      have hpos := List.length_pos_of_mem hdue
      rw [if_neg (by decide)] at hlen
      refine List.exists_mem_of_length_pos ?_
      have htwenty : (20 : Int).toNat = 20 := rfl
      omega
    have hgone : ∃ x ∈ s.db.deliveries.select isWaiting, x.id = c.id := by
      obtain ⟨hget, hpending⟩ := hrow c hc
      exact ⟨c, List.mem_filter.2 ⟨Table.mem_of_get? hget, decide_eq_true hpending⟩, rfl⟩
    have hkept : ∀ x ∈ t.db.deliveries.select isWaiting,
        (∃ y ∈ s.db.deliveries.select isWaiting, y.id = x.id) ∧ x.id ∉ [c.id] := by
      intro x hx
      obtain ⟨hmem, hwaits⟩ := List.mem_filter.1 hx
      have hget : t.db.row x.id = some x := Table.get?_of_mem hmem
      have hout : x.id ∉ rows.map DeliveryRow.id := by
        intro hin
        have hdelivered := hdone x.id hin x hget
        rw [of_decide_eq_true hwaits] at hdelivered
        cases hdelivered
      refine ⟨⟨x, List.mem_filter.2 ⟨Table.mem_of_get? ((hkeep _ hout).symm.trans hget), hwaits⟩,
        rfl⟩, fun hin => hout ?_⟩
      rw [List.mem_singleton.1 hin]
      exact List.mem_map_of_mem hc
    have hfewer := Table.length_select_add (List.nodup_singleton c.id) (by
      intro k hk
      rw [List.mem_singleton.1 hk]
      exact hgone) hkept
    rw [List.length_singleton] at hfewer
    omega

/-! ## A row that cannot be read -/

/-- The delivery is not finished, its counters do not fit, and no worker has a copy of it. -/
structure Unread (id : Uuid) (s : State ω) : Prop where
  row : ∃ r, s.db.row id = some r ∧ r.Live ∧ ¬r.Fits
  unlisted : ∀ w, ∀ d ∈ (s.pc w).snapshots, d.id ≠ id

omit [DecidableEq ω] in
theorem fits_of_mapDelivery {r : DeliveryRow} {d : Delivery} (h : mapDelivery r = .ok d) :
    r.Fits := by
  by_contra hfits
  rw [mapDelivery_of_not_fits hfits] at h
  cases h

theorem Unread.step {id : Uuid} {s t : State ω} {l : Label ω} (hs : Unread id s)
    (hst : Step s l t) : Unread id t where
  row := by
    obtain ⟨r, hr, hlive, hfits⟩ := hs.row
    rcases hst.row_unlisted hr hs.unlisted with hr | ⟨w, now, -, -, hr⟩ | ⟨now, hdead, -⟩
    · exact ⟨r, hr, hlive, hfits⟩
    · exact ⟨asReset now r, hr, .inl rfl, hfits⟩
    · rcases hlive with h | h <;> rw [hdead] at h <;> cases h
  unlisted w d hd hid := by
    obtain ⟨r, hr, -, hfits⟩ := hs.row
    rcases hst.snapshots hd with hd | ⟨r', now, ds, -, hr', -, -, hmap⟩
    · exact hs.unlisted w d hd hid
    -- A row that is listed has been read.
    · rw [hid, hr] at hr'
      obtain rfl := Option.some.inj hr'
      exact hfits (fits_of_mapDelivery hmap)

/-- In no run is it sent, and in none is it finished. -/
theorem Unread.path {id : Uuid} {s t : State ω} {h : List (Label ω)} (hs : Unread id s)
    (hst : (system ω).Path s h t) : Unread id t ∧ ∀ l ∈ h, l.sends id = false := by
  induction hst with
  | nil => exact ⟨hs, fun l hl => absurd hl List.not_mem_nil⟩
  | cons _ hl ih =>
    obtain ⟨ht, hnone⟩ := ih
    refine ⟨ht.step hl, fun l' hl' => ?_⟩
    rcases List.mem_cons.1 hl' with rfl | hl'
    · exact Step.not_sent hl ht.unlisted
    · exact hnone l' hl'

/-! ## The drain -/

/-- Every delivery has been delivered, or is the dead letter that it was in `before`. -/
def Finished (before db : Db) : Prop :=
  ∀ id r, db.row id = some r →
    r.status = .delivered ∨ (before.row id = some r ∧ r.status = .deadLetter)

/-- A worker that is started late enough delivers all that can be read. -/
theorem drain_path {s : State ω} (hcounts : ∀ id r, s.db.row id = some r → r.Counts)
    (hfits : ∀ id r, s.db.row id = some r → r.Live → r.Fits) {w : ω} (hpc : s.pc w = .down)
    {T L : Int} (hTL : T ≤ L) (hlate : Late L s.staleMs s.db) :
    ∃ h t, (working w T L).Path s h t ∧ Finished s.db t.db := by
  let s₁ := State.setPc { s with db := resetStaleInFlight s.db L s.staleMs } w .polling
  have hstart : (working w T L).step s (.start w L) s₁ :=
    ⟨by simp [Label.works, hTL], Step.start s w L hpc⟩
  let P (u : State ω) : Prop := u.pc w = .polling ∧ Ready s.db L u.db
  have hP : P s₁ := ⟨State.setPc_self .., ready_of_reset hcounts hfits hlate⟩
  obtain ⟨h, t, hpath, ⟨-, hready⟩, hzero⟩ := System.exists_path_zero (P := P)
    (μ := fun u => (u.db.deliveries.select isWaiting).length)
    (fun u hu hwaiting => pass_path hTL hu.1 hu.2 hwaiting) s₁ hP
  refine ⟨_, t, (System.Path.one hstart).trans hpath, fun id r hr => ?_⟩
  rcases hready id r hr with ⟨hpending, -⟩ | hdone
  · have hmem : r ∈ t.db.deliveries.select isWaiting :=
      List.mem_filter.2 ⟨Table.mem_of_get? hr, decide_eq_true hpending⟩
    have hpos := List.length_pos_of_mem hmem
    omega
  · exact hdone

/-- When the workers are down and the clock will come to `L`, at which nothing has to wait
any longer, any of them can finish by itself by then, if and only if all that is unfinished
can be read.  A delivery that cannot be read is sent in no run at all, and none finishes
it. -/
theorem drains_iff {h : List (Label ω)} {s : State ω} (hs : (system ω).Reaches h s)
    (hdown : ∀ w, s.pc w = .down) (w : ω) {T L : Int} (hTL : T ≤ L)
    (hlate : Late L s.staleMs s.db) :
    ((∃ h' t, (working w T L).Path s h' t ∧ Finished s.db t.db) ↔
      ∀ id r, s.db.row id = some r → r.Live → r.Fits) ∧
    ∀ id r, s.db.row id = some r → r.Live → ¬r.Fits → ∀ h' t, (system ω).Path s h' t →
      (∃ r', t.db.row id = some r' ∧ r'.Live ∧ ¬r'.Fits) ∧ ∀ l ∈ h', l.sends id = false := by
  have hunread : ∀ id r, s.db.row id = some r → r.Live → ¬r.Fits → Unread id s := by
    intro id r hr hlive hfits
    refine ⟨⟨r, hr, hlive, hfits⟩, fun v d hd => ?_⟩
    rw [hdown v] at hd
    exact absurd hd List.not_mem_nil
  refine ⟨⟨?_, fun hfits => ?_⟩, fun id r hr hlive hfits h' t hpath => ?_⟩
  · rintro ⟨h', t, hpath, hdone⟩ id r hr hlive
    by_contra hfits
    obtain ⟨⟨r', hr', hlive', -⟩, -⟩ := ((hunread id r hr hlive hfits).path hpath.of_restrict).1
    rcases hdone id r' hr' with h | ⟨-, h⟩
    · rcases hlive' with h' | h' <;> rw [h] at h' <;> cases h'
    · rcases hlive' with h' | h' <;> rw [h] at h' <;> cases h'
  · obtain ⟨ops, hops⟩ := operations_of_reaches hs
    exact drain_path (fun id r hr => (sourced hops id r hr).counts) hfits (hdown w) hTL
      hlate
  · obtain ⟨ht, hnone⟩ := (hunread id r hr hlive hfits).path hpath
    exact ⟨ht.row, hnone⟩

/-- One submission is stored, and neither of two workers runs. -/
def filed (d : NewDelivery) : State Bool := duo (Op.run Db.empty (.insert d 0)) .down .down

theorem insert_filed {d : NewDelivery} (hkey : d.idempotencyKey = none) :
    insert Db.empty d 0 = .ok (filed d).db := by
  have hfresh : Db.empty.row d.id = none := rfl
  obtain ⟨db, hins⟩ := insert_keyless hkey hfresh 0
  simp only [filed, duo, Op.run, hins]

theorem filed_reached {d : NewDelivery} (hkey : d.idempotencyKey = none) :
    (system Bool).Reaches [.insert d 0] (filed d) := by
  have hinit : (system Bool).Reaches [] (duo Db.empty .down .down) :=
    .init ⟨rfl, fun w => by cases w <;> rfl⟩
  exact hinit.step (Step.insert _ d 0 _ (insert_filed hkey))

/-- The largest limit that can be read, and one more; and a hook that was left in flight when
the process died. -/
theorem drains_iff_readable :
    (∃ h t, (working false 5000 6000).Path (filed readable) h t ∧
      Finished (filed readable).db t.db) ∧
    (¬∃ h t, (working false 5000 6000).Path (filed unreadable) h t ∧
      Finished (filed unreadable).db t.db) ∧
    ∃ h t, (working false 5000 6000).Path (duo claimedDb .down .down) h t ∧
      Finished claimedDb t.db := by
  have hdown : ∀ d w, (filed d).pc w = .down := fun d w => by cases w <;> rfl
  have hlate : ∀ d, (filed d).db.deliveries.rows = [newRow d 0] →
      Late 6000 (filed d).staleMs (filed d).db := by
    intro d hrows id r hr
    have hmem : r ∈ (filed d).db.deliveries.rows := Table.mem_of_get? hr
    rw [hrows] at hmem
    obtain rfl := List.mem_singleton.1 hmem
    exact ⟨fun _ => by show (0 : Int) ≤ 6000; decide, fun h => by cases h⟩
  have hread := (drains_iff (filed_reached (d := readable) rfl) (hdown _) false (T := 5000)
    (by decide) (hlate readable rfl)).1
  have hunread := (drains_iff (filed_reached (d := unreadable) rfl) (hdown _) false (T := 5000)
    (by decide) (hlate unreadable rfl)).1
  have hdied : (system Bool).Reaches _ (duo claimedDb .down .down) :=
    (claiming_reached.step (Step.restart _ quick)).of_eq (duo_ext rfl rfl rfl rfl)
  have hone : ∀ id r, claimedDb.row id = some r → r = asClaimed 0 (newRow hook 0) :=
    fun id r hr => List.mem_singleton.1 (Table.mem_of_get? hr)
  have hstale : Late 6000 (duo claimedDb .down .down).staleMs claimedDb := by
    intro id r hr
    obtain rfl := hone id r hr
    exact ⟨fun h => (nomatch h), fun _ => by decide⟩
  have hleft := (drains_iff hdied (fun w => by cases w <;> rfl) false (T := 5000) (by decide)
    hstale).1
  refine ⟨hread.2 fun id r hr _ => ?_, fun h => ?_, hleft.2 fun id r hr _ => ?_⟩
  · obtain rfl : r = newRow readable 0 := List.mem_singleton.1 (Table.mem_of_get? hr)
    exact ⟨by decide, by decide⟩
  · exact absurd (hunread.1 h 2 (newRow unreadable 0) rfl (.inl rfl)).2 (by decide)
  · obtain rfl := hone id r hr
    exact ⟨by decide, by decide⟩

end Q
end WebhookDelivery
