/-
What a 202 promises.

The row of an accepted request is there before the answer is, and from then on
no step changes the columns the request has set.  The workers send what they
have read of the row, and mark it delivered after a send that got a 2xx status.
-/
import WebhookDelivery.Q.Labels
import WebhookDelivery.Q.Ownership
import WebhookDelivery.Q.Webhook

namespace WebhookDelivery
namespace Q

open Sql Run

variable {ω : Type}

/-- Only a response with a 2xx status has the outcome. -/
def Is2xx (out : Outcome) : Prop :=
  ∀ resp : Response, resp.outcome = out → ∃ code, resp = .status code ∧ 200 ≤ code ∧ code ≤ 299

theorem is2xx_delivered : Is2xx .delivered := by
  intro resp h
  cases resp with
  | failed e => cases h
  | status code =>
    refine ⟨code, rfl, ?_⟩
    simp only [Response.outcome, classify] at h
    split at h
    · assumption
    · split at h <;> cases h

/-- The history has a send of `id` that got a 2xx status. -/
def Delivered (id : Uuid) (h : List (Label ω)) : Prop :=
  ∃ w d n out, Label.send w d n out ∈ h ∧ d.id = id ∧ Is2xx out

/-- What holds of the delivery `d` once it has been accepted; `h` is the history
since. -/
structure Recorded (d : NewDelivery) (h : List (Label ω)) (t : State ω) : Prop where
  row : ∃ r, t.db.row d.id = some r ∧ r.destination = d.destination ∧
    r.idempotencyKey = d.idempotencyKey ∧ r.payload = d.payload ∧
    (r.status = .delivered → Delivered d.id h)
  snapshots : ∀ w, ∀ d' ∈ (t.pc w).snapshots, d'.id = d.id → d'.payload = d.payload
  sent : ∀ w d' rest, t.pc w = .sent d' .delivered rest → d'.id = d.id → Delivered d.id h
  sends : ∀ w d' n out, Label.send w d' n out ∈ h → d'.id = d.id → d'.payload = d.payload

theorem Delivered.cons {id : Uuid} {h : List (Label ω)} (hd : Delivered id h) (l : Label ω) :
    Delivered id (l :: h) := by
  obtain ⟨w, d, n, out, hmem, hid, hout⟩ := hd
  exact ⟨w, d, n, out, List.mem_cons_of_mem l hmem, hid, hout⟩

variable [DecidableEq ω]

theorem Recorded.step {d : NewDelivery} {h : List (Label ω)} {s t : State ω} {l : Label ω}
    (hs : Recorded d h s) (hst : Step s l t) : Recorded d (l :: h) t := by
  obtain ⟨r, hr, hdest, hkey, hpay, hdone⟩ := hs.row
  obtain ⟨r', hr', hsame⟩ := hst.same hr
  constructor
  · refine ⟨r', hr', hsame.destination.trans hdest, hsame.idempotencyKey.trans hkey,
      hsame.payload.trans hpay, fun hdel => ?_⟩
    rcases hst.final hr' (.inl hdel) with ⟨r₀, hr₀, hst₀⟩ | hfinal
    · rw [hr] at hr₀
      cases hr₀
      exact (hdone (hst₀.trans hdel)).cons l
    · rw [hdel] at hfinal
      obtain ⟨w, d', rfl, hid⟩ := Label.of_final_delivered hfinal
      obtain ⟨rest, hpc⟩ := hst.recorded
      exact (hs.sent w d' rest hpc hid).cons _
  · intro w d' hd' hid
    rcases hst.snapshots hd' with hd' | ⟨r₀, now, ds, -, hr₀, -, -, hmap⟩
    · exact hs.snapshots w d' hd' hid
    · rw [hid, hr] at hr₀
      cases hr₀
      exact (mapDelivery_ok hmap).2.2.1.trans hpay
  · intro w d' rest hpc hid
    rcases hst.sent hpc with hpc | rfl
    · exact (hs.sent w d' rest hpc hid).cons l
    · exact ⟨w, d', d'.attempts + 1, .delivered, List.mem_cons_self, hid, is2xx_delivered⟩
  · intro w d' n out hmem hid
    rcases List.mem_cons.1 hmem with rfl | hmem
    · obtain ⟨⟨rest, hpc⟩, -⟩ := hst.claimed
      refine hs.snapshots w d' ?_ hid
      rw [hpc]
      exact List.mem_cons_self
    · exact hs.sends w d' n out hmem hid

/-- The row of an accepted delivery is new, and no worker knows of it. -/
theorem Recorded.start {h : List (Label ω)} {s : State ω} (hs : (system ω).Reaches h s)
    {d : NewDelivery} {now : Int} {db' : Db} (hins : insert s.db d now = .ok db') :
    Recorded d [] { s with db := db' } := by
  obtain ⟨hnone, hrow, -⟩ := row_insert hins d.id
  have hunknown : ∀ w, ∀ d' ∈ (s.pc w).snapshots, d'.id ≠ d.id := by
    intro w d' hd' hid
    obtain ⟨r, hr, -⟩ := (limited hs).snapshots w d' hd'
    rw [hid, hnone] at hr
    cases hr
  constructor
  · exact ⟨newRow d now, hrow.trans (if_pos rfl), rfl, rfl, rfl, fun hdel => nomatch hdel⟩
  · intro w d' hd' hid
    exact absurd hid (hunknown w d' hd')
  · intro w d' rest hpc hid
    have hpc : s.pc w = .sent d' .delivered rest := hpc
    refine absurd hid (hunknown w d' ?_)
    rw [hpc]
    exact List.mem_cons_self
  · intro w d' n out hmem
    exact absurd hmem List.not_mem_nil

/-- Whatever has been sent has a row. -/
theorem sent_has_row {h : List (Label ω)} {s : State ω} (hs : (system ω).Reaches h s) :
    ∀ w d n out, Label.send w d n out ∈ h → ∃ r, s.db.row d.id = some r := by
  refine hs.invariant (I := fun h s => ∀ w d n out, Label.send w d n out ∈ h →
    ∃ r, s.db.row d.id = some r) (fun s _ w d n out hmem => absurd hmem List.not_mem_nil) ?_
  intro h s l t hr hI hst w d n out hmem
  have hrow : ∃ r, s.db.row d.id = some r := by
    rcases List.mem_cons.1 hmem with rfl | hmem
    · obtain ⟨⟨rest, hpc⟩, -⟩ := hst.claimed
      obtain ⟨r, hr, -⟩ := (limited hr).snapshots w d (by rw [hpc]; exact List.mem_cons_self)
      exact ⟨r, hr⟩
    · exact hI w d n out hmem
  obtain ⟨r, hr⟩ := hrow
  obtain ⟨r', hr', -⟩ := hst.same hr
  exact ⟨r', hr'⟩

/-- A request answered with 202 has its row from then on, as the request has it.
Every send of the delivery carries the text of its `data`, and it is delivered
only after a send that got a 2xx status. -/
theorem accepted_is_recorded {h : List (Label ω)} {s : State ω} (hs : (system ω).Reaches h s)
    {env : Env} {cfg : ApiConfig} {policy : SsrfPolicy} {headers : HeaderMap}
    {body : List UInt8} {instant : Nat} {id i : Uuid} {dns : Dns} {now : Int} {fault : Bool}
    {later db' : Db} {limiter limiter' : RateLimiter} {status : String}
    (hacc : webhookHandler env cfg policy headers body instant id dns now fault later limiter
      s.db = (.ok (.accepted i status), limiter', db')) :
    ∃ req, env.fromSlice body = some req ∧
      (∃ d, (system ω).step s (.insert d now) { s with db := db' }) ∧
      ∀ h' t, (system ω).Path { s with db := db' } h' t →
        (∃ r, t.db.row i = some r ∧ r.destination = req.destination ∧
          r.idempotencyKey = idempotencyKey headers ∧ r.payload = asBytes req.data ∧
          (r.status = .delivered → Delivered i h')) ∧
        ∀ w d n out, Label.send w d n out ∈ h' ++ h → d.id = i → d.payload = asBytes req.data := by
  obtain ⟨rfl, req, -, -, hreq, -, -, hins⟩ := webhookHandler_accepted hacc
  refine ⟨req, hreq, ⟨_, Step.insert s _ now db' hins⟩, fun h' t hpath => ?_⟩
  have hrec := hpath.invariant (Recorded.start hs hins) fun _ _ _ _ _ hI hst => hI.step hst
  refine ⟨hrec.row, fun w d n out hmem hid => ?_⟩
  rcases List.mem_append.1 hmem with hmem | hmem
  · exact hrec.sends w d n out hmem hid
  · obtain ⟨r, hr⟩ := sent_has_row hs w d n out hmem
    have hnone := (row_insert hins i).1
    have hid : d.id = i := hid
    rw [hid] at hr
    rw [hr] at hnone
    cases hnone

/-! ## A request and a crash -/

def noteCfg : ApiConfig := { apiKeys := ["key-1"], hmacSecret := none, maxAttempts := 8 }

def noteHeaders : HeaderMap
  | .authorization => [.text "Bearer key-1"]
  | .idempotencyKey => [.text "note-1"]
  | .xWebhookSignature => []

def noteBody : List UInt8 :=
  asBytes "\x7b\"data\": \x7b\x7d, \"destination\": \"http://a.test\"\x7d"

/-- The answer to the request on an empty database. -/
def noteAnswer : Except ApiError Reply × RateLimiter × Db :=
  webhookHandler noteEnv noteCfg .default noteHeaders noteBody 0 1 publicDns 0 false Db.empty
    (RateLimiter.new 1 60000000000) Db.empty

/-- The row is there after a crash and the start of a worker. -/
theorem accepted_is_recorded_note :
    ∃ r, (resetStaleInFlight noteAnswer.2.2 0 (asI64 1000)).row 1 = some r ∧
      r.destination = "http://a.test" ∧ r.idempotencyKey = some "note-1" ∧
      r.payload = asBytes "\x7b\x7d" := by
  have h₀ : (system Bool).Reaches [] (duo Db.empty .down .down) :=
    .init ⟨rfl, fun w => by cases w <;> rfl⟩
  have hacc : noteAnswer = (.ok (.accepted 1 "pending"), noteAnswer.2.1, noteAnswer.2.2) :=
    Prod.ext rfl rfl
  obtain ⟨req, hreq, -, hall⟩ := accepted_is_recorded h₀ hacc
  cases hreq
  let s : State Bool := duo noteAnswer.2.2 .down .down
  have hpath : (system Bool).Path s [.start false 0, .restart quick] _ :=
    (System.Path.one (Step.restart s quick)).cons (Step.start _ false 0 rfl)
  obtain ⟨⟨r, hr, hdest, hkey, hpay, -⟩, -⟩ := hall _ _ hpath
  exact ⟨r, hr, hdest, hkey, hpay⟩

end Q
end WebhookDelivery
