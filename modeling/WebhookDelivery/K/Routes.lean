/-
The HTTP endpoints of the `k` service.

`post_webhook` checks a request from the outside in, the size of its body, its
JSON and its destination, and inserts the job last, so an answer other than 202
has left the table alone and a 202 is a row that stays.  The dead-letter
endpoints read and requeue the rows with status `dead`.
-/
import WebhookDelivery.K.DeadLetters
import WebhookDelivery.K.Destination

namespace WebhookDelivery
namespace K

open Sql Run
open Net (IpAddr)

variable {F : Formats} {ω : Type}

/-! ## Errors and their answers -/

inductive ApiError
  | validation (msg : String)
  | payloadTooLarge
  | internal (e : String)

/-- The status and the `error` text of the answer.  The text of an internal error
is only logged. -/
def ApiError.response : ApiError → Nat × String
  | .validation msg => (400, msg)
  | .payloadTooLarge => (413, "payload too large")
  | .internal _ => (500, "internal server error")

/-- The `Display` of a `SecurityError`; `display` is that of an address. -/
def SecurityError.text (display : IpAddr → String) : SecurityError → String
  | .invalidUrl e => s!"destination URL is invalid: {e}"
  | .schemeNotAllowed scheme =>
    s!"URL scheme '{scheme}' is not allowed; only http and https are permitted"
  | .credentialsNotAllowed => "destination URL must not contain credentials (userinfo)"
  | .unresolvableHost e => s!"destination host could not be resolved: {e}"
  | .privateAddressBlocked ip =>
    s!"destination resolves to blocked address {display ip} (private/loopback/link-local/reserved)"

/-- `security_error_to_api`, of the errors of `validate_destination`. -/
def securityErrorToApi (display : IpAddr → String) (e : SecurityError) : ApiError :=
  .validation (e.text display)

/-- `enforce_size`. -/
def enforceSize (len max : Nat) : Except ApiError Unit :=
  if max < len then .error .payloadTooLarge else .ok ()

/-! ## `POST /webhook` -/

variable (F) in
structure WebhookRequest where
  data : F.Value
  destination : String

structure ApiConfig where
  maxAttempts : Int
  maxPayloadBytes : Nat
  allowPrivateDestinations : Bool

variable (F) in
/-- What the handler uses of other crates: `serde_json::from_slice`, the parser of
URLs with the resolver, and the `Display` of an address. -/
structure ApiEnv where
  fromSlice : List UInt8 → Except String (WebhookRequest F)
  net : Env
  display : IpAddr → String

/-- The checks of `post_webhook`, in their order. -/
def checkRequest (env : ApiEnv F) (cfg : ApiConfig) (body : List UInt8) :
    Except ApiError (WebhookRequest F) :=
  match enforceSize body.length cfg.maxPayloadBytes with
  | .error e => .error e
  | .ok _ =>
    match env.fromSlice body with
    | .error e => .error (.validation s!"invalid JSON body: {e}")
    | .ok req =>
      match validateDestination env.net req.destination cfg.allowPrivateDestinations with
      | .error e => .error (securityErrorToApi env.display e)
      | .ok _ => .ok req

/-- `id` is the fresh uuid, and `fault` an insert that SQLite fails for reasons of
its own. -/
def postWebhook (env : ApiEnv F) (cfg : ApiConfig) (body : List UInt8) (id : Uuid)
    (now : F.DateTime) (fault : Option String) (t : Jobs F) : Except ApiError Uuid × Jobs F :=
  match checkRequest env cfg body with
  | .error e => (.error e, t)
  | .ok req =>
    match fault, insertJob t id req.destination req.data cfg.maxAttempts now with
    | some e, _ => (.error (.internal e), t)
    | none, none => (.error (.internal "UNIQUE constraint failed: jobs.id"), t)
    | none, some t' => (.ok id, t')

/-- The status of the answer. -/
def answerStatus : Except ApiError Uuid → Nat
  | .ok _ => 202
  | .error e => e.response.1

/-! ## The dead-letter endpoints -/

/-- `list_dlq` on the rows its `SELECT` returned. -/
def listDlq (rows : List (JobRow F)) : Except ApiError (List (DlqEntry F)) :=
  match listDead rows with
  | .error _ => .error (.internal "database")
  | .ok dead => .ok (dead.map Job.dlqEntry)

/-- `retry_dlq`: the status of its answer, and the table after it. -/
def retryDlq (t : Jobs F) (id : Uuid) (now : F.DateTime) (fault : Option String) :
    Nat × Jobs F :=
  match fault, requeueDead t id now with
  | some e, _ => ((ApiError.internal e).response.1, t)
  | none, (true, t') => (200, t')
  | none, (false, t') => (404, t')

/-! ## What the handlers do -/

theorem checkRequest_ok_iff {env : ApiEnv F} {cfg : ApiConfig} {body : List UInt8}
    {req : WebhookRequest F} :
    checkRequest env cfg body = .ok req ↔
      body.length ≤ cfg.maxPayloadBytes ∧ env.fromSlice body = .ok req ∧
      ∃ url, validateDestination env.net req.destination cfg.allowPrivateDestinations
        = .ok url := by
  unfold checkRequest enforceSize
  by_cases hlen : cfg.maxPayloadBytes < body.length
  · simp [hlen]
  · have hle : body.length ≤ cfg.maxPayloadBytes := Nat.le_of_not_lt hlen
    simp only [if_neg hlen, hle, true_and]
    cases hbody : env.fromSlice body with
    | error e => simp
    | ok req' =>
      simp only [Except.ok.injEq]
      cases hval : validateDestination env.net req'.destination cfg.allowPrivateDestinations with
      | error e =>
        simp only [reduceCtorEq, false_iff, not_and]
        rintro rfl ⟨url, hurl⟩
        rw [hval] at hurl
        cases hurl
      | ok url =>
        simp only [Except.ok.injEq]
        exact ⟨fun h => ⟨h, url, h ▸ hval⟩, fun h => h.1⟩

/-- A check that fails blames the size of the body first. -/
theorem checkRequest_error {env : ApiEnv F} {cfg : ApiConfig} {body : List UInt8} {e : ApiError}
    (h : checkRequest env cfg body = .error e) :
    e.response.1 = if cfg.maxPayloadBytes < body.length then 413 else 400 := by
  unfold checkRequest enforceSize at h
  by_cases hlen : cfg.maxPayloadBytes < body.length
  · simp only [if_pos hlen, Except.error.injEq] at h
    rw [if_pos hlen, ← h]
    rfl
  · rw [if_neg hlen]
    simp only [if_neg hlen] at h
    split at h
    · obtain rfl := Except.error.inj h
      rfl
    · split at h
      · obtain rfl := Except.error.inj h
        rfl
      · cases h

/-- What an answer says of the table. -/
theorem postWebhook_cases (env : ApiEnv F) (cfg : ApiConfig) (body : List UInt8) (id : Uuid)
    (now : F.DateTime) (fault : Option String) (t : Jobs F) :
    (∃ e, checkRequest env cfg body = .error e ∧
      postWebhook env cfg body id now fault t = (.error e, t)) ∨
    ∃ req, checkRequest env cfg body = .ok req ∧
      ((∃ e, postWebhook env cfg body id now fault t = (.error (.internal e), t) ∧
        (fault.isSome ∨ (t.get? id).isSome)) ∨
      ∃ t', insertJob t id req.destination req.data cfg.maxAttempts now = some t' ∧
        fault = none ∧ postWebhook env cfg body id now fault t = (.ok id, t')) := by
  unfold postWebhook
  cases hcheck : checkRequest env cfg body with
  | error e => exact .inl ⟨e, rfl, rfl⟩
  | ok req =>
    refine .inr ⟨req, rfl, ?_⟩
    cases fault with
    | some e => exact .inl ⟨e, rfl, .inl rfl⟩
    | none =>
      cases hins : insertJob t id req.destination req.data cfg.maxAttempts now with
      | none =>
        exact .inl ⟨"UNIQUE constraint failed: jobs.id", by simp only [hins],
          .inr (Table.insert?_eq_none_iff.1 hins)⟩
      | some t' => exact .inr ⟨t', rfl, rfl, by simp only [hins]⟩

variable [DecidableEq ω]

/-- In every state of a run, `post_webhook` answers 413 to a body over the limit,
whatever is in it, 400 to one that is not a request for a destination that passes,
and 500 only to a request that passes.  Any of these leaves the table alone.  With
202 the job is in the table under the answered id, and stays there as requested. -/
theorem post_webhook_exact {h : List (Label F ω)} {s : State F ω}
    (hs : (system F ω).Reaches h s) (env : ApiEnv F) (cfg : ApiConfig) (body : List UInt8)
    (id : Uuid) (now : F.DateTime) (fault : Option String)
    {res : Except ApiError Uuid} {t : Jobs F}
    (hpost : postWebhook env cfg body id now fault s.jobs = (res, t)) :
    (answerStatus res = 413 ↔ cfg.maxPayloadBytes < body.length) ∧
      (answerStatus res = 400 ↔ body.length ≤ cfg.maxPayloadBytes ∧
        ∀ req, env.fromSlice body = .ok req →
          ∃ e, validateDestination env.net req.destination cfg.allowPrivateDestinations
            = .error e) ∧
      (answerStatus res = 500 → fault.isSome ∨ (s.jobs.get? id).isSome) ∧
      (answerStatus res ≠ 202 → t = s.jobs) ∧
      (answerStatus res = 202 → res = .ok id ∧ ∃ req, env.fromSlice body = .ok req ∧
        Step s (.insertJob id req.destination req.data cfg.maxAttempts now) { s with jobs := t } ∧
        ∀ h' u, (system F ω).Path { s with jobs := t } h' u →
          ∃ r, u.jobs.get? id = some r ∧ r.destination = req.destination ∧
            r.payload = F.toString req.data ∧ r.maxAttempts = cfg.maxAttempts) := by
  have hpass : ∀ req, checkRequest env cfg body = .ok req →
      ¬cfg.maxPayloadBytes < body.length ∧ ¬(body.length ≤ cfg.maxPayloadBytes ∧
        ∀ req, env.fromSlice body = .ok req →
          ∃ e, validateDestination env.net req.destination cfg.allowPrivateDestinations
            = .error e) := by
    intro req hreq
    obtain ⟨hlen, hbody, url, hurl⟩ := checkRequest_ok_iff.1 hreq
    refine ⟨Nat.not_lt.2 hlen, fun hno => ?_⟩
    obtain ⟨e, he⟩ := hno.2 req hbody
    rw [hurl] at he
    cases he
  rcases postWebhook_cases env cfg body id now fault s.jobs with
    ⟨e, hcheck, heq⟩ | ⟨req, hcheck, ⟨e, heq, hfault⟩ | ⟨t', hins, -, heq⟩⟩
  · obtain ⟨rfl, rfl⟩ := Prod.mk.inj (heq.symm.trans hpost)
    have hstatus : answerStatus (.error e) = if cfg.maxPayloadBytes < body.length then 413
        else 400 := checkRequest_error hcheck
    by_cases hlen : cfg.maxPayloadBytes < body.length
    · rw [hstatus, if_pos hlen]
      simp [hlen]
    · rw [hstatus, if_neg hlen]
      have hle : body.length ≤ cfg.maxPayloadBytes := Nat.le_of_not_lt hlen
      refine ⟨by simp [hlen], ?_, by simp, fun _ => rfl, by simp⟩
      refine ⟨fun _ => ⟨hle, fun req hbody => ?_⟩, fun _ => rfl⟩
      cases hval : validateDestination env.net req.destination cfg.allowPrivateDestinations with
      | error e' => exact ⟨e', rfl⟩
      | ok url =>
        rw [checkRequest_ok_iff.2 ⟨hle, hbody, url, hval⟩] at hcheck
        cases hcheck
  · obtain ⟨rfl, rfl⟩ := Prod.mk.inj (heq.symm.trans hpost)
    obtain ⟨hlen, hno⟩ := hpass req hcheck
    exact ⟨by simp [answerStatus, ApiError.response, hlen],
      ⟨by simp [answerStatus, ApiError.response], fun hb => absurd hb hno⟩, fun _ => hfault,
      fun _ => rfl, by simp [answerStatus, ApiError.response]⟩
  · obtain ⟨rfl, rfl⟩ := Prod.mk.inj (heq.symm.trans hpost)
    obtain ⟨hlen, hno⟩ := hpass req hcheck
    obtain ⟨-, hbody, -⟩ := checkRequest_ok_iff.1 hcheck
    have hst : Step s (.insertJob id req.destination req.data cfg.maxAttempts now)
        { s with jobs := t' } := Step.insertJob s id req.destination req.data cfg.maxAttempts now
      t' hins
    refine ⟨by simp [answerStatus, hlen],
      ⟨by simp [answerStatus], fun hb => absurd hb hno⟩, by simp [answerStatus],
      fun hne => absurd rfl hne, fun _ => ⟨rfl, req, hbody, hst, ?_⟩⟩
    intro h' u hpath
    obtain ⟨r, hr, hdest, hpay, hmax, -⟩ := inserted_stays ((hs.step hst).path hpath)
      (List.mem_append_right h' List.mem_cons_self)
    exact ⟨r, hr, hdest, hpay, hmax⟩

/-- One request, to a public address. -/
def publicEnv : ApiEnv Formats.millis where
  fromSlice _ := .ok ⟨"{}", "http://1.1.1.1/"⟩
  net := {
    parseUrl := fun _ => .ok {
      scheme := "http", host := some (.ipv4 (Net.ipv4 1 1 1 1)), username := "",
      password := none, port := none }
    lookupHost := fun _ _ => .ok [] }
  display _ := ""

/-- The table after the request on a fresh database. -/
def publicJobs : Jobs Formats.millis :=
  ⟨[newRow 7 "http://1.1.1.1/" "{}" 3 epoch], List.nodup_singleton _⟩

theorem post_webhook_exact_public :
    postWebhook publicEnv ⟨3, 262144, false⟩ [0x7b, 0x7d] 7 epoch none Table.empty
        = (.ok 7, publicJobs) ∧
      ∃ r, publicJobs.get? 7 = some r ∧ r.destination = "http://1.1.1.1/" ∧ r.payload = "{}" ∧
        r.maxAttempts = 3 := by
  have hinit : (system Formats.millis Unit).Reaches [] ⟨Table.empty, fun _ => .stopped⟩ :=
    .init ⟨rfl, fun _ => rfl⟩
  have hpost : postWebhook publicEnv ⟨3, 262144, false⟩ [0x7b, 0x7d] 7 epoch none Table.empty
      = (.ok 7, publicJobs) := rfl
  obtain ⟨-, -, -, -, haccepted⟩ := post_webhook_exact hinit _ _ _ _ _ _ hpost
  obtain ⟨-, req, hreq, -, hstays⟩ := haccepted rfl
  obtain rfl := Except.ok.inj hreq
  exact ⟨hpost, hstays [] _ .nil⟩

/-! ## A dead letter waits -/

omit [DecidableEq ω] in
/-- The answer of `retry_dlq` is 200 exactly for a dead job, which starts over. -/
theorem retryDlq_spec (t : Jobs F) (id : Uuid) (now : F.DateTime) :
    ((retryDlq t id now none).1 = 200 ↔ ∃ r, t.get? id = some r ∧ r.status = .dead) ∧
      ∀ r, t.get? id = some r → r.status = .dead →
        (retryDlq t id now none).2.get? id = some (asRequeued now r) := by
  have hrow := get?_requeueDead t id now id
  rw [if_pos rfl] at hrow
  rw [← requeueDead_fst t id now]
  unfold retryDlq
  cases hreq : requeueDead t id now with
  | mk requeued t' =>
    rw [hreq] at hrow
    refine ⟨by cases requeued <;> simp, fun r hr hdead => ?_⟩
    rw [hr, Option.map_some, if_pos hdead] at hrow
    cases requeued <;> exact hrow

/-- A step that does not requeue a dead job neither delivers it nor writes its row. -/
theorem Step.dead_row {s t : State F ω} {l : Label F ω} (hst : Step s l t) (howned : Owned s)
    {id : Uuid} {r : JobRow F} (hr : s.jobs.get? id = some r) (hdead : r.status = .dead)
    (hno : l.requeues id = false) : t.jobs.get? id = some r ∧ l.delivers id = false := by
  have hfree : ∀ w job, job ∈ (s.pc w).held → job.id ≠ id := by
    rintro w job hjob rfl
    exact howned.not_dead hjob ⟨r, hr, hdead⟩
  constructor
  · obtain ⟨r', hr', hrow⟩ := hst.row hr
    cases hrow with
    | kept => exact hr'
    | requeueDead now => simp [Label.requeues] at hno
    | claimDueJobs w now jobs job r hjob hid hpend =>
      rw [hpend] at hdead
      cases hdead
    | recordOutcome w job res next now r hjob hid => exact absurd hid (hfree w job hjob)
  · cases hst with
    | deliver w job rest resp hpc =>
      refine decide_eq_false (hfree w job ?_)
      rw [hpc]
      exact List.mem_cons_self
    | insertJob | requeueDead | claimDueJobs | recordOutcome | recordFailed | nextPoll | stop
    | crash | spawnWorkers => rfl

/-- A dead job waits for its retry.  However long the service runs on, its workers
crash and other jobs come and go, until a retry of the job answers 200 its row stays
as it was buried, the job is not delivered, and a retry would answer 200.  The first
that does gives the job back to the workers with no attempt spent. -/
theorem dead_letter_waits {h : List (Label F ω)} {s : State F ω}
    (hs : (system F ω).Reaches h s) {id : Uuid} {r : JobRow F} (hr : s.jobs.get? id = some r)
    (hdead : r.status = .dead) {h' : List (Label F ω)} {u : State F ω}
    (hpath : (system F ω).Path s h' u) (hno : requeues id h' = 0) :
    u.jobs.get? id = some r ∧ (∀ l ∈ h', l.delivers id = false) ∧
      ∀ now, (retryDlq u.jobs id now none).1 = 200 ∧
        ∃ r', (retryDlq u.jobs id now none).2.get? id = some r' ∧ r'.status = .pending ∧
          r'.attempts = 0 ∧ r'.maxAttempts = r.maxAttempts ∧ r'.destination = r.destination ∧
          r'.payload = r.payload := by
  have hrun : requeues id h' = 0 → u.jobs.get? id = some r ∧ ∀ l ∈ h', l.delivers id = false := by
    refine hpath.invariant (I := fun h' u => requeues id h' = 0 →
      u.jobs.get? id = some r ∧ ∀ l ∈ h', l.delivers id = false)
      (fun _ => ⟨hr, fun _ hl => absurd hl List.not_mem_nil⟩) (fun h₁ t l v hp ih hst hcount => ?_)
    have hsplit : requeues id (l :: h₁) = requeues id h₁ + if l.requeues id = true then 1 else 0 :=
      List.countP_cons
    have hl : l.requeues id = false := by
      cases hq : l.requeues id with
      | false => rfl
      | true =>
        rw [hsplit, hq] at hcount
        cases hcount
    rw [hsplit, hl] at hcount
    obtain ⟨hrow, hnone⟩ := ih hcount
    obtain ⟨hrow', hdel⟩ := Step.dead_row hst (owned (hs.path hp)) hrow hdead hl
    refine ⟨hrow', fun l' hl' => ?_⟩
    rcases List.mem_cons.1 hl' with rfl | hl'
    · exact hdel
    · exact hnone l' hl'
  obtain ⟨hrow, hnone⟩ := hrun hno
  refine ⟨hrow, hnone, fun now => ?_⟩
  obtain ⟨hstatus, hafter⟩ := retryDlq_spec u.jobs id now
  exact ⟨hstatus.2 ⟨r, hrow, hdead⟩, asRequeued now r, hafter r hrow hdead, rfl, rfl, rfl, rfl, rfl⟩

theorem dead_letter_waits_crash :
    (retryDlq buriedState.jobs 1 epoch none).1 = 200 :=
  ((dead_letter_waits buriedState_reached (r := buriedRow) rfl rfl
    (System.Path.one (Step.crash buriedState)) rfl).2.2 epoch).1

end K
end WebhookDelivery
