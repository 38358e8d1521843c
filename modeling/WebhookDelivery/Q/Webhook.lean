/-
The ingestion endpoint.

`webhook_handler` authorises a request, charges it to a bucket of the rate
limiter, parses it and hands it to `ingest_sync`, which validates the
destination and inserts the row.  A 202 is the last thing that happens, after
the insert.
-/
import WebhookDelivery.Q.Auth
import WebhookDelivery.Q.Db
import WebhookDelivery.Q.RateLimit
import WebhookDelivery.Q.Ssrf

namespace WebhookDelivery
namespace Q

/-- The body of a request; `data` is the raw text of the field. -/
structure IngestRequest where
  data : String
  destination : String

/-- What the handlers use of other crates. -/
structure Env where
  /-- HMAC-SHA256 of a body under a secret. -/
  hmac : List UInt8 → List UInt8 → List UInt8
  fromSlice : List UInt8 → Option IngestRequest
  parseUrl : String → Option Url
  showIp : IpAddr → String
  showDbError : DbError → String

/-- The fields of `Config` that the handler reads. -/
structure ApiConfig where
  apiKeys : List String
  hmacSecret : Option String
  maxAttempts : Nat

structure IngestInput where
  url : Url
  id : Uuid
  idempotencyKey : Option String
  destination : String
  payload : List UInt8
  maxAttempts : Nat

inductive IngestOutcome
  | created
  | duplicate (existing : Uuid) (status : String)

/-- The answers that are no errors: `202` and `200`. -/
inductive Reply
  | accepted (id : Uuid) (status : String)
  | duplicate (id : Uuid) (status : String)

/-! ## Authorisation and quota -/

/-- The bucket a request is charged to. -/
def rlKey (headers : HeaderMap) : String := (bearerToken headers).getD "anonymous"

def admitted (env : Env) (cfg : ApiConfig) (limiter : RateLimiter) (headers : HeaderMap)
    (body : List UInt8) (now : Nat) : Except ApiError Unit × RateLimiter :=
  if authorized env.hmac headers body cfg.hmacSecret cfg.apiKeys then
    match limiter.check (rlKey headers) now with
    | (true, limiter') => (.ok (), limiter')
    | (false, limiter') => (.error .tooManyRequests, limiter')
  else (.error .unauthorized, limiter)

/-! ## Ingestion -/

/-- The first `Idempotency-Key` of the request, if it is text and not empty. -/
def idempotencyKey (headers : HeaderMap) : Option String :=
  ((headers.get .idempotencyKey).bind HeaderValue.toStr).filter fun s => s ≠ ""

def readInput (env : Env) (cfg : ApiConfig) (headers : HeaderMap) (body : List UInt8)
    (id : Uuid) : Except ApiError IngestInput :=
  match env.fromSlice body with
  | none => .error (.badRequest "malformed JSON body")
  | some req =>
    match env.parseUrl req.destination with
    | none => .error (.badRequest "invalid destination url")
    | some url => .ok {
        url := url
        id := id
        idempotencyKey := idempotencyKey headers
        destination := req.destination
        payload := asBytes req.data
        maxAttempts := cfg.maxAttempts }

def ssrfError (display : IpAddr → String) : SsrfError → ApiError
  | .badScheme => .badRequest "destination scheme must be http or https"
  | .missingHost => .badRequest "destination has no host"
  | .userinfo => .forbidden "destination must not contain userinfo"
  | .badPort port => .forbidden s!"destination port {port} not allowed"
  | .privateIp ip => .forbidden s!"destination resolves to blocked IP {display ip}"
  | .resolutionFailed e => .forbidden s!"destination resolution failed: {e}"

def find (db : Db) (id : Uuid) : Except DbError (Option Delivery) :=
  match db.row id with
  | none => .ok none
  | some r => (mapDelivery r).map some

def IngestInput.newDelivery (input : IngestInput) : NewDelivery where
  id := input.id
  idempotencyKey := input.idempotencyKey
  destination := input.destination
  payload := input.payload
  maxAttempts := input.maxAttempts

/-- `fault` is an insert that SQLite fails for reasons of its own, and `later`
the database when the status of a duplicate is looked up. -/
def ingestSync (env : Env) (policy : SsrfPolicy) (dns : Dns) (input : IngestInput) (now : Int)
    (fault : Bool) (later db : Db) : Except ApiError IngestOutcome × Db :=
  match validate policy input.url (systemResolver dns) with
  | .error e => (.error (ssrfError env.showIp e), db)
  | .ok _ =>
    match if fault then .error .sqlite else insert db input.newDelivery now with
    | .ok db' => (.ok .created, db')
    | .error (.idempotencyConflict existing) =>
      let status := match find later existing with
        | .ok (some d) => d.status.asStr
        | .ok none | .error _ => "unknown"
      (.ok (.duplicate existing status), db)
    | .error e => (.error (.internal s!"db insert failed: {env.showDbError e}"), db)

/-- One call of `webhook_handler`.  `instant` is what the limiter reads of the
clock, `id` the fresh uuid and `now` what the insert reads of the clock. -/
def webhookHandler (env : Env) (cfg : ApiConfig) (policy : SsrfPolicy) (headers : HeaderMap)
    (body : List UInt8) (instant : Nat) (id : Uuid) (dns : Dns) (now : Int)
    (fault : Bool) (later : Db) (limiter : RateLimiter) (db : Db) :
    Except ApiError Reply × RateLimiter × Db :=
  match admitted env cfg limiter headers body instant with
  | (.error e, limiter') => (.error e, limiter', db)
  | (.ok _, limiter') =>
    match readInput env cfg headers body id with
    | .error e => (.error e, limiter', db)
    | .ok input =>
      match ingestSync env policy dns input now fault later db with
      | (.ok .created, db') => (.ok (.accepted id "pending"), limiter', db')
      | (.ok (.duplicate existing status), db') => (.ok (.duplicate existing status), limiter', db')
      | (.error e, db') => (.error e, limiter', db')

/-! ## What an answer means -/

theorem admitted_authorized {env : Env} {cfg : ApiConfig} {headers : HeaderMap}
    {body : List UInt8} (limiter : RateLimiter) (now : Nat)
    (h : authorized env.hmac headers body cfg.hmacSecret cfg.apiKeys = true) :
    admitted env cfg limiter headers body now =
      (if (limiter.check (rlKey headers) now).1 then .ok () else .error .tooManyRequests,
        (limiter.check (rlKey headers) now).2) := by
  unfold admitted
  rw [if_pos h]
  cases limiter.check (rlKey headers) now with
  | mk passed l => cases passed <;> rfl

/-- A request that is refused for want of authority costs no quota. -/
theorem admitted_unauthorized {env : Env} {cfg : ApiConfig} {headers : HeaderMap}
    {body : List UInt8} (limiter : RateLimiter) (now : Nat)
    (h : authorized env.hmac headers body cfg.hmacSecret cfg.apiKeys = false) :
    admitted env cfg limiter headers body now = (.error .unauthorized, limiter) := by
  unfold admitted
  rw [if_neg (by simp [h])]

theorem readInput_ok {env : Env} {cfg : ApiConfig} {headers : HeaderMap} {body : List UInt8}
    {id : Uuid} {input : IngestInput} (h : readInput env cfg headers body id = .ok input) :
    ∃ req, env.fromSlice body = some req ∧ env.parseUrl req.destination = some input.url ∧
      input.newDelivery = {
        id := id
        idempotencyKey := idempotencyKey headers
        destination := req.destination
        payload := asBytes req.data
        maxAttempts := cfg.maxAttempts } := by
  unfold readInput at h
  cases hreq : env.fromSlice body with
  | none => simp [hreq] at h
  | some req =>
    cases hurl : env.parseUrl req.destination with
    | none => simp [hreq, hurl] at h
    | some url =>
      simp only [hreq, hurl, Except.ok.injEq] at h
      subst h
      exact ⟨req, rfl, hurl, rfl⟩

/-- A row is created after the destination has been validated, by the insert. -/
theorem ingestSync_created {env : Env} {policy : SsrfPolicy} {dns : Dns} {input : IngestInput}
    {now : Int} {fault : Bool} {later db db' : Db}
    (h : ingestSync env policy dns input now fault later db = (.ok .created, db')) :
    (∃ ips, validate policy input.url (systemResolver dns) = .ok ips) ∧
      insert db input.newDelivery now = .ok db' := by
  unfold ingestSync at h
  cases hval : validate policy input.url (systemResolver dns) with
  | error e => simp [hval] at h
  | ok ips =>
    refine ⟨⟨ips, rfl⟩, ?_⟩
    simp only [hval] at h
    cases fault with
    | true => simp at h
    | false =>
      cases hins : insert db input.newDelivery now with
      | error e => cases e <;> simp [hins] at h
      | ok db₁ =>
        simp only [hins, Bool.false_eq_true, if_false, Prod.mk.injEq, true_and] at h
        rw [h]

/-- A request answered with 202 has a destination that has been validated, and it
has its row. -/
theorem webhookHandler_accepted {env : Env} {cfg : ApiConfig} {policy : SsrfPolicy}
    {headers : HeaderMap} {body : List UInt8} {instant : Nat} {id i : Uuid} {dns : Dns}
    {now : Int} {fault : Bool} {later db db' : Db} {limiter limiter' : RateLimiter}
    {status : String}
    (h : webhookHandler env cfg policy headers body instant id dns now fault later limiter db =
      (.ok (.accepted i status), limiter', db')) :
    i = id ∧ ∃ req url ips, env.fromSlice body = some req ∧
      env.parseUrl req.destination = some url ∧
      validate policy url (systemResolver dns) = .ok ips ∧
      insert db {
        id := id
        idempotencyKey := idempotencyKey headers
        destination := req.destination
        payload := asBytes req.data
        maxAttempts := cfg.maxAttempts } now = .ok db' := by
  unfold webhookHandler at h
  split at h
  · cases h
  · split at h
    · cases h
    · rename_i input hinput
      obtain ⟨req, hreq, hurl, hnew⟩ := readInput_ok hinput
      split at h
      · rename_i db₁ hingest
        simp only [Prod.mk.injEq, Except.ok.injEq, Reply.accepted.injEq] at h
        obtain ⟨⟨rfl, -⟩, -, rfl⟩ := h
        obtain ⟨⟨ips, hval⟩, hins⟩ := ingestSync_created hingest
        exact ⟨rfl, req, input.url, ips, hreq, hurl, hval, hnew ▸ hins⟩
      · simp at h
      · cases h

/-! ## One request -/

/-- The other crates, as they take one request. -/
def noteEnv : Env where
  hmac _ _ := []
  fromSlice _ := some { data := "\x7b\x7d", destination := "http://a.test" }
  parseUrl _ := some {
    scheme := "http", hostStr := some "a.test", username := "", password := none, port := none }
  showIp _ := "127.0.0.1"
  showDbError _ := ""

def publicDns : Dns := fun _ => .ok [.v4 #v[93, 184, 216, 34]]

def privateDns : Dns := fun _ => .ok [.v4 #v[127, 0, 0, 1]]

end Q
end WebhookDelivery
