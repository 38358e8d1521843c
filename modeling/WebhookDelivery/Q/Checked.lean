/-
The service with its checks and its connections.

The runs of the service leave open why a check fails and whom the client
connects to.  Here a step comes with what it sees: the policy, what the resolver
answers during the step, and the addresses the client connects to.  `validated`
is what `validate` returned to a worker for the delivery it has claimed.
`process` drops it, and no step depends on it.
-/
import WebhookDelivery.Q.Labels
import WebhookDelivery.Q.Ownership
import WebhookDelivery.Q.Webhook

namespace WebhookDelivery
namespace Q

open Sql Run

variable {ω : Type}

structure Event (ω : Type) where
  label : Label ω
  policy : SsrfPolicy
  dns : Dns
  /-- The addresses a send connects to, one after the other. -/
  peers : List IpAddr

structure Checked (ω : Type) where
  service : State ω
  validated : ω → List IpAddr

/-- The checks of `process`. -/
def checkDestination (env : Env) (policy : SsrfPolicy) (dns : Dns) (destination : String) :
    Check :=
  match env.parseUrl destination with
  | none => .badUrl
  | some url =>
    match validate policy url (systemResolver dns) with
    | .error e => .ssrf (e.text env.showIp)
    | .ok _ => .passed

/-- The addresses `validate` returns in `process`. -/
def addresses (env : Env) (policy : SsrfPolicy) (dns : Dns) (destination : String) :
    List IpAddr :=
  match env.parseUrl destination with
  | none => []
  | some url =>
    match validate policy url (systemResolver dns) with
    | .error _ => []
    | .ok ips => ips

/-- The addresses the host of a destination has, if it resolves. -/
def Resolves (env : Env) (dns : Dns) (destination : String) (ips : List IpAddr) : Prop :=
  ∃ url, env.parseUrl destination = some url ∧ dns url.host = .ok ips

/-- The client looks the host up itself, and connects to what it finds.  A send
that connects to nothing fails. -/
def Event.Connects (env : Env) (e : Event ω) (d : Delivery) (out : Outcome) : Prop :=
  (e.peers ≠ [] → ∃ ips, Resolves env e.dns d.destination ips ∧ ∀ ip ∈ e.peers, ip ∈ ips) ∧
    (e.peers = [] → ∃ err, out = (Response.failed err).outcome)

/-- The step goes with what it sees. -/
def Event.Fits (env : Env) (e : Event ω) : Prop :=
  match e.label with
  | .insert d _ => checkDestination env e.policy e.dns d.destination = .passed
  | .refuse _ d check => checkDestination env e.policy e.dns d.destination = check
  | .claim _ d _ _ => checkDestination env e.policy e.dns d.destination = .passed
  | .send _ d _ out => e.Connects env d out
  | .replay .. | .start .. | .listDue .. | .record .. | .dbFail _ | .endPass .. | .restart _ => True

variable [DecidableEq ω]

/-- `validated` after the step. -/
def Event.noted (env : Env) (e : Event ω) (validated : ω → List IpAddr) : ω → List IpAddr :=
  match e.label with
  | .claim w d _ _ =>
    fun v => if v = w then addresses env e.policy e.dns d.destination else validated v
  | _ => validated

variable (ω) in
/-- The service, every step of which goes with what it sees. -/
def checked (env : Env) : System (Checked ω) (Event ω) where
  init s := (system ω).init s.service ∧ ∀ w, s.validated w = []
  step s e t :=
    Step s.service e.label t.service ∧ e.Fits env ∧ t.validated = e.noted env s.validated

/-- A run with its checks is a run of the service. -/
theorem service_of_checked {env : Env} {h : List (Event ω)} {s : Checked ω}
    (hs : (checked ω env).Reaches h s) :
    (system ω).Reaches (h.map Event.label) s.service :=
  hs.map (g := Checked.service) (fun _ h0 => h0.1) fun _ _ _ hst => hst.1

/-- A request answered with 202 is a step that fits. -/
theorem accepted_fits {env : Env} {cfg : ApiConfig} {policy : SsrfPolicy} {headers : HeaderMap}
    {body : List UInt8} {instant : Nat} {id i : Uuid} {dns : Dns} {now : Int} {fault : Bool}
    {later db' : Db} {limiter limiter' : RateLimiter} {status : String} {s : Checked ω}
    (hacc : webhookHandler env cfg policy headers body instant id dns now fault later limiter
      s.service.db = (.ok (.accepted i status), limiter', db')) :
    ∃ d, (checked ω env).step s
      { label := .insert d now, policy := policy, dns := dns, peers := [] }
      { s with service := { s.service with db := db' } } := by
  obtain ⟨rfl, req, url, ips, -, hurl, hval, hins⟩ := webhookHandler_accepted hacc
  refine ⟨_, Step.insert s.service _ now db' hins, ?_, rfl⟩
  show checkDestination env policy dns req.destination = .passed
  simp only [checkDestination, hurl, hval]

/-- What the check of a destination says of it. -/
theorem checkDestination_spec (env : Env) (policy : SsrfPolicy) (dns : Dns)
    (destination : String) :
    (env.parseUrl destination = none ∧ checkDestination env policy dns destination = .badUrl) ∨
    ∃ url, env.parseUrl destination = some url ∧
      ((checkDestination env policy dns destination = .passed ∧
          (policy.allowPrivate = false →
            ∀ ip ∈ addresses env policy dns destination, isBlockedIp ip = false)) ∨
        (∃ e, checkDestination env policy dns destination = .ssrf (SsrfError.text env.showIp e) ∧
          (Violates policy url dns ∨ Unresolved policy url dns))) := by
  unfold checkDestination addresses
  cases hurl : env.parseUrl destination with
  | none => exact .inl ⟨rfl, rfl⟩
  | some url =>
    refine .inr ⟨url, rfl, ?_⟩
    rcases validate_spec policy url dns with ⟨ips, hval, -, -, hips⟩ | ⟨e, hval, hviol⟩ |
      ⟨msg, hval, hun⟩
    · exact .inl ⟨by simp only [hval], by simpa only [hval] using hips⟩
    · exact .inr ⟨e, by simp only [hval], .inl hviol⟩
    · exact .inr ⟨.resolutionFailed msg, by simp only [hval], .inr hun⟩

/-- A run of the service is a run with its checks if its steps go with what
`see` says they see. -/
theorem checked_of_service {env : Env} {C : Checked ω → Event ω → Prop} (see : Label ω → Event ω)
    {h : List (Label ω)} {s : State ω} (hs : (system ω).Reaches h s)
    (hsee : ∀ l ∈ h, (see l).label = l ∧ (see l).Fits env ∧ ∀ s, C s (see l)) :
    ∃ v, ((checked ω env).restrict C).Reaches (h.map see) { service := s, validated := v } := by
  induction hs with
  | init h0 => exact ⟨fun _ => [], .init ⟨h0, fun _ => rfl⟩⟩
  | @step h s l t _ hst ih =>
    obtain ⟨v, hr⟩ := ih fun l' hl' => hsee l' (List.mem_cons_of_mem l hl')
    obtain ⟨hlabel, hfits, hC⟩ := hsee l List.mem_cons_self
    exact ⟨_, hr.step ⟨hC _, hlabel.symm ▸ hst, hfits, rfl⟩⟩

/-- The steps before the first check of the hook, whose name resolves. -/
def seen (l : Label Bool) : Event Bool :=
  { label := l, policy := .default, dns := publicDns, peers := [] }

theorem seen_listing : ∀ l ∈ listing, (seen l).label = l ∧ (seen l).Fits noteEnv := by
  intro l hl
  refine ⟨rfl, ?_⟩
  simp only [listing, List.mem_cons, List.not_mem_nil, or_false] at hl
  rcases hl with rfl | rfl | rfl | rfl | rfl
  case inr.inr.inr.inr => exact (by decide :
    checkDestination noteEnv .default publicDns hook.destination = .passed)
  all_goals trivial

end Q
end WebhookDelivery
