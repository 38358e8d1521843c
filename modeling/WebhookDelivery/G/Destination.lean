/-
The check of a destination, and the runs in which every call makes it.

`validate_destination` is made at submission and again before every request, with what
the resolver answers at that moment.  The parser of the `url` crate and the resolver are
parameters.  A step of the service comes here with what its check sees, so a name may
move between two steps as it likes.
-/
import WebhookDelivery.K.Destination
import WebhookDelivery.G.Ledger
import WebhookDelivery.G.Ssrf

namespace WebhookDelivery
namespace G

open Run
open Net (IpAddr)

/-! ## The check -/

/-- `Url::parse`, the display of a host and an address, and `lookup_host` at the time
of the check. -/
structure Env where
  parseUrl : String → Except String K.Url
  lookupHost : String → UInt16 → Except String (List K.SocketAddr)
  showHost : K.Host → String
  showIp : IpAddr → String

/-- `port_or_known_default` of a URL whose scheme has passed. -/
def portOrKnownDefault (url : K.Url) : Option UInt16 :=
  match url.port with
  | some p => some p
  | none =>
    if url.scheme = "https" then some 443
    else if url.scheme = "http" then some 80
    else none

def addresses (env : Env) (url : K.Url) : K.Host → Except String (List IpAddr)
  | .ipv4 o => .ok [.v4 o]
  | .ipv6 s => .ok [.v6 s]
  | .domain name =>
    match env.lookupHost name ((portOrKnownDefault url).getD 80) with
    | .error e => .error s!"DNS resolution failed for '{name}': {e}"
    | .ok addrs => .ok (addrs.map K.SocketAddr.ip)

def validateDestination (env : Env) (raw : String) (allowPrivate : Bool) : Except String Unit :=
  if 2048 < raw.utf8ByteSize then .error "destination URL is too long"
  else
    match env.parseUrl raw with
    | .error e => .error s!"invalid destination URL: {e}"
    | .ok url =>
      if url.scheme ≠ "http" ∧ url.scheme ≠ "https" then
        .error (s!"unsupported destination scheme '{url.scheme}': " ++
          "only http and https are allowed")
      else if url.username ≠ "" ∨ url.password.isSome then
        .error "destination URL must not contain credentials"
      else if allowPrivate then .ok ()
      else
        match url.host with
        | none => .error "destination URL has no host"
        | some host =>
          match addresses env url host with
          | .error e => .error e
          | .ok ips =>
            if ips = [] then .error s!"no addresses resolved for '{env.showHost host}'"
            else
              match ips.find? fun ip => !isPublicIp ip with
              | some ip => .error (s!"destination host resolves to a blocked (non-public) " ++
                  s!"address: {env.showIp ip}")
              | none => .ok ()

/-! ## What is safe -/

/-- The host has an address, and all it has are public. -/
def Public (env : Env) (url : K.Url) : Prop :=
  ∃ host ips, url.host = some host ∧ addresses env url host = .ok ips ∧ ips ≠ [] ∧
    ∀ ip ∈ ips, isPublicIp ip = true

/-- The text is a URL that may be called, as things are in `env`. -/
structure Safe (env : Env) (raw : String) (allowPrivate : Bool) (url : K.Url) : Prop where
  short : raw.utf8ByteSize ≤ 2048
  parsed : env.parseUrl raw = .ok url
  scheme : url.scheme = "http" ∨ url.scheme = "https"
  userinfo : url.username = "" ∧ url.password = none
  resolved : allowPrivate = false → Public env url

def SafeDestination (env : Env) (raw : String) (allowPrivate : Bool) : Prop :=
  ∃ url, Safe env raw allowPrivate url

/-- The last part of the check. -/
theorem find?_public_eq_none {ips : List IpAddr} :
    (ips.find? fun ip => !isPublicIp ip) = none ↔ ∀ ip ∈ ips, isPublicIp ip = true := by
  simp [List.find?_eq_none]

theorem safe_of_ok {env : Env} {raw : String} {allowPrivate : Bool}
    (h : validateDestination env raw allowPrivate = .ok ()) :
    SafeDestination env raw allowPrivate := by
  unfold validateDestination at h
  split at h
  · cases h
  · rename_i hshort
    split at h
    · cases h
    · rename_i url hparse
      split at h
      · cases h
      · rename_i hscheme
        split at h
        · cases h
        · rename_i hinfo
          refine ⟨url, Nat.le_of_not_lt hshort, hparse,
            Decidable.or_iff_not_not_and_not.2 hscheme, by simpa using hinfo, ?_⟩
          rintro rfl
          rw [if_neg Bool.false_ne_true] at h
          split at h
          · cases h
          · rename_i host hhost
            split at h
            · cases h
            · rename_i ips hips
              split at h
              · cases h
              · rename_i hne
                split at h
                · cases h
                · rename_i hfind
                  exact ⟨host, ips, hhost, hips, hne, find?_public_eq_none.1 hfind⟩

theorem ok_of_safe {env : Env} {raw : String} {allowPrivate : Bool}
    (h : SafeDestination env raw allowPrivate) :
    validateDestination env raw allowPrivate = .ok () := by
  obtain ⟨url, hshort, hparse, hscheme, hinfo, hpublic⟩ := h
  have hscheme : ¬(url.scheme ≠ "http" ∧ url.scheme ≠ "https") := fun hne => not_or.2 hne hscheme
  have hinfo : ¬(url.username ≠ "" ∨ url.password.isSome = true) := by simp [hinfo.1, hinfo.2]
  rw [validateDestination, if_neg (Nat.not_lt.2 hshort), hparse]
  simp only [if_neg hscheme, if_neg hinfo]
  cases allowPrivate with
  | true => rfl
  | false =>
    obtain ⟨host, ips, hhost, hips, hne, hall⟩ := hpublic rfl
    simp only [Bool.false_eq_true, if_false, hhost, hips, if_neg hne, find?_public_eq_none.2 hall]

/-- Exactly the safe destinations pass, a name without an address included among those
that do not. -/
theorem validateDestination_exact (env : Env) (raw : String) (allowPrivate : Bool) :
    validateDestination env raw allowPrivate = .ok () ↔ SafeDestination env raw allowPrivate :=
  ⟨safe_of_ok, ok_of_safe⟩

/-! ## The service and its checks -/

variable {J : Json}

variable (J) in
/-- A step and what it sees: what the check of a submission or of a call sees, the
setting of the process, and what the client reports of the request of a call. -/
structure Seen where
  label : Label J
  env : Env
  allowPrivate : Bool
  resp : Response

structure Guard where
  service : State
  allowPrivate : Bool

/-- Submissions and calls go on as their checks say. -/
def Seen.Fits (e : Seen J) : Prop :=
  match e.label with
  | .createWebhook _ (.ok req) _ res =>
    J.isNull req.data = false →
      match validateDestination e.env req.destination e.allowPrivate with
      | .error reason => res = .error (.unprocessable reason)
      | .ok _ => ∀ reason, res ≠ .error (.unprocessable reason)
  | .deliverOnce job _ res =>
    res = deliverOnce (validateDestination e.env job.destination e.allowPrivate) e.resp
  | _ => True

/-- The setting is that of the process, which takes it from its environment at its start. -/
def Seen.Configured (e : Seen J) (s t : Guard) : Prop :=
  match e.label with
  | .restart .. => t.allowPrivate = e.allowPrivate
  | _ => e.allowPrivate = s.allowPrivate ∧ t.allowPrivate = s.allowPrivate

variable (J) in
/-- The service, every step of which goes as its check says. -/
def guarding : System Guard (Seen J) where
  init s := (system J).init s.service
  step s e t := Step s.service e.label t.service ∧ e.Fits ∧ e.Configured s t

/-- The destination passes the check when the step is taken.  The client resolves the name
again after it, for itself, and what it is told then is not part of this. -/
def Seen.SafeFor (e : Seen J) (destination : String) : Prop :=
  SafeDestination e.env destination e.allowPrivate

theorem service_of_guarding {h : List (Seen J)} {s : Guard} (hs : (guarding J).Reaches h s) :
    (system J).Reaches (h.map Seen.label) s.service :=
  hs.map (g := Guard.service) (fun _ h0 => h0) fun _ _ _ hst => hst.1

/-- A 202 has passed the checks before the insert. -/
theorem createWebhook_accepted {cfg : Config} {req : WebhookRequest J} {check : Except String Unit}
    {id : String} {now : Int} {fault : Option String} {t t' : Deliveries} {resp : EnqueueResponse}
    (h : createWebhook cfg (.ok req) check id now fault t = (.ok resp, t')) :
    J.isNull req.data = false := by
  by_contra hnull
  rw [Bool.not_eq_false] at hnull
  simp only [createWebhook, hnull, if_true] at h
  cases h

/-- What was accepted was safe at that time. -/
theorem safe_of_accepted {h : List (Seen J)} {s : Guard} (hs : (guarding J).Reaches h s)
    {e : Seen J} (he : e ∈ h) {cfg : Config} {req : WebhookRequest J} {now : Int}
    {resp : EnqueueResponse} (hl : e.label = .createWebhook cfg (.ok req) now (.ok resp)) :
    e.SafeFor req.destination := by
  obtain ⟨-, s₀, s₁, -, -, -, ⟨hst, hfits, -⟩, -⟩ := hs.takes he
  rw [hl] at hst
  generalize s₁.service = t at hst
  cases hst with
  | createWebhook _ check id now fault _ t' hcreate =>
    simp only [Seen.Fits, hl] at hfits
    have hfits := hfits (createWebhook_accepted hcreate)
    refine safe_of_ok ?_
    cases hcheck : validateDestination e.env req.destination e.allowPrivate with
    | ok u => rfl
    | error reason =>
      rw [hcheck] at hfits
      cases hfits

/-- How a call goes: it is refused, or its destination has passed the check and gets the
request. -/
inductive Outcome (e : Seen J) (destination : String) : Except String Unit → Prop
  | rejected (reason : String) : ¬e.SafeFor destination →
      Outcome e destination (.error s!"destination rejected: {reason}")
  | answered (code : Nat) (shown body : String) : e.SafeFor destination →
      e.resp = .status code shown body → 200 ≤ code → code < 300 → Outcome e destination (.ok ())
  | refused (code : Nat) (shown body : String) : e.SafeFor destination →
      e.resp = .status code shown body → ¬(200 ≤ code ∧ code < 300) → Outcome e destination
        (.error s!"destination responded with HTTP {shown}: {truncate body 200}")
  | failed (err : String) : e.SafeFor destination → e.resp = .failed err →
      Outcome e destination (.error s!"request failed: {err}")

/-- The result of a call says which way it went. -/
theorem outcome_of_call {h : List (Seen J)} {s : Guard} (hs : (guarding J).Reaches h s)
    {e : Seen J} (he : e ∈ h) {job : ClaimedJob} {now : Int} {res : Except String Unit}
    (hl : e.label = .deliverOnce job now res) : Outcome e job.destination res := by
  obtain ⟨-, s₀, s₁, -, -, -, ⟨-, hfits, -⟩, -⟩ := hs.takes he
  simp only [Seen.Fits, hl] at hfits
  subst hfits
  cases hcheck : validateDestination e.env job.destination e.allowPrivate with
  | error reason =>
    refine .rejected reason fun hsafe => ?_
    rw [ok_of_safe hsafe] at hcheck
    cases hcheck
  | ok u =>
    have hsafe : e.SafeFor job.destination := safe_of_ok hcheck
    cases hresp : e.resp with
    | failed err => exact .failed err hsafe hresp
    | status code shown body =>
      by_cases hcode : 200 ≤ code ∧ code < 300
      · simp only [deliverOnce, if_pos hcode]
        exact .answered code shown body hsafe hresp hcode.1 hcode.2
      · simp only [deliverOnce, if_neg hcode]
        exact .refused code shown body hsafe hresp hcode

/-- What the checks of a run see to. -/
structure Guarded (h : List (Seen J)) (s : Guard) : Prop where
  /-- A call is for a destination that has passed the check at its submission, and gets a
  request only if it passes that of the call. -/
  called : ∀ h₁ h₀ e job now res, h = h₁ ++ e :: h₀ → e.label = .deliverOnce job now res →
    Outcome e job.destination res ∧ ∃ e₀ ∈ h₀, e₀.SafeFor job.destination ∧
      ∃ cfg req t status, job.destination = req.destination ∧
        e₀.label = .createWebhook cfg (.ok req) t (.ok { id := job.id, status := status })
  delivered : ∀ id r, s.service.table.get? id = some r → r.status = .delivered →
    ∃ e ∈ h, e.SafeFor r.destination ∧ ∃ job now code shown body, job.id = id ∧
      e.label = .deliverOnce job now (.ok ()) ∧ e.resp = .status code shown body ∧
      200 ≤ code ∧ code < 300
  dead : ∀ id r, s.service.table.get? id = some r → r.status = .deadLettered →
    ∃ e ∈ h, ∃ job now err, job.id = id ∧ e.label = .deliverOnce job now (.error err) ∧
      r.lastError = some err ∧ Outcome e r.destination (.error err)

/-- Wherever the names of the destinations move, no request goes out but for a destination
that has passed the check of that call, a delivered row was answered after such a check, and
a dead-lettered row says whether it was the check or the destination that failed. -/
theorem requests_guarded {h : List (Seen J)} {s : Guard} (hs : (guarding J).Reaches h s) :
    Guarded h s := by
  have hrun := service_of_guarding hs
  constructor
  · intro h₁ h₀ e job now res hh hl
    subst hh
    refine ⟨outcome_of_call hs (by simp) hl, ?_⟩
    rw [List.map_append, List.map_cons, hl] at hrun
    obtain ⟨cfg, req, t, status, hmem, hdest, -⟩ := accepted_before_call hrun
    obtain ⟨e₀, he₀, hl₀⟩ := List.mem_map.1 hmem
    refine ⟨e₀, he₀, ?_, cfg, req, t, status, hdest, hl₀⟩
    rw [hdest]
    exact safe_of_accepted hs (List.mem_append_right h₁ (List.mem_cons_of_mem e he₀)) hl₀
  · intro id r hr hdel
    obtain ⟨job, now, hmem, rfl⟩ := delivered_by_call hrun hr hdel
    obtain ⟨r', hr', hdest, -⟩ := row_of_call hrun hmem
    obtain rfl := Option.some.inj (hr'.symm.trans hr)
    obtain ⟨e, he, hl⟩ := List.mem_map.1 hmem
    have hout := outcome_of_call hs he hl
    cases hout with
    | answered code shown body hsafe hresp hlo hhi =>
      exact ⟨e, he, hdest ▸ hsafe, job, now, code, shown, body, rfl, hl, hresp, hlo, hhi⟩
  · intro id r hr hdead
    obtain ⟨job, now, err, hmem, rfl, herr⟩ := dead_by_call hrun hr hdead
    obtain ⟨r', hr', hdest, -⟩ := row_of_call hrun hmem
    obtain rfl := Option.some.inj (hr'.symm.trans hr)
    obtain ⟨e, he, hl⟩ := List.mem_map.1 hmem
    exact ⟨e, he, job, now, err, rfl, hl, herr, hdest ▸ outcome_of_call hs he hl⟩

/-! ## A name that moves -/

/-- Every run of the service is one of the checked service, if its steps see what fits. -/
theorem guarding_of_service (see : Label J → Seen J) {h : List (Label J)} {s : State}
    (hs : (system J).Reaches h s)
    (hsee : ∀ l ∈ h, (see l).label = l ∧ (see l).Fits ∧ (see l).allowPrivate = false) :
    (guarding J).Reaches (h.map see) { service := s, allowPrivate := false } := by
  induction hs with
  | init h0 => exact .init h0
  | @step h s l t _ hst ih =>
    obtain ⟨hlabel, hfits, hoff⟩ := hsee l List.mem_cons_self
    have hr := ih fun l' hl' => hsee l' (List.mem_cons_of_mem l hl')
    refine hr.step ⟨hlabel.symm ▸ hst, hfits, ?_⟩
    simp only [Seen.Configured]
    split
    · exact hoff.symm
    · exact ⟨hoff, trivial⟩

/-- Every URL names one host, which has the address. -/
def site (ip : IpAddr) : Env where
  parseUrl _ := .ok { scheme := "http", host := some (.domain "a.test"), username := "",
                      password := none, port := none }
  lookupHost _ port := .ok [{ ip := ip, port := port }]
  showHost _ := "a.test"
  showIp _ := "127.0.0.1"

/-- The host is public at its submission, and has moved to the loopback address when it
is called. -/
def movedTo (l : Label Json.text) : Seen Json.text where
  label := l
  env := match l with
    | .deliverOnce .. => site (.v4 (Net.ipv4 127 0 0 1))
    | _ => site (.v4 (Net.ipv4 93 184 216 34))
  allowPrivate := false
  resp := .status 200 "200 OK" ""

def movedResult : Except String Unit :=
  .error ("destination rejected: destination host resolves to a blocked (non-public) " ++
    "address: 127.0.0.1")

/-- The call of the moved host is refused, though it would have answered. -/
theorem requests_guarded_moved :
    Guarded ((.deliverOnce (hookRow 1).job 5 movedResult :: claiming 1).map movedTo)
      ⟨one (asClaimed 0 (hookRow 1)) none [⟨(hookRow 1).job, 0, .called 5 movedResult⟩] [],
        false⟩ := by
  have h₀ : (system Json.text).Reaches (claiming 1)
      (one (asClaimed 0 (hookRow 1)) none [.spawn 0 (hookRow 1).job] []) :=
    (claimed_reached 1 (C := fun _ _ => True) trivial trivial trivial).of_restrict
  have h₁ := h₀.step (Step.deliverOnce _ [] [] (hookRow 1).job 0 5
    (.error "destination host resolves to a blocked (non-public) address: 127.0.0.1")
    (.failed "") rfl (by decide))
  refine requests_guarded (guarding_of_service movedTo h₁ fun l hl => ⟨rfl, ?_, rfl⟩)
  simp only [claiming, List.mem_cons, List.not_mem_nil, or_false] at hl
  rcases hl with rfl | rfl | rfl | rfl
  · rfl
  · trivial
  · trivial
  · intro _ reason hno
    cases hno

end G
end WebhookDelivery
