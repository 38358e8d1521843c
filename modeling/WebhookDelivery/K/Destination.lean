/-
The check of a destination at submission.

The URL parser and the resolver are parameters.  The addresses of the host are those
the resolver answers with, or the host itself if it is an address, and the check looks
for a blocked one among them.  It does not look whether there is one at all.
-/
import WebhookDelivery.Net.Ip

namespace WebhookDelivery
namespace K

open Net (Ipv4Addr Ipv6Addr IpAddr Block InAny Ipv4Addr.number Ipv6Addr.number)

/-! ## Blocked addresses -/

/-- RFC 6598 shared address space. -/
def isCgnat (o : Ipv4Addr) : Bool :=
  Net.octet o 0 = 100 ∧ Net.octet o 1 &&& 0b11000000 = 0b01000000

def ipv4IsBlocked (o : Ipv4Addr) : Bool :=
  Ipv4Addr.isPrivate o -- RFC 1918: 10/8, 172.16/12, 192.168/16
    || Ipv4Addr.isLoopback o -- 127.0.0.0/8
    || Ipv4Addr.isLinkLocal o -- 169.254.0.0/16
    || Ipv4Addr.isMulticast o -- 224.0.0.0/4
    || Ipv4Addr.isUnspecified o -- 0.0.0.0
    || Ipv4Addr.isBroadcast o -- 255.255.255.255
    || isCgnat o -- 100.64.0.0/10

def isV6LinkLocal (s : Ipv6Addr) : Bool := Net.segment s 0 &&& 0xffc0 = 0xfe80

def isV6UniqueLocal (s : Ipv6Addr) : Bool := Net.segment s 0 &&& 0xfe00 = 0xfc00

def ipv6IsBlocked (s : Ipv6Addr) : Bool :=
  Ipv6Addr.isLoopback s -- ::1
    || Ipv6Addr.isUnspecified s -- ::
    || Ipv6Addr.isMulticast s -- ff00::/8
    || isV6LinkLocal s -- fe80::/10
    || isV6UniqueLocal s -- fc00::/7

def ipIsBlocked : IpAddr → Bool
  | .v4 o => ipv4IsBlocked o
  | .v6 s =>
    match Net.toIpv4Mapped s with
    | some mapped => ipv4IsBlocked mapped
    | none => ipv6IsBlocked s

/-- Private, loopback, link-local, multicast, unspecified, broadcast and CGNAT. -/
def forbiddenV4 : List (Block 32) :=
  Net.private4 ++ [Net.loopback4, Net.linkLocal4, Net.multicast4, Net.unspecified4,
    Net.broadcast4, Net.sharedSpace]

def forbiddenV6 : List (Block 128) :=
  [Net.loopback6, Net.unspecified6, Net.multicast6, Net.linkLocal6, Net.uniqueLocal6]

/-- The address, out of its IPv6 form if it is an IPv4 one, is in a forbidden range. -/
def Forbidden : IpAddr → Prop
  | .v4 o => InAny forbiddenV4 (Ipv4Addr.number o)
  | .v6 s =>
    if Ipv6Addr.number s ∈ Net.mapped6 then InAny forbiddenV4 (Ipv6Addr.number s % 2 ^ 32)
    else InAny forbiddenV6 (Ipv6Addr.number s)

theorem ipv4IsBlocked_iff (o : Ipv4Addr) :
    ipv4IsBlocked o = true ↔ InAny forbiddenV4 (Ipv4Addr.number o) := by
  simp only [ipv4IsBlocked, isCgnat, forbiddenV4, Bool.or_eq_true, decide_eq_true_eq,
    Net.inAny_append, Net.inAny_cons, Net.inAny_nil, or_false, Net.isPrivate_iff,
    Net.isLoopback4_iff, Net.isLinkLocal_iff, Net.isMulticast4_iff, Net.isUnspecified4_iff,
    Net.isBroadcast_iff, ← Net.mem_sharedSpace_mask, or_assoc]

theorem ipv6IsBlocked_iff (s : Ipv6Addr) :
    ipv6IsBlocked s = true ↔ InAny forbiddenV6 (Ipv6Addr.number s) := by
  simp only [ipv6IsBlocked, isV6LinkLocal, isV6UniqueLocal, forbiddenV6, Bool.or_eq_true,
    decide_eq_true_eq, Net.inAny_cons, Net.inAny_nil, or_false, Net.isLoopback6_iff,
    Net.isUnspecified6_iff, Net.isMulticast6_iff, ← Net.mem_linkLocal6, ← Net.mem_uniqueLocal6,
    or_assoc]

theorem ipIsBlocked_iff (ip : IpAddr) : ipIsBlocked ip = true ↔ Forbidden ip := by
  cases ip with
  | v4 o => exact ipv4IsBlocked_iff o
  | v6 s =>
    rcases Net.toIpv4Mapped_spec s with ⟨o, hmap, hmem, hnumber⟩ | ⟨hmap, hmem⟩
    · simp only [ipIsBlocked, hmap, Forbidden, if_pos hmem, ← hnumber]
      exact ipv4IsBlocked_iff o
    · simp only [ipIsBlocked, hmap, Forbidden, if_neg hmem]
      exact ipv6IsBlocked_iff s

/-! ## The check -/

/-- `url::Host`. -/
inductive Host
  | domain (name : String)
  | ipv4 (octets : Ipv4Addr)
  | ipv6 (segments : Ipv6Addr)

/-- What the parser of the `url` crate gives. -/
structure Url where
  scheme : String
  host : Option Host
  username : String
  password : Option String
  port : Option UInt16

inductive SecurityError
  | invalidUrl (e : String)
  | schemeNotAllowed (scheme : String)
  | credentialsNotAllowed
  | unresolvableHost (e : String)
  | privateAddressBlocked (ip : IpAddr)

structure SocketAddr where
  ip : IpAddr
  port : UInt16

/-- `Url::parse`, and `lookup_host` at the time of the check. -/
structure Env where
  parseUrl : String → Except String Url
  lookupHost : String → UInt16 → Except String (List SocketAddr)

/-- The port a name is looked up with. -/
def Url.lookupPort (url : Url) : UInt16 :=
  match url.port with
  | some p => p
  | none => if url.scheme = "https" then 443 else 80

def candidates (env : Env) (url : Url) : Host → Except SecurityError (List IpAddr)
  | .ipv4 o => .ok [.v4 o]
  | .ipv6 s => .ok [.v6 s]
  | .domain name =>
    match env.lookupHost name url.lookupPort with
    | .error e => .error (.unresolvableHost s!"{name}: {e}")
    | .ok addrs => .ok (addrs.map SocketAddr.ip)

def validateDestination (env : Env) (urlStr : String) (allowPrivate : Bool) :
    Except SecurityError Url :=
  match env.parseUrl urlStr with
  | .error e => .error (.invalidUrl e)
  | .ok url =>
    if url.scheme ≠ "http" ∧ url.scheme ≠ "https" then .error (.schemeNotAllowed url.scheme)
    else
      match url.host with
      | none => .error (.invalidUrl "missing host")
      | some host =>
        if url.username ≠ "" ∨ url.password.isSome then .error .credentialsNotAllowed
        else if allowPrivate then .ok url
        else
          match candidates env url host with
          | .error e => .error e
          | .ok ips =>
            match ips.find? ipIsBlocked with
            | some ip => .error (.privateAddressBlocked ip)
            | none => .ok url

/-! ## What is safe -/

/-- The URL is one to deliver to, whatever its host resolves to. -/
structure Url.WellFormed (url : Url) (host : Host) : Prop where
  scheme : url.scheme = "http" ∨ url.scheme = "https"
  host : url.host = some host
  userinfo : url.username = "" ∧ url.password = none

/-- The address is the host, or one the host resolves to. -/
def Candidate (env : Env) (url : Url) (ip : IpAddr) : Host → Prop
  | .ipv4 o => ip = .v4 o
  | .ipv6 s => ip = .v6 s
  | .domain name =>
    ∃ addrs, env.lookupHost name url.lookupPort = .ok addrs ∧ ∃ addr ∈ addrs, addr.ip = ip

/-- The host has an address, and none that is forbidden. -/
def Public (env : Env) (url : Url) (host : Host) : Prop :=
  (∃ ip, Candidate env url ip host) ∧ ∀ ip, Candidate env url ip host → ¬Forbidden ip

/-- The text is a URL that is safe to deliver to. -/
def SafeDestination (env : Env) (urlStr : String) (allowPrivate : Bool) (url : Url) : Prop :=
  env.parseUrl urlStr = .ok url ∧
    ∃ host, url.WellFormed host ∧ (allowPrivate = false → Public env url host)

/-- The check asks the resolver for a name, which answers without an address. -/
def EmptyAnswer (env : Env) (urlStr : String) (allowPrivate : Bool) : Prop :=
  allowPrivate = false ∧ ∃ url name, env.parseUrl urlStr = .ok url ∧
    url.WellFormed (.domain name) ∧ env.lookupHost name url.lookupPort = .ok []

section Check

variable {env : Env} {url : Url} {host : Host} {urlStr : String} {allowPrivate : Bool}

/-- The candidates of the check are the addresses of the host. -/
theorem candidates_ok {ips : List IpAddr} (h : candidates env url host = .ok ips) (ip : IpAddr) :
    Candidate env url ip host ↔ ip ∈ ips := by
  cases host with
  | ipv4 o | ipv6 s =>
    cases h
    exact List.mem_singleton.symm
  | domain name =>
    unfold candidates at h
    cases hlookup : env.lookupHost name url.lookupPort with
    | error e => simp [hlookup] at h
    | ok addrs =>
      simp only [hlookup, Except.ok.injEq] at h
      subst h
      simp [Candidate, hlookup]

theorem candidates_error {e : SecurityError} (h : candidates env url host = .error e)
    (ip : IpAddr) : ¬Candidate env url ip host := by
  cases host with
  | ipv4 o | ipv6 s => cases h
  | domain name =>
    unfold candidates at h
    cases hlookup : env.lookupHost name url.lookupPort with
    | error e => simp [Candidate, hlookup]
    | ok addrs => simp [hlookup] at h

/-- Only a name can have no candidates. -/
theorem candidates_nil_iff :
    candidates env url host = .ok [] ↔
      ∃ name, host = .domain name ∧ env.lookupHost name url.lookupPort = .ok [] := by
  cases host with
  | ipv4 o | ipv6 s => simp [candidates]
  | domain name =>
    unfold candidates
    cases hlookup : env.lookupHost name url.lookupPort with
    | error e => simp [hlookup]
    | ok addrs => simp [hlookup]

/-- What is returned is the URL that was parsed, and it is well formed. -/
theorem validateDestination_wellFormed (h : validateDestination env urlStr allowPrivate = .ok url) :
    env.parseUrl urlStr = .ok url ∧ ∃ host, url.WellFormed host := by
  unfold validateDestination at h
  cases hparse : env.parseUrl urlStr with
  | error e => simp [hparse] at h
  | ok parsed =>
    simp only [hparse] at h
    split at h
    · cases h
    · rename_i hscheme
      split at h
      · cases h
      · rename_i host hhost
        split at h
        · cases h
        · rename_i hinfo
          have hform : parsed.WellFormed host := by
            constructor
            · exact Decidable.or_iff_not_not_and_not.2 hscheme
            · exact hhost
            · simpa using hinfo
          have hurl : parsed = url := by
            split at h
            · exact Except.ok.inj h
            · split at h
              · cases h
              · split at h
                · cases h
                · exact Except.ok.inj h
          exact hurl ▸ ⟨rfl, host, hform⟩

/-- A well-formed URL is returned if no address of the answer is blocked. -/
theorem validateDestination_of_wellFormed (hparse : env.parseUrl urlStr = .ok url)
    (hform : url.WellFormed host) :
    validateDestination env urlStr allowPrivate = .ok url ↔
      (allowPrivate = false → ∃ ips, candidates env url host = .ok ips ∧
        ∀ ip ∈ ips, ¬Forbidden ip) := by
  have hscheme : ¬(url.scheme ≠ "http" ∧ url.scheme ≠ "https") :=
    fun hne => not_or.2 hne hform.scheme
  have hinfo : ¬(url.username ≠ "" ∨ url.password.isSome = true) := by
    simp [hform.userinfo.1, hform.userinfo.2]
  simp only [validateDestination, hparse, if_neg hscheme, hform.host, if_neg hinfo]
  cases allowPrivate with
  | true => simp
  | false =>
    cases hcand : candidates env url host with
    | error e => simp
    | ok ips =>
      have hnone : ips.find? ipIsBlocked = none ↔ ∀ ip ∈ ips, ¬Forbidden ip := by
        simp [List.find?_eq_none, ← ipIsBlocked_iff]
      simp only [Bool.false_eq_true, if_false, true_imp_iff, Except.ok.injEq, exists_eq_left',
        ← hnone]
      cases ips.find? ipIsBlocked with
      | none => simp
      | some ip => simp

/-- An answer without a forbidden address is a safe one, unless it is empty. -/
theorem public_iff :
    Public env url host ↔
      (∃ ips, candidates env url host = .ok ips ∧ ∀ ip ∈ ips, ¬Forbidden ip) ∧
        candidates env url host ≠ .ok [] := by
  cases hcand : candidates env url host with
  | error e =>
    simp [Public, candidates_error hcand]
  | ok ips =>
    simp only [Public, candidates_ok hcand, Except.ok.injEq, exists_eq_left', ne_eq]
    cases ips with
    | nil => simp
    | cons ip ips => simp

/-- Exactly the safe destinations are accepted, unless a name is answered with no address. -/
theorem validateDestination_exact_iff (env : Env) (urlStr : String) (allowPrivate : Bool) :
    (∀ url, validateDestination env urlStr allowPrivate = .ok url ↔
      SafeDestination env urlStr allowPrivate url) ↔ ¬EmptyAnswer env urlStr allowPrivate := by
  constructor
  · rintro h ⟨rfl, url, name, hparse, hform, hlookup⟩
    have hnil : candidates env url (.domain name) = .ok [] :=
      candidates_nil_iff.2 ⟨name, rfl, hlookup⟩
    have hok : validateDestination env urlStr false = .ok url :=
      (validateDestination_of_wellFormed hparse hform).2 fun _ => ⟨[], hnil, by simp⟩
    obtain ⟨-, host, hform', hpublic⟩ := (h url).1 hok
    obtain rfl := Option.some.inj (hform.host.symm.trans hform'.host)
    exact (public_iff.1 (hpublic rfl)).2 hnil
  · intro hempty url
    constructor
    · intro hok
      obtain ⟨hparse, host, hform⟩ := validateDestination_wellFormed hok
      refine ⟨hparse, host, hform, ?_⟩
      rintro rfl
      refine public_iff.2 ⟨(validateDestination_of_wellFormed hparse hform).1 hok rfl, ?_⟩
      intro hnil
      obtain ⟨name, rfl, hlookup⟩ := candidates_nil_iff.1 hnil
      exact hempty ⟨rfl, url, name, hparse, hform, hlookup⟩
    · rintro ⟨hparse, host, hform, hpublic⟩
      refine (validateDestination_of_wellFormed hparse hform).2 ?_
      intro hallow
      exact (public_iff.1 (hpublic hallow)).1

end Check

/-- One URL whose host is a name, and a resolver that knows the name without an address. -/
def emptyAnswerEnv : Env where
  parseUrl text :=
    if text = "http://empty.example/" then
      .ok { scheme := "http", host := some (.domain "empty.example"), username := "",
            password := none, port := none }
    else .error "relative URL without a base"
  lookupHost name _ :=
    if name = "empty.example" then .ok [] else .error "Name or service not known"

/-- A name that resolves to no address is accepted. -/
theorem validateDestination_no_address :
    (∃ url, validateDestination emptyAnswerEnv "http://empty.example/" false = .ok url) ∧
      ∀ url, ¬SafeDestination emptyAnswerEnv "http://empty.example/" false url := by
  refine ⟨⟨_, rfl⟩, ?_⟩
  rintro url ⟨hparse, host, hform, hpublic⟩
  obtain rfl := Except.ok.inj hparse
  obtain rfl := Option.some.inj hform.host
  exact (public_iff.1 (hpublic rfl)).2 rfl

end K
end WebhookDelivery
