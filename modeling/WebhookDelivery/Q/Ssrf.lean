/-
The SSRF policy.

`Url` is what the parser of the `url` crate gives, and `display` is the text of
an address.  The names of the network are not fixed: `Dns` is what
`to_socket_addrs` answers at one moment, and each lookup has its own.
-/
import Mathlib.Algebra.Group.Nat.Defs

namespace WebhookDelivery
namespace Q

structure Url where
  scheme : String
  hostStr : Option String
  username : String
  password : Option String
  port : Option UInt16

/-- The name a lookup is made for. -/
def Url.host (url : Url) : String := url.hostStr.getD ""

inductive IpAddr
  | v4 (octets : Vector UInt8 4)
  | v6 (segments : Vector UInt16 8)
  deriving DecidableEq

/-! ## Blocked addresses -/

def isBlockedV4 (o : Vector UInt8 4) : Bool :=
  o[0] = 0 -- 0.0.0.0/8
    ∨ o[0] = 10 -- 10.0.0.0/8
    ∨ (o[0] = 100 ∧ o[1] ≥ 64 ∧ o[1] ≤ 127) -- 100.64.0.0/10
    ∨ o[0] = 127 -- 127.0.0.0/8
    ∨ (o[0] = 169 ∧ o[1] = 254) -- 169.254.0.0/16
    ∨ (o[0] = 172 ∧ o[1] ≥ 16 ∧ o[1] ≤ 31) -- 172.16.0.0/12
    ∨ (o[0] = 192 ∧ o[1] = 168) -- 192.168.0.0/16
    ∨ o[0] = 255 -- 255.0.0.0/8

/-- `to_ipv4_mapped`: the address `a.b.c.d` in `::ffff:a.b.c.d`. -/
def toIpv4Mapped (s : Vector UInt16 8) : Option (Vector UInt8 4) :=
  if (s.toList.take 5).all (· = 0) ∧ s[5] = 0xffff then
    some #v[(s[6] >>> 8).toUInt8, s[6].toUInt8, (s[7] >>> 8).toUInt8, s[7].toUInt8]
  else none

def isBlockedIp : IpAddr → Bool
  | .v4 o => isBlockedV4 o
  | .v6 s =>
    match toIpv4Mapped s with
    | some mapped => isBlockedV4 mapped
    | none =>
      s.toList.all (· = 0) -- ::
        ∨ ((s.toList.take 7).all (· = 0) ∧ s[7] = 1) -- ::1
        ∨ s[0] &&& 0xfe00 = 0xfc00 -- fc00::/7
        ∨ s[0] &&& 0xffc0 = 0xfe80 -- fe80::/10

/-- An IPv4 address and its IPv6 form are blocked together. -/
theorem isBlockedIp_mapped {s : Vector UInt16 8} {o : Vector UInt8 4}
    (h : toIpv4Mapped s = some o) : isBlockedIp (.v6 s) = isBlockedIp (.v4 o) := by
  simp only [isBlockedIp, h]

/-! ## Validation -/

inductive SsrfError
  | badScheme
  | missingHost
  | userinfo
  | badPort (port : UInt16)
  | privateIp (ip : IpAddr)
  | resolutionFailed (e : String)
  deriving DecidableEq

def SsrfError.text (display : IpAddr → String) : SsrfError → String
  | .badScheme => "unsupported scheme: expected http or https"
  | .missingHost => "url has no host"
  | .userinfo => "url must not contain userinfo"
  | .badPort port => s!"port {port} not allowed"
  | .privateIp ip => s!"resolved address is a blocked private/reserved IP: {display ip}"
  | .resolutionFailed e => s!"dns resolution failed for {e}"

structure SsrfPolicy where
  allowPrivate : Bool
  allowedPorts : List UInt16

/-- `SsrfPolicy::default`. -/
def SsrfPolicy.default : SsrfPolicy := { allowPrivate := false, allowedPorts := [80, 443] }

abbrev IpResolver := String → Except String (List IpAddr)

abbrev Dns := String → Except String (List IpAddr)

/-- `SystemResolver`. -/
def systemResolver (dns : Dns) : IpResolver := fun host =>
  match dns host with
  | .error e => .error e
  | .ok [] => .error s!"no addresses for {host}"
  | .ok addrs => .ok addrs

def validateUrl (policy : SsrfPolicy) (url : Url) : Except SsrfError Unit :=
  if url.scheme ≠ "http" ∧ url.scheme ≠ "https" then .error .badScheme
  else if url.host = "" then .error .missingHost
  else if url.username ≠ "" ∨ url.password.isSome then .error .userinfo
  else
    match url.port with
    | none => .ok ()
    | some port => if port ∈ policy.allowedPorts then .ok () else .error (.badPort port)

def validate (policy : SsrfPolicy) (url : Url) (resolver : IpResolver) :
    Except SsrfError (List IpAddr) :=
  match validateUrl policy url with
  | .error e => .error e
  | .ok _ =>
    match resolver url.host with
    | .error e => .error (.resolutionFailed e)
    | .ok ips =>
      if policy.allowPrivate then .ok ips
      else
        match ips.find? isBlockedIp with
        | some ip => .error (.privateIp ip)
        | none => .ok ips

/-! ## What the policy asks -/

/-- The URL is one the policy allows, whatever its host resolves to. -/
structure Allows (policy : SsrfPolicy) (url : Url) : Prop where
  scheme : url.scheme = "http" ∨ url.scheme = "https"
  host : url.host ≠ ""
  userinfo : url.username = "" ∧ url.password = none
  port : ∀ port, url.port = some port → port ∈ policy.allowedPorts

/-- The policy forbids the URL itself or an address its host has. -/
def Violates (policy : SsrfPolicy) (url : Url) (dns : Dns) : Prop :=
  ¬Allows policy url ∨
    policy.allowPrivate = false ∧ ∃ ips, dns url.host = .ok ips ∧ ∃ ip ∈ ips, isBlockedIp ip = true

/-- The policy has no objection, but the lookup of the host brings no address. -/
def Unresolved (policy : SsrfPolicy) (url : Url) (dns : Dns) : Prop :=
  Allows policy url ∧ ∀ ips, dns url.host = .ok ips → ips = []

theorem validateUrl_ok_iff {policy : SsrfPolicy} {url : Url} :
    validateUrl policy url = .ok () ↔ Allows policy url := by
  unfold validateUrl
  constructor
  · intro h
    split at h
    · cases h
    · rename_i hscheme
      split at h
      · cases h
      · rename_i hhost
        split at h
        · cases h
        · rename_i huser
          have hscheme' : url.scheme = "http" ∨ url.scheme = "https" := by
            by_cases hhttp : url.scheme = "http"
            · exact .inl hhttp
            · exact .inr (Decidable.not_not.1 fun hhttps => hscheme ⟨hhttp, hhttps⟩)
          have huser' : url.username = "" ∧ url.password = none := by
            simpa using huser
          refine ⟨hscheme', hhost, huser', fun port hport => ?_⟩
          simp only [hport] at h
          split at h
          · assumption
          · cases h
  · rintro ⟨hscheme, hhost, ⟨huser, hpass⟩, hport⟩
    have hscheme' : ¬(url.scheme ≠ "http" ∧ url.scheme ≠ "https") := by
      rintro ⟨hhttp, hhttps⟩
      exact hscheme.elim hhttp hhttps
    rw [if_neg hscheme', if_neg hhost, if_neg (by simp [huser, hpass])]
    cases hp : url.port with
    | none => rfl
    | some port => exact if_pos (hport port hp)

theorem systemResolver_error {dns : Dns} {host e : String}
    (h : systemResolver dns host = .error e) : ∀ ips, dns host = .ok ips → ips = [] := by
  intro ips hips
  unfold systemResolver at h
  rw [hips] at h
  cases ips with
  | nil => rfl
  | cons ip rest => cases h

theorem systemResolver_ok {dns : Dns} {host : String} {ips : List IpAddr}
    (h : systemResolver dns host = .ok ips) : dns host = .ok ips ∧ ips ≠ [] := by
  unfold systemResolver at h
  cases hdns : dns host with
  | error e => simp [hdns] at h
  | ok addrs =>
    cases addrs with
    | nil => simp [hdns] at h
    | cons ip rest =>
      rw [hdns] at h
      cases h
      exact ⟨rfl, List.cons_ne_nil ip rest⟩

/-- What `validate` answers with the system's resolver. -/
theorem validate_spec (policy : SsrfPolicy) (url : Url) (dns : Dns) :
    (∃ ips, validate policy url (systemResolver dns) = .ok ips ∧ Allows policy url ∧
      dns url.host = .ok ips ∧ (policy.allowPrivate = false → ∀ ip ∈ ips, isBlockedIp ip = false)) ∨
    (∃ e, validate policy url (systemResolver dns) = .error e ∧ Violates policy url dns) ∨
    (∃ msg, validate policy url (systemResolver dns) = .error (.resolutionFailed msg) ∧
      Unresolved policy url dns) := by
  unfold validate
  cases hurl : validateUrl policy url with
  | error e =>
    have hno : ¬Allows policy url := by
      intro hallows
      rw [validateUrl_ok_iff.2 hallows] at hurl
      cases hurl
    exact .inr (.inl ⟨e, rfl, .inl hno⟩)
  | ok _ =>
    have hallows := validateUrl_ok_iff.1 hurl
    dsimp only
    cases hres : systemResolver dns url.host with
    | error msg => exact .inr (.inr ⟨msg, rfl, hallows, systemResolver_error hres⟩)
    | ok ips =>
      obtain ⟨hdns, -⟩ := systemResolver_ok hres
      by_cases hpriv : policy.allowPrivate = true
      · refine .inl ⟨ips, if_pos hpriv, hallows, hdns, fun hoff => ?_⟩
        rw [hpriv] at hoff
        cases hoff
      · dsimp only
        rw [if_neg hpriv]
        cases hfind : ips.find? isBlockedIp with
        | some ip =>
          exact .inr (.inl ⟨_, rfl, .inr ⟨Bool.eq_false_iff.2 hpriv, ips, hdns, ip,
            List.mem_of_find?_eq_some hfind, List.find?_some hfind⟩⟩)
        | none =>
          refine .inl ⟨ips, rfl, hallows, hdns, fun _ ip hip => ?_⟩
          exact Bool.eq_false_iff.2 (List.find?_eq_none.1 hfind ip hip)

end Q
end WebhookDelivery
