/-
The check of a destination.

What the worker tests and looks up is a piece of the destination string: the text
after the scheme, up to a slash, without a port.
-/
import WebhookDelivery.D.Ssrf
import WebhookDelivery.Text.Url

namespace WebhookDelivery
namespace D

open Net (IpAddr)
open Text (lower rsplitOnce)

/-- `url_like::Parsed`. -/
structure Parsed where
  host : String

def httpScheme : List Char := "http://".toList

def httpsScheme : List Char := "https://".toList

def validateDestination (url : String) : Except String Parsed :=
  let low := lower url.toList
  if !(httpScheme.isPrefixOf low || httpsScheme.isPrefixOf low) then
    .error "destination must be an http(s):// URL"
  else
    let scheme := if httpScheme.isPrefixOf low then 7 else 8
    let rest := url.toList.drop scheme
    if rest = [] then .error "destination URL has no authority"
    else .ok { host := String.ofList rest }

def hostFromUrl (authority : String) : String :=
  let withoutPath := authority.toList.takeWhile (· ≠ '/')
  match rsplitOnce ':' withoutPath with
  | some (host, port) =>
    if port ≠ [] ∧ port.all Char.isDigit = true then String.ofList host
    else String.ofList withoutPath
  | none => String.ofList withoutPath

/-- `str::parse::<IpAddr>`, and `to_string` of an address. -/
structure Env where
  parseIp : String → Option IpAddr
  showIp : IpAddr → String

/-- `lookup_host` of a host and the port 0. -/
abbrev Lookup := String → Except String (List IpAddr)

/-- The address that a host is, between brackets or not. -/
def literalIp (env : Env) (host : String) : Option IpAddr :=
  env.parseIp
    (String.ofList ((host.toList.dropWhile (· = '[')).rdropWhile (· = ']')))

def isBlockedLiteralIp (env : Env) (host : String) : Bool :=
  match literalIp env host with
  | some ip => isPrivateIp ip
  | none => false

/-- What `ALLOW_PRIVATE` says. -/
def allowPrivate (var : Option String) : Bool := var = some "true" || var = some "1"

def checkDestinationBlocked (env : Env) (var : Option String) (lookup : Lookup)
    (destination : String) : Except String Unit :=
  match validateDestination destination with
  | .error err => .error err
  | .ok parsed =>
    let host := hostFromUrl parsed.host
    if allowPrivate var then .ok ()
    else if host = "" then .error "no host in URL"
    else if isBlockedLiteralIp env host then
      .error s!"host {host} is a private/reserved address"
    else
      match lookup host with
      | .error err => .error err
      | .ok ips =>
        match ips.find? isPrivateIp with
        | some ip => .error s!"host {host} resolves to private address {env.showIp ip}"
        | none => .ok ()

/-! ## What the check says -/

/-- The destination is an http or https URL, in whatever case. -/
def IsHttp (destination : String) : Prop :=
  ∃ scheme rest, lower scheme ∈ ["http".toList, "https".toList] ∧
    destination.toList = scheme ++ ':' :: '/' :: '/' :: rest

/-- A scheme and its slashes are what a text begins with, up to case. -/
theorem isPrefixOf_lower {scheme cs : List Char} :
    (scheme ++ "://".toList).isPrefixOf (lower cs) = true ↔
      ∃ scheme', lower scheme' = scheme ∧
        cs = scheme' ++ ':' :: '/' :: '/' :: cs.drop (scheme.length + 3) := by
  have hslashes : ("://".toList.all fun d => decide (d.toNat < 65)) = true := by decide
  have hslashes : ∀ d ∈ "://".toList, d.toNat < 65 := fun d hd =>
    of_decide_eq_true (List.all_eq_true.1 hslashes d hd)
  rw [List.isPrefixOf_iff_prefix]
  constructor
  · rintro ⟨tail, htail⟩
    obtain ⟨front, rest, rfl, hfront, -⟩ := List.map_eq_append_iff.1 htail.symm
    obtain ⟨scheme', slashes, rfl, rfl, hsl⟩ := List.map_eq_append_iff.1 hfront
    obtain rfl := (Text.lower_eq_iff hslashes).1 hsl
    refine ⟨scheme', rfl, ?_⟩
    have hlen : (scheme'.map Char.toLower).length + 3 = (scheme' ++ "://".toList).length := by
      rw [List.length_map, List.length_append]
      rfl
    rw [hlen, List.drop_left, List.append_assoc]
    rfl
  · rintro ⟨scheme', rfl, hcs⟩
    rw [hcs]
    refine ⟨lower (cs.drop ((lower scheme').length + 3)), ?_⟩
    simp [lower]

/-- A destination is refused, or what follows its scheme is returned. -/
theorem validateDestination_cases (url : String) :
    (¬IsHttp url ∧
      validateDestination url = .error "destination must be an http(s):// URL") ∨
    ∃ scheme rest, lower scheme ∈ ["http".toList, "https".toList] ∧
      url.toList = scheme ++ ':' :: '/' :: '/' :: rest ∧
      validateDestination url =
        if rest = [] then .error "destination URL has no authority"
        else .ok { host := String.ofList rest } := by
  have hhttp : httpScheme = "http".toList ++ "://".toList := by decide
  have hhttps : httpsScheme = "https".toList ++ "://".toList := by decide
  by_cases hp : httpScheme.isPrefixOf (lower url.toList) = true
  · obtain ⟨scheme, hscheme, hurl⟩ := isPrefixOf_lower.1 (hhttp ▸ hp)
    refine .inr ⟨scheme, url.toList.drop 7, by simp [hscheme], hurl, ?_⟩
    simp [validateDestination, hp]
  · by_cases hps : httpsScheme.isPrefixOf (lower url.toList) = true
    · obtain ⟨scheme, hscheme, hurl⟩ := isPrefixOf_lower.1 (hhttps ▸ hps)
      refine .inr ⟨scheme, url.toList.drop 8, by simp [hscheme], hurl, ?_⟩
      simp [validateDestination, hp, hps]
    · refine .inl ⟨?_, ?_⟩
      · rintro ⟨scheme, rest, hscheme, hurl⟩
        have hprefix : (lower scheme ++ "://".toList).isPrefixOf (lower url.toList) = true := by
          rw [List.isPrefixOf_iff_prefix]
          exact ⟨lower rest, by simp [hurl, lower]⟩
        simp only [List.mem_cons, List.not_mem_nil, or_false] at hscheme
        rcases hscheme with h | h
        · exact hp (hhttp ▸ h ▸ hprefix)
        · exact hps (hhttps ▸ h ▸ hprefix)
      · simp [validateDestination, hp, hps]

/-- An accepted destination is its scheme and what is returned of it. -/
theorem validateDestination_ok {url : String} {parsed : Parsed}
    (h : validateDestination url = .ok parsed) :
    ∃ scheme, lower scheme ∈ ["http".toList, "https".toList] ∧
      url.toList = scheme ++ ':' :: '/' :: '/' :: parsed.host.toList ∧
      parsed.host.toList ≠ [] := by
  rcases validateDestination_cases url with ⟨-, herr⟩ | ⟨scheme, rest, hscheme, hurl, hval⟩
  · rw [herr] at h
    cases h
  · rw [hval] at h
    split at h
    · cases h
    · rename_i hne
      cases h
      have hlist : (String.ofList rest).toList = rest := String.toList_ofList
      exact ⟨scheme, hscheme, hlist.symm ▸ hurl, hlist.symm ▸ hne⟩

/-- The host that the check is about. -/
def checkedHost (destination : String) : Option String :=
  match validateDestination destination with
  | .error _ => none
  | .ok parsed => some (hostFromUrl parsed.host)

/-- The policy refuses the destination: it is not an http or https URL, has no host, or
has one that is or resolves to a private or reserved address. -/
inductive Refused (env : Env) (var : Option String) (lookup : Lookup) (destination : String) :
    Prop
  | notHttp : ¬IsHttp destination → Refused env var lookup destination
  | noAuthority (scheme : List Char) :
      lower scheme ∈ ["http".toList, "https".toList] →
      destination.toList = scheme ++ "://".toList → Refused env var lookup destination
  | noHost : allowPrivate var = false → checkedHost destination = some "" →
      Refused env var lookup destination
  | isPrivate (host : String) (ip : IpAddr) :
      allowPrivate var = false → checkedHost destination = some host →
      literalIp env host = some ip → isPrivateIp ip = true →
      Refused env var lookup destination
  | resolves (host : String) (ips : List IpAddr) (ip : IpAddr) :
      allowPrivate var = false → checkedHost destination = some host →
      lookup host = .ok ips → ip ∈ ips → isPrivateIp ip = true →
      Refused env var lookup destination

/-- The check gets as far as the lookup of the host, which fails. -/
def LookupFails (env : Env) (var : Option String) (lookup : Lookup) (destination : String) :
    Prop :=
  allowPrivate var = false ∧ ∃ host err, checkedHost destination = some host ∧ host ≠ "" ∧
    isBlockedLiteralIp env host = false ∧ lookup host = .error err

section Check

variable {env : Env} {var : Option String} {lookup : Lookup} {destination : String}

theorem checkDestinationBlocked_host {host : String} (h : checkedHost destination = some host) :
    checkDestinationBlocked env var lookup destination =
      if allowPrivate var then .ok ()
      else if host = "" then .error "no host in URL"
      else if isBlockedLiteralIp env host then
        .error s!"host {host} is a private/reserved address"
      else
        match lookup host with
        | .error err => .error err
        | .ok ips =>
          match ips.find? isPrivateIp with
          | some ip => .error s!"host {host} resolves to private address {env.showIp ip}"
          | none => .ok () := by
  unfold checkedHost at h
  unfold checkDestinationBlocked
  cases hval : validateDestination destination with
  | error err =>
    rw [hval] at h
    cases h
  | ok parsed =>
    rw [hval] at h
    cases h
    rfl

/-- A destination without a host to check is refused. -/
theorem refused_of_no_host (h : checkedHost destination = none) :
    (∃ err, checkDestinationBlocked env var lookup destination = .error err) ∧
      Refused env var lookup destination := by
  unfold checkedHost at h
  unfold checkDestinationBlocked
  rcases validateDestination_cases destination with ⟨hnot, hval⟩ |
    ⟨scheme, rest, hscheme, hurl, hval⟩
  · rw [hval]
    exact ⟨⟨_, rfl⟩, .notHttp hnot⟩
  · by_cases hrest : rest = []
    · rw [hval, if_pos hrest]
      subst hrest
      exact ⟨⟨_, rfl⟩, .noAuthority scheme hscheme hurl⟩
    · rw [hval, if_neg hrest] at h
      cases h

/-- The check fails for what the policy refuses, and when its lookup fails. -/
theorem refused_or_lookupFails {err : String}
    (h : checkDestinationBlocked env var lookup destination = .error err) :
    Refused env var lookup destination ∨ LookupFails env var lookup destination := by
  cases hhost : checkedHost destination with
  | none => exact .inl (refused_of_no_host hhost).2
  | some host =>
    rw [checkDestinationBlocked_host hhost] at h
    by_cases hallow : allowPrivate var = true
    · rw [if_pos hallow] at h
      cases h
    · have hoff : allowPrivate var = false := Bool.eq_false_iff.2 hallow
      rw [if_neg hallow] at h
      by_cases hempty : host = ""
      · exact .inl (.noHost hoff (hempty ▸ hhost))
      · rw [if_neg hempty] at h
        by_cases hlit : isBlockedLiteralIp env host = true
        · have hlit' := hlit
          unfold isBlockedLiteralIp at hlit'
          split at hlit'
          · rename_i ip hip
            exact .inl (.isPrivate host ip hoff hhost hip hlit')
          · cases hlit'
        · rw [if_neg hlit] at h
          cases hlook : lookup host with
          | error e =>
            exact .inr ⟨hoff, host, e, hhost, hempty, Bool.eq_false_iff.2 hlit, hlook⟩
          | ok ips =>
            rw [hlook] at h
            dsimp only at h
            split at h
            · rename_i ip hfind
              exact .inl (.resolves host ips ip hoff hhost hlook (List.mem_of_find?_eq_some hfind)
                (List.find?_some hfind))
            · cases h

/-- The lookup of a check that fails is what the check fails with. -/
theorem LookupFails.error (h : LookupFails env var lookup destination) :
    ∃ host err, lookup host = .error err ∧
      checkDestinationBlocked env var lookup destination = .error err := by
  obtain ⟨hoff, host, err, hhost, hne, hlit, hlook⟩ := h
  refine ⟨host, err, hlook, ?_⟩
  rw [checkDestinationBlocked_host hhost, hoff, hlit, hlook, if_neg (by decide), if_neg hne,
    if_neg (by decide)]

end Check

end D
end WebhookDelivery
