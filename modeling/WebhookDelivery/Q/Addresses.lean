/-
What the SSRF policy makes of an address, read as a number.
-/
import WebhookDelivery.Net.Ip
import WebhookDelivery.Q.Ssrf

namespace WebhookDelivery
namespace Q

open Net (Block InAny cidr4 cidr6 Ipv4Addr.number Ipv6Addr.number)

/-- The IPv4 prefixes the policy lists. -/
def blockedV4 : List (Block 32) :=
  [cidr4 (Net.ipv4 0 0 0 0) 8, cidr4 (Net.ipv4 10 0 0 0) 8, cidr4 (Net.ipv4 100 64 0 0) 10,
    cidr4 (Net.ipv4 127 0 0 0) 8, cidr4 (Net.ipv4 169 254 0 0) 16, cidr4 (Net.ipv4 172 16 0 0) 12,
    cidr4 (Net.ipv4 192 168 0 0) 16, cidr4 (Net.ipv4 255 0 0 0) 8]

/-- The IPv6 prefixes the policy lists: `::`, `::1`, `fc00::/7` and `fe80::/10`. -/
def blockedV6 : List (Block 128) :=
  [cidr6 (Net.ipv6 0 0 0 0 0 0 0 0) 128, cidr6 (Net.ipv6 0 0 0 0 0 0 0 1) 128,
    cidr6 (Net.ipv6 0xfc00 0 0 0 0 0 0 0) 7, cidr6 (Net.ipv6 0xfe80 0 0 0 0 0 0 0) 10]

/-! ## Prefixes -/

theorem isBlockedV4_iff (o : Vector UInt8 4) :
    isBlockedV4 o = true ↔ InAny blockedV4 (Ipv4Addr.number o) := by
  have hB := Net.mem_privateB (o := o)
  have hS := Net.mem_sharedSpace (o := o)
  rw [Net.privateB] at hB
  rw [Net.sharedSpace] at hS
  simp only [isBlockedV4, decide_eq_true_eq, Net.getElem_octet, blockedV4, Net.inAny_cons,
    Net.inAny_nil, or_false, Net.mem_slash8, Net.mem_slash16, hB, hS]
  exact Iff.rfl

theorem blockedV6_iff (s : Vector UInt16 8) :
    InAny blockedV6 (Ipv6Addr.number s) ↔
      s.toList.all (· = 0) ∨ ((s.toList.take 7).all (· = 0) ∧ Net.segment s 7 = 1) ∨
        Net.segment s 0 &&& 0xfe00 = 0xfc00 ∨ Net.segment s 0 &&& 0xffc0 = 0xfe80 := by
  have hU := Net.mem_uniqueLocal6 (s := s)
  have hL := Net.mem_linkLocal6 (s := s)
  rw [Net.uniqueLocal6] at hU
  rw [Net.linkLocal6] at hL
  simp only [blockedV6, Net.inAny_cons, Net.inAny_nil, or_false, Net.mem_slash128, hU, hL]
  have hlist : ∀ t : Vector UInt16 8, s = t ↔ s.toList = t.toList := fun t => Vector.toList_inj.symm
  rw [hlist, hlist, Net.Ipv6Addr.toList_eq s]
  simp [and_assoc]

theorem toIpv4Mapped_eq (s : Vector UInt16 8) : toIpv4Mapped s = Net.toIpv4Mapped s := by
  simp only [toIpv4Mapped, Net.toIpv4Mapped, Net.getElem_segment]
  rfl

/-- A mapped address has none of the forms the IPv6 branch looks for. -/
theorem mapped_not_blockedV6 {s : Vector UInt16 8} (h : Ipv6Addr.number s ∈ Net.mapped6) :
    ¬InAny blockedV6 (Ipv6Addr.number s) := by
  obtain ⟨hfive, hsix⟩ := Net.mem_mapped6.1 h
  rw [blockedV6_iff, Net.Ipv6Addr.toList_eq]
  rw [Net.Ipv6Addr.toList_eq] at hfive
  have hzero : Net.segment s 0 = 0 := by simpa using congrArg List.head? hfive
  simp [hzero, hsix]

theorem isBlockedV6_iff (s : Vector UInt16 8) :
    isBlockedIp (.v6 s) = true ↔
      (Ipv6Addr.number s ∈ Net.mapped6 ∧ InAny blockedV4 (Ipv6Addr.number s % 2 ^ 32)) ∨
        InAny blockedV6 (Ipv6Addr.number s) := by
  rcases Net.toIpv4Mapped_spec s with ⟨o, hmap, hmem, hnumber⟩ | ⟨hmap, hmem⟩
  · rw [isBlockedIp_mapped (toIpv4Mapped_eq s ▸ hmap), ← hnumber, ← isBlockedV4_iff]
    show isBlockedV4 o = true ↔ _
    simp [hmem, mapped_not_blockedV6 hmem]
  · rw [blockedV6_iff]
    simp only [isBlockedIp, toIpv4Mapped_eq, hmap, hmem, false_and, false_or, decide_eq_true_eq,
      Net.getElem_segment]

/-! ## Resolver answers -/

section Answers

variable {policy : SsrfPolicy} {url : Url} {resolver : IpResolver} {ips : List IpAddr}

theorem validate_resolved (hoff : policy.allowPrivate = false)
    (hurl : validateUrl policy url = .ok ()) (hips : resolver url.host = .ok ips) :
    validate policy url resolver =
      match ips.find? isBlockedIp with
      | some ip => .error (.privateIp ip)
      | none => .ok ips := by
  cases hfind : ips.find? isBlockedIp with
  | none => simp [validate, hurl, hips, hoff, hfind]
  | some ip => simp [validate, hurl, hips, hoff, hfind]

/-- What passes is the resolver's answer, and nothing in it is blocked. -/
theorem validate_passes (hoff : policy.allowPrivate = false)
    (h : validate policy url resolver = .ok ips) :
    resolver url.host = .ok ips ∧ ∀ ip ∈ ips, isBlockedIp ip = false := by
  cases hurl : validateUrl policy url with
  | error e => simp [validate, hurl] at h
  | ok _ =>
    cases hres : resolver url.host with
    | error e => simp [validate, hurl, hres] at h
    | ok addrs =>
      rw [validate_resolved hoff hurl hres] at h
      cases hfind : addrs.find? isBlockedIp with
      | some ip => simp [hfind] at h
      | none =>
        simp only [hfind] at h
        cases h
        exact ⟨rfl, fun ip hip => Bool.eq_false_iff.2 (List.find?_eq_none.1 hfind ip hip)⟩

theorem validate_clean (hoff : policy.allowPrivate = false)
    (hurl : validateUrl policy url = .ok ()) (hips : resolver url.host = .ok ips)
    (hclean : ∀ ip ∈ ips, isBlockedIp ip = false) : validate policy url resolver = .ok ips := by
  have hfind : ips.find? isBlockedIp = none :=
    List.find?_eq_none.2 fun ip hip => Bool.eq_false_iff.1 (hclean ip hip)
  rw [validate_resolved hoff hurl hips, hfind]

/-- Of several blocked addresses the first is reported. -/
theorem validate_reports (hoff : policy.allowPrivate = false)
    (hurl : validateUrl policy url = .ok ()) {pre post : List IpAddr} {ip : IpAddr}
    (hips : resolver url.host = .ok (pre ++ ip :: post))
    (hpre : ∀ x ∈ pre, isBlockedIp x = false) (hip : isBlockedIp ip = true) :
    validate policy url resolver = .error (.privateIp ip) := by
  have hfind : (pre ++ ip :: post).find? isBlockedIp = some ip :=
    List.find?_eq_some_iff_append.2 ⟨hip, pre, post, rfl, fun x hx => by simp [hpre x hx]⟩
  rw [validate_resolved hoff hurl hips, hfind]

end Answers

/-- The policy blocks the listed prefixes and no other address, and with private
addresses off `validate` lets an answer pass only without a blocked one, of
which it reports the first. -/
theorem isBlockedIp_exact :
    (∀ o, isBlockedIp (.v4 o) = true ↔ InAny blockedV4 (Ipv4Addr.number o)) ∧
    (∀ s, isBlockedIp (.v6 s) = true ↔
      (Ipv6Addr.number s ∈ cidr6 #v[0, 0, 0, 0, 0, 0xffff, 0, 0] 96 ∧
          InAny blockedV4 (Ipv6Addr.number s % 2 ^ 32)) ∨
        InAny blockedV6 (Ipv6Addr.number s)) ∧
    (∀ (policy : SsrfPolicy) (url : Url) (resolver : IpResolver), policy.allowPrivate = false →
      (∀ ips, validate policy url resolver = .ok ips →
        resolver url.host = .ok ips ∧ ∀ ip ∈ ips, isBlockedIp ip = false) ∧
      (validateUrl policy url = .ok () → ∀ ips, resolver url.host = .ok ips →
        ((∀ ip ∈ ips, isBlockedIp ip = false) → validate policy url resolver = .ok ips) ∧
        (∀ pre ip post, ips = pre ++ ip :: post → (∀ x ∈ pre, isBlockedIp x = false) →
          isBlockedIp ip = true → validate policy url resolver = .error (.privateIp ip)))) := by
  refine ⟨isBlockedV4_iff, isBlockedV6_iff, fun policy url resolver hoff => ⟨?_, ?_⟩⟩
  · intro ips h
    exact validate_passes hoff h
  · intro hurl ips hips
    constructor
    · intro hclean
      exact validate_clean hoff hurl hips hclean
    · intro pre ip post heq hpre hip
      rw [heq] at hips
      exact validate_reports hoff hurl hips hpre hip

theorem isBlockedIp_exact_listing :
    validate .default ⟨"https", some "hook.example", "", none, none⟩
      (fun _ => .ok [.v4 #v[93, 184, 216, 34], .v4 #v[10, 0, 0, 1], .v4 #v[127, 0, 0, 1]]) =
      .error (.privateIp (.v4 #v[10, 0, 0, 1])) :=
  ((isBlockedIp_exact.2.2 .default _ _ rfl).2 rfl _ rfl).2 [.v4 #v[93, 184, 216, 34]] _
    [.v4 #v[127, 0, 0, 1]] rfl (by decide) (by decide)

/-! ## Addresses as hosts -/

/-- What the policy is not the author of: the text of an address, the reading of
that text, and the lookup of any other name. -/
structure Names where
  text : IpAddr → String
  parse : String → Option IpAddr
  lookup : Dns

namespace Names

variable (n : Names)

/-- `to_socket_addrs`: the text of an address is read, another name is looked up. -/
def toSocketAddrs : Dns := fun host =>
  match n.parse host with
  | some ip => .ok [ip]
  | none => n.lookup host

/-- `host_str` of an address: an IPv6 one stands between brackets. -/
def hostStr : IpAddr → String
  | .v4 o => n.text (.v4 o)
  | .v6 s => "[" ++ n.text (.v6 s) ++ "]"

/-- What is documented of them for the address `a`. -/
structure Documented (a : IpAddr) : Prop where
  text_ne : n.text a ≠ ""
  parse_text : n.parse (n.text a) = some a
  parse_bracketed : ∀ t, n.parse ("[" ++ t ++ "]") = none
  lookup_bracketed : ∀ t, ∃ e, n.lookup ("[" ++ t ++ "]") = .error e

end Names

section Literals

variable {n : Names} {policy : SsrfPolicy} {url : Url} {a : IpAddr}

theorem hostStr_ne (hdoc : n.Documented a) : n.hostStr a ≠ "" := by
  cases a with
  | v4 o => exact hdoc.text_ne
  | v6 s =>
    intro h
    have hlist := congrArg String.toList h
    simp [Names.hostStr] at hlist

theorem literal_allows (hdoc : n.Documented a)
    (hscheme : url.scheme = "http" ∨ url.scheme = "https")
    (huser : url.username = "" ∧ url.password = none)
    (hport : ∀ port, url.port = some port → port ∈ policy.allowedPorts)
    (hhost : url.hostStr = some (n.hostStr a)) : Allows policy url := by
  refine ⟨hscheme, ?_, huser, hport⟩
  simpa [Url.host, hhost] using hostStr_ne hdoc

/-- The text of an IPv4 address is read back to it. -/
theorem lookup_v4 {o : Vector UInt8 4} (hdoc : n.Documented (.v4 o)) :
    systemResolver n.toSocketAddrs (n.hostStr (.v4 o)) = .ok [.v4 o] := by
  simp only [systemResolver, Names.toSocketAddrs, Names.hostStr, hdoc.parse_text]

/-- The brackets keep the text of an IPv6 address from being read. -/
theorem lookup_v6 {s : Vector UInt16 8} (hdoc : n.Documented (.v6 s)) :
    ∃ e, systemResolver n.toSocketAddrs (n.hostStr (.v6 s)) = .error e := by
  obtain ⟨e, he⟩ := hdoc.lookup_bracketed (n.text (.v6 s))
  refine ⟨e, ?_⟩
  simp only [systemResolver, Names.toSocketAddrs, Names.hostStr, hdoc.parse_bracketed, he]

/-- An IPv6 literal is taken for a name, which does not resolve. -/
theorem validate_v6 {s : Vector UInt16 8} (hdoc : n.Documented (.v6 s))
    (hallows : Allows policy url) (hhost : url.hostStr = some (n.hostStr (.v6 s))) :
    ∃ e, validate policy url (systemResolver n.toSocketAddrs) = .error (.resolutionFailed e) := by
  obtain ⟨e, he⟩ := lookup_v6 hdoc
  have hname : url.host = n.hostStr (.v6 s) := by simp [Url.host, hhost]
  refine ⟨e, ?_⟩
  simp only [validate, validateUrl_ok_iff.2 hallows, hname, he]

/-- The policy judges a literal by its address exactly if that is an IPv4 one. -/
theorem validate_literal_iff (hoff : policy.allowPrivate = false) (hdoc : n.Documented a)
    (hscheme : url.scheme = "http" ∨ url.scheme = "https")
    (huser : url.username = "" ∧ url.password = none)
    (hport : ∀ port, url.port = some port → port ∈ policy.allowedPorts)
    (hhost : url.hostStr = some (n.hostStr a)) :
    ((isBlockedIp a = false →
        ∃ ips, validate policy url (systemResolver n.toSocketAddrs) = .ok ips) ∧
      (isBlockedIp a = true →
        validate policy url (systemResolver n.toSocketAddrs) = .error (.privateIp a))) ↔
      ∃ o, a = .v4 o := by
  have hallows := literal_allows hdoc hscheme huser hport hhost
  have hurl := validateUrl_ok_iff.2 hallows
  cases a with
  | v4 o =>
    have hips : systemResolver n.toSocketAddrs url.host = .ok [.v4 o] := by
      have hname : url.host = n.hostStr (.v4 o) := by simp [Url.host, hhost]
      rw [hname]
      exact lookup_v4 hdoc
    refine ⟨fun _ => ⟨o, rfl⟩, fun _ => ⟨fun hok => ?_, fun hblocked => ?_⟩⟩
    · exact ⟨_, validate_clean hoff hurl hips fun ip hip => by rwa [List.mem_singleton.1 hip]⟩
    · have hips' : systemResolver n.toSocketAddrs url.host = .ok ([] ++ .v4 o :: []) := hips
      exact validate_reports hoff hurl hips' (fun x hx => by cases hx) hblocked
  | v6 s =>
    obtain ⟨e, hfail⟩ := validate_v6 hdoc hallows hhost
    rw [hfail]
    constructor
    · rintro ⟨hok, hblocked⟩
      cases hb : isBlockedIp (.v6 s) with
      | false =>
        obtain ⟨ips, hips⟩ := hok hb
        cases hips
      | true => cases hblocked hb
    · rintro ⟨o, ho⟩
      cases ho

end Literals

/-- One address, its text, and a resolver that knows no name. -/
def soleName (a : IpAddr) (text : String) : Names where
  text := fun _ => text
  parse := fun t => if t = text then some a else none
  lookup := fun host => .error s!"failed to lookup address information: {host}"

theorem soleName_documented (a : IpAddr) {text : String} (hne : text ≠ "")
    (hbr : text.toList.head? ≠ some '[') : (soleName a text).Documented a where
  text_ne := hne
  parse_text := if_pos rfl
  parse_bracketed := by
    intro t
    refine if_neg fun h => hbr ?_
    have hlist := congrArg (fun s => s.toList.head?) h
    simpa using hlist.symm
  lookup_bracketed := fun t => ⟨_, rfl⟩

/-- `http://a/`. -/
def literalUrl (n : Names) (a : IpAddr) : Url where
  scheme := "http"
  hostStr := some (n.hostStr a)
  username := ""
  password := none
  port := none

theorem validate_literal_iff_loopback :
    validate .default
      (literalUrl (soleName (.v4 #v[127, 0, 0, 1]) "127.0.0.1") (.v4 #v[127, 0, 0, 1]))
      (systemResolver (soleName (.v4 #v[127, 0, 0, 1]) "127.0.0.1").toSocketAddrs) =
      .error (.privateIp (.v4 #v[127, 0, 0, 1])) :=
  ((validate_literal_iff rfl (soleName_documented _ (by decide) (by decide)) (.inl rfl) ⟨rfl, rfl⟩
    (fun port hport => by cases hport) rfl).2 ⟨_, rfl⟩).2 (by decide)

/-- `http://[::1]/` fails as a name that does not resolve. -/
theorem literal_loopback6_unresolved :
    ∃ (n : Names) (a : IpAddr) (e : String), n.Documented a ∧ isBlockedIp a = true ∧
      Allows .default (literalUrl n a) ∧
      validate .default (literalUrl n a) (systemResolver n.toSocketAddrs) =
        .error (.resolutionFailed e) ∧
      validate .default (literalUrl n a) (systemResolver n.toSocketAddrs) ≠
        .error (.privateIp a) := by
  have hdoc : (soleName (.v6 #v[0, 0, 0, 0, 0, 0, 0, 1]) "::1").Documented _ :=
    soleName_documented _ (by decide) (by decide)
  have hallows : Allows .default (literalUrl _ _) :=
    literal_allows hdoc (.inl rfl) ⟨rfl, rfl⟩ (fun port hport => by cases hport) rfl
  obtain ⟨e, hfail⟩ := validate_v6 hdoc hallows rfl
  refine ⟨_, _, e, hdoc, by decide, hallows, hfail, ?_⟩
  rw [hfail]
  intro h
  cases h

end Q
end WebhookDelivery
