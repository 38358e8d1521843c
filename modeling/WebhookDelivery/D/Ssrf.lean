/-
The addresses a job may not be delivered to.
-/
import WebhookDelivery.Net.Ip

namespace WebhookDelivery
namespace D

open Net (Ipv4Addr Ipv6Addr IpAddr Block InAny Ipv4Addr.number Ipv6Addr.number)

def isPrivateV4 (o : Ipv4Addr) : Bool :=
  Ipv4Addr.isLoopback o || Ipv4Addr.isPrivate o || Ipv4Addr.isLinkLocal o ||
    Ipv4Addr.isUnspecified o || Ipv4Addr.isMulticast o || Ipv4Addr.isBroadcast o ||
    (Net.octet o 0 = 100 ∧ Net.octet o 1 &&& 0xc0 = 0x40) ||
    (Net.octet o 0 = 192 ∧ Net.octet o 1 = 0 ∧ Net.octet o 2 = 0) ||
    (Net.octet o 0 = 198 ∧ Net.octet o 1 &&& 0xfe = 18)

def isPrivateIp : IpAddr → Bool
  | .v4 o => isPrivateV4 o
  | .v6 s =>
    Ipv6Addr.isLoopback s || Ipv6Addr.isUnspecified s || Net.segment s 0 &&& 0xfe00 = 0xfc00

/-! ## The documented ranges -/

/-- Loopback, private, link-local, carrier-grade NAT and unspecified. -/
def documentedV4 : List (Block 32) :=
  [Net.loopback4] ++ Net.private4 ++ [Net.linkLocal4, Net.sharedSpace, Net.unspecified4]

def documentedV6 : List (Block 128) :=
  [Net.loopback6, Net.unspecified6, Net.uniqueLocal6, Net.linkLocal6]

/-- The address, or the IPv4 address mapped into it, is in a documented range. -/
def Documented : IpAddr → Prop
  | .v4 o => InAny documentedV4 (Ipv4Addr.number o)
  | .v6 s => InAny documentedV6 (Ipv6Addr.number s) ∨
      Ipv6Addr.number s ∈ Net.mapped6 ∧ InAny documentedV4 (Ipv6Addr.number s % 2 ^ 32)

theorem isPrivateV4_of_documented {o : Ipv4Addr} (h : InAny documentedV4 (Ipv4Addr.number o)) :
    isPrivateV4 o = true := by
  simp only [documentedV4, Net.inAny_append, Net.inAny_cons, Net.inAny_nil, or_false] at h
  simp only [isPrivateV4, Bool.or_eq_true, decide_eq_true_eq, Net.isLoopback4_iff,
    Net.isPrivate_iff, Net.isLinkLocal_iff, Net.isUnspecified4_iff, ← Net.mem_sharedSpace_mask]
  rcases h with (hloop | hpriv) | hlink | hshared | hunspec
  · simp [hloop]
  · simp [hpriv]
  · simp [hlink]
  · simp [hshared]
  · simp [hunspec]

theorem isPrivateV6_iff (s : Ipv6Addr) :
    isPrivateIp (.v6 s) = true ↔
      InAny [Net.loopback6, Net.unspecified6, Net.uniqueLocal6] (Ipv6Addr.number s) := by
  simp only [isPrivateIp, Bool.or_eq_true, decide_eq_true_eq, Net.isLoopback6_iff,
    Net.isUnspecified6_iff, ← Net.mem_uniqueLocal6, Net.inAny_cons, Net.inAny_nil, or_false,
    or_assoc]

/-- Link-local addresses of IPv6 and mapped ones lie in none of the ranges that the
IPv6 branch knows. -/
theorem isPrivateV6_misses {s : Ipv6Addr}
    (h : Ipv6Addr.number s ∈ Net.linkLocal6 ∨ Ipv6Addr.number s ∈ Net.mapped6) :
    isPrivateIp (.v6 s) = false := by
  rw [Bool.eq_false_iff, Ne, isPrivateV6_iff]
  simp only [Net.inAny_cons, Net.inAny_nil, or_false]
  rw [Net.loopback6, Net.unspecified6, Net.mem_slash128, Net.mem_slash128, Net.mem_uniqueLocal6,
    Net.segment_mask (k := 9) (p := 126) (by decide) rfl rfl]
  rw [Net.mem_linkLocal6, Net.segment_mask (k := 6) (p := 1018) (by decide) rfl rfl,
    Net.mem_mapped6] at h
  rcases h with hlink | ⟨hfive, hsix⟩
  · have hfirst : (Net.segment s 0).toNat ≠ 0 := by omega
    rintro (rfl | rfl | hlocal)
    · exact hfirst rfl
    · exact hfirst rfl
    · omega
  · rw [Net.Ipv6Addr.toList_eq] at hfive
    have hzero : Net.segment s 0 = 0 := by simpa using congrArg List.head? hfive
    rintro (rfl | rfl | hlocal)
    · exact absurd hsix (by decide)
    · exact absurd hsix (by decide)
    · rw [hzero] at hlocal
      exact absurd hlocal (by decide)

/-- Of the documented addresses `is_private_ip` misses the link-local ones of IPv6
and the IPv4 ones mapped into IPv6, and no others. -/
theorem isPrivateIp_documented_iff (ip : IpAddr) (h : Documented ip) :
    isPrivateIp ip = true ↔
      ¬∃ s, ip = .v6 s ∧
        (Ipv6Addr.number s ∈ Net.linkLocal6 ∨ Ipv6Addr.number s ∈ Net.mapped6) := by
  cases ip with
  | v4 o =>
    constructor
    · rintro - ⟨s, hs, -⟩
      cases hs
    · intro _
      exact isPrivateV4_of_documented h
  | v6 s =>
    constructor
    · rintro hpriv ⟨t, ht, hmiss⟩
      cases ht
      rw [isPrivateV6_misses hmiss] at hpriv
      cases hpriv
    · intro hcond
      have hlink : Ipv6Addr.number s ∉ Net.linkLocal6 := fun hm => hcond ⟨s, rfl, .inl hm⟩
      have hmap : Ipv6Addr.number s ∉ Net.mapped6 := fun hm => hcond ⟨s, rfl, .inr hm⟩
      rw [isPrivateV6_iff]
      simpa [Documented, documentedV6, hlink, hmap] using h

theorem isPrivateIp_documented_iff_loopback :
    isPrivateIp (.v6 #v[0, 0, 0, 0, 0, 0, 0, 1]) = true := by
  have hmem : Ipv6Addr.number #v[0, 0, 0, 0, 0, 0, 0, 1] ∈ Net.loopback6 := Net.mem_slash128.2 rfl
  have hdoc : Documented (.v6 #v[0, 0, 0, 0, 0, 0, 0, 1]) := .inl (by simp [documentedV6, hmem])
  refine (isPrivateIp_documented_iff _ hdoc).2 ?_
  rintro ⟨s, hs, hlink | hmap⟩
  · cases hs
    exact absurd (Net.mem_linkLocal6.1 hlink) (by decide)
  · cases hs
    exact absurd (Net.mem_mapped6.1 hmap) (by decide)

/-- `fe80::1` passes, and so does `::ffff:127.0.0.1`. -/
theorem linkLocal6_missed :
    (∃ ip, ip = .v6 #v[0xfe80, 0, 0, 0, 0, 0, 0, 1] ∧ Documented ip ∧ isPrivateIp ip = false) ∧
    ∃ ip, ip = .v6 #v[0, 0, 0, 0, 0, 0xffff, 0x7f00, 1] ∧ Documented ip ∧
      isPrivateIp ip = false := by
  constructor
  · have hmem : Ipv6Addr.number #v[0xfe80, 0, 0, 0, 0, 0, 0, 1] ∈ Net.linkLocal6 :=
      Net.mem_linkLocal6.2 (by decide)
    exact ⟨_, rfl, .inl (by simp [documentedV6, hmem]), by decide⟩
  · have hmem : Ipv6Addr.number #v[0, 0, 0, 0, 0, 0xffff, 0x7f00, 1] ∈ Net.mapped6 :=
      Net.mem_mapped6.2 (by decide)
    have hloop : Ipv4Addr.number #v[127, 0, 0, 1] ∈ Net.loopback4 := Net.mem_slash8.2 rfl
    have hmap : Net.toIpv4Mapped #v[0, 0, 0, 0, 0, 0xffff, 0x7f00, 1] = some #v[127, 0, 0, 1] := by
      decide
    rw [Net.toIpv4Mapped_number hmap] at hloop
    have hdoc : InAny documentedV4
        (Ipv6Addr.number #v[0, 0, 0, 0, 0, 0xffff, 0x7f00, 1] % 2 ^ 32) := by
      rw [documentedV4, List.append_assoc, Net.inAny_append]
      exact .inl (Net.inAny_cons.2 (.inl hloop))
    exact ⟨_, rfl, .inr ⟨hmem, hdoc⟩, by decide⟩

end D
end WebhookDelivery
