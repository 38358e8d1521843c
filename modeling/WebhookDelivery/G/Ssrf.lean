/-
The addresses a delivery may go to.
-/
import WebhookDelivery.Net.Ip

namespace WebhookDelivery
namespace G

open Net (Ipv4Addr Ipv6Addr IpAddr Block InAny Ipv4Addr.number Ipv6Addr.number)

def isPublicV4 (o : Ipv4Addr) : Bool :=
  let cgnat := Net.octet o 0 = 100 ∧ Net.octet o 1 &&& 0b11000000 = 0b01000000 -- 100.64.0.0/10
  !(Ipv4Addr.isPrivate o || Ipv4Addr.isLoopback o || Ipv4Addr.isLinkLocal o ||
    Ipv4Addr.isUnspecified o || Ipv4Addr.isBroadcast o || Ipv4Addr.isMulticast o ||
    Ipv4Addr.isDocumentation o || cgnat)

def isPublicIp : IpAddr → Bool
  | .v4 o => isPublicV4 o
  | .v6 s =>
    match Net.toIpv4Mapped s with
    | some o => isPublicV4 o
    | none =>
      !(Ipv6Addr.isLoopback s || Ipv6Addr.isUnspecified s || Ipv6Addr.isMulticast s ||
        Ipv6Addr.isUniqueLocal s || Ipv6Addr.isUnicastLinkLocal s)

/-! ## The documented ranges -/

/-- Private, loopback, link-local, unspecified, broadcast, multicast, documentation
and CGNAT. -/
def reservedV4 : List (Block 32) :=
  Net.private4 ++ [Net.loopback4, Net.linkLocal4, Net.unspecified4, Net.broadcast4,
    Net.multicast4] ++ Net.documentation4 ++ [Net.sharedSpace]

/-- The same, as far as IPv6 has such ranges. -/
def reservedV6 : List (Block 128) :=
  [Net.loopback6, Net.unspecified6, Net.multicast6, Net.uniqueLocal6, Net.linkLocal6,
    Net.documentation6]

/-- The address, out of its IPv6 form if it is an IPv4 one, is in a documented
range. -/
def Reserved : IpAddr → Prop
  | .v4 o => InAny reservedV4 (Ipv4Addr.number o)
  | .v6 s =>
    if Ipv6Addr.number s ∈ Net.mapped6 then InAny reservedV4 (Ipv6Addr.number s % 2 ^ 32)
    else InAny reservedV6 (Ipv6Addr.number s)

theorem isPublicV4_iff (o : Ipv4Addr) :
    isPublicV4 o = true ↔ ¬InAny reservedV4 (Ipv4Addr.number o) := by
  simp only [isPublicV4, reservedV4, Bool.not_eq_true', ← Bool.not_eq_true, Bool.or_eq_true,
    Net.inAny_append, Net.inAny_cons, Net.inAny_nil, or_false, Net.isPrivate_iff,
    Net.isLoopback4_iff, Net.isLinkLocal_iff, Net.isUnspecified4_iff, Net.isBroadcast_iff,
    Net.isMulticast4_iff, Net.isDocumentation_iff, Net.mem_sharedSpace_mask, decide_eq_true_eq,
    or_assoc]

/-- An IPv6 address that is not a mapped one may be documented and still pass. -/
theorem isPublicV6_iff {s : Ipv6Addr} (h : Net.toIpv4Mapped s = none) :
    isPublicIp (.v6 s) = true ↔
      ¬InAny [Net.loopback6, Net.unspecified6, Net.multicast6, Net.uniqueLocal6, Net.linkLocal6]
        (Ipv6Addr.number s) := by
  simp only [isPublicIp, h, Bool.not_eq_true', ← Bool.not_eq_true, Bool.or_eq_true,
    Net.inAny_cons, Net.inAny_nil, or_false, Net.isLoopback6_iff, Net.isUnspecified6_iff,
    Net.isMulticast6_iff, Net.isUniqueLocal_iff, Net.isUnicastLinkLocal_iff, or_assoc]

theorem mapped_not_documentation6 {s : Ipv6Addr} (h : Ipv6Addr.number s ∈ Net.mapped6) :
    Ipv6Addr.number s ∉ Net.documentation6 := by
  obtain ⟨hfive, -⟩ := Net.mem_mapped6.1 h
  rw [Net.Ipv6Addr.toList_eq] at hfive
  have hzero : Net.segment s 0 = 0 := by simpa using congrArg List.head? hfive
  simp [Net.mem_documentation6, hzero]

/-- Documentation addresses of IPv6 lie in none of the other ranges. -/
theorem documentation6_apart {s : Ipv6Addr} (h : Ipv6Addr.number s ∈ Net.documentation6) :
    ¬InAny [Net.loopback6, Net.unspecified6, Net.multicast6, Net.uniqueLocal6, Net.linkLocal6]
      (Ipv6Addr.number s) := by
  have hfirst := (Net.mem_documentation6.1 h).1
  have hne : ∀ t : Ipv6Addr, Net.segment t 0 ≠ 0x2001 → s ≠ t := by
    rintro t ht rfl
    exact ht hfirst
  simp only [Net.inAny_cons, Net.inAny_nil, or_false, Net.mem_multicast6, Net.mem_uniqueLocal6,
    Net.mem_linkLocal6, hfirst]
  rw [Net.loopback6, Net.unspecified6, Net.mem_slash128, Net.mem_slash128]
  rintro (hs | hs | hs | hs | hs)
  · exact hne _ (by decide) hs
  · exact hne _ (by decide) hs
  · exact absurd hs (by decide)
  · exact absurd hs (by decide)
  · exact absurd hs (by decide)

theorem reserved_documentation6 {s : Ipv6Addr} (h : Ipv6Addr.number s ∈ Net.documentation6) :
    Reserved (.v6 s) := by
  have hmem : Ipv6Addr.number s ∉ Net.mapped6 := fun hm => mapped_not_documentation6 hm h
  simp [Reserved, hmem, reservedV6, h]

/-- Public means outside of the documented ranges, but for the documentation
addresses of IPv6, which pass. -/
theorem isPublicIp_exact_iff (ip : IpAddr) :
    (isPublicIp ip = true ↔ ¬Reserved ip) ↔
      ¬∃ s, ip = .v6 s ∧ Ipv6Addr.number s ∈ Net.documentation6 := by
  cases ip with
  | v4 o =>
    constructor
    · rintro - ⟨s, hs, -⟩
      cases hs
    · intro _
      exact isPublicV4_iff o
  | v6 s =>
    have hcond : (∃ t, IpAddr.v6 s = .v6 t ∧ Ipv6Addr.number t ∈ Net.documentation6) ↔
        Ipv6Addr.number s ∈ Net.documentation6 := by
      constructor
      · rintro ⟨t, ht, hmem⟩
        cases ht
        exact hmem
      · exact fun hmem => ⟨s, rfl, hmem⟩
    rw [hcond]
    rcases Net.toIpv4Mapped_spec s with ⟨o, hmap, hmem, hnumber⟩ | ⟨hmap, hmem⟩
    · have hV4 : isPublicIp (.v6 s) = true ↔ ¬Reserved (.v6 s) := by
        simp only [isPublicIp, hmap, Reserved, if_pos hmem, ← hnumber]
        exact isPublicV4_iff o
      exact ⟨fun _ => mapped_not_documentation6 hmem, fun _ => hV4⟩
    · have hres : Reserved (.v6 s) ↔
          InAny [Net.loopback6, Net.unspecified6, Net.multicast6, Net.uniqueLocal6, Net.linkLocal6]
            (Ipv6Addr.number s) ∨ Ipv6Addr.number s ∈ Net.documentation6 := by
        simp only [Reserved, if_neg hmem, reservedV6, Net.inAny_cons, Net.inAny_nil, or_false,
          or_assoc]
      rw [isPublicV6_iff hmap, hres]
      constructor
      · intro h hdoc
        exact h.1 (documentation6_apart hdoc) (.inr hdoc)
      · intro hdoc
        simp [hdoc]

/-- `2001:db8::1` passes. -/
theorem documentation6_public :
    ∃ ip, ip = .v6 #v[0x2001, 0xdb8, 0, 0, 0, 0, 0, 1] ∧ Reserved ip ∧ isPublicIp ip = true :=
  ⟨_, rfl, reserved_documentation6 (Net.mem_documentation6.2 (by decide)), by decide⟩

end G
end WebhookDelivery
