/-
IP addresses as the standard library of the source has them, read as numbers.

The predicates below are its own (`is_loopback`, `is_private`, ...), each
written as documented on octets or segments; beside each stands the block it
decides.
-/
import WebhookDelivery.Net.Prefix

namespace WebhookDelivery
namespace Net

abbrev Ipv4Addr := Vector UInt8 4

abbrev Ipv6Addr := Vector UInt16 8

inductive IpAddr
  | v4 (octets : Ipv4Addr)
  | v6 (segments : Ipv6Addr)
  deriving DecidableEq

/-- The octet `k`. -/
def octet (o : Ipv4Addr) (k : Nat) : UInt8 := o.toList.getD k 0

/-- The segment `k`. -/
def segment (s : Ipv6Addr) (k : Nat) : UInt16 := s.toList.getD k 0

def ipv4 (a b c d : UInt8) : Ipv4Addr := #v[a, b, c, d]

def ipv6 (a b c d e f g h : UInt16) : Ipv6Addr := #v[a, b, c, d, e, f, g, h]

theorem octet_toList (o : Ipv4Addr) {k : Nat} (hk : k < o.toList.length) :
    o.toList[k] = octet o k := by
  rw [octet, List.getD_eq_getElem?_getD, List.getElem?_eq_getElem hk, Option.getD_some]

theorem segment_toList (s : Ipv6Addr) {k : Nat} (hk : k < s.toList.length) :
    s.toList[k] = segment s k := by
  rw [segment, List.getD_eq_getElem?_getD, List.getElem?_eq_getElem hk, Option.getD_some]

theorem getElem_octet (o : Ipv4Addr) {k : Nat} (hk : k < 4) : o[k] = octet o k := by
  rw [← octet_toList o (by simpa using hk), Vector.getElem_toList]

theorem getElem_segment (s : Ipv6Addr) {k : Nat} (hk : k < 8) : s[k] = segment s k := by
  rw [← segment_toList s (by simpa using hk), Vector.getElem_toList]

@[simp] theorem toList_ipv6 (a b c d e f g h : UInt16) :
    Vector.toList (ipv6 a b c d e f g h) = [a, b, c, d, e, f, g, h] := rfl

@[simp] theorem octet_ipv4 (a b c d : UInt8) (k : Nat) :
    octet (ipv4 a b c d) k = [a, b, c, d].getD k 0 := rfl

@[simp] theorem segment_ipv6 (a b c d e f g h : UInt16) (k : Nat) :
    segment (ipv6 a b c d e f g h) k = [a, b, c, d, e, f, g, h].getD k 0 := rfl

/-! ## Numbers -/

/-- The address as a number of 32 bits. -/
def Ipv4Addr.number (o : Ipv4Addr) : Nat := value 8 (o.toList.map UInt8.toNat)

/-- The address as a number of 128 bits. -/
def Ipv6Addr.number (s : Ipv6Addr) : Nat := value 16 (s.toList.map UInt16.toNat)

theorem Ipv4Addr.toList_eq (o : Ipv4Addr) :
    o.toList = [octet o 0, octet o 1, octet o 2, octet o 3] := by
  apply List.ext_getElem (by simp)
  intro i hi hj
  simp only [List.length_cons, List.length_nil] at hj
  have hcases : i = 0 ∨ i = 1 ∨ i = 2 ∨ i = 3 := by omega
  rw [octet_toList]
  rcases hcases with rfl | rfl | rfl | rfl <;> rfl

theorem Ipv6Addr.toList_eq (s : Ipv6Addr) :
    s.toList = [segment s 0, segment s 1, segment s 2, segment s 3, segment s 4, segment s 5,
      segment s 6, segment s 7] := by
  apply List.ext_getElem (by simp)
  intro i hi hj
  simp only [List.length_cons, List.length_nil] at hj
  have hcases : i = 0 ∨ i = 1 ∨ i = 2 ∨ i = 3 ∨ i = 4 ∨ i = 5 ∨ i = 6 ∨ i = 7 := by omega
  rw [segment_toList]
  rcases hcases with rfl | rfl | rfl | rfl | rfl | rfl | rfl | rfl <;> rfl

theorem fits_octets {os : List UInt8} : Fits 8 (os.map UInt8.toNat) := by
  intro d hd
  obtain ⟨x, -, rfl⟩ := List.mem_map.1 hd
  exact x.toNat_lt

theorem fits_segments {ss : List UInt16} : Fits 16 (ss.map UInt16.toNat) := by
  intro d hd
  obtain ⟨x, -, rfl⟩ := List.mem_map.1 hd
  exact x.toNat_lt

/-! ## Prefixes -/

/-- `o/len`. -/
def cidr4 (o : Ipv4Addr) (len : Nat) : Block 32 := ⟨Ipv4Addr.number o, len⟩

/-- `s/len`. -/
def cidr6 (s : Ipv6Addr) (len : Nat) : Block 128 := ⟨Ipv6Addr.number s, len⟩

/-- A prefix that ends in the octet `k`. -/
theorem mem_cidr4 {o p : Ipv4Addr} {k r : Nat} (hk : k < 4) (hr : r ≤ 8) :
    Ipv4Addr.number o ∈ cidr4 p (8 * k + r) ↔
      o.toList.take k = p.toList.take k ∧
        (octet o k).toNat / 2 ^ (8 - r) = (octet p k).toNat / 2 ^ (8 - r) := by
  have hfirst : k < (o.toList.map UInt8.toNat).length := by simpa using hk
  have hsecond : k < (p.toList.map UInt8.toNat).length := by simpa using hk
  have h : value 8 (o.toList.map UInt8.toNat) ∈
      (⟨value 8 (p.toList.map UInt8.toNat), 8 * k + r⟩ : Block 32) ↔ _ :=
    mem_block_take (by simp) rfl hr hfirst hsecond (by simp) fits_octets fits_octets
  rw [← List.map_take, ← List.map_take, List.map_inj_right fun _ _ => UInt8.toNat_inj.1,
    List.getElem_map, List.getElem_map, octet_toList, octet_toList] at h
  exact h

/-- A prefix that ends in the segment `k`. -/
theorem mem_cidr6 {s t : Ipv6Addr} {k r : Nat} (hk : k < 8) (hr : r ≤ 16) :
    Ipv6Addr.number s ∈ cidr6 t (16 * k + r) ↔
      s.toList.take k = t.toList.take k ∧
        (segment s k).toNat / 2 ^ (16 - r) = (segment t k).toNat / 2 ^ (16 - r) := by
  have hfirst : k < (s.toList.map UInt16.toNat).length := by simpa using hk
  have hsecond : k < (t.toList.map UInt16.toNat).length := by simpa using hk
  have h : value 16 (s.toList.map UInt16.toNat) ∈
      (⟨value 16 (t.toList.map UInt16.toNat), 16 * k + r⟩ : Block 128) ↔ _ :=
    mem_block_take (by simp) rfl hr hfirst hsecond (by simp) fits_segments fits_segments
  rw [← List.map_take, ← List.map_take, List.map_inj_right fun _ _ => UInt16.toNat_inj.1,
    List.getElem_map, List.getElem_map, segment_toList, segment_toList] at h
  exact h

/-- A mask over the first bits of an octet. -/
theorem octet_mask {x m v : UInt8} {k p : Nat} (hk : k ≤ 8) (hm : m.toNat = 2 ^ 8 - 2 ^ k)
    (hv : v.toNat = p * 2 ^ k) : x &&& m = v ↔ x.toNat / 2 ^ k = p := by
  rw [← UInt8.toNat_inj, UInt8.toNat_and, hm, hv]
  exact and_high_eq_iff hk x.toNat_lt

/-- A mask over the first bits of a segment. -/
theorem segment_mask {x m v : UInt16} {k p : Nat} (hk : k ≤ 16) (hm : m.toNat = 2 ^ 16 - 2 ^ k)
    (hv : v.toNat = p * 2 ^ k) : x &&& m = v ↔ x.toNat / 2 ^ k = p := by
  rw [← UInt16.toNat_inj, UInt16.toNat_and, hm, hv]
  exact and_high_eq_iff hk x.toNat_lt

/-- The numbers in one of the blocks. -/
def InAny {width : Nat} (bs : List (Block width)) (n : Nat) : Prop := ∃ b ∈ bs, n ∈ b

section InAny

variable {width n : Nat} {b : Block width} {bs cs : List (Block width)}

@[simp] theorem inAny_nil : ¬InAny ([] : List (Block width)) n := by
  rintro ⟨b, hb, -⟩
  cases hb

@[simp] theorem inAny_cons : InAny (b :: bs) n ↔ n ∈ b ∨ InAny bs n := by
  simp only [InAny, List.mem_cons, exists_eq_or_imp]

@[simp] theorem inAny_append : InAny (bs ++ cs) n ↔ InAny bs n ∨ InAny cs n := by
  simp only [InAny, List.mem_append, or_and_right, exists_or]

end InAny

/-! ## Ranges of IPv4 addresses -/

def loopback4 : Block 32 := cidr4 (ipv4 127 0 0 0) 8
def privateA : Block 32 := cidr4 (ipv4 10 0 0 0) 8
def privateB : Block 32 := cidr4 (ipv4 172 16 0 0) 12
def privateC : Block 32 := cidr4 (ipv4 192 168 0 0) 16
def linkLocal4 : Block 32 := cidr4 (ipv4 169 254 0 0) 16
def sharedSpace : Block 32 := cidr4 (ipv4 100 64 0 0) 10
def unspecified4 : Block 32 := cidr4 (ipv4 0 0 0 0) 32
def broadcast4 : Block 32 := cidr4 (ipv4 255 255 255 255) 32
def multicast4 : Block 32 := cidr4 (ipv4 224 0 0 0) 4

def private4 : List (Block 32) := [privateA, privateB, privateC]

def documentation4 : List (Block 32) :=
  [cidr4 (ipv4 192 0 2 0) 24, cidr4 (ipv4 198 51 100 0) 24, cidr4 (ipv4 203 0 113 0) 24]

section Ranges4

variable {o p : Ipv4Addr}

/-- One octet decides a prefix of eight bits. -/
theorem mem_slash8 : Ipv4Addr.number o ∈ cidr4 p 8 ↔ octet o 0 = octet p 0 := by
  have h := mem_cidr4 (o := o) (p := p) (k := 0) (r := 8) (by decide) (by decide)
  simpa [UInt8.toNat_inj] using h

theorem mem_slash16 :
    Ipv4Addr.number o ∈ cidr4 p 16 ↔ octet o 0 = octet p 0 ∧ octet o 1 = octet p 1 := by
  have h := mem_cidr4 (o := o) (p := p) (k := 1) (r := 8) (by decide) (by decide)
  simpa [UInt8.toNat_inj, Ipv4Addr.toList_eq] using h

theorem mem_slash24 :
    Ipv4Addr.number o ∈ cidr4 p 24 ↔
      octet o 0 = octet p 0 ∧ octet o 1 = octet p 1 ∧ octet o 2 = octet p 2 := by
  have h := mem_cidr4 (o := o) (p := p) (k := 2) (r := 8) (by decide) (by decide)
  simpa [UInt8.toNat_inj, Ipv4Addr.toList_eq, and_assoc] using h

theorem mem_slash32 : Ipv4Addr.number o ∈ cidr4 p 32 ↔ o = p := by
  have h := mem_cidr4 (o := o) (p := p) (k := 3) (r := 8) (by decide) (by decide)
  have hlist : o = p ↔ o.toList = p.toList := Vector.toList_inj.symm
  rw [hlist]
  simpa [UInt8.toNat_inj, Ipv4Addr.toList_eq, and_assoc] using h

theorem mem_privateB :
    Ipv4Addr.number o ∈ privateB ↔ octet o 0 = 172 ∧ octet o 1 ≥ 16 ∧ octet o 1 ≤ 31 := by
  have h := mem_cidr4 (o := o) (p := ipv4 172 16 0 0) (k := 1) (r := 4) (by decide) (by decide)
  have hrange : octet o 1 ≥ 16 ∧ octet o 1 ≤ 31 ↔ (octet o 1).toNat / 16 = 1 := by
    rw [ge_iff_le, UInt8.le_iff_toNat_le, UInt8.le_iff_toNat_le]
    show 16 ≤ (octet o 1).toNat ∧ (octet o 1).toNat ≤ 31 ↔ _
    omega
  rw [hrange, privateB]
  simpa [Ipv4Addr.toList_eq] using h

theorem mem_sharedSpace :
    Ipv4Addr.number o ∈ sharedSpace ↔ octet o 0 = 100 ∧ octet o 1 ≥ 64 ∧ octet o 1 ≤ 127 := by
  have h := mem_cidr4 (o := o) (p := ipv4 100 64 0 0) (k := 1) (r := 2) (by decide) (by decide)
  have hrange : octet o 1 ≥ 64 ∧ octet o 1 ≤ 127 ↔ (octet o 1).toNat / 64 = 1 := by
    rw [ge_iff_le, UInt8.le_iff_toNat_le, UInt8.le_iff_toNat_le]
    show 64 ≤ (octet o 1).toNat ∧ (octet o 1).toNat ≤ 127 ↔ _
    omega
  rw [hrange, sharedSpace]
  simpa [Ipv4Addr.toList_eq] using h

theorem mem_sharedSpace_mask :
    Ipv4Addr.number o ∈ sharedSpace ↔ octet o 0 = 100 ∧ octet o 1 &&& 0xc0 = 0x40 := by
  have h := mem_cidr4 (o := o) (p := ipv4 100 64 0 0) (k := 1) (r := 2) (by decide) (by decide)
  rw [octet_mask (k := 6) (p := 1) (by decide) rfl rfl, sharedSpace]
  simpa [Ipv4Addr.toList_eq] using h

theorem mem_multicast4 :
    Ipv4Addr.number o ∈ multicast4 ↔ octet o 0 ≥ 224 ∧ octet o 0 ≤ 239 := by
  have h := mem_cidr4 (o := o) (p := ipv4 224 0 0 0) (k := 0) (r := 4) (by decide) (by decide)
  have hrange : octet o 0 ≥ 224 ∧ octet o 0 ≤ 239 ↔ (octet o 0).toNat / 16 = 14 := by
    rw [ge_iff_le, UInt8.le_iff_toNat_le, UInt8.le_iff_toNat_le]
    show 224 ≤ (octet o 0).toNat ∧ (octet o 0).toNat ≤ 239 ↔ _
    omega
  rw [hrange, multicast4]
  simpa using h

end Ranges4

/-! ## Ranges of IPv6 addresses -/

def loopback6 : Block 128 := cidr6 (ipv6 0 0 0 0 0 0 0 1) 128
def unspecified6 : Block 128 := cidr6 (ipv6 0 0 0 0 0 0 0 0) 128
def uniqueLocal6 : Block 128 := cidr6 (ipv6 0xfc00 0 0 0 0 0 0 0) 7
def linkLocal6 : Block 128 := cidr6 (ipv6 0xfe80 0 0 0 0 0 0 0) 10
def multicast6 : Block 128 := cidr6 (ipv6 0xff00 0 0 0 0 0 0 0) 8
def documentation6 : Block 128 := cidr6 (ipv6 0x2001 0xdb8 0 0 0 0 0 0) 32
def mapped6 : Block 128 := cidr6 (ipv6 0 0 0 0 0 0xffff 0 0) 96

section Ranges6

variable {s t : Ipv6Addr}

theorem mem_slash128 : Ipv6Addr.number s ∈ cidr6 t 128 ↔ s = t := by
  have h := mem_cidr6 (s := s) (t := t) (k := 7) (r := 16) (by decide) (by decide)
  have hlist : s = t ↔ s.toList = t.toList := Vector.toList_inj.symm
  rw [hlist]
  simpa [UInt16.toNat_inj, Ipv6Addr.toList_eq, and_assoc] using h

theorem mem_uniqueLocal6 :
    Ipv6Addr.number s ∈ uniqueLocal6 ↔ segment s 0 &&& 0xfe00 = 0xfc00 := by
  have h := mem_cidr6 (s := s) (t := ipv6 0xfc00 0 0 0 0 0 0 0) (k := 0) (r := 7)
    (by decide) (by decide)
  rw [segment_mask (k := 9) (p := 126) (by decide) rfl rfl, uniqueLocal6]
  simpa using h

theorem mem_linkLocal6 :
    Ipv6Addr.number s ∈ linkLocal6 ↔ segment s 0 &&& 0xffc0 = 0xfe80 := by
  have h := mem_cidr6 (s := s) (t := ipv6 0xfe80 0 0 0 0 0 0 0) (k := 0) (r := 10)
    (by decide) (by decide)
  rw [segment_mask (k := 6) (p := 1018) (by decide) rfl rfl, linkLocal6]
  simpa using h

theorem mem_multicast6 :
    Ipv6Addr.number s ∈ multicast6 ↔ segment s 0 &&& 0xff00 = 0xff00 := by
  have h := mem_cidr6 (s := s) (t := ipv6 0xff00 0 0 0 0 0 0 0) (k := 0) (r := 8)
    (by decide) (by decide)
  rw [segment_mask (k := 8) (p := 255) (by decide) rfl rfl, multicast6]
  simpa using h

theorem mem_documentation6 :
    Ipv6Addr.number s ∈ documentation6 ↔ segment s 0 = 0x2001 ∧ segment s 1 = 0xdb8 := by
  have hwide : ∀ t : Ipv6Addr, Ipv6Addr.number s ∈ cidr6 t 32 ↔
      segment s 0 = segment t 0 ∧ segment s 1 = segment t 1 := by
    intro t
    have h := mem_cidr6 (s := s) (t := t) (k := 1) (r := 16) (by decide) (by decide)
    simpa [UInt16.toNat_inj, Ipv6Addr.toList_eq] using h
  exact hwide _

theorem mem_mapped6 :
    Ipv6Addr.number s ∈ mapped6 ↔ s.toList.take 5 = List.replicate 5 0 ∧ segment s 5 = 0xffff := by
  have hwide : ∀ t : Ipv6Addr, Ipv6Addr.number s ∈ cidr6 t 96 ↔
      s.toList.take 5 = t.toList.take 5 ∧ segment s 5 = segment t 5 := by
    intro t
    have h := mem_cidr6 (s := s) (t := t) (k := 5) (r := 16) (by decide) (by decide)
    simpa [UInt16.toNat_inj] using h
  exact hwide _

end Ranges6

/-! ## IPv4 addresses inside IPv6 ones -/

/-- `Ipv6Addr::to_ipv4_mapped`: the address `a.b.c.d` in `::ffff:a.b.c.d`. -/
def toIpv4Mapped (s : Ipv6Addr) : Option Ipv4Addr :=
  if (s.toList.take 5).all (· = 0) ∧ segment s 5 = 0xffff then
    some (ipv4 (segment s 6 >>> 8).toUInt8 (segment s 6).toUInt8 (segment s 7 >>> 8).toUInt8
      (segment s 7).toUInt8)
  else none

theorem all_zero_iff {n : Nat} {xs : List UInt16} (h : xs.length = n) :
    xs.all (· = 0) = true ↔ xs = List.replicate n 0 := by
  rw [List.eq_replicate_iff]
  simp [h]

theorem toIpv4Mapped_isSome {s : Ipv6Addr} :
    (toIpv4Mapped s).isSome = true ↔ Ipv6Addr.number s ∈ mapped6 := by
  rw [mem_mapped6, ← all_zero_iff (by simp)]
  unfold toIpv4Mapped
  split
  · rename_i h
    simpa using h
  · rename_i h
    simpa using h

theorem value_pairs (a b c d : Nat) :
    value 8 [a, b, c, d] = value 16 [a * 256 + b, c * 256 + d] := by
  simp only [value, List.foldl_cons, List.foldl_nil, Nat.reducePow]
  omega

/-- The embedded address is the last 32 bits. -/
theorem toIpv4Mapped_number {s : Ipv6Addr} {o : Ipv4Addr} (h : toIpv4Mapped s = some o) :
    Ipv4Addr.number o = Ipv6Addr.number s % 2 ^ 32 := by
  have hlow : Ipv6Addr.number s % 2 ^ 32 = value 16 [(segment s 6).toNat, (segment s 7).toNat] := by
    have hfits : Fits 16 ([segment s 6, segment s 7].map UInt16.toNat) := fits_segments
    have hmod : value 16 ([segment s 0, segment s 1, segment s 2, segment s 3, segment s 4,
        segment s 5].map UInt16.toNat ++ _) % _ = _ := value_append_mod hfits
    unfold Ipv6Addr.number
    rw [Ipv6Addr.toList_eq]
    exact hmod
  have hbyte : ∀ x : UInt16, (x >>> 8).toUInt8.toNat * 256 + x.toUInt8.toNat = x.toNat := by
    intro x
    have hx := x.toNat_lt
    simp [Nat.shiftRight_eq_div_pow]
    omega
  unfold toIpv4Mapped at h
  split at h
  · cases h
    have h6 := hbyte (segment s 6)
    have h7 := hbyte (segment s 7)
    rw [hlow, ← h6, ← h7, ← value_pairs]
    rfl
  · cases h

/-- An address that embeds one is in the mapped range, and no other address is. -/
theorem toIpv4Mapped_spec (s : Ipv6Addr) :
    (∃ o, toIpv4Mapped s = some o ∧ Ipv6Addr.number s ∈ mapped6 ∧
      Ipv4Addr.number o = Ipv6Addr.number s % 2 ^ 32) ∨
    (toIpv4Mapped s = none ∧ Ipv6Addr.number s ∉ mapped6) := by
  rw [← toIpv4Mapped_isSome]
  cases hmap : toIpv4Mapped s with
  | some o => exact .inl ⟨o, rfl, rfl, toIpv4Mapped_number hmap⟩
  | none => exact .inr ⟨rfl, Bool.false_ne_true⟩

/-! ## The predicates of `std::net` -/

def Ipv4Addr.isLoopback (o : Ipv4Addr) : Bool := octet o 0 = 127

def Ipv4Addr.isPrivate (o : Ipv4Addr) : Bool :=
  octet o 0 = 10 ∨ (octet o 0 = 172 ∧ octet o 1 ≥ 16 ∧ octet o 1 ≤ 31) ∨
    (octet o 0 = 192 ∧ octet o 1 = 168)

def Ipv4Addr.isLinkLocal (o : Ipv4Addr) : Bool := octet o 0 = 169 ∧ octet o 1 = 254

def Ipv4Addr.isUnspecified (o : Ipv4Addr) : Bool := o = ipv4 0 0 0 0

def Ipv4Addr.isMulticast (o : Ipv4Addr) : Bool := octet o 0 ≥ 224 ∧ octet o 0 ≤ 239

def Ipv4Addr.isBroadcast (o : Ipv4Addr) : Bool := o = ipv4 255 255 255 255

def Ipv4Addr.isDocumentation (o : Ipv4Addr) : Bool :=
  (octet o 0 = 192 ∧ octet o 1 = 0 ∧ octet o 2 = 2) ∨
    (octet o 0 = 198 ∧ octet o 1 = 51 ∧ octet o 2 = 100) ∨
    (octet o 0 = 203 ∧ octet o 1 = 0 ∧ octet o 2 = 113)

def Ipv6Addr.isLoopback (s : Ipv6Addr) : Bool := s = ipv6 0 0 0 0 0 0 0 1

def Ipv6Addr.isUnspecified (s : Ipv6Addr) : Bool := s = ipv6 0 0 0 0 0 0 0 0

def Ipv6Addr.isMulticast (s : Ipv6Addr) : Bool := segment s 0 &&& 0xff00 = 0xff00

def Ipv6Addr.isUniqueLocal (s : Ipv6Addr) : Bool := segment s 0 &&& 0xfe00 = 0xfc00

def Ipv6Addr.isUnicastLinkLocal (s : Ipv6Addr) : Bool := segment s 0 &&& 0xffc0 = 0xfe80

section Predicates

variable {o : Ipv4Addr} {s : Ipv6Addr}

theorem isLoopback4_iff : Ipv4Addr.isLoopback o = true ↔ Ipv4Addr.number o ∈ loopback4 := by
  rw [loopback4, mem_slash8]
  exact decide_eq_true_iff

theorem isPrivate_iff : Ipv4Addr.isPrivate o = true ↔ InAny private4 (Ipv4Addr.number o) := by
  simp only [private4, inAny_cons, inAny_nil, or_false, mem_privateB]
  rw [privateA, privateC, mem_slash8, mem_slash16]
  exact decide_eq_true_iff

theorem isLinkLocal_iff : Ipv4Addr.isLinkLocal o = true ↔ Ipv4Addr.number o ∈ linkLocal4 := by
  rw [linkLocal4, mem_slash16]
  exact decide_eq_true_iff

theorem isUnspecified4_iff :
    Ipv4Addr.isUnspecified o = true ↔ Ipv4Addr.number o ∈ unspecified4 := by
  rw [unspecified4, mem_slash32]
  exact decide_eq_true_iff

theorem isMulticast4_iff : Ipv4Addr.isMulticast o = true ↔ Ipv4Addr.number o ∈ multicast4 := by
  rw [mem_multicast4]
  exact decide_eq_true_iff

theorem isBroadcast_iff : Ipv4Addr.isBroadcast o = true ↔ Ipv4Addr.number o ∈ broadcast4 := by
  rw [broadcast4, mem_slash32]
  exact decide_eq_true_iff

theorem isDocumentation_iff :
    Ipv4Addr.isDocumentation o = true ↔ InAny documentation4 (Ipv4Addr.number o) := by
  simp only [documentation4, inAny_cons, inAny_nil, or_false, mem_slash24]
  exact decide_eq_true_iff

theorem isLoopback6_iff : Ipv6Addr.isLoopback s = true ↔ Ipv6Addr.number s ∈ loopback6 := by
  rw [loopback6, mem_slash128]
  exact decide_eq_true_iff

theorem isUnspecified6_iff :
    Ipv6Addr.isUnspecified s = true ↔ Ipv6Addr.number s ∈ unspecified6 := by
  rw [unspecified6, mem_slash128]
  exact decide_eq_true_iff

theorem isMulticast6_iff : Ipv6Addr.isMulticast s = true ↔ Ipv6Addr.number s ∈ multicast6 := by
  rw [mem_multicast6]
  exact decide_eq_true_iff

theorem isUniqueLocal_iff :
    Ipv6Addr.isUniqueLocal s = true ↔ Ipv6Addr.number s ∈ uniqueLocal6 := by
  rw [mem_uniqueLocal6]
  exact decide_eq_true_iff

theorem isUnicastLinkLocal_iff :
    Ipv6Addr.isUnicastLinkLocal s = true ↔ Ipv6Addr.number s ∈ linkLocal6 := by
  rw [mem_linkLocal6]
  exact decide_eq_true_iff

end Predicates

end Net
end WebhookDelivery
