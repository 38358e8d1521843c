/-
The delay before a retry.

The cap is documented as the smaller of `base_ms * 2^exp` and `max_ms`.  The code
shifts on 64 bits, and `checked_shl` looks at the amount of the shift and not at
the bits it loses.  The delays are all those up to the cap that comes out.
-/
import Mathlib.Algebra.Group.Nat.Defs
import WebhookDelivery.Q.Model

namespace WebhookDelivery
namespace Q

/-- The exponent of the cap, `attempt - 1` up to 20. -/
def exponent (attempt : Nat) : Nat := min (attempt - 1) 20

/-- The cap of the documentation. -/
def documentedCap (attempt baseMs maxMs : Nat) : Nat := min (baseMs * 2 ^ exponent attempt) maxMs

/-- The cap of the code: the product keeps its last 64 bits. -/
def shiftedCap (attempt baseMs maxMs : Nat) : Nat :=
  min (baseMs * 2 ^ exponent attempt % 2 ^ 64) maxMs

/-- No bit of the product is lost, or what is left of it still is `max_ms` or
more. -/
def CapKept (attempt baseMs maxMs : Nat) : Prop :=
  baseMs * 2 ^ exponent attempt < 2 ^ 64 ∨ maxMs ≤ baseMs * 2 ^ exponent attempt % 2 ^ 64

/-- The generator may draw the delay. -/
def Delays (attempt : UInt32) (baseMs maxMs : UInt64) (delay : Nat) : Prop :=
  ∃ rnd : UInt64, nextDelayMs attempt.toNat baseMs.toNat maxMs.toNat rnd.toNat = delay

/-- The delay is the largest that may be drawn. -/
def Largest (attempt : UInt32) (baseMs maxMs : UInt64) (delay : Nat) : Prop :=
  Delays attempt baseMs maxMs delay ∧ ∀ d, Delays attempt baseMs maxMs d → d ≤ delay

theorem nextDelayMs_eq (attempt baseMs maxMs rnd : Nat) :
    nextDelayMs attempt baseMs maxMs rnd =
      uniformInclusive rnd (shiftedCap attempt baseMs maxMs) := by
  have hlt : exponent attempt < 64 := by
    unfold exponent
    omega
  have hshl : checkedShl baseMs (exponent attempt) =
      some (baseMs * 2 ^ exponent attempt % 2 ^ 64) := if_pos hlt
  show uniformInclusive rnd (min ((checkedShl baseMs (exponent attempt)).getD _) maxMs) = _
  rw [hshl]
  rfl

/-- As the generator ranges over 64 bits, the delay ranges up to the cap. -/
theorem exists_uniformInclusive {cap d : Nat} (hcap : cap < 2 ^ 64) :
    (∃ rnd : UInt64, uniformInclusive rnd.toNat cap = d) ↔ d ≤ cap := by
  unfold uniformInclusive
  constructor
  · rintro ⟨rnd, rfl⟩
    have hrnd := rnd.toNat_lt
    have hmod : rnd.toNat % (cap + 1) < cap + 1 := Nat.mod_lt _ (Nat.succ_pos cap)
    split <;> omega
  · intro hd
    have hlt : d < UInt64.size := Nat.lt_of_le_of_lt hd hcap
    refine ⟨UInt64.ofNat d, ?_⟩
    rw [UInt64.toNat_ofNat_of_lt' hlt, Nat.mod_eq_of_lt (Nat.lt_succ_of_le hd), ite_self]

theorem delays_iff (attempt : UInt32) (baseMs maxMs : UInt64) (d : Nat) :
    Delays attempt baseMs maxMs d ↔ d ≤ shiftedCap attempt.toNat baseMs.toNat maxMs.toNat := by
  have hcap : shiftedCap attempt.toNat baseMs.toNat maxMs.toNat < 2 ^ 64 :=
    Nat.lt_of_le_of_lt (Nat.min_le_right _ _) maxMs.toNat_lt
  unfold Delays
  simp only [nextDelayMs_eq]
  exact exists_uniformInclusive hcap

theorem largest_iff {attempt : UInt32} {baseMs maxMs : UInt64} {d : Nat} :
    Largest attempt baseMs maxMs d ↔
      d = shiftedCap attempt.toNat baseMs.toNat maxMs.toNat := by
  unfold Largest
  simp only [delays_iff]
  exact ⟨fun h => Nat.le_antisymm h.1 (h.2 _ (Nat.le_refl _)),
    fun h => ⟨Nat.le_of_eq h, fun _ hd => h ▸ hd⟩⟩

theorem shiftedCap_eq_iff {attempt baseMs maxMs : Nat} (hmax : maxMs < 2 ^ 64) :
    shiftedCap attempt baseMs maxMs = documentedCap attempt baseMs maxMs ↔
      CapKept attempt baseMs maxMs := by
  unfold shiftedCap documentedCap CapKept
  generalize baseMs * 2 ^ exponent attempt = product
  omega

theorem documentedCap_mono {attempt attempt' baseMs baseMs' maxMs maxMs' : Nat}
    (hattempt : attempt ≤ attempt') (hbase : baseMs ≤ baseMs') (hmax : maxMs ≤ maxMs') :
    documentedCap attempt baseMs maxMs ≤ documentedCap attempt' baseMs' maxMs' := by
  have hexp : exponent attempt ≤ exponent attempt' := by
    unfold exponent
    omega
  have hproduct : baseMs * 2 ^ exponent attempt ≤ baseMs' * 2 ^ exponent attempt' :=
    Nat.mul_le_mul hbase (Nat.pow_le_pow_right (by decide) hexp)
  unfold documentedCap
  omega

/-- The delays are those up to the documented cap if and only if the shift keeps
it; and where it does, the largest delay grows with each argument. -/
theorem delays_exact (attempt : UInt32) (baseMs maxMs : UInt64) :
    ((∀ d, Delays attempt baseMs maxMs d ↔
        d ≤ documentedCap attempt.toNat baseMs.toNat maxMs.toNat) ↔
      CapKept attempt.toNat baseMs.toNat maxMs.toNat) ∧
      ∀ (attempt' : UInt32) (baseMs' maxMs' : UInt64) (d d' : Nat),
        CapKept attempt.toNat baseMs.toNat maxMs.toNat →
        CapKept attempt'.toNat baseMs'.toNat maxMs'.toNat →
        attempt ≤ attempt' → baseMs ≤ baseMs' → maxMs ≤ maxMs' →
        Largest attempt baseMs maxMs d → Largest attempt' baseMs' maxMs' d' → d ≤ d' := by
  constructor
  · simp only [delays_iff]
    rw [← shiftedCap_eq_iff maxMs.toNat_lt]
    constructor
    · exact fun h => Nat.le_antisymm ((h _).1 (Nat.le_refl _)) ((h _).2 (Nat.le_refl _))
    · exact fun h d => by rw [h]
  · intro attempt' baseMs' maxMs' d d' hkept hkept' ha hb hm hd hd'
    rw [largest_iff, (shiftedCap_eq_iff maxMs.toNat_lt).2 hkept] at hd
    rw [largest_iff, (shiftedCap_eq_iff maxMs'.toNat_lt).2 hkept'] at hd'
    rw [hd, hd']
    exact documentedCap_mono ha hb hm

theorem defaults_kept :
    CapKept (UInt32.toNat 2) (UInt64.toNat 5000) (UInt64.toNat 60000) ∧
      CapKept (UInt32.toNat 3) (UInt64.toNat 5000) (UInt64.toNat 60000) :=
  ⟨.inl (by decide +kernel), .inl (by decide +kernel)⟩

/-- The default settings keep their caps, and that of the second retry is below
that of the third. -/
theorem delays_exact_default :
    (∀ d, Delays 3 5000 60000 d ↔
      d ≤ documentedCap (UInt32.toNat 3) (UInt64.toNat 5000) (UInt64.toNat 60000)) ∧
      ∀ d d', Largest 2 5000 60000 d → Largest 3 5000 60000 d' → d ≤ d' :=
  ⟨(delays_exact 3 5000 60000).1.2 defaults_kept.2,
    fun d d' => (delays_exact 2 5000 60000).2 3 5000 60000 d d' defaults_kept.1 defaults_kept.2
      (by decide) (by decide) (by decide)⟩

/-- A base of `2 ^ 63` is shifted out at the second attempt, and the only delay is
none. -/
theorem delays_shifted_out :
    ¬∀ (attempt : UInt32) (baseMs maxMs : UInt64) (d : Nat),
      (Delays attempt baseMs maxMs d ↔
        d ≤ documentedCap attempt.toNat baseMs.toNat maxMs.toNat) := by
  intro h
  have hdelay := (h 2 (2 ^ 63) 60000 60000).2 (by decide +kernel)
  rw [delays_iff] at hdelay
  exact absurd hdelay (by decide +kernel)

end Q
end WebhookDelivery
