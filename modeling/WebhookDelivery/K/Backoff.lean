/-
The delay before a retry.

What the jitter of `backoff` is applied to is a computation on machine integers.
The exponent is cast to `u32` before it is clamped, so the cast is where attempts
of `2 ^ 32` and more lose their high bits.
-/
import Mathlib.Algebra.Order.Ring.Nat

namespace WebhookDelivery
namespace K

/-! ## Machine integers -/

/-- `n as u32`. -/
def asU32 (n : Int64) : UInt32 := n.toUInt64.toUInt32

/-- `a - b` on `u32`, and `none` where it underflows. -/
def checkedSub (a b : UInt32) : Option UInt32 := if b ≤ a then some (a - b) else none

/-- `a << k` on `u64`, and `none` where it shifts by all the bits there are. -/
def checkedShl (a : UInt64) (k : UInt32) : Option UInt64 :=
  if k < 64 then some (a <<< k.toUInt64) else none

def saturatingMul (a b : UInt64) : UInt64 :=
  if a.toNat * b.toNat < 2 ^ 64 then a * b else UInt64.ofNat (2 ^ 64 - 1)

/-- `capped_ms` of `backoff`, and `none` if a step on the way overflows. -/
def cappedMs (attempts : Int64) (baseMs maxMs : UInt64) : Option UInt64 := do
  let shift := min (← checkedSub (asU32 (max attempts 1)) 1) 20
  let expMs := saturatingMul baseMs (← checkedShl 1 shift)
  return min expMs maxMs

theorem max_one_toInt (n : Int64) : (max n 1).toInt = max n.toInt 1 := by
  show (if n ≤ 1 then 1 else n).toInt = max n.toInt 1
  have hone : (1 : Int64).toInt = 1 := rfl
  split
  · rename_i h
    rw [Int64.le_iff_toInt_le] at h
    omega
  · rename_i h
    rw [Int64.le_iff_toInt_le] at h
    omega

/-- The smaller of two machine integers is the one with the smaller value. -/
theorem toNat_ite_le {α : Type} [LE α] [DecidableLE α] {toNat : α → Nat}
    (hle : ∀ {a b : α}, a ≤ b ↔ toNat a ≤ toNat b) (a b : α) :
    toNat (if a ≤ b then a else b) = min (toNat a) (toNat b) := by
  split
  · rename_i h
    exact (Nat.min_eq_left (hle.1 h)).symm
  · rename_i h
    have hlt : ¬toNat a ≤ toNat b := fun hab => h (hle.2 hab)
    exact (Nat.min_eq_right (Nat.le_of_not_le hlt)).symm

theorem min_toNat (a b : UInt64) : (min a b).toNat = min a.toNat b.toNat :=
  toNat_ite_le UInt64.le_iff_toNat_le a b

theorem min_twenty_toNat (v : UInt32) : (min v 20).toNat = min v.toNat 20 :=
  toNat_ite_le UInt32.le_iff_toNat_le v 20

/-- The cast keeps the last 32 bits. -/
theorem asU32_max (n : Int64) : (asU32 (max n 1)).toNat = (max n.toInt 1).toNat % 2 ^ 32 := by
  have hpos : 0 ≤ max n 1 := by
    rw [Int64.le_iff_toInt_le, max_one_toInt]
    show 0 ≤ max n.toInt 1
    omega
  rw [asU32, UInt64.toNat_toUInt32, Int64.toNat_toUInt64_of_le hpos, ← Int64.toNat_toInt,
    max_one_toInt]

theorem checkedSub_one (u : UInt32) :
    (u.toNat = 0 ∧ checkedSub u 1 = none) ∨
      ∃ v, checkedSub u 1 = some v ∧ u.toNat = v.toNat + 1 := by
  have hone : (1 : UInt32).toNat = 1 := rfl
  unfold checkedSub
  by_cases h : 1 ≤ u
  · have hle : 1 ≤ u.toNat := UInt32.le_iff_toNat_le.1 h
    refine .inr ⟨u - 1, if_pos h, ?_⟩
    rw [UInt32.toNat_sub_of_le _ _ h, hone]
    omega
  · have hlt : ¬1 ≤ u.toNat := fun hu => h (UInt32.le_iff_toNat_le.2 hu)
    exact .inl ⟨by omega, if_neg h⟩

/-- A shift of one by a clamped amount is a power of two. -/
theorem checkedShl_clamped (v : UInt32) :
    ∃ factor, checkedShl 1 (min v 20) = some factor ∧ factor.toNat = 2 ^ min v.toNat 20 := by
  have hlt : min v 20 < 64 := by
    rw [UInt32.lt_iff_toNat_lt, min_twenty_toNat]
    show min v.toNat 20 < 64
    omega
  have hpow : 2 ^ min v.toNat 20 < 2 ^ 64 := Nat.pow_lt_pow_right (by decide) (by omega)
  refine ⟨_, if_pos hlt, ?_⟩
  have hone : (1 : UInt64).toNat = 1 := rfl
  rw [UInt64.toNat_shiftLeft, UInt32.toNat_toUInt64, min_twenty_toNat, hone,
    Nat.mod_eq_of_lt (by omega : min v.toNat 20 < 64), Nat.shiftLeft_eq, Nat.one_mul,
    Nat.mod_eq_of_lt hpow]

/-- A product that saturates is above whatever it is cut down to. -/
theorem min_saturatingMul (a b m : UInt64) :
    (min (saturatingMul a b) m).toNat = min (a.toNat * b.toNat) m.toNat := by
  rw [min_toNat]
  unfold saturatingMul
  by_cases h : a.toNat * b.toNat < 2 ^ 64
  · rw [if_pos h, UInt64.toNat_mul, Nat.mod_eq_of_lt h]
  · have hm := m.toNat_lt
    rw [if_neg h, UInt64.toNat_ofNat_of_lt' (by decide)]
    omega

/-- The capped delay is that of the attempts as the cast leaves them. -/
theorem cappedMs_eq (attempts : Int64) (baseMs maxMs : UInt64) :
    ((max attempts.toInt 1).toNat % 2 ^ 32 = 0 ∧ cappedMs attempts baseMs maxMs = none) ∨
      ∃ c, cappedMs attempts baseMs maxMs = some c ∧
        0 < (max attempts.toInt 1).toNat % 2 ^ 32 ∧
        c.toNat = min (baseMs.toNat * 2 ^ min ((max attempts.toInt 1).toNat % 2 ^ 32 - 1) 20)
          maxMs.toNat := by
  rw [← asU32_max]
  rcases checkedSub_one (asU32 (max attempts 1)) with ⟨hzero, hsub⟩ | ⟨v, hsub, hv⟩
  · exact .inl ⟨hzero, by simp [cappedMs, hsub]⟩
  · obtain ⟨factor, hshl, hfactor⟩ := checkedShl_clamped v
    refine .inr ⟨min (saturatingMul baseMs factor) maxMs, by simp [cappedMs, hsub, hshl], ?_, ?_⟩
    · omega
    · rw [min_saturatingMul, hfactor, hv, Nat.add_sub_cancel]

/-! ## The documented delay -/

/-- `base_ms * 2^(attempts-1)`, with the exponent clamped, capped at `max_ms`. -/
def documentedMs (attempts : Int64) (baseMs maxMs : UInt64) : Nat :=
  min (baseMs.toNat * 2 ^ min ((max attempts.toInt 1).toNat - 1) 20) maxMs.toNat

/-- No high bit is lost, or the cap does not depend on those that are: what is left
is still clamped, or already enough to reach `max_ms`. -/
def ShiftKept (attempts : Int64) (baseMs maxMs : UInt64) : Prop :=
  let low := (max attempts.toInt 1).toNat % 2 ^ 32
  attempts.toInt < 2 ^ 32 ∨ 21 ≤ low ∨
    0 < low ∧ (baseMs = 0 ∨ maxMs.toNat ≤ baseMs.toNat * 2 ^ (low - 1))

/-- A smaller power of two gives the same cap only if it reaches the maximum. -/
theorem min_pow_eq_iff {base low maximum : Nat} (hlow : low < 20) :
    min (base * 2 ^ low) maximum = min (base * 2 ^ 20) maximum ↔
      base = 0 ∨ maximum ≤ base * 2 ^ low := by
  have hpow : 2 ^ low < 2 ^ 20 := Nat.pow_lt_pow_right (by decide) hlow
  constructor
  · intro h
    by_cases hbase : base = 0
    · exact .inl hbase
    · have hlt : base * 2 ^ low < base * 2 ^ 20 :=
        Nat.mul_lt_mul_of_pos_left hpow (Nat.pos_of_ne_zero hbase)
      exact .inr (by omega)
  · rintro (rfl | hle)
    · rw [Nat.zero_mul, Nat.zero_mul]
    · have hge : base * 2 ^ low ≤ base * 2 ^ 20 := Nat.mul_le_mul_left base hpow.le
      omega

/-- The delay is the documented one, and no step of it overflows, if and only if the
cast keeps what the clamp looks at. -/
theorem cappedMs_exact_iff (attempts : Int64) (baseMs maxMs : UInt64) :
    (∃ c, cappedMs attempts baseMs maxMs = some c ∧
      c.toNat = documentedMs attempts baseMs maxMs) ↔ ShiftKept attempts baseMs maxMs := by
  have hbase : baseMs = 0 ↔ baseMs.toNat = 0 := UInt64.toNat_inj.symm
  have hpos : 0 < (max attempts.toInt 1).toNat := by omega
  have hsmall : attempts.toInt < 2 ^ 32 ↔ (max attempts.toInt 1).toNat < 2 ^ 32 := by omega
  have hcapped := cappedMs_eq attempts baseMs maxMs
  unfold ShiftKept documentedMs
  rw [hbase, hsmall]
  dsimp only
  generalize (max attempts.toInt 1).toNat = n at hpos hcapped ⊢
  rcases hcapped with ⟨hzero, hnone⟩ | ⟨c, hsome, hlow, hc⟩
  · constructor
    · rintro ⟨c, hsome, -⟩
      rw [hnone] at hsome
      cases hsome
    · intro hkept
      omega
  · rw [hsome]
    simp only [Option.some.injEq, exists_eq_left', hc]
    by_cases hlt : n < 2 ^ 32
    · rw [Nat.mod_eq_of_lt hlt]
      exact iff_of_true rfl (.inl hlt)
    · have hexp : min (n - 1) 20 = 20 := by omega
      rw [hexp]
      by_cases hhigh : 21 ≤ n % 2 ^ 32
      · have hexp' : min (n % 2 ^ 32 - 1) 20 = 20 := by omega
        rw [hexp']
        exact iff_of_true rfl (.inr (.inl hhigh))
      · have hexp' : min (n % 2 ^ 32 - 1) 20 = n % 2 ^ 32 - 1 := by omega
        rw [hexp', min_pow_eq_iff (by omega)]
        simp only [hlt, hhigh, hlow, true_and, false_or]

/-- With `2 ^ 32` attempts the subtraction underflows, and with one more the delay is
that of the first attempt. -/
theorem cappedMs_high_bits :
    (¬∃ c, cappedMs (2 ^ 32) 1000 300000 = some c ∧
        c.toNat = documentedMs (2 ^ 32) 1000 300000) ∧
      cappedMs (2 ^ 32 + 1) 1000 300000 = some 1000 ∧
      documentedMs (2 ^ 32 + 1) 1000 300000 = 300000 := by
  refine ⟨?_, by decide +kernel, by decide +kernel⟩
  rintro ⟨c, hc, -⟩
  have hnone : cappedMs (2 ^ 32) 1000 300000 = none := by decide +kernel
  rw [hnone] at hc
  cases hc

end K
end WebhookDelivery
