/-
Bytes written as hexadecimal digits.

A digit may be in either case.  `Spells` is the relation of a text to the bytes
it writes, two digits a byte, and `hexEncode` is the text in lower case.
-/
import Mathlib.Data.List.Basic

namespace WebhookDelivery
namespace Text

/-- The byte is the digit of `v`, in either case. -/
def HexDigit (c : UInt8) (v : Nat) : Prop :=
  (v < 10 ∧ c.toNat = 48 + v) ∨ (10 ≤ v ∧ v < 16 ∧ (c.toNat = 87 + v ∨ c.toNat = 55 + v))

instance (c : UInt8) (v : Nat) : Decidable (HexDigit c v) := by
  unfold HexDigit
  exact inferInstance

theorem HexDigit.lt {c : UInt8} {v : Nat} (h : HexDigit c v) : v < 16 := by
  rcases h with ⟨h, -⟩ | ⟨-, h, -⟩ <;> omega

theorem HexDigit.unique {c : UInt8} {v w : Nat} (hv : HexDigit c v) (hw : HexDigit c w) :
    v = w := by
  unfold HexDigit at hv hw
  omega

/-- The digits are those of the bytes, high digit first. -/
inductive Spells : List UInt8 → List UInt8 → Prop
  | nil : Spells [] []
  | pair {hi lo b : UInt8} {h l : Nat} {ds bs : List UInt8} (hhi : HexDigit hi h)
      (hlo : HexDigit lo l) (hb : b.toNat = 16 * h + l) (hrest : Spells ds bs) :
      Spells (hi :: lo :: ds) (b :: bs)

theorem Spells.length {ds bs : List UInt8} (h : Spells ds bs) : ds.length = 2 * bs.length := by
  induction h with
  | nil => rfl
  | pair _ _ _ _ ih =>
    simp only [List.length_cons, ih]
    omega

/-- A text spells the bytes of one list at most. -/
theorem Spells.unique {ds bs cs : List UInt8} (hb : Spells ds bs) (hc : Spells ds cs) :
    bs = cs := by
  induction hb generalizing cs with
  | nil => cases hc; rfl
  | pair hhi hlo hb _ ih =>
    cases hc with
    | pair hhi' hlo' hb' hrest' =>
      obtain rfl := hhi.unique hhi'
      obtain rfl := hlo.unique hlo'
      rw [UInt8.toNat_inj.1 (hb.trans hb'.symm), ih hrest']

/-! ## Lower case -/

def hexLower (v : Nat) : UInt8 := UInt8.ofNat (if v < 10 then 48 + v else 87 + v)

def hexEncode (bs : List UInt8) : List UInt8 :=
  bs.flatMap fun b => [hexLower (b.toNat / 16), hexLower (b.toNat % 16)]

theorem hexLower_toNat {v : Nat} (h : v < 16) :
    (hexLower v).toNat = if v < 10 then 48 + v else 87 + v := by
  unfold hexLower
  rw [UInt8.toNat_ofNat_of_lt']
  split <;> simp only [UInt8.size] <;> omega

theorem hexLower_digit {v : Nat} (h : v < 16) : HexDigit (hexLower v) v := by
  unfold HexDigit
  rw [hexLower_toNat h]
  split <;> omega

/-- The digits that `hexEncode` writes spell the bytes. -/
theorem hexEncode_spells (bs : List UInt8) : Spells (hexEncode bs) bs := by
  induction bs with
  | nil => exact .nil
  | cons b bs ih =>
    have hb := b.toNat_lt
    exact .pair (hexLower_digit (by omega)) (hexLower_digit (by omega)) (by omega) ih

end Text
end WebhookDelivery
