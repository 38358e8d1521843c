/-
The text of a header value.

The `http` crate keeps the bytes of a value as they came and hands them out as text only
if each is visible ASCII, so a value is compared as text with what was expected only if
it could have been typed.
-/
import WebhookDelivery.Text.Ascii

namespace WebhookDelivery
namespace Text

def isVisibleAscii (b : UInt8) : Bool := 32 ≤ b && b < 127 || b = 9

/-- `HeaderValue::to_str`. -/
def headerText (value : List UInt8) : Option String :=
  if value.all isVisibleAscii then some (asciiString value) else none

theorem isVisibleAscii_lt {b : UInt8} (h : isVisibleAscii b = true) : b.toNat < 128 := by
  unfold isVisibleAscii at h
  simp only [Bool.or_eq_true, Bool.and_eq_true, decide_eq_true_eq] at h
  rcases h with ⟨-, h⟩ | rfl
  · have hlt : b.toNat < 127 := UInt8.lt_iff_toNat_lt.1 h
    omega
  · decide

/-- The text is the one with these bytes. -/
theorem headerText_iff {value : List UInt8} {s : String} :
    headerText value = some s ↔ utf8 s = value ∧ (utf8 s).all isVisibleAscii = true := by
  unfold headerText
  by_cases h : value.all isVisibleAscii = true
  · have hbytes : utf8 (asciiString value) = value :=
      asciiString_bytes fun b hb => isVisibleAscii_lt (List.all_eq_true.1 h b hb)
    rw [if_pos h]
    constructor
    · rintro ⟨⟩
      exact ⟨hbytes, hbytes.symm ▸ h⟩
    · rintro ⟨hs, -⟩
      exact congrArg some (utf8_inj (hbytes.trans hs.symm))
  · rw [if_neg h]
    constructor
    · intro hnone
      cases hnone
    · rintro ⟨rfl, hall⟩
      exact absurd hall h

end Text
end WebhookDelivery
