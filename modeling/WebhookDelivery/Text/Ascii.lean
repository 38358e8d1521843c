/-
ASCII texts and their bytes.

The UTF-8 encoding of an ASCII text has one byte for each character, so the bytes
are ordered as the characters are.
-/
import Mathlib.Data.List.Basic
import Mathlib.Data.String.Basic

namespace WebhookDelivery
namespace Text

/-- The bytes of a text in UTF-8. -/
def utf8 (s : String) : List UInt8 := s.toUTF8.data.toList

theorem utf8_append (s t : String) : utf8 (s ++ t) = utf8 s ++ utf8 t := by
  simp [utf8, String.toByteArray_append]

/-- A text is determined by its bytes. -/
theorem utf8_inj {s t : String} (h : utf8 s = utf8 t) : s = t :=
  String.toByteArray_inj.1 (ByteArray.ext (Array.ext' h))

theorem utf8_ofList (cs : List Char) :
    utf8 (String.ofList cs) = cs.flatMap String.utf8EncodeChar := by
  rw [utf8, String.toUTF8_eq_toByteArray, String.toByteArray_ofList, List.utf8Encode]
  exact List.data_toByteArray ▸ rfl

theorem utf8EncodeChar_ascii {c : Char} (h : c.toNat < 128) :
    String.utf8EncodeChar c = [UInt8.ofNat c.toNat] := by
  have hsize : c.utf8Size = 1 := by
    rw [Char.utf8Size_eq_one_iff, UInt32.le_iff_toNat_le]
    exact Nat.le_of_lt_succ h
  rw [String.utf8EncodeChar_eq_singleton hsize]
  rfl

/-- An ASCII text is encoded as its characters. -/
theorem utf8_ascii {cs : List Char} (h : ∀ c ∈ cs, c.toNat < 128) :
    utf8 (String.ofList cs) = cs.map fun c => UInt8.ofNat c.toNat := by
  rw [utf8_ofList]
  induction cs with
  | nil => rfl
  | cons c cs ih =>
    rw [List.flatMap_cons, utf8EncodeChar_ascii (h c List.mem_cons_self),
      ih fun d hd => h d (List.mem_cons_of_mem c hd)]
    rfl

/-! ## Bytes as text -/

/-- The text whose characters are the bytes. -/
def asciiString (bs : List UInt8) : String := String.ofList (bs.map fun b => Char.ofNat b.toNat)

theorem toNat_byte (b : UInt8) : (Char.ofNat b.toNat).toNat = b.toNat := by
  have hvalid : b.toNat.isValidChar := Or.inl (Nat.lt_trans b.toNat_lt (by decide))
  rw [Char.ofNat, dif_pos hvalid]
  rfl

theorem asciiString_bytes {bs : List UInt8} (h : ∀ b ∈ bs, b.toNat < 128) :
    utf8 (asciiString bs) = bs := by
  unfold asciiString
  rw [utf8_ascii, List.map_map]
  · refine (List.map_congr_left fun b _ => ?_).trans (List.map_id bs)
    simp [toNat_byte]
  · intro c hc
    obtain ⟨b, hb, rfl⟩ := List.mem_map.1 hc
    rw [toNat_byte]
    exact h b hb

/-! ## Order -/

theorem map_lt_map_iff {cs ds : List Char} (hc : ∀ c ∈ cs, c.toNat < 128)
    (hd : ∀ d ∈ ds, d.toNat < 128) :
    cs.map (fun c => UInt8.ofNat c.toNat) < ds.map (fun d => UInt8.ofNat d.toNat) ↔ cs < ds := by
  induction cs generalizing ds with
  | nil => cases ds <;> simp
  | cons c cs ih =>
    cases ds with
    | nil => simp
    | cons d ds =>
      have hc' := hc c List.mem_cons_self
      have hd' := hd d List.mem_cons_self
      have hlt : UInt8.ofNat c.toNat < UInt8.ofNat d.toNat ↔ c < d := by
        rw [UInt8.lt_iff_toNat_lt, UInt8.toNat_ofNat_of_lt' (Nat.lt_trans hc' (by decide)),
          UInt8.toNat_ofNat_of_lt' (Nat.lt_trans hd' (by decide))]
        exact Iff.rfl
      have heq : UInt8.ofNat c.toNat = UInt8.ofNat d.toNat ↔ c = d := by
        rw [← UInt8.toNat_inj, UInt8.toNat_ofNat_of_lt' (Nat.lt_trans hc' (by decide)),
          UInt8.toNat_ofNat_of_lt' (Nat.lt_trans hd' (by decide))]
        exact ⟨fun e => Char.toNat_inj.1 e, fun e => e ▸ rfl⟩
      rw [List.map_cons, List.map_cons, List.cons_lt_cons_iff, List.cons_lt_cons_iff, hlt, heq,
        ih (fun x hx => hc x (List.mem_cons_of_mem c hx))
          fun x hx => hd x (List.mem_cons_of_mem d hx)]

/-- ASCII texts are ordered as their bytes are. -/
theorem utf8_le_iff {cs ds : List Char} (hc : ∀ c ∈ cs, c.toNat < 128)
    (hd : ∀ d ∈ ds, d.toNat < 128) :
    utf8 (String.ofList cs) ≤ utf8 (String.ofList ds) ↔ String.ofList cs ≤ String.ofList ds := by
  have hlt : String.ofList ds < String.ofList cs ↔ ds < cs := by
    rw [String.lt_iff_toList_lt, String.toList_ofList, String.toList_ofList]
  rw [utf8_ascii hc, utf8_ascii hd, ← not_lt, hlt]
  exact not_congr (map_lt_map_iff hd hc)

end Text
end WebhookDelivery
