/-
Decimal numbers of a fixed width, and the order of texts made of them.

Texts are compared character by character.  A field of fixed width is compared
as the number it writes, and then what follows it is.
-/
import Mathlib.Algebra.Order.Ring.Nat
import Mathlib.Data.String.Basic

namespace WebhookDelivery
namespace Text

/-! ## Order of texts -/

/-- Parts of equal length are compared before what follows them. -/
theorem append_lt_append_iff {a a' b b' : List Char} (h : a.length = a'.length) :
    a ++ b < a' ++ b' ↔ a < a' ∨ a = a' ∧ b < b' := by
  induction a generalizing a' with
  | nil =>
    obtain rfl := List.eq_nil_of_length_eq_zero h.symm
    simp
  | cons x a ih =>
    cases a' with
    | nil => cases h
    | cons x' a' =>
      have hlen : a.length = a'.length := Nat.succ.inj h
      simp only [List.cons_append, List.cons_lt_cons_iff, ih hlen, List.cons.injEq]
      tauto

theorem cons_lt_cons_self {c : Char} {a b : List Char} : c :: a < c :: b ↔ a < b := by
  simp

/-! ## Digits -/

/-- The last `w` decimal digits of `n`. -/
def digits : Nat → Nat → List Char
  | 0, _ => []
  | w + 1, n => digits w (n / 10) ++ [Nat.digitChar (n % 10)]

@[simp] theorem length_digits (w n : Nat) : (digits w n).length = w := by
  induction w generalizing n with
  | zero => rfl
  | succ w ih => rw [digits, List.length_append, ih, List.length_singleton]

theorem digits_split (v w n : Nat) :
    digits (v + w) n = digits v (n / 10 ^ w) ++ digits w n := by
  induction w generalizing n with
  | zero => simp [digits]
  | succ w ih =>
    rw [← Nat.add_assoc, digits, ih, digits, List.append_assoc, Nat.div_div_eq_div_mul,
      Nat.pow_succ']

/-- The digits depend on what is left modulo the next power of ten. -/
theorem digits_mod (w n : Nat) : digits w (n % 10 ^ w) = digits w n := by
  induction w generalizing n with
  | zero => rfl
  | succ w ih =>
    have hdiv : n % 10 ^ (w + 1) / 10 = n / 10 % 10 ^ w := by
      rw [Nat.pow_succ', Nat.mod_mul_right_div_self]
    have hmod : n % 10 ^ (w + 1) % 10 = n % 10 := Nat.mod_mod_of_dvd n (Dvd.intro_left (10 ^ w) rfl)
    rw [digits, digits, hdiv, hmod, ih]

theorem digitChar_lt_iff {a b : Nat} (ha : a < 10) (hb : b < 10) :
    Nat.digitChar a < Nat.digitChar b ↔ a < b := by
  have hall : ∀ a < 10, ∀ b < 10, (Nat.digitChar a < Nat.digitChar b ↔ a < b) := by decide
  exact hall a ha b hb

theorem digitChar_value {a : Nat} (ha : a < 10) : (Nat.digitChar a).toNat - 48 = a := by
  have hall : ∀ a < 10, (Nat.digitChar a).toNat - 48 = a := by decide
  exact hall a ha

/-- The number that decimal digits write. -/
def value (cs : List Char) : Nat := cs.foldl (fun n c => 10 * n + (c.toNat - 48)) 0

theorem value_digits {w n : Nat} (hn : n < 10 ^ w) : value (digits w n) = n := by
  induction w generalizing n with
  | zero => exact (Nat.lt_one_iff.1 hn).symm
  | succ w ih =>
    have hdiv : n / 10 < 10 ^ w := by
      rw [Nat.pow_succ] at hn
      omega
    have hlast := digitChar_value (Nat.mod_lt n (by decide : 0 < 10))
    have hinit : (digits w (n / 10)).foldl (fun n c => 10 * n + (c.toNat - 48)) 0 = n / 10 :=
      ih hdiv
    rw [value, digits, List.foldl_append, hinit, List.foldl_cons, List.foldl_nil, hlast]
    omega

theorem digits_inj {w m n : Nat} (hm : m < 10 ^ w) (hn : n < 10 ^ w) :
    digits w m = digits w n ↔ m = n := by
  refine ⟨fun h => ?_, fun h => h ▸ rfl⟩
  have hvalue := congrArg value h
  rwa [value_digits hm, value_digits hn] at hvalue

theorem isDigit_digits {w n : Nat} {c : Char} (hc : c ∈ digits w n) : c.isDigit = true := by
  induction w generalizing n with
  | zero => cases hc
  | succ w ih =>
    rcases List.mem_append.1 hc with hc | hc
    · exact ih hc
    · rw [List.mem_singleton.1 hc, Nat.isDigit_digitChar]
      exact decide_eq_true (Nat.mod_lt n (by decide))

/-- Numbers of one width are ordered as their digits are. -/
theorem digits_lt_iff {w m n : Nat} (hm : m < 10 ^ w) (hn : n < 10 ^ w) :
    digits w m < digits w n ↔ m < n := by
  induction w generalizing m n with
  | zero => simp only [pow_zero, Nat.lt_one_iff] at hm hn; simp [hm, hn]
  | succ w ih =>
    rw [Nat.pow_succ] at hm hn
    have hlen : (digits w (m / 10)).length = (digits w (n / 10)).length := by simp
    rw [digits, digits, append_lt_append_iff hlen, ih (by omega) (by omega),
      digits_inj (by omega) (by omega), List.cons_lt_cons_iff,
      digitChar_lt_iff (Nat.mod_lt _ (by decide)) (Nat.mod_lt _ (by decide))]
    simp only [List.not_lt_nil, and_false, or_false]
    omega

theorem digits_cons {w : Nat} (hw : 0 < w) (n : Nat) :
    ∃ c cs, digits w n = c :: cs ∧ c.isDigit = true := by
  cases hd : digits w n with
  | nil =>
    have hlen := length_digits w n
    rw [hd] at hlen
    exact absurd hlen (Nat.ne_of_lt hw)
  | cons c cs => exact ⟨c, cs, rfl, isDigit_digits (hd ▸ List.mem_cons_self)⟩

/-- A field is compared as a number, and then what follows it. -/
theorem field_lt_iff {w m n : Nat} {a b : List Char} (hm : m < 10 ^ w) (hn : n < 10 ^ w) :
    digits w m ++ a < digits w n ++ b ↔ m < n ∨ m = n ∧ a < b := by
  rw [append_lt_append_iff (by simp), digits_lt_iff hm hn, digits_inj hm hn]

end Text
end WebhookDelivery
