/-
Integers as text: what the standard library trims, reads and writes.

An unsigned integer is read from decimal digits, with a `+` before them or
without, and the scan stops at the first character that is no digit or takes the
number past its width.  A signed one is written with a `-` and digits, so it has
no other separator in it.
-/
import Mathlib.Data.List.DropRight
import WebhookDelivery.Text.Decimal

namespace WebhookDelivery
namespace Text

/-! ## Blanks -/

/-- `char::is_whitespace`, the property `White_Space` of Unicode. -/
def isWhitespace (c : Char) : Bool :=
  let n := c.toNat
  (9 ≤ n ∧ n ≤ 13) ∨ n = 0x20 ∨ n = 0x85 ∨ n = 0xa0 ∨ n = 0x1680 ∨ (0x2000 ≤ n ∧ n ≤ 0x200a) ∨
    n = 0x2028 ∨ n = 0x2029 ∨ n = 0x202f ∨ n = 0x205f ∨ n = 0x3000

/-- `str::trim`. -/
def trim (cs : List Char) : List Char := (cs.dropWhile isWhitespace).rdropWhile isWhitespace

/-- What is left has no blank at either end, and only blanks were taken. -/
theorem trim_spec (cs : List Char) :
    ∃ pre post, cs = pre ++ trim cs ++ post ∧ (∀ c ∈ pre, isWhitespace c = true) ∧
      (∀ c ∈ post, isWhitespace c = true) ∧
      ∀ h : trim cs ≠ [], isWhitespace ((trim cs).head h) = false ∧
        isWhitespace ((trim cs).getLast h) = false := by
  have hback : trim cs ++ (cs.dropWhile isWhitespace).rtakeWhile isWhitespace =
      cs.dropWhile isWhitespace := List.rdropWhile_append_rtakeWhile
  refine ⟨cs.takeWhile isWhitespace, (cs.dropWhile isWhitespace).rtakeWhile isWhitespace,
    ?_, fun c hc => List.mem_takeWhile_imp hc, fun c hc => List.mem_rtakeWhile_imp hc, ?_⟩
  · rw [List.append_assoc, hback, List.takeWhile_append_dropWhile]
  · intro h
    constructor
    · have hne : cs.dropWhile isWhitespace ≠ [] := by
        intro e
        rw [trim, e] at h
        exact h rfl
      obtain ⟨rest, hrest⟩ : trim cs <+: cs.dropWhile isWhitespace := List.rdropWhile_prefix _ _
      have hhead : (trim cs).head h = (cs.dropWhile isWhitespace).head hne := by
        simp only [← hrest, List.head_append_of_ne_nil h]
      rw [hhead]
      exact List.head_dropWhile_not isWhitespace hne
    · exact Bool.eq_false_iff.2 (List.rdropWhile_last_not _ _ h)

theorem exists_mem_trim {cs : List Char} (h : trim cs ≠ []) :
    ∃ c ∈ trim cs, isWhitespace c = false := by
  obtain ⟨-, -, -, -, -, hends⟩ := trim_spec cs
  exact ⟨_, List.head_mem h, (hends h).1⟩

/-- Nothing is left of a text exactly if it is blank. -/
theorem trim_eq_nil_iff {cs : List Char} : trim cs = [] ↔ ∀ c ∈ cs, isWhitespace c = true := by
  obtain ⟨pre, post, hcs, hpre, hpost, -⟩ := trim_spec cs
  constructor
  · intro hnil
    rw [hnil, List.append_nil] at hcs
    rw [hcs, List.forall_mem_append]
    exact ⟨hpre, hpost⟩
  · intro hall
    have hkept : ∀ c ∈ trim cs, isWhitespace c = true := by
      intro c hc
      apply hall
      rw [hcs]
      exact List.mem_append_left post (List.mem_append_right pre hc)
    by_contra hne
    obtain ⟨c, hc, hfilled⟩ := exists_mem_trim hne
    rw [hkept c hc] at hfilled
    cases hfilled

/-! ## Reading -/

/-- `IntErrorKind`, as far as an unsigned integer meets it. -/
inductive ParseIntError
  | empty
  | invalidDigit
  | posOverflow
  deriving DecidableEq

def ParseIntError.text : ParseIntError → String
  | .empty => "cannot parse integer from empty string"
  | .invalidDigit => "invalid digit found in string"
  | .posOverflow => "number too large to fit in target type"

/-- The scan, which has read `n`. -/
def parseDigits (bits n : Nat) : List Char → Except ParseIntError Nat
  | [] => .ok n
  | c :: cs =>
    if c.isDigit then
      let next := 10 * n + (c.toNat - 48)
      if next < 2 ^ bits then parseDigits bits next cs else .error .posOverflow
    else .error .invalidDigit

/-- `from_str_radix` for an unsigned type of that width. -/
def parseUnsigned (bits : Nat) : List Char → Except ParseIntError Nat
  | [] => .error .empty
  | c :: cs =>
    if c = '+' then
      if cs = [] then .error .invalidDigit else parseDigits bits 0 cs
    else parseDigits bits 0 (c :: cs)

/-- `from_str_radix` for a signed type of that width, where it reads a number. -/
def parseSigned (bits : Nat) : List Char → Option Int
  | '-' :: c :: cs =>
    match parseDigits bits 0 (c :: cs) with
    | .ok n => if n ≤ 2 ^ (bits - 1) then some (-n) else none
    | .error _ => none
  | cs =>
    match parseUnsigned (bits - 1) cs with
    | .ok n => some n
    | .error _ => none

/-- The number that digits write after those of `n`. -/
def valueFrom (n : Nat) (cs : List Char) : Nat := cs.foldl (fun n c => 10 * n + (c.toNat - 48)) n

theorem valueFrom_cons (n : Nat) (c : Char) (cs : List Char) :
    valueFrom n (c :: cs) = valueFrom (10 * n + (c.toNat - 48)) cs := by
  simp only [valueFrom, List.foldl_cons]

theorem le_valueFrom (n : Nat) (cs : List Char) : n ≤ valueFrom n cs := by
  induction cs generalizing n with
  | nil => exact Nat.le_refl n
  | cons c cs ih =>
    have hle := ih (10 * n + (c.toNat - 48))
    rw [valueFrom_cons]
    omega

/-- The scan never shrinks what it has read, so it overflows on the way only if the
whole number does not fit. -/
theorem parseDigits_ok_iff {bits n m : Nat} {cs : List Char} (hn : n < 2 ^ bits) :
    parseDigits bits n cs = .ok m ↔
      (∀ c ∈ cs, c.isDigit = true) ∧ valueFrom n cs = m ∧ m < 2 ^ bits := by
  induction cs generalizing n with
  | nil =>
    constructor
    · intro h
      cases h
      exact ⟨fun c hc => absurd hc List.not_mem_nil, rfl, hn⟩
    · rintro ⟨-, rfl, -⟩
      rfl
  | cons c cs ih =>
    rw [parseDigits, valueFrom_cons, List.forall_mem_cons]
    by_cases hc : c.isDigit = true
    · rw [if_pos hc]
      by_cases hnext : 10 * n + (c.toNat - 48) < 2 ^ bits
      · simp only [if_pos hnext, ih hnext, hc, true_and]
      · have hle := le_valueFrom (10 * n + (c.toNat - 48)) cs
        simp only [if_neg hnext, reduceCtorEq, false_iff]
        rintro ⟨-, hval, hm⟩
        omega
    · simp [hc]

/-- The text is decimal digits, after a `+` or not, and their number is `n`. -/
def Numeral (cs : List Char) (n : Nat) : Prop :=
  ∃ ds, (cs = ds ∨ cs = '+' :: ds) ∧ ds ≠ [] ∧ (∀ d ∈ ds, d.isDigit = true) ∧ value ds = n

theorem not_numeral_plus {ds : List Char} (hall : ∀ d ∈ ds, d.isDigit = true) {cs : List Char} :
    ds ≠ '+' :: cs := by
  rintro rfl
  exact absurd (hall '+' List.mem_cons_self) (by decide)

/-- What is read is a numeral that fits, and every numeral that fits is read. -/
theorem parseUnsigned_ok_iff {bits n : Nat} {cs : List Char} :
    parseUnsigned bits cs = .ok n ↔ Numeral cs n ∧ n < 2 ^ bits := by
  have hzero : 0 < 2 ^ bits := Nat.two_pow_pos bits
  cases cs with
  | nil =>
    simp only [parseUnsigned, reduceCtorEq, false_iff]
    rintro ⟨⟨ds, hds | hds, hne, -⟩, -⟩
    · exact hne hds.symm
    · cases hds
  | cons c cs =>
    by_cases hplus : c = '+'
    · subst hplus
      have hread : Numeral ('+' :: cs) n ↔
          cs ≠ [] ∧ (∀ d ∈ cs, d.isDigit = true) ∧ value cs = n := by
        constructor
        · rintro ⟨ds, hds | hds, hne, hall, hval⟩
          · exact absurd hds.symm (not_numeral_plus hall)
          · cases hds
            exact ⟨hne, hall, hval⟩
        · rintro ⟨hne, hall, hval⟩
          exact ⟨cs, .inr rfl, hne, hall, hval⟩
      rw [hread, parseUnsigned, if_pos rfl]
      by_cases hne : cs = []
      · simp [hne]
      · rw [if_neg hne, parseDigits_ok_iff hzero, and_iff_right hne, and_assoc]
        exact Iff.rfl
    · have hread : Numeral (c :: cs) n ↔
          (∀ d ∈ c :: cs, d.isDigit = true) ∧ value (c :: cs) = n := by
        constructor
        · rintro ⟨ds, hds | hds, -, hall, hval⟩
          · subst hds
            exact ⟨hall, hval⟩
          · exact absurd (List.cons.inj hds).1 hplus
        · rintro ⟨hall, hval⟩
          exact ⟨c :: cs, .inl rfl, List.cons_ne_nil c cs, hall, hval⟩
      rw [hread, parseUnsigned, if_neg hplus, parseDigits_ok_iff hzero, and_assoc]
      exact Iff.rfl

/-- A text is the numeral of one number at most. -/
theorem Numeral.unique {cs : List Char} {m n : Nat} (hm : Numeral cs m) (hn : Numeral cs n) :
    m = n := by
  obtain ⟨ds, hds, -, hall, rfl⟩ := hm
  obtain ⟨es, hes, -, hall', rfl⟩ := hn
  rcases hds with rfl | rfl
  · rcases hes with rfl | rfl
    · rfl
    · exact absurd rfl (not_numeral_plus hall)
  · rcases hes with hes | hes
    · exact absurd hes.symm (not_numeral_plus hall')
    · cases hes
      rfl

/-! ## Writing -/

theorem toDigits_inj {m n : Nat} (h : Nat.toDigits 10 m = Nat.toDigits 10 n) : m = n := by
  rw [← Nat.ofDigitChars_toDigits (b := 10) (n := m) (by decide) (by decide), h,
    Nat.ofDigitChars_toDigits (by decide) (by decide)]

/-- `to_string` of an integer. -/
theorem repr_chars (a : Int) :
    (toString a).toList =
      if 0 ≤ a then Nat.toDigits 10 a.toNat else '-' :: Nat.toDigits 10 (-a).toNat := by
  rw [Int.toString_eq_repr, Int.repr_eq_if]
  split <;> simp

theorem toString_char {a : Int} {c : Char} (hc : c ∈ (toString a).toList) :
    c = '-' ∨ c.isDigit = true := by
  have hdigit : ∀ {n : Nat}, c ∈ Nat.toDigits 10 n → c.isDigit = true :=
    fun h => Nat.isDigit_of_mem_toDigits (by decide) (by decide) h
  rw [repr_chars] at hc
  split at hc
  · exact .inr (hdigit hc)
  · rcases List.mem_cons.1 hc with rfl | hc
    · exact .inl rfl
    · exact .inr (hdigit hc)

/-- The characters of an integer are ASCII, and none of them is a dot. -/
theorem toString_ascii {a : Int} {c : Char} (hc : c ∈ (toString a).toList) :
    c.toNat < 128 ∧ c ≠ '.' := by
  rcases toString_char hc with rfl | hdigit
  · decide
  · constructor
    · simp only [Char.isDigit, Bool.and_eq_true, decide_eq_true_eq, UInt32.le_iff_toNat_le]
        at hdigit
      exact Nat.lt_of_le_of_lt hdigit.2 (by decide)
    · rintro rfl
      exact absurd hdigit (by decide)

theorem toString_int_inj {a b : Int} (h : toString a = toString b) : a = b := by
  have hsign : ∀ {m : Nat} {cs : List Char}, Nat.toDigits 10 m ≠ '-' :: cs := by
    intro m cs e
    have hdash : '-' ∈ Nat.toDigits 10 m := e ▸ List.mem_cons_self
    exact absurd (Nat.isDigit_of_mem_toDigits (by decide) (by decide) hdash) (by decide)
  have hchars := congrArg String.toList h
  rw [repr_chars, repr_chars] at hchars
  split at hchars
  · split at hchars
    · have habs := toDigits_inj hchars
      omega
    · exact absurd hchars hsign
  · split at hchars
    · exact absurd hchars.symm hsign
    · have habs := toDigits_inj (List.cons.inj hchars).2
      omega

/-- The first separator of a text splits it in one way. -/
theorem append_sep_inj {α : Type*} {sep : α} {xs xs' ys ys' : List α} (hxs : sep ∉ xs)
    (hxs' : sep ∉ xs') (h : xs ++ sep :: ys = xs' ++ sep :: ys') : xs = xs' ∧ ys = ys' := by
  induction xs generalizing xs' with
  | nil =>
    cases xs' with
    | nil => exact ⟨rfl, (List.cons.inj h).2⟩
    | cons x' xs' => exact absurd ((List.cons.inj h).1 ▸ List.mem_cons_self) hxs'
  | cons x xs ih =>
    cases xs' with
    | nil => exact absurd ((List.cons.inj h).1 ▸ List.mem_cons_self) hxs
    | cons x' xs' =>
      obtain ⟨rfl, hrest⟩ := List.cons.inj h
      obtain ⟨rfl, rfl⟩ := ih (List.not_mem_of_not_mem_cons hxs)
        (List.not_mem_of_not_mem_cons hxs') hrest
      exact ⟨rfl, rfl⟩

end Text
end WebhookDelivery
