/-
Numbers written in digits of a fixed width, and the blocks of numbers that
share their highest bits.

A block is what a network prefix is: the numbers of `width` bits that begin as
`base` does, for `len` bits.  Code tests a block on the digits, the whole ones
by equality and the one the prefix ends in by a mask or a range; `mem_block`
is the step from such a test to the number.
-/
import Mathlib.Algebra.Group.Nat.Defs

namespace WebhookDelivery
namespace Net

/-! ## Digits -/

/-- The number with the digits `ds` of `w` bits each, the highest first. -/
def value (w : Nat) (ds : List Nat) : Nat := ds.foldl (fun n d => n * 2 ^ w + d) 0

theorem foldl_value (w : Nat) :
    ∀ (ds : List Nat) (n : Nat),
      ds.foldl (fun n d => n * 2 ^ w + d) n = n * 2 ^ (w * ds.length) + value w ds := by
  intro ds
  induction ds with
  | nil => intro n; simp [value]
  | cons d rest ih =>
    intro n
    have hpow : 2 ^ (w * (rest.length + 1)) = 2 ^ w * 2 ^ (w * rest.length) := by
      rw [Nat.mul_add, Nat.mul_one, Nat.add_comm, Nat.pow_add]
    have hzero : value w (d :: rest) = d * 2 ^ (w * rest.length) + value w rest := by
      unfold value
      rw [List.foldl_cons, ih]
      simp [value]
    rw [List.foldl_cons, ih, List.length_cons, hpow, hzero, Nat.add_mul, Nat.mul_assoc,
      Nat.add_assoc]

theorem value_cons (w d : Nat) (ds : List Nat) :
    value w (d :: ds) = d * 2 ^ (w * ds.length) + value w ds := by
  have h := foldl_value w ds d
  simpa [value] using h

theorem value_append (w : Nat) (xs ys : List Nat) :
    value w (xs ++ ys) = value w xs * 2 ^ (w * ys.length) + value w ys := by
  unfold value
  rw [List.foldl_append, foldl_value]
  rfl

/-- Digits of `w` bits. -/
def Fits (w : Nat) (ds : List Nat) : Prop := ∀ d ∈ ds, d < 2 ^ w

theorem Fits.head {w d : Nat} {ds : List Nat} (h : Fits w (d :: ds)) : d < 2 ^ w :=
  h d List.mem_cons_self

theorem Fits.tail {w d : Nat} {ds : List Nat} (h : Fits w (d :: ds)) : Fits w ds :=
  fun x hx => h x (List.mem_cons_of_mem d hx)

theorem Fits.left {w : Nat} {xs ys : List Nat} (h : Fits w (xs ++ ys)) : Fits w xs :=
  fun x hx => h x (List.mem_append_left ys hx)

theorem Fits.right {w : Nat} {xs ys : List Nat} (h : Fits w (xs ++ ys)) : Fits w ys :=
  fun x hx => h x (List.mem_append_right xs hx)

theorem value_lt {w : Nat} {ds : List Nat} (h : Fits w ds) :
    value w ds < 2 ^ (w * ds.length) := by
  induction ds with
  | nil => exact Nat.one_pos
  | cons d rest ih =>
    have hrest := ih h.tail
    have hd : d + 1 ≤ 2 ^ w := h.head
    rw [value_cons, List.length_cons, Nat.mul_add, Nat.mul_one, Nat.add_comm (w * _), Nat.pow_add]
    calc d * 2 ^ (w * rest.length) + value w rest
        < d * 2 ^ (w * rest.length) + 2 ^ (w * rest.length) := Nat.add_lt_add_left hrest _
      _ = (d + 1) * 2 ^ (w * rest.length) := by rw [Nat.add_mul, Nat.one_mul]
      _ ≤ 2 ^ w * 2 ^ (w * rest.length) := Nat.mul_le_mul_right _ hd

/-- Dividing by the weight of the last digits leaves the first. -/
theorem value_append_div {w : Nat} {xs ys : List Nat} (h : Fits w ys) :
    value w (xs ++ ys) / 2 ^ (w * ys.length) = value w xs := by
  rw [value_append, Nat.mul_comm, Nat.mul_add_div (Nat.two_pow_pos _),
    Nat.div_eq_of_lt (value_lt h), Nat.add_zero]

theorem value_append_mod {w : Nat} {xs ys : List Nat} (h : Fits w ys) :
    value w (xs ++ ys) % 2 ^ (w * ys.length) = value w ys := by
  rw [value_append, Nat.mul_comm, Nat.mul_add_mod, Nat.mod_eq_of_lt (value_lt h)]

theorem value_inj {w : Nat} {xs ys : List Nat} (hx : Fits w xs) (hy : Fits w ys)
    (hlen : xs.length = ys.length) (h : value w xs = value w ys) : xs = ys := by
  induction xs generalizing ys with
  | nil => exact (List.length_eq_zero_iff.1 hlen.symm).symm
  | cons x xs ih =>
    cases ys with
    | nil => cases hlen
    | cons y ys =>
      have hlen' : xs.length = ys.length := Nat.succ.inj hlen
      have hfirst : ∀ (d : Nat) (ds : List Nat), Fits w (d :: ds) →
          value w (d :: ds) / 2 ^ (w * ds.length) = d := by
        intro d ds hds
        rw [value_cons, Nat.mul_comm, Nat.mul_add_div (Nat.two_pow_pos _),
          Nat.div_eq_of_lt (value_lt hds.tail), Nat.add_zero]
      have hxy : x = y := by
        have hxs := hfirst x xs hx
        rw [h, hlen', hfirst y ys hy] at hxs
        exact hxs.symm
      have hrest : value w xs = value w ys := by
        rw [value_cons, value_cons, hlen', hxy] at h
        exact Nat.add_left_cancel h
      rw [hxy, ih hx.tail hy.tail hlen' hrest]

/-! ## Blocks -/

/-- The numbers of `width` bits whose first `len` bits are those of `base`. -/
structure Block (width : Nat) where
  base : Nat
  len : Nat

instance (width : Nat) : Membership Nat (Block width) where
  mem b n := n / 2 ^ (width - b.len) = b.base / 2 ^ (width - b.len)

theorem Block.mem_def {width : Nat} {b : Block width} {n : Nat} :
    n ∈ b ↔ n / 2 ^ (width - b.len) = b.base / 2 ^ (width - b.len) := Iff.rfl

instance (width n : Nat) (b : Block width) : Decidable (n ∈ b) :=
  decidable_of_iff _ Block.mem_def.symm

/-- A prefix that ends `r` bits into a digit: the digits before it are those of
the base, and that one agrees in its first `r` bits. -/
theorem mem_block {w r width len d p : Nat} {xs ys ps qs : List Nat}
    (hwidth : width = w * (ps.length + (qs.length + 1))) (hlen : len = w * ps.length + r)
    (hr : r ≤ w) (hxs : xs.length = ps.length) (hys : ys.length = qs.length)
    (hx : Fits w (xs ++ d :: ys)) (hp : Fits w (ps ++ p :: qs)) :
    value w (xs ++ d :: ys) ∈ (⟨value w (ps ++ p :: qs), len⟩ : Block width) ↔
      xs = ps ∧ d / 2 ^ (w - r) = p / 2 ^ (w - r) := by
  -- the digit the prefix ends in and those before it, as one number
  have hcut : ∀ (as bs : List Nat) (a : Nat), bs.length = qs.length → Fits w (as ++ a :: bs) →
      value w (as ++ a :: bs) / 2 ^ (width - len) =
        value w as * 2 ^ r + a / 2 ^ (w - r) := by
    intro as bs a hbs hfit
    have hexp : width - len = w * bs.length + (w - r) := by
      rw [hwidth, hlen, hbs, Nat.mul_add, Nat.mul_add, Nat.mul_one]
      omega
    have hsplit : as ++ a :: bs = (as ++ [a]) ++ bs := by simp
    have hpow : 2 ^ w = 2 ^ (w - r) * 2 ^ r := by
      rw [← Nat.pow_add]
      congr 1
      omega
    rw [hexp, Nat.pow_add, ← Nat.div_div_eq_div_mul, hsplit,
      value_append_div (hfit.right.tail), value_append]
    have hone : value w [a] = a := by simp [value]
    rw [hone, List.length_singleton, Nat.mul_one, hpow, Nat.mul_comm (2 ^ (w - r)),
      ← Nat.mul_assoc, Nat.mul_comm _ (2 ^ (w - r)), Nat.mul_add_div (Nat.two_pow_pos _)]
  have hsmall : ∀ a, a < 2 ^ w → a / 2 ^ (w - r) < 2 ^ r := by
    intro a ha
    refine Nat.div_lt_of_lt_mul ?_
    rw [← Nat.pow_add]
    have hsum : w - r + r = w := by omega
    rwa [hsum]
  rw [Block.mem_def, hcut xs ys d hys hx, hcut ps qs p rfl hp]
  have hd := hsmall d hx.right.head
  have hp' := hsmall p hp.right.head
  constructor
  · intro h
    have hlow : d / 2 ^ (w - r) = p / 2 ^ (w - r) := by
      have hmod := congrArg (· % 2 ^ r) h
      simpa only [Nat.mul_add_mod', Nat.mod_eq_of_lt hd, Nat.mod_eq_of_lt hp'] using hmod
    rw [hlow] at h
    have hhigh := Nat.eq_of_mul_eq_mul_right (Nat.two_pow_pos r) (Nat.add_right_cancel h)
    exact ⟨value_inj hx.left hp.left hxs hhigh, hlow⟩
  · rintro ⟨rfl, hlow⟩
    rw [hlow]

/-- The same for two numbers of equally many digits, the prefix ending in the
digit `k`. -/
theorem mem_block_take {w width len k r : Nat} {ds bs : List Nat}
    (hwidth : width = w * ds.length) (hlen : len = w * k + r) (hr : r ≤ w)
    (hds : k < ds.length) (hbs : k < bs.length) (heq : ds.length = bs.length)
    (hd : Fits w ds) (hb : Fits w bs) :
    value w ds ∈ (⟨value w bs, len⟩ : Block width) ↔
      ds.take k = bs.take k ∧ ds[k] / 2 ^ (w - r) = bs[k] / 2 ^ (w - r) := by
  have hcut : ∀ (as : List Nat) (h : k < as.length),
      as.take k ++ as[k] :: as.drop (k + 1) = as := by
    intro as h
    rw [List.getElem_cons_drop, List.take_append_drop]
  have hk : (bs.take k).length = k := by
    rw [List.length_take]
    omega
  have hwidth' : width = w * ((bs.take k).length + ((bs.drop (k + 1)).length + 1)) := by
    rw [hwidth, hk, List.length_drop, heq]
    congr 1
    omega
  have hxs : (ds.take k).length = (bs.take k).length := by
    rw [List.length_take, List.length_take, heq]
  have hys : (ds.drop (k + 1)).length = (bs.drop (k + 1)).length := by
    rw [List.length_drop, List.length_drop, heq]
  rw [← hcut ds hds] at hd
  rw [← hcut bs hbs] at hb
  have hlen' : len = w * (bs.take k).length + r := by rw [hk, hlen]
  have h := mem_block hwidth' hlen' hr hxs hys hd hb
  rwa [hcut ds hds, hcut bs hbs] at h

/-! ## Masks -/

/-- The bits of `x` from `k` on. -/
theorem and_high {x w k : Nat} (hk : k ≤ w) (hx : x < 2 ^ w) :
    x &&& (2 ^ w - 2 ^ k) = x / 2 ^ k * 2 ^ k := by
  have hmask : 2 ^ w - 2 ^ k = (2 ^ (w - k) - 1) * 2 ^ k := by
    rw [Nat.sub_mul, Nat.one_mul, ← Nat.pow_add]
    congr 2
    omega
  refine Nat.eq_of_testBit_eq fun i => ?_
  rw [Nat.testBit_and, hmask, Nat.testBit_mul_two_pow, Nat.testBit_mul_two_pow,
    Nat.testBit_two_pow_sub_one, Nat.testBit_div_two_pow]
  by_cases hki : k ≤ i
  · have hsum : i - k + k = i := by omega
    rw [hsum]
    by_cases hiw : i < w
    · have hlow : i - k < w - k := by omega
      simp [hki, hlow]
    · have hbit : x.testBit i = false :=
        Nat.testBit_lt_two_pow (Nat.lt_of_lt_of_le hx (Nat.pow_le_pow_right (by decide) (by omega)))
      simp [hbit]
  · simp [hki]

/-- A mask of the first bits compares them. -/
theorem and_high_eq_iff {x w k p : Nat} (hk : k ≤ w) (hx : x < 2 ^ w) :
    x &&& (2 ^ w - 2 ^ k) = p * 2 ^ k ↔ x / 2 ^ k = p := by
  rw [and_high hk hx]
  exact ⟨fun h => Nat.eq_of_mul_eq_mul_right (Nat.two_pow_pos k) h, fun h => by rw [h]⟩

end Net
end WebhookDelivery
