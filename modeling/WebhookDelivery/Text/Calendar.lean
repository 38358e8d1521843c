/-
The Gregorian calendar, extended to the years 0 to 9999.

An instant is a number of nanoseconds since 1970-01-01T00:00:00Z.  A date is
numbered by laying the years end to end, and the months in the year.  Each is a
sequence of blocks, and a place in one is ordered by its block first.
-/
import Mathlib.Data.Int.Order.Basic
import Mathlib.Order.Monotone.Basic

namespace WebhookDelivery
namespace Text

/-! ## Blocks -/

/-- The length of the blocks before the `k`-th. -/
def before (w : Nat → Nat) : Nat → Nat
  | 0 => 0
  | k + 1 => before w k + w k

theorem before_mono (w : Nat → Nat) : Monotone (before w) :=
  monotone_nat_of_le_succ fun _ => Nat.le_add_right _ _

/-- The block of a place and how far it is into the block, of `n` blocks. -/
def blockOf (w : Nat → Nat) : Nat → Nat → Nat × Nat
  | 0, place => (0, place)
  | n + 1, place =>
    if before w n ≤ place then (n, place - before w n) else blockOf w n place

theorem blockOf_spec {w : Nat → Nat} {n place : Nat} (h : place < before w n) :
    (blockOf w n place).1 < n ∧ (blockOf w n place).2 < w (blockOf w n place).1 ∧
      before w (blockOf w n place).1 + (blockOf w n place).2 = place := by
  induction n with
  | zero => exact absurd h (Nat.not_lt_zero place)
  | succ n ih =>
    unfold blockOf
    by_cases hle : before w n ≤ place
    · rw [if_pos hle]
      have hlt : place < before w n + w n := h
      exact ⟨Nat.lt_succ_self n, show place - before w n < w n by omega,
        Nat.add_sub_cancel' hle⟩
    · rw [if_neg hle]
      obtain ⟨hblock, hrest⟩ := ih (Nat.lt_of_not_le hle)
      exact ⟨Nat.lt_succ_of_lt hblock, hrest⟩

/-- Places are ordered by their block, and in a block by how far they are. -/
theorem place_lt_iff {w : Nat → Nat} {j k r s : Nat} (hr : r < w j) (hs : s < w k) :
    before w j + r < before w k + s ↔ j < k ∨ j = k ∧ r < s := by
  rcases Nat.lt_trichotomy j k with hlt | rfl | hlt
  · have hle : before w j + w j ≤ before w k := before_mono w hlt
    omega
  · omega
  · have hle : before w k + w k ≤ before w j := before_mono w hlt
    omega

/-! ## Dates -/

def isLeap (year : Nat) : Bool := year % 4 = 0 ∧ (year % 100 ≠ 0 ∨ year % 400 = 0)

def yearLength (year : Nat) : Nat := if isLeap year then 366 else 365

/-- The days of a month; there are twelve, counted from one. -/
def monthLength (year : Nat) : Nat → Nat
  | 1 | 3 | 5 | 7 | 8 | 10 | 12 => 31
  | 4 | 6 | 9 | 11 => 30
  | 2 => if isLeap year then 29 else 28
  | _ => 0

theorem before_months (year : Nat) : before (monthLength year) 13 = yearLength year := by
  unfold yearLength
  cases h : isLeap year <;> simp [before, monthLength, h]

structure Date where
  year : Nat
  month : Nat
  day : Nat
  year_lt : year < 10000
  day_pos : 0 < day
  day_le : day ≤ monthLength year month

namespace Date

theorem month_range (d : Date) : 0 < d.month ∧ d.month < 13 := by
  have hday : 0 < monthLength d.year d.month := Nat.lt_of_lt_of_le d.day_pos d.day_le
  constructor
  · refine Nat.pos_of_ne_zero fun h => ?_
    rw [h] at hday
    exact absurd hday (by simp [monthLength])
  · refine Nat.lt_of_not_le fun h => ?_
    obtain ⟨m, hm⟩ := Nat.exists_eq_add_of_le h
    rw [hm, Nat.add_comm] at hday
    exact absurd hday (by simp [monthLength])

theorem day_lt (d : Date) : d.day < 32 := by
  have hmonth : ∀ year month, monthLength year month < 32 := by
    intro year month
    unfold monthLength
    split <;> try decide
    split <;> decide
  exact Nat.lt_of_le_of_lt d.day_le (hmonth d.year d.month)

def dayOfYear (d : Date) : Nat := before (monthLength d.year) d.month + (d.day - 1)

/-- The days since the first of January of the year 0. -/
def days (d : Date) : Nat := before yearLength d.year + d.dayOfYear

theorem dayOfYear_lt (d : Date) : d.dayOfYear < yearLength d.year := by
  have hle : before (monthLength d.year) (d.month + 1) ≤ before (monthLength d.year) 13 :=
    before_mono _ d.month_range.2
  have hpos := d.day_pos
  have hday := d.day_le
  rw [before_months, before] at hle
  unfold dayOfYear
  omega

theorem days_lt_iff (d e : Date) :
    d.days < e.days ↔ d.year < e.year ∨
      d.year = e.year ∧ (d.month < e.month ∨ d.month = e.month ∧ d.day < e.day) := by
  rw [days, days, place_lt_iff d.dayOfYear_lt e.dayOfYear_lt]
  refine or_congr_right (and_congr_right fun hyear => ?_)
  have hd := d.day_pos
  have he := e.day_pos
  have hdle := d.day_le
  have hele := e.day_le
  rw [← hyear] at hele
  rw [dayOfYear, dayOfYear, ← hyear, place_lt_iff (by omega) (by omega)]
  omega

theorem days_eq_iff (d e : Date) :
    d.days = e.days ↔ d.year = e.year ∧ d.month = e.month ∧ d.day = e.day := by
  have hlt := days_lt_iff d e
  have hgt := days_lt_iff e d
  omega

theorem days_lt (d : Date) : d.days < before yearLength 10000 := by
  have hle : before yearLength (d.year + 1) ≤ before yearLength 10000 :=
    before_mono _ d.year_lt
  have hlt := d.dayOfYear_lt
  rw [before] at hle
  unfold days
  omega

theorem monthOf_spec {year rest : Nat} (h : rest < yearLength year) :
    (blockOf (monthLength year) 13 rest).1 < 13 ∧
      (blockOf (monthLength year) 13 rest).2 <
        monthLength year (blockOf (monthLength year) 13 rest).1 ∧
      before (monthLength year) (blockOf (monthLength year) 13 rest).1 +
        (blockOf (monthLength year) 13 rest).2 = rest := by
  rw [← before_months] at h
  exact blockOf_spec h

/-- The date of a day of a year. -/
def ofYear (year rest : Nat) (hyear : year < 10000) (hrest : rest < yearLength year) : Date where
  year := year
  month := (blockOf (monthLength year) 13 rest).1
  day := (blockOf (monthLength year) 13 rest).2 + 1
  year_lt := hyear
  day_pos := Nat.succ_pos _
  day_le := (monthOf_spec hrest).2.1

/-- The date of a day. -/
def ofDays (n : Nat) (h : n < before yearLength 10000) : Date :=
  ofYear (blockOf yearLength 10000 n).1 (blockOf yearLength 10000 n).2 (blockOf_spec h).1
    (blockOf_spec h).2.1

theorem days_ofYear {year rest : Nat} (hyear : year < 10000) (hrest : rest < yearLength year) :
    (ofYear year rest hyear hrest).days = before yearLength year + rest := by
  simp only [days, dayOfYear, ofYear, Nat.add_sub_cancel]
  rw [(monthOf_spec hrest).2.2]

theorem days_ofDays (n : Nat) (h : n < before yearLength 10000) : (ofDays n h).days = n := by
  rw [ofDays, days_ofYear]
  exact (blockOf_spec h).2.2

end Date

/-! ## Times of day -/

structure Clock where
  hour : Nat
  minute : Nat
  second : Nat
  nano : Nat
  hour_lt : hour < 24
  minute_lt : minute < 60
  second_lt : second < 60
  nano_lt : nano < 1000000000

def nanosPerDay : Nat := 86400000000000

namespace Clock

def nanos (c : Clock) : Nat :=
  ((c.hour * 60 + c.minute) * 60 + c.second) * 1000000000 + c.nano

theorem nanos_lt (c : Clock) : c.nanos < nanosPerDay := by
  have h := c.hour_lt
  have m := c.minute_lt
  have s := c.second_lt
  have n := c.nano_lt
  unfold nanos nanosPerDay
  omega

theorem nanos_lt_iff (c d : Clock) :
    c.nanos < d.nanos ↔ c.hour < d.hour ∨ c.hour = d.hour ∧ (c.minute < d.minute ∨
      c.minute = d.minute ∧ (c.second < d.second ∨ c.second = d.second ∧ c.nano < d.nano)) := by
  have hc := c.minute_lt
  have hd := d.minute_lt
  have sc := c.second_lt
  have sd := d.second_lt
  have nc := c.nano_lt
  have nd := d.nano_lt
  unfold nanos
  omega

/-- The time of day after a number of nanoseconds. -/
def ofNanos (n : Nat) (h : n < nanosPerDay) : Clock where
  hour := n / 3600000000000
  minute := n / 60000000000 % 60
  second := n / 1000000000 % 60
  nano := n % 1000000000
  hour_lt := by unfold nanosPerDay at h; omega
  minute_lt := Nat.mod_lt _ (by decide)
  second_lt := Nat.mod_lt _ (by decide)
  nano_lt := Nat.mod_lt _ (by decide)

theorem nanos_ofNanos (n : Nat) (h : n < nanosPerDay) : (ofNanos n h).nanos = n := by
  simp only [nanos, ofNanos]
  omega

end Clock

/-! ## Instants -/

structure DateTime where
  date : Date
  clock : Clock

/-- The first of January 1970. -/
def epoch : Nat := before yearLength 1970

example : epoch = 719528 := by decide +kernel

/-- The instant is in the years 0 to 9999. -/
def InYears (t : Int) : Prop :=
  0 ≤ t + (epoch * nanosPerDay : Nat) ∧
    t + (epoch * nanosPerDay : Nat) < (before yearLength 10000 * nanosPerDay : Nat)

instance (t : Int) : Decidable (InYears t) := inferInstanceAs (Decidable (_ ∧ _))

/-- The first day of 1970. -/
theorem inYears_of_day {t : Int} (hpos : 0 ≤ t) (hlt : t < nanosPerDay) : InYears t := by
  have hle : before yearLength (1970 + 1) ≤ before yearLength 10000 :=
    before_mono _ (by decide)
  have hlength : 0 < yearLength 1970 := by decide
  rw [before] at hle
  unfold InYears epoch
  generalize before yearLength 10000 = years at *
  generalize before yearLength 1970 = e at *
  unfold nanosPerDay at *
  omega

namespace DateTime

def instant (c : DateTime) : Int :=
  (c.date.days * nanosPerDay + c.clock.nanos : Nat) - (epoch * nanosPerDay : Nat)

theorem instant_lt_iff (c d : DateTime) :
    c.instant < d.instant ↔
      c.date.days < d.date.days ∨ c.date.days = d.date.days ∧ c.clock.nanos < d.clock.nanos := by
  have hc := c.clock.nanos_lt
  have hd := d.clock.nanos_lt
  unfold instant
  unfold nanosPerDay at *
  omega

/-- Instants are ordered field by field. -/
theorem instant_lt_fields (c d : DateTime) :
    c.instant < d.instant ↔ c.date.year < d.date.year ∨ c.date.year = d.date.year ∧
      (c.date.month < d.date.month ∨ c.date.month = d.date.month ∧
        (c.date.day < d.date.day ∨ c.date.day = d.date.day ∧
          (c.clock.hour < d.clock.hour ∨ c.clock.hour = d.clock.hour ∧
            (c.clock.minute < d.clock.minute ∨ c.clock.minute = d.clock.minute ∧
              (c.clock.second < d.clock.second ∨ c.clock.second = d.clock.second ∧
                c.clock.nano < d.clock.nano))))) := by
  rw [instant_lt_iff, Date.days_lt_iff, Date.days_eq_iff, Clock.nanos_lt_iff]
  simp only [and_or_left, or_assoc, and_assoc]

theorem instant_inYears (c : DateTime) : InYears c.instant := by
  have hc := c.clock.nanos_lt
  have hd := c.date.days_lt
  unfold InYears instant
  generalize before yearLength 10000 = years at *
  generalize epoch = e
  unfold nanosPerDay at *
  omega

/-- The nanoseconds since the first of January of the year 0. -/
def sinceZero (t : Int) : Nat := (t + (epoch * nanosPerDay : Nat)).toNat

theorem sinceZero_lt {t : Int} (h : InYears t) :
    sinceZero t / nanosPerDay < before yearLength 10000 := by
  refine Nat.div_lt_of_lt_mul ?_
  rw [Nat.mul_comm]
  exact (Int.toNat_lt h.1).2 h.2

/-- The date and time of an instant. -/
def ofInstant (t : Int) (h : InYears t) : DateTime where
  date := .ofDays (sinceZero t / nanosPerDay) (sinceZero_lt h)
  clock := .ofNanos (sinceZero t % nanosPerDay) (Nat.mod_lt _ (by decide))

theorem instant_ofInstant {t : Int} (h : InYears t) : (ofInstant t h).instant = t := by
  have hdiv : sinceZero t / nanosPerDay * nanosPerDay + sinceZero t % nanosPerDay = sinceZero t :=
    Nat.div_add_mod' _ _
  have hpos : (sinceZero t : Int) = t + (epoch * nanosPerDay : Nat) := Int.toNat_of_nonneg h.1
  simp only [instant, ofInstant, Date.days_ofDays, Clock.nanos_ofNanos]
  rw [hdiv, hpos]
  exact Int.add_sub_cancel t _

end DateTime

end Text
end WebhookDelivery
