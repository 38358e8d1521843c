/-
RFC 3339 texts of UTC instants.

The fields of the date and the time are of fixed width, most significant first,
so texts with the same fields up to the second are ordered by what follows.
That is a fraction, and then the offset.  A fraction with three digits, or none,
ends where a longer one goes on, and the order survives because `+` is below `.`
and below every digit.
-/
import WebhookDelivery.Text.Ascii
import WebhookDelivery.Text.Calendar
import WebhookDelivery.Text.Decimal

namespace WebhookDelivery
namespace Text

/-! ## Up to the second -/

/-- The date and the time to the second, and what follows. -/
def stamp (c : DateTime) (tail : List Char) : List Char :=
  digits 4 c.date.year ++ '-' :: (digits 2 c.date.month ++ '-' :: (digits 2 c.date.day ++
    'T' :: (digits 2 c.clock.hour ++ ':' :: (digits 2 c.clock.minute ++
      ':' :: (digits 2 c.clock.second ++ tail)))))

theorem Date.month_lt_hundred (d : Date) : d.month < 10 ^ 2 := by
  have h := d.month_range.2
  omega

theorem Date.day_lt_hundred (d : Date) : d.day < 10 ^ 2 := by
  have h := d.day_lt
  omega

theorem Clock.lt_hundred (c : Clock) :
    c.hour < 10 ^ 2 ∧ c.minute < 10 ^ 2 ∧ c.second < 10 ^ 2 := by
  have hh := c.hour_lt
  have hm := c.minute_lt
  have hs := c.second_lt
  omega

theorem stamp_lt_iff (c d : DateTime) (a b : List Char) :
    stamp c a < stamp d b ↔ c.date.year < d.date.year ∨ c.date.year = d.date.year ∧
      (c.date.month < d.date.month ∨ c.date.month = d.date.month ∧
        (c.date.day < d.date.day ∨ c.date.day = d.date.day ∧
          (c.clock.hour < d.clock.hour ∨ c.clock.hour = d.clock.hour ∧
            (c.clock.minute < d.clock.minute ∨ c.clock.minute = d.clock.minute ∧
              (c.clock.second < d.clock.second ∨ c.clock.second = d.clock.second ∧
                a < b))))) := by
  obtain ⟨hch, hcm, hcs⟩ := c.clock.lt_hundred
  obtain ⟨hdh, hdm, hds⟩ := d.clock.lt_hundred
  unfold stamp
  rw [field_lt_iff c.date.year_lt d.date.year_lt, cons_lt_cons_self,
    field_lt_iff c.date.month_lt_hundred d.date.month_lt_hundred, cons_lt_cons_self,
    field_lt_iff c.date.day_lt_hundred d.date.day_lt_hundred, cons_lt_cons_self,
    field_lt_iff hch hdh, cons_lt_cons_self, field_lt_iff hcm hdm, cons_lt_cons_self,
    field_lt_iff hcs hds]

/-- If what follows is ordered as the nanoseconds are, the texts are ordered as
the instants. -/
theorem stamp_lt_iff_instant {c d : DateTime} {a b : List Char}
    (h : a < b ↔ c.clock.nano < d.clock.nano) : stamp c a < stamp d b ↔ c.instant < d.instant := by
  rw [stamp_lt_iff, DateTime.instant_lt_fields, h]

/-! ## Milliseconds and `Z` -/

def millisTail (nano : Nat) : List Char := '.' :: (digits 3 (nano / 1000000) ++ ['Z'])

/-- The text with three digits of the fraction. -/
def millisText (c : DateTime) : List Char := stamp c (millisTail c.clock.nano)

/-- The instant at the start of its millisecond. -/
def floorMillis (t : Int) : Int := t / 1000000 * 1000000

/-- The start of the millisecond. -/
def DateTime.floorMillis (c : DateTime) : DateTime where
  date := c.date
  clock := { c.clock with
    nano := c.clock.nano / 1000000 * 1000000
    nano_lt := Nat.lt_of_le_of_lt (Nat.div_mul_le_self _ _) c.clock.nano_lt }

theorem DateTime.instant_floorMillis (c : DateTime) :
    c.floorMillis.instant = Text.floorMillis c.instant := by
  simp only [DateTime.instant, DateTime.floorMillis, Clock.nanos, Text.floorMillis, nanosPerDay]
  omega

theorem floorMillis_inYears {t : Int} (h : InYears t) : InYears (floorMillis t) := by
  rw [← DateTime.instant_ofInstant h, ← DateTime.instant_floorMillis]
  exact DateTime.instant_inYears _

theorem millisTail_lt_iff {m n : Nat} (hm : m < 1000000000) (hn : n < 1000000000) :
    millisTail m < millisTail n ↔ m / 1000000 < n / 1000000 := by
  unfold millisTail
  rw [cons_lt_cons_self, field_lt_iff (by omega) (by omega)]
  simp

/-- Texts in milliseconds are ordered as the instants rounded down. -/
theorem millisText_lt_iff (c d : DateTime) :
    millisText c < millisText d ↔ floorMillis c.instant < floorMillis d.instant := by
  have htail := millisTail_lt_iff c.clock.nano_lt d.clock.nano_lt
  have h := stamp_lt_iff_instant (c := c.floorMillis) (d := d.floorMillis)
    (a := millisTail c.clock.nano) (b := millisTail d.clock.nano)
    (htail.trans (by simp only [DateTime.floorMillis]; omega))
  rwa [DateTime.instant_floorMillis, DateTime.instant_floorMillis] at h

/-! ## The shortest fraction, and an offset -/

def utcOffset : List Char := "+00:00".toList

/-- Nothing, or three, six or nine digits, as few as are exact. -/
def fraction (nano : Nat) : List Char :=
  if nano = 0 then []
  else if nano % 1000000 = 0 then '.' :: digits 3 (nano / 1000000)
  else if nano % 1000 = 0 then '.' :: digits 6 (nano / 1000)
  else '.' :: digits 9 nano

/-- The text with the shortest exact fraction. -/
def autoText (c : DateTime) : List Char := stamp c (fraction c.clock.nano ++ utcOffset)

/-- Three digits and what follows, unless there is nothing left to write. -/
def group (pre : List Char) (n rest : Nat) (tail : List Char) : List Char :=
  if n = 0 ∧ rest = 0 then utcOffset else pre ++ (digits 3 n ++ tail)

theorem utcOffset_lt_of_digit {c : Char} (hc : c.isDigit = true) (cs : List Char) :
    utcOffset < c :: cs := by
  have hlt : '+' < c := by
    have hle : '0' ≤ c := by
      simp only [Char.isDigit, Bool.and_eq_true, decide_eq_true_eq] at hc
      exact hc.1
    exact lt_of_lt_of_le (by decide) hle
  exact List.cons_lt_cons_iff.2 (.inl hlt)

theorem utcOffset_lt_digits (n : Nat) (tail : List Char) : utcOffset < digits 3 n ++ tail := by
  obtain ⟨c, cs, hd, hc⟩ := digits_cons (by decide : 0 < 3) n
  rw [hd]
  exact utcOffset_lt_of_digit hc _

theorem utcOffset_lt_point (tail : List Char) : utcOffset < '.' :: tail :=
  List.cons_lt_cons_iff.2 (.inl (by decide))

/-- A text that ends is below one that goes on. -/
theorem group_lt_iff {pre : List Char} (hpre : ∀ n tail, utcOffset < pre ++ (digits 3 n ++ tail))
    {m n r s : Nat} (hm : m < 10 ^ 3) (hn : n < 10 ^ 3) {a b : List Char} (h : a < b ↔ r < s) :
    group pre m r a < group pre n s b ↔ m < n ∨ m = n ∧ r < s := by
  unfold group
  split_ifs with hzero hzero' hzero'
  · have hirrefl : ¬utcOffset < utcOffset := List.lt_irrefl utcOffset
    simp only [hirrefl, false_iff]
    omega
  · simp only [hpre, true_iff]
    omega
  · have hasymm : ¬pre ++ (digits 3 m ++ a) < utcOffset := List.lt_asymm (hpre m a)
    simp only [hasymm, false_iff]
    omega
  · rw [append_lt_append_iff rfl, field_lt_iff hm hn, h]
    simp

theorem fraction_eq {n : Nat} (hn : n < 1000000000) :
    fraction n ++ utcOffset =
      group ['.'] (n / 1000000) (n % 1000000)
        (group [] (n / 1000 % 1000) (n % 1000) (group [] (n % 1000) 0 utcOffset)) := by
  have hlow : ∀ n, digits 3 (n % 1000) = digits 3 n := digits_mod 3
  have hmicros : digits 6 (n / 1000) =
      digits 3 (n / 1000000) ++ digits 3 (n / 1000 % 1000) := by
    have hdiv : n / 1000 / 10 ^ 3 = n / 1000000 := Nat.div_div_eq_div_mul n 1000 1000
    rw [hlow, ← hdiv]
    exact digits_split 3 3 (n / 1000)
  have hnanos : digits 9 n = digits 6 (n / 1000) ++ digits 3 (n % 1000) := by
    rw [hlow]
    exact digits_split 6 3 n
  unfold fraction group
  by_cases hzero : n = 0
  · subst hzero
    simp
  · by_cases hmillis : n % 1000000 = 0
    · have h1 : n / 1000 % 1000 = 0 := by omega
      have h2 : n % 1000 = 0 := by omega
      have h3 : ¬n / 1000000 = 0 := by omega
      simp [hzero, hmillis, h1, h2, h3]
    · by_cases hmicro : n % 1000 = 0
      · have h1 : ¬n / 1000 % 1000 = 0 := by omega
        simp [hzero, hmillis, hmicro, h1, hmicros]
      · simp [hzero, hmillis, hmicro, hnanos, hmicros]

theorem fraction_lt_iff {m n : Nat} (hm : m < 1000000000) (hn : n < 1000000000) :
    fraction m ++ utcOffset < fraction n ++ utcOffset ↔ m < n := by
  have hpoint : ∀ n tail, utcOffset < ['.'] ++ (digits 3 n ++ tail) :=
    fun n tail => utcOffset_lt_point _
  have hdigit : ∀ n tail, utcOffset < [] ++ (digits 3 n ++ tail) := utcOffset_lt_digits
  have hself : utcOffset < utcOffset ↔ 0 < 0 := by simp
  rw [fraction_eq hm, fraction_eq hn]
  refine (group_lt_iff (s := n % 1000000) hpoint (by omega) (by omega) (r := m % 1000000) ?_).trans
    (by omega)
  refine (group_lt_iff hdigit (by omega) (by omega) (r := m % 1000) (s := n % 1000) ?_).trans
    (by omega)
  exact (group_lt_iff hdigit (by omega) (by omega) hself).trans (by omega)

/-- Texts with the shortest exact fraction are ordered as the instants. -/
theorem autoText_lt_iff (c d : DateTime) : autoText c < autoText d ↔ c.instant < d.instant :=
  stamp_lt_iff_instant (fraction_lt_iff c.clock.nano_lt d.clock.nano_lt)

/-! ## Texts of instants -/

theorem digits_ascii {w n : Nat} {c : Char} (hc : c ∈ digits w n) : c.toNat < 128 := by
  have hdigit := isDigit_digits hc
  simp only [Char.isDigit, Bool.and_eq_true, decide_eq_true_eq] at hdigit
  have hle : c.toNat ≤ '9'.toNat := hdigit.2
  exact Nat.lt_of_le_of_lt hle (by decide)

theorem stamp_ascii (c : DateTime) {tail : List Char} (h : ∀ x ∈ tail, x.toNat < 128) :
    ∀ x ∈ stamp c tail, x.toNat < 128 := by
  have hdash : '-'.toNat < 128 := by decide
  have hcolon : ':'.toNat < 128 := by decide
  have htee : 'T'.toNat < 128 := by decide
  intro x hx
  simp only [stamp, List.mem_append, List.mem_cons] at hx
  rcases hx with hx | rfl | hx | rfl | hx | rfl | hx | rfl | hx | rfl | hx | hx <;>
    first | assumption | exact digits_ascii hx | exact h x hx

theorem millisText_ascii (c : DateTime) : ∀ x ∈ millisText c, x.toNat < 128 := by
  refine stamp_ascii c fun x hx => ?_
  simp only [millisTail, List.mem_cons, List.mem_append, List.not_mem_nil, or_false] at hx
  rcases hx with rfl | hx | rfl
  · decide
  · exact digits_ascii hx
  · decide

theorem autoText_ascii (c : DateTime) : ∀ x ∈ autoText c, x.toNat < 128 := by
  have hall : utcOffset.all (fun x => decide (x.toNat < 128)) = true := by decide
  have hoffset : ∀ x ∈ utcOffset, x.toNat < 128 := fun x hx =>
    of_decide_eq_true (List.all_eq_true.1 hall x hx)
  refine stamp_ascii c fun x hx => ?_
  rcases List.mem_append.1 hx with hx | hx
  · unfold fraction at hx
    split_ifs at hx
    · cases hx
    all_goals
      rcases List.mem_cons.1 hx with rfl | hx
      · decide
      · exact digits_ascii hx
  · exact hoffset x hx

/-- The text of an instant with the shortest exact fraction. -/
def autoString (t : Int) (h : InYears t) : String := String.ofList (autoText (.ofInstant t h))

/-- The text of an instant in milliseconds. -/
def millisString (t : Int) (h : InYears t) : String := String.ofList (millisText (.ofInstant t h))

theorem ofList_le_iff {a b : List Char} : String.ofList a ≤ String.ofList b ↔ ¬b < a := by
  rw [← not_lt, String.lt_iff_toList_lt, String.toList_ofList, String.toList_ofList]

theorem autoString_le_iff {t u : Int} (ht : InYears t) (hu : InYears u) :
    autoString t ht ≤ autoString u hu ↔ t ≤ u := by
  rw [autoString, autoString, ofList_le_iff, autoText_lt_iff, DateTime.instant_ofInstant,
    DateTime.instant_ofInstant, Int.not_lt]

theorem millisString_le_iff {t u : Int} (ht : InYears t) (hu : InYears u) :
    millisString t ht ≤ millisString u hu ↔ floorMillis t ≤ floorMillis u := by
  rw [millisString, millisString, ofList_le_iff, millisText_lt_iff, DateTime.instant_ofInstant,
    DateTime.instant_ofInstant, Int.not_lt]

/-- The bytes of the texts are ordered as the texts are. -/
theorem autoString_bytes {t u : Int} (ht : InYears t) (hu : InYears u) :
    utf8 (autoString t ht) ≤ utf8 (autoString u hu) ↔ autoString t ht ≤ autoString u hu :=
  utf8_le_iff (autoText_ascii _) (autoText_ascii _)

theorem millisString_bytes {t u : Int} (ht : InYears t) (hu : InYears u) :
    utf8 (millisString t ht) ≤ utf8 (millisString u hu) ↔ millisString t ht ≤ millisString u hu :=
  utf8_le_iff (millisText_ascii _) (millisText_ascii _)

/-! ## Reading -/

/-- A number of `w` digits. -/
def readDigits (w : Nat) (cs : List Char) : Option (Nat × List Char) :=
  if w ≤ cs.length ∧ (cs.take w).all Char.isDigit then some (value (cs.take w), cs.drop w)
  else none

def readChar (c : Char) : List Char → Option (List Char)
  | [] => none
  | d :: cs => if d = c then some cs else none

/-- A number of `w` digits and the character after it. -/
def readField (w : Nat) (sep : Char) (cs : List Char) : Option (Nat × List Char) := do
  let (n, cs) ← readDigits w cs
  let cs ← readChar sep cs
  return (n, cs)

/-- The nanoseconds of an optional fraction of at most nine digits. -/
def readFraction : List Char → Option (Nat × List Char)
  | '.' :: cs =>
    let w := (cs.takeWhile Char.isDigit).length
    if 0 < w ∧ w ≤ 9 then some (value (cs.take w) * 10 ^ (9 - w), cs.drop w) else none
  | cs => some (0, cs)

def readZone (cs : List Char) : Option Int := do
  let (hours, cs) ← readField 2 ':' cs
  let (minutes, cs) ← readDigits 2 cs
  if hours < 24 ∧ minutes < 60 ∧ cs = [] then some ((hours * 60 + minutes : Nat) * 60) else none

/-- The seconds east of UTC, at the end of the text. -/
def readOffset : List Char → Option Int
  | ['Z'] => some 0
  | '+' :: cs => readZone cs
  | '-' :: cs => (readZone cs).map fun seconds => -seconds
  | _ => none

def dateTime? (year month day hour minute second nano : Nat) : Option DateTime :=
  if h : (year < 10000 ∧ 0 < day ∧ day ≤ monthLength year month) ∧
      hour < 24 ∧ minute < 60 ∧ second < 60 ∧ nano < 1000000000 then
    some {
      date := ⟨year, month, day, h.1.1, h.1.2.1, h.1.2.2⟩
      clock := ⟨hour, minute, second, nano, h.2.1, h.2.2.1, h.2.2.2.1, h.2.2.2.2⟩ }
  else none

/-- The instant that a text is for. -/
def readInstant (cs : List Char) : Option Int := do
  let (year, cs) ← readField 4 '-' cs
  let (month, cs) ← readField 2 '-' cs
  let (day, cs) ← readField 2 'T' cs
  let (hour, cs) ← readField 2 ':' cs
  let (minute, cs) ← readField 2 ':' cs
  let (second, cs) ← readDigits 2 cs
  let (nano, cs) ← readFraction cs
  let c ← dateTime? year month day hour minute second nano
  let offset ← readOffset cs
  return c.instant - offset * 1000000000

theorem bind_of_eq_some {α β : Type} {x : Option α} {a : α} (h : x = some a) (f : α → Option β) :
    x >>= f = f a := by
  rw [h]
  rfl

theorem readDigits_digits {w n : Nat} (hn : n < 10 ^ w) (cs : List Char) :
    readDigits w (digits w n ++ cs) = some (n, cs) := by
  have htake : (digits w n ++ cs).take w = digits w n := by
    rw [List.take_append_of_le_length (by simp), List.take_of_length_le (by simp)]
  have hdrop : (digits w n ++ cs).drop w = cs := by
    rw [List.drop_append_of_le_length (by simp), List.drop_of_length_le (by simp), List.nil_append]
  have hall : (digits w n).all Char.isDigit = true :=
    List.all_eq_true.2 fun c hc => isDigit_digits hc
  unfold readDigits
  rw [htake, hdrop, value_digits hn, if_pos ⟨by simp, hall⟩]

theorem readChar_self (c : Char) (cs : List Char) : readChar c (c :: cs) = some cs := if_pos rfl

theorem readField_digits {w n : Nat} (hn : n < 10 ^ w) (sep : Char) (cs : List Char) :
    readField w sep (digits w n ++ sep :: cs) = some (n, cs) := by
  simp [readField, readDigits_digits hn, readChar_self]

theorem readFraction_digits {w n : Nat} (hw : 0 < w) (hw' : w ≤ 9) (hn : n < 10 ^ w) {c : Char}
    (hc : c.isDigit = false) (cs : List Char) :
    readFraction ('.' :: (digits w n ++ c :: cs)) = some (n * 10 ^ (9 - w), c :: cs) := by
  have hwhile : (digits w n ++ c :: cs).takeWhile Char.isDigit = digits w n := by
    rw [List.takeWhile_append_of_pos fun c hc => isDigit_digits hc, List.takeWhile_cons, hc]
    simp
  have hread := readDigits_digits hn (c :: cs)
  unfold readDigits at hread
  split at hread
  · simp only [Option.some.injEq, Prod.mk.injEq] at hread
    simp only [readFraction, hwhile, length_digits, hread.1, hread.2]
    rw [if_pos ⟨hw, hw'⟩]
  · cases hread

theorem dateTime?_fields (c : DateTime) (nano : Nat) (h : nano < 1000000000) :
    dateTime? c.date.year c.date.month c.date.day c.clock.hour c.clock.minute c.clock.second nano =
      some { date := c.date, clock := { c.clock with nano := nano, nano_lt := h } } :=
  dif_pos ⟨⟨c.date.year_lt, c.date.day_pos, c.date.day_le⟩, c.clock.hour_lt, c.clock.minute_lt,
    c.clock.second_lt, h⟩

/-- The fields of a text are read back, and then its fraction and its offset. -/
theorem readInstant_stamp (c : DateTime) {tail zone : List Char} {nano : Nat}
    (h : nano < 1000000000) (hfraction : readFraction tail = some (nano, zone))
    (hzone : readOffset zone = some 0) :
    readInstant (stamp c tail) =
      some (DateTime.mk c.date { c.clock with nano := nano, nano_lt := h }).instant := by
  obtain ⟨hh, hm, hs⟩ := c.clock.lt_hundred
  have hyear : c.date.year < 10 ^ 4 := c.date.year_lt
  refine (bind_of_eq_some (readField_digits hyear '-' _) _).trans ?_
  refine (bind_of_eq_some (readField_digits c.date.month_lt_hundred '-' _) _).trans ?_
  refine (bind_of_eq_some (readField_digits c.date.day_lt_hundred 'T' _) _).trans ?_
  refine (bind_of_eq_some (readField_digits hh ':' _) _).trans ?_
  refine (bind_of_eq_some (readField_digits hm ':' _) _).trans ?_
  refine (bind_of_eq_some (readDigits_digits hs _) _).trans ?_
  refine (bind_of_eq_some hfraction _).trans ?_
  refine (bind_of_eq_some (dateTime?_fields c nano h) _).trans ?_
  refine (bind_of_eq_some hzone _).trans ?_
  exact congrArg some (Int.sub_zero _)

/-- A text in milliseconds is read as the start of its millisecond. -/
theorem readInstant_millisText (c : DateTime) :
    readInstant (millisText c) = some (floorMillis c.instant) := by
  have hn := c.clock.nano_lt
  have hfraction : readFraction (millisTail c.clock.nano) =
      some (c.clock.nano / 1000000 * 1000000, ['Z']) :=
    readFraction_digits (by decide) (by decide) (by omega) (by decide) []
  rw [millisText, readInstant_stamp c (by omega) hfraction rfl, ← c.instant_floorMillis]
  rfl

/-- A text with the shortest exact fraction is read as its instant. -/
theorem readInstant_autoText (c : DateTime) : readInstant (autoText c) = some c.instant := by
  have hn := c.clock.nano_lt
  have hzone : readOffset utcOffset = some 0 := by decide
  have hfraction : readFraction (fraction c.clock.nano ++ utcOffset) =
      some (c.clock.nano, utcOffset) := by
    have hplus : '+'.isDigit = false := by decide
    unfold fraction
    split_ifs with hzero hmillis hmicros
    · rw [hzero]
      rfl
    · refine (readFraction_digits (by decide) (by decide) (by omega) hplus _).trans ?_
      rw [show c.clock.nano / 1000000 * 10 ^ (9 - 3) = c.clock.nano by omega]
      rfl
    · refine (readFraction_digits (by decide) (by decide) (by omega) hplus _).trans ?_
      rw [show c.clock.nano / 1000 * 10 ^ (9 - 6) = c.clock.nano by omega]
      rfl
    · refine (readFraction_digits (by decide) (by decide) hn hplus _).trans ?_
      rw [show c.clock.nano * 10 ^ (9 - 9) = c.clock.nano by omega]
      rfl
  exact readInstant_stamp c hn hfraction hzone

end Text
end WebhookDelivery
