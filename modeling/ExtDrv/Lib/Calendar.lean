import Mathlib.Data.Nat.Find
import Mathlib.Data.Nat.Order.Lemmas

/-!
# The civil calendar

Dates of the proleptic Gregorian calendar, numbered by the days since
1 January of year 0. The two halves of a date, the year in the day count
and the month in the year, are the same situation: a number `x` in the
SLOT of an increasing function `start`, the one index `n` with
`start n ≤ x < start (n + 1)`. Slots are unique, and the greatest index that
does not start after `x` finds them; so every number is that of one date.
-/

namespace ExtDrv.Calendar

/-! ## Slots of an increasing function -/

section Slots

/-- `x` lies in slot `n` of `start`. -/
def InSlot (start : ℕ → ℕ) (x n : ℕ) : Prop := start n ≤ x ∧ x < start (n + 1)

variable {start : ℕ → ℕ} {x m n : ℕ}

theorem InSlot.unique (hmono : Monotone start) (hn : InSlot start x n)
    (hm : InSlot start x m) : n = m := by
  rcases Nat.lt_trichotomy n m with hlt | heq | hgt
  · have := hmono (Nat.succ_le_of_lt hlt)
    exact absurd (hn.2.trans_le (this.trans hm.1)) (lt_irrefl x)
  · exact heq
  · have := hmono (Nat.succ_le_of_lt hgt)
    exact absurd (hm.2.trans_le (this.trans hn.1)) (lt_irrefl x)

/-- The greatest index up to `bound` that does not start after `x`. -/
def slotOf (start : ℕ → ℕ) (bound x : ℕ) : ℕ := Nat.findGreatest (start · ≤ x) bound

theorem inSlot_slotOf {bound : ℕ} (h0 : start 0 ≤ x) (hb : x < start (bound + 1)) :
    InSlot start x (slotOf start bound x) := by
  have hle : slotOf start bound x ≤ bound := Nat.findGreatest_le bound
  refine ⟨Nat.findGreatest_spec (P := (start · ≤ x)) (Nat.zero_le bound) h0, ?_⟩
  rcases Nat.lt_or_ge (slotOf start bound x) bound with hlt | hge
  · have hnot : ¬ start (slotOf start bound x + 1) ≤ x :=
      Nat.findGreatest_is_greatest (P := (start · ≤ x)) (Nat.lt_succ_self _)
        (Nat.succ_le_of_lt hlt)
    exact Nat.lt_of_not_le hnot
  · rwa [Nat.le_antisymm hle hge]

end Slots

/-! ## Years and months -/

/-- `y` is a leap year. -/
def IsLeap (y : ℕ) : Prop := y % 4 = 0 ∧ (y % 100 ≠ 0 ∨ y % 400 = 0)

instance (y : ℕ) : Decidable (IsLeap y) := inferInstanceAs (Decidable (_ ∧ _))

def yearDays (y : ℕ) : ℕ := if IsLeap y then 366 else 365

/-- The days of month `m` of year `y`, January being month 0. -/
def monthDays (y m : ℕ) : ℕ :=
  match m with
  | 1 => if IsLeap y then 29 else 28
  | 3 | 5 | 8 | 10 => 30
  | _ => 31

/-- The days before 1 January of year `y`: every fourth year adds one, but
for three hundreds out of four. -/
def yearStart (y : ℕ) : ℕ := 365 * y + (y + 3) / 4 + (y + 399) / 400 - (y + 99) / 100

/-- The days of year `y` before month `m`. -/
def monthStart (y : ℕ) : ℕ → ℕ
  | 0 => 0
  | m + 1 => monthStart y m + monthDays y m

theorem yearStart_succ (y : ℕ) : yearStart (y + 1) = yearStart y + yearDays y := by
  by_cases h : IsLeap y
  · rw [yearDays, if_pos h]
    unfold IsLeap at h
    unfold yearStart
    omega
  · rw [yearDays, if_neg h]
    unfold yearStart
    -- not a fourth year, or a hundred that is not a four hundred
    by_cases h4 : y % 4 = 0
    · have h100 : y % 100 = 0 ∧ y % 400 ≠ 0 := by
        unfold IsLeap at h
        omega
      omega
    · have h1 : (y + 1 + 3) / 4 = (y + 3) / 4 := by omega
      have h2 : (y + 1 + 99) / 100 = (y + 99) / 100 := by omega
      have h3 : (y + 1 + 399) / 400 = (y + 399) / 400 := by omega
      have h5 : (y + 99) / 100 ≤ (y + 3) / 4 := by omega
      omega

theorem monthStart_succ (y m : ℕ) :
    monthStart y (m + 1) = monthStart y m + monthDays y m := rfl

theorem monthStart_twelve (y : ℕ) : monthStart y 12 = yearDays y := by
  by_cases h : IsLeap y <;> simp [monthStart, monthDays, yearDays, h]

theorem yearStart_mono : Monotone yearStart :=
  monotone_nat_of_le_succ fun y => by rw [yearStart_succ]; omega

theorem monthStart_mono (y : ℕ) : Monotone (monthStart y) :=
  monotone_nat_of_le_succ fun m => by rw [monthStart_succ]; omega

theorem lt_yearStart (n : ℕ) : n < yearStart (n / 365 + 1) := by
  unfold yearStart
  omega

/-! ## Dates and their day numbers -/

/-- A date that the calendar has: month 0 is January, day 1 the first. -/
@[ext]
structure Date where
  year : ℕ
  month : ℕ
  day : ℕ
  month_lt : month < 12
  day_pos : 0 < day
  day_le : day ≤ monthDays year month

/-- The days from 1 January of year 0 to day `d` of month `m` of year `y`. -/
def dayCount (y m d : ℕ) : ℕ := yearStart y + monthStart y m + (d - 1)

def Date.dayNumber (d : Date) : ℕ := dayCount d.year d.month d.day

theorem monthDays_le (y m : ℕ) : monthDays y m ≤ 31 := by
  unfold monthDays
  split
  · split_ifs <;> decide
  all_goals decide

theorem Date.day_le_31 (d : Date) : d.day ≤ 31 := d.day_le.trans (monthDays_le _ _)

theorem Date.month_inSlot (d : Date) :
    InSlot (monthStart d.year) (monthStart d.year d.month + (d.day - 1)) d.month := by
  have h1 := d.day_pos
  have h2 := d.day_le
  constructor
  · omega
  · rw [monthStart_succ]
    omega

theorem Date.year_inSlot (d : Date) : InSlot yearStart d.dayNumber d.year := by
  have hm := d.month_inSlot.2
  have hy := monthStart_mono d.year (Nat.succ_le_of_lt d.month_lt)
  rw [Nat.succ_eq_add_one, monthStart_twelve] at hy
  constructor
  · unfold dayNumber dayCount
    omega
  · rw [yearStart_succ]
    unfold dayNumber dayCount
    omega

/-- Two dates of one day number are the same date. -/
theorem Date.dayNumber_injective : Function.Injective Date.dayNumber := by
  intro d e h
  have hy : d.year = e.year := d.year_inSlot.unique yearStart_mono (h ▸ e.year_inSlot)
  have hr : monthStart d.year d.month + (d.day - 1) =
      monthStart e.year e.month + (e.day - 1) := by
    unfold dayNumber dayCount at h
    rw [hy] at h ⊢
    omega
  have hm : d.month = e.month := by
    have he := e.month_inSlot
    rw [← hr, ← hy] at he
    exact d.month_inSlot.unique (monthStart_mono d.year) he
  have hd : d.day = e.day := by
    have h1 := d.day_pos
    have h2 := e.day_pos
    rw [hm, hy] at hr
    omega
  exact Date.ext hy hm hd

/-- The year of a day number. -/
def yearOf (n : ℕ) : ℕ := slotOf yearStart (n / 365) n

theorem yearOf_inSlot (n : ℕ) : InSlot yearStart n (yearOf n) :=
  inSlot_slotOf (Nat.zero_le n) (lt_yearStart n)

/-- The month of the day `r` of year `y`, counted from 0. -/
def monthOf (y r : ℕ) : ℕ := slotOf (monthStart y) 11 r

theorem monthOf_lt (y r : ℕ) : monthOf y r < 12 := by
  have hle : slotOf (monthStart y) 11 r ≤ 11 := Nat.findGreatest_le 11
  exact Nat.lt_succ_of_le hle

theorem monthOf_inSlot {y r : ℕ} (h : r < yearDays y) :
    InSlot (monthStart y) r (monthOf y r) :=
  inSlot_slotOf (Nat.zero_le r) (by rwa [monthStart_twelve])

theorem yearRest_lt (n : ℕ) : n - yearStart (yearOf n) < yearDays (yearOf n) := by
  obtain ⟨h1, h2⟩ := yearOf_inSlot n
  rw [yearStart_succ] at h2
  omega

theorem monthRest_lt {y r : ℕ} (h : r < yearDays y) :
    r - monthStart y (monthOf y r) < monthDays y (monthOf y r) := by
  obtain ⟨h1, h2⟩ := monthOf_inSlot h
  rw [monthStart_succ] at h2
  omega

/-- The date with a given day number. -/
def Date.ofDayNumber (n : ℕ) : Date where
  year := yearOf n
  month := monthOf (yearOf n) (n - yearStart (yearOf n))
  day := n - yearStart (yearOf n) -
    monthStart (yearOf n) (monthOf (yearOf n) (n - yearStart (yearOf n))) + 1
  month_lt := monthOf_lt _ _
  day_pos := Nat.succ_pos _
  day_le := Nat.succ_le_of_lt (monthRest_lt (yearRest_lt n))

@[simp] theorem Date.dayNumber_ofDayNumber (n : ℕ) : (ofDayNumber n).dayNumber = n := by
  have hy := (yearOf_inSlot n).1
  have hm := (monthOf_inSlot (yearRest_lt n)).1
  simp only [dayNumber, dayCount, ofDayNumber]
  omega

theorem Date.yearStart_le_iff {d : Date} {y : ℕ} : yearStart y ≤ d.dayNumber ↔ y ≤ d.year := by
  constructor
  · intro h
    by_contra hlt
    have hy : yearStart (d.year + 1) ≤ yearStart y :=
      yearStart_mono (Nat.succ_le_of_lt (Nat.lt_of_not_le hlt))
    exact absurd (d.year_inSlot.2.trans_le (hy.trans h)) (lt_irrefl _)
  · intro h
    exact (yearStart_mono h).trans d.year_inSlot.1

/-- Year 0 begins on a Saturday; Sunday is weekday 0. -/
def weekday (dayNumber : ℕ) : ℕ := (dayNumber + 6) % 7

/-! ## Times of a day -/

/-- A second of a date. -/
@[ext]
structure DateTime where
  date : Date
  hour : ℕ
  minute : ℕ
  second : ℕ
  hour_lt : hour < 24
  minute_lt : minute < 60
  second_lt : second < 60

/-- The seconds of `days` days and a time of day. -/
def secondCount (days h m s : ℕ) : ℕ := ((days * 24 + h) * 60 + m) * 60 + s

/-- The seconds from the beginning of year 0. -/
def DateTime.seconds (t : DateTime) : ℕ := secondCount t.date.dayNumber t.hour t.minute t.second

theorem DateTime.seconds_injective : Function.Injective DateTime.seconds := by
  intro t u h
  have ht := t.hour_lt
  have ht' := t.minute_lt
  have ht'' := t.second_lt
  have hu := u.hour_lt
  have hu' := u.minute_lt
  have hu'' := u.second_lt
  unfold seconds secondCount at h
  have hd : t.date.dayNumber = u.date.dayNumber := by omega
  apply DateTime.ext
  · exact Date.dayNumber_injective hd
  · omega
  · omega
  · omega

/-- The second with a given number. -/
def DateTime.ofSeconds (n : ℕ) : DateTime where
  date := Date.ofDayNumber (n / 86400)
  hour := n % 86400 / 3600
  minute := n % 3600 / 60
  second := n % 60
  hour_lt := by omega
  minute_lt := by omega
  second_lt := by omega

@[simp] theorem DateTime.seconds_ofSeconds (n : ℕ) : (ofSeconds n).seconds = n := by
  simp only [seconds, secondCount, ofSeconds, Date.dayNumber_ofDayNumber]
  omega

end ExtDrv.Calendar
