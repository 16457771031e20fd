/-
# Theory.Calendar -- the Gregorian calendar, and the order it keeps

Days are counted from 0000-01-01, in either direction.  A cycle of 400 years has 146097
days; within it an increasing sequence cuts the days into years, and another one cuts a
year into months (`Place`, `locate`).  `dateOf` reads a date off a day number and
`dayNumber` goes back (`dayNumber_dateOf`).

A place in an increasing sequence, with what is left, is ordered as the number it was
taken from (`Place.lt`), so dates are ordered as days (`dateOf_lt`).
-/
import Mathlib.Data.Nat.Find
import Mathlib.Algebra.BigOperators.Group.List.Basic
import Mathlib.Algebra.Order.BigOperators.Group.List
import Mathlib.Algebra.Order.Ring.Nat

namespace SentryGate.Theory.Calendar

set_option autoImplicit false

/-! ## Places in an increasing sequence -/

/-- `d` lies between the members `n` and `n + 1` of the sequence. -/
def Place (f : ℕ → ℕ) (d n : ℕ) : Prop := f n ≤ d ∧ d < f (n + 1)

/-- The place of `d` among the first members. -/
def locate (f : ℕ → ℕ) (bound d : ℕ) : ℕ := Nat.findGreatest (fun n => f n ≤ d) bound

theorem locate_place {f : ℕ → ℕ} {bound d : ℕ} (first : f 0 ≤ d) (last : d < f (bound + 1)) :
    Place f d (locate f bound d) := by
  refine ⟨Nat.findGreatest_spec (P := fun n => f n ≤ d) (Nat.zero_le bound) first, ?_⟩
  rcases (Nat.findGreatest_le (P := fun n => f n ≤ d) bound).lt_or_eq with inside | top
  · have beyond : ¬ f (locate f bound d + 1) ≤ d :=
      Nat.findGreatest_is_greatest (P := fun n => f n ≤ d) (Nat.lt_succ_self _) inside
    exact Nat.lt_of_not_le beyond
  · unfold locate
    rw [top]
    exact last

/-- **Places are ordered as the numbers are**, and within one place what is left is. -/
theorem Place.lt {f : ℕ → ℕ} (mono : Monotone f) {d d' n n' : ℕ} (here : Place f d n)
    (there : Place f d' n') (before : d < d') : n < n' ∨ n = n' ∧ d - f n < d' - f n' := by
  rcases Nat.lt_trichotomy n n' with less | same | more
  · exact Or.inl less
  · subst same
    have := here.1
    exact Or.inr ⟨rfl, by omega⟩
  · have := mono (Nat.succ_le_of_lt more)
    have := here.1
    have := there.2
    simp only [Nat.succ_eq_add_one] at *
    omega

/-! ## Years -/

/-- The leap years of a cycle. -/
def isLeap (y : ℕ) : Bool := y % 4 = 0 ∧ (y % 100 ≠ 0 ∨ y % 400 = 0)

/-- The days of a cycle before its year `y`. -/
def daysBeforeYear (y : ℕ) : ℕ := 365 * y + (y + 3) / 4 + (y + 399) / 400 - (y + 99) / 100

def cycleDays : ℕ := 146097

theorem daysBeforeYear_succ (y : ℕ) :
    daysBeforeYear (y + 1) = daysBeforeYear y + if isLeap y then 366 else 365 := by
  -- each quotient grows by one where its divisor divides the year
  have four : (y + 1 + 3) / 4 = (y + 3) / 4 + if y % 4 = 0 then 1 else 0 := by split <;> omega
  have hundred : (y + 1 + 99) / 100 = (y + 99) / 100 + if y % 100 = 0 then 1 else 0 := by
    split <;> omega
  have fourHundred : (y + 1 + 399) / 400 = (y + 399) / 400 + if y % 400 = 0 then 1 else 0 := by
    split <;> omega
  have coarse : y % 400 = 0 → y % 100 = 0 := by omega
  have fine : y % 100 = 0 → y % 4 = 0 := by omega
  have fewer : (y + 99) / 100 ≤ (y + 3) / 4 := by omega
  unfold daysBeforeYear isLeap
  rw [four, hundred, fourHundred]
  generalize (y + 3) / 4 = q at *
  generalize (y + 99) / 100 = r at *
  generalize (y + 399) / 400 = u at *
  by_cases by4 : y % 4 = 0 <;> by_cases by100 : y % 100 = 0 <;> by_cases by400 : y % 400 = 0 <;>
    simp only [by4, by100, by400, if_true, if_false, ne_eq, not_true, not_false_iff, or_true,
      or_false, and_true, and_false, decide_true, decide_false, Bool.false_eq_true] at coarse fine ⊢ <;>
    omega

theorem daysBeforeYear_mono : Monotone daysBeforeYear := by
  refine monotone_nat_of_le_succ fun y => ?_
  rw [daysBeforeYear_succ]
  omega

/-- The year of a day of a cycle. -/
def yearIn (d : ℕ) : ℕ := locate daysBeforeYear (d / 365) d

theorem yearIn_place (d : ℕ) : Place daysBeforeYear d (yearIn d) := by
  refine locate_place (Nat.zero_le d) ?_
  unfold daysBeforeYear
  omega

theorem yearIn_lt {d : ℕ} (inside : d < cycleDays) : yearIn d < 400 := by
  by_contra late
  have mono := daysBeforeYear_mono (Nat.le_of_not_lt late)
  have whole : daysBeforeYear 400 = 146097 := by decide
  have := (yearIn_place d).1
  unfold cycleDays at inside
  omega

/-! ## Months -/

def monthLengths (leap : Bool) : List ℕ :=
  [31, if leap then 29 else 28, 31, 30, 31, 30, 31, 31, 30, 31, 30, 31]

/-- The days of a year before its month `m`, counted from zero. -/
def daysBeforeMonth (leap : Bool) (m : ℕ) : ℕ := ((monthLengths leap).take m).sum

theorem daysBeforeMonth_mono (leap : Bool) : Monotone (daysBeforeMonth leap) :=
  List.monotone_sum_take _

/-- The month of a day of a year, counted from zero. -/
def monthIn (leap : Bool) (d : ℕ) : ℕ := locate (daysBeforeMonth leap) 11 d

theorem monthIn_place {leap : Bool} {d : ℕ} (inside : d < if leap then 366 else 365) :
    Place (daysBeforeMonth leap) d (monthIn leap d) := by
  refine locate_place (Nat.zero_le d) ?_
  cases leap <;> exact inside

theorem monthIn_le (leap : Bool) (d : ℕ) : monthIn leap d ≤ 11 := Nat.findGreatest_le _

theorem daysBeforeMonth_succ (leap : Bool) {m : ℕ} (inside : m ≤ 11) :
    daysBeforeMonth leap (m + 1) = daysBeforeMonth leap m + (monthLengths leap).getD m 0 := by
  revert m
  cases leap <;> decide

/-- No month is longer than 31 days. -/
theorem monthLengths_le (leap : Bool) {m : ℕ} (inside : m ≤ 11) :
    (monthLengths leap).getD m 0 ≤ 31 := by
  revert m
  cases leap <;> decide

/-! ## Dates -/

structure Date where
  year : ℤ
  /-- from 1 to 12 -/
  month : ℕ
  /-- from 1 to 31 -/
  day : ℕ
  deriving DecidableEq

/-- The day of the year, from zero. -/
def yearDay (d : ℕ) : ℕ := d - daysBeforeYear (yearIn d)

theorem yearDay_lt (d : ℕ) : yearDay d < if isLeap (yearIn d) then 366 else 365 := by
  obtain ⟨lower, upper⟩ := yearIn_place d
  rw [daysBeforeYear_succ] at upper
  unfold yearDay
  omega

/-- The day of the month, from zero. -/
def monthDay (d : ℕ) : ℕ :=
  yearDay d - daysBeforeMonth (isLeap (yearIn d)) (monthIn (isLeap (yearIn d)) (yearDay d))

theorem monthDay_lt (d : ℕ) : monthDay d <
    (monthLengths (isLeap (yearIn d))).getD (monthIn (isLeap (yearIn d)) (yearDay d)) 0 := by
  obtain ⟨lower, upper⟩ := monthIn_place (yearDay_lt d)
  have length := daysBeforeMonth_succ (isLeap (yearIn d)) (monthIn_le (isLeap (yearIn d)) (yearDay d))
  unfold monthDay
  omega

/-- The date of a day, counted from 0000-01-01. -/
def dateOf (d : ℤ) : Date :=
  let cycle := d / cycleDays
  let inside := (d % cycleDays).toNat
  { year := 400 * cycle + yearIn inside
    month := monthIn (isLeap (yearIn inside)) (yearDay inside) + 1
    day := monthDay inside + 1 }

/-- The day of a date. -/
def dayNumber (date : Date) : ℤ :=
  let y := (date.year % 400).toNat
  cycleDays * (date.year / 400) + daysBeforeYear y + daysBeforeMonth (isLeap y) (date.month - 1) +
    (date.day - 1)

/-- A day of a cycle, with the cycle it is in. -/
theorem cycle_inside (d : ℤ) : ∃ (cycle : ℤ) (inside : ℕ), inside < cycleDays ∧
    d = cycleDays * cycle + inside ∧ d / cycleDays = cycle ∧ (d % cycleDays).toNat = inside := by
  have positive : (0 : ℤ) < cycleDays := by decide
  have lower := Int.emod_nonneg d positive.ne'
  have upper := Int.emod_lt_of_pos d positive
  refine ⟨d / cycleDays, (d % cycleDays).toNat, by omega, ?_, rfl, rfl⟩
  have whole := Int.mul_ediv_add_emod d cycleDays
  omega

/-- The year of a date lies within its cycle. -/
theorem dateOf_year (d : ℤ) : 400 * (d / cycleDays) ≤ (dateOf d).year ∧
    (dateOf d).year < 400 * (d / cycleDays) + 400 := by
  obtain ⟨cycle, inside, within, whole, quotient, rest⟩ := cycle_inside d
  have short := yearIn_lt within
  unfold dateOf
  simp only [quotient, rest]
  omega

/-- A leap year is one by its place in the cycle. -/
theorem isLeap_mod (y : ℕ) : isLeap (y % 400) = isLeap y := by
  unfold isLeap
  rw [Nat.mod_mod_of_dvd y (by decide : 4 ∣ 400), Nat.mod_mod_of_dvd y (by decide : 100 ∣ 400),
    Nat.mod_mod]

/-- The month is one of the year, the day one of the month. -/
theorem dateOf_valid (d : ℤ) : 1 ≤ (dateOf d).month ∧ (dateOf d).month ≤ 12 ∧ 1 ≤ (dateOf d).day ∧
    (dateOf d).day ≤
      (monthLengths (isLeap ((dateOf d).year % 400).toNat)).getD ((dateOf d).month - 1) 0 := by
  obtain ⟨cycle, inside, within, whole, quotient, rest⟩ := cycle_inside d
  have short := yearIn_lt within
  have year : ((400 * cycle + yearIn inside) % 400).toNat = yearIn inside := by omega
  have months := monthIn_le (isLeap (yearIn inside)) (yearDay inside)
  have days := monthDay_lt inside
  unfold dateOf
  simp only [quotient, rest, year, Nat.add_sub_cancel]
  omega

/-- **A date gives back its day.** -/
theorem dayNumber_dateOf (d : ℤ) : dayNumber (dateOf d) = d := by
  obtain ⟨cycle, inside, within, whole, quotient, rest⟩ := cycle_inside d
  have short := yearIn_lt within
  have year : ((400 * cycle + yearIn inside) % 400).toNat = yearIn inside := by omega
  have cycles : (400 * cycle + yearIn inside) / 400 = cycle := by omega
  have lower := (yearIn_place inside).1
  have lower' := (monthIn_place (yearDay_lt inside)).1
  unfold dayNumber dateOf
  simp only [quotient, rest, year, cycles, Nat.add_sub_cancel]
  unfold monthDay
  unfold yearDay at *
  omega

/-- Before, by year, then by month, then by day. -/
def Date.Before (date date' : Date) : Prop :=
  date.year < date'.year ∨ date.year = date'.year ∧
    (date.month < date'.month ∨ date.month = date'.month ∧ date.day < date'.day)

/-- **Dates are ordered as their days are.** -/
theorem dateOf_lt {d d' : ℤ} (before : d < d') : (dateOf d).Before (dateOf d') := by
  obtain ⟨cycle, inside, within, whole, quotient, rest⟩ := cycle_inside d
  obtain ⟨cycle', inside', within', whole', quotient', rest'⟩ := cycle_inside d'
  have short := yearIn_lt within
  have short' := yearIn_lt within'
  unfold dateOf Date.Before
  simp only [quotient, rest, quotient', rest']
  unfold cycleDays at *
  rcases lt_trichotomy cycle cycle' with less | same | more
  · exact Or.inl (by omega)
  · subst same
    have later : inside < inside' := by omega
    rcases (yearIn_place inside).lt daysBeforeYear_mono (yearIn_place inside') later with
      years | ⟨year, days⟩
    · exact Or.inl (by omega)
    · refine Or.inr ⟨by omega, ?_⟩
      have place := monthIn_place (yearDay_lt inside)
      rw [year] at place
      have earlier : yearDay inside < yearDay inside' := days
      have months := place.lt (daysBeforeMonth_mono _) (monthIn_place (yearDay_lt inside')) earlier
      unfold monthDay
      rw [year]
      omega
  · omega

end SentryGate.Theory.Calendar
