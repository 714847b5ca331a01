/-
Module: Waspp.Foundation.Calendar
Layer: Foundation
Purpose: The Gregorian calendar, extended over all years, as a count of days.  A date has a number, the days
  from the first of January 1970; `ofDayNumber` finds the date of a number, by way of its year.  Dates and
  numbers are the same thing: `ofDayNumber_dayNumber` and `dayNumber_ofDayNumber`.
Imports: Mathlib.Algebra.GroupWithZero.Nat, Mathlib.Tactic.Basic
Trusted boundary: none (fully proved)
Main exports: isLeap, Date, daysBeforeYear, dayNumber, ofDayNumber, ofDayNumber_dayNumber,
  dayNumber_ofDayNumber
Open obligations: none
-/
import Mathlib.Algebra.GroupWithZero.Nat
import Mathlib.Tactic.Basic

namespace Calendar

/-! ### Years -/

/-- A leap year. -/
def isLeap (year : Int) : Bool := year % 4 == 0 && (year % 100 != 0 || year % 400 == 0)

/-- The number of the first of January. -/
def daysBeforeYear (year : Int) : Int :=
  365 * (year - 1970) + (year - 1) / 4 - (year - 1) / 100 + (year - 1) / 400 - 477

/-- The days of a year. -/
def daysOfYear (leap : Bool) : Nat := if leap then 366 else 365

/-- A year begins as many days after the one before as that one has. -/
theorem daysBeforeYear_succ (year : Int) :
    daysBeforeYear (year + 1) = daysBeforeYear year + daysOfYear (isLeap year) := by
  have four : year / 4 = (year - 1) / 4 + if year % 4 = 0 then 1 else 0 := by split <;> omega
  have hundred : year / 100 = (year - 1) / 100 + if year % 100 = 0 then 1 else 0 := by split <;> omega
  have fourHundred : year / 400 = (year - 1) / 400 + if year % 400 = 0 then 1 else 0 := by split <;> omega
  have nested : (year % 400 = 0 → year % 100 = 0) ∧ (year % 100 = 0 → year % 4 = 0) := by omega
  simp only [daysBeforeYear, daysOfYear, isLeap, Int.add_sub_cancel, four, hundred, fourHundred,
    Bool.and_eq_true, Bool.or_eq_true, beq_iff_eq, bne_iff_ne]
  split <;> split <;> split <;> split <;> omega

/-- Years follow each other. -/
theorem daysBeforeYear_mono {year year' : Int} (before : year ≤ year') :
    daysBeforeYear year ≤ daysBeforeYear year' := by
  unfold daysBeforeYear
  omega

/-- The year in which a day lies: the mean length of a year gives it, up to one. -/
def yearOf (n : Int) : Int :=
  let guess := n * 400 / 146097 + 1970
  if daysBeforeYear (guess + 1) ≤ n then guess + 1
  else if daysBeforeYear guess ≤ n then guess
  else guess - 1

/-- A day lies between the first day of its year and that of the next. -/
theorem yearOf_spec (n : Int) : daysBeforeYear (yearOf n) ≤ n ∧ n < daysBeforeYear (yearOf n + 1) := by
  have low : daysBeforeYear (n * 400 / 146097 + 1970 - 1) ≤ n := by
    unfold daysBeforeYear
    omega
  have high : n < daysBeforeYear (n * 400 / 146097 + 1970 + 1 + 1) := by
    unfold daysBeforeYear
    omega
  unfold yearOf
  dsimp only
  split
  · exact ⟨‹_›, high⟩
  · split
    · exact ⟨‹_›, by omega⟩
    · refine ⟨low, ?_⟩
      rw [Int.sub_add_cancel]
      omega

/-- A day lies in one year. -/
theorem yearOf_unique {n year : Int} (after : daysBeforeYear year ≤ n)
    (before : n < daysBeforeYear (year + 1)) :
    yearOf n = year := by
  obtain ⟨after', before'⟩ := yearOf_spec n
  have upper : ¬ yearOf n < year := by
    intro less
    have := daysBeforeYear_mono (show yearOf n + 1 ≤ year by omega)
    omega
  have lower : ¬ year < yearOf n := by
    intro less
    have := daysBeforeYear_mono (show year + 1 ≤ yearOf n by omega)
    omega
  omega

/-! ### Months -/

/-- The days of a month, from 1 on. -/
def daysOfMonth (leap : Bool) : Nat → Nat
  | 2 => if leap then 29 else 28
  | 4 | 6 | 9 | 11 => 30
  | _ => 31

theorem daysOfMonth_le (leap : Bool) (month : Nat) : daysOfMonth leap month ≤ 31 := by
  unfold daysOfMonth
  repeat' split
  all_goals omega

/-- The days of a year in front of a month. -/
def daysBeforeMonth (leap : Bool) (month : Nat) : Nat :=
  ((List.range (month - 1)).map fun k => daysOfMonth leap (k + 1)).sum

/-- The month and the day of the day that has this many days of its year in front of it. -/
def monthDay (leap : Bool) (days : Nat) : Nat × Nat :=
  let month := ((List.range 12).filter fun k => daysBeforeMonth leap (k + 1) ≤ days).length
  (month, days - daysBeforeMonth leap month + 1)

/-- A month and a day that a year has. -/
structure InYear (leap : Bool) (month day : Nat) : Prop where
  monthRange : 1 ≤ month ∧ month ≤ 12
  dayRange : 1 ≤ day ∧ day ≤ daysOfMonth leap month

instance (leap : Bool) (month day : Nat) : Decidable (InYear leap month day) :=
  decidable_of_iff ((1 ≤ month ∧ month ≤ 12) ∧ 1 ≤ day ∧ day ≤ daysOfMonth leap month)
    ⟨fun both => ⟨both.1, both.2⟩, fun inYear => ⟨inYear.monthRange, inYear.dayRange⟩⟩

/-- The month and the day of a number of days into the year are a date of it, and lead back to the number. -/
theorem monthDay_spec {leap : Bool} {days : Nat} (inside : days < daysOfYear leap) :
    InYear leap (monthDay leap days).1 (monthDay leap days).2 ∧
      daysBeforeMonth leap (monthDay leap days).1 + ((monthDay leap days).2 - 1) = days := by
  have all : ∀ leap : Bool, ∀ days < 366, days < daysOfYear leap →
      InYear leap (monthDay leap days).1 (monthDay leap days).2 ∧
        daysBeforeMonth leap (monthDay leap days).1 + ((monthDay leap days).2 - 1) = days := by
    decide +kernel
  have bound : days < 366 := by
    unfold daysOfYear at inside
    split at inside <;> omega
  exact all leap days bound inside

/-- The days before a date of the year are counted back to the date. -/
theorem monthDay_of_inYear {leap : Bool} {month day : Nat} (inYear : InYear leap month day) :
    daysBeforeMonth leap month + (day - 1) < daysOfYear leap ∧
      monthDay leap (daysBeforeMonth leap month + (day - 1)) = (month, day) := by
  have all : ∀ leap : Bool, ∀ month < 13, ∀ day < 32, InYear leap month day →
      daysBeforeMonth leap month + (day - 1) < daysOfYear leap ∧
        monthDay leap (daysBeforeMonth leap month + (day - 1)) = (month, day) := by
    decide +kernel
  have short := daysOfMonth_le leap month
  have month := inYear.monthRange
  have day := inYear.dayRange
  exact all leap _ (by omega) _ (by omega) inYear

/-! ### Dates -/

/-- A date that the calendar has. -/
structure Date where
  year : Int
  month : Nat
  day : Nat
  inYear : InYear (isLeap year) month day

theorem Date.ext {date date' : Date} (year : date.year = date'.year) (month : date.month = date'.month)
    (day : date.day = date'.day) : date = date' := by
  cases date
  cases date'
  simp_all

/-- The days from the first of January 1970 to a date. -/
def dayNumber (date : Date) : Int :=
  daysBeforeYear date.year + (daysBeforeMonth (isLeap date.year) date.month + (date.day - 1) : Nat)

/-- The day of the year is one of the year's days. -/
theorem days_inside (n : Int) : (n - daysBeforeYear (yearOf n)).toNat < daysOfYear (isLeap (yearOf n)) := by
  obtain ⟨after, before⟩ := yearOf_spec n
  rw [daysBeforeYear_succ] at before
  omega

/-- The date of a day. -/
def ofDayNumber (n : Int) : Date where
  year := yearOf n
  month := (monthDay (isLeap (yearOf n)) (n - daysBeforeYear (yearOf n)).toNat).1
  day := (monthDay (isLeap (yearOf n)) (n - daysBeforeYear (yearOf n)).toNat).2
  inYear := (monthDay_spec (days_inside n)).1

/-- The date of a day has the day's number. -/
theorem dayNumber_ofDayNumber (n : Int) : dayNumber (ofDayNumber n) = n := by
  have sum := (monthDay_spec (days_inside n)).2
  have after := (yearOf_spec n).1
  simp only [dayNumber, ofDayNumber, sum]
  omega

/-- The year of a date's number is the date's. -/
theorem yearOf_dayNumber (date : Date) : yearOf (dayNumber date) = date.year := by
  have inside := (monthDay_of_inYear date.inYear).1
  apply yearOf_unique
  · unfold dayNumber
    omega
  · rw [daysBeforeYear_succ, dayNumber]
    omega

/-- The number of a date leads back to the date. -/
theorem ofDayNumber_dayNumber (date : Date) : ofDayNumber (dayNumber date) = date := by
  have days : (dayNumber date - daysBeforeYear date.year).toNat =
      daysBeforeMonth (isLeap date.year) date.month + (date.day - 1) := by
    unfold dayNumber
    omega
  have split := (monthDay_of_inYear date.inYear).2
  apply Date.ext
  · exact yearOf_dayNumber date
  · simp only [ofDayNumber, yearOf_dayNumber, days, split]
  · simp only [ofDayNumber, yearOf_dayNumber, days, split]

/-- Different dates have different numbers. -/
theorem dayNumber_inj {date date' : Date} : dayNumber date = dayNumber date' ↔ date = date' := by
  constructor
  · intro same
    rw [← ofDayNumber_dayNumber date, same, ofDayNumber_dayNumber]
  · exact congrArg dayNumber

end Calendar
