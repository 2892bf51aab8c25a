import DeadDrop.Time.Calendar
import Mathlib.Tactic.IntervalCases

/-!
# Days and dates

Every day has a date, and the date leads back to the day (`isValid_ofDays`, `toDays_ofDays`). The way
from one to the other goes over years that begin in March: a day is the so-and-so-many-th of such a year
(`ofYearDay`), and then only two things are left to be seen. A year begins where its number says, which
is a matter of centuries, leap cycles and single years in an era (`Cycles`), of each of which only the last
one has an odd length. And the months begin on one line, so the month and the day in it can be told from
the day of the year. The last day of a year is its leap day, and it is there exactly in the years that
have one.
-/

namespace DeadDrop.Date

/-! ### Months, counted from March -/

/-- The day of the year on which a month begins. -/
def monthStart (month : Nat) : Nat := (153 * month + 2) / 5

def monthOf (dayOfYear : Nat) : Nat := (5 * dayOfYear + 2) / 153

/-- The number that a month has in the calendar, where January is the first one. -/
def calendarMonth (month : Nat) : Nat := if month < 10 then month + 3 else month - 9

/-- The date of a day in the year that begins in March of a year. -/
def ofYearDay (year : Int) (dayOfYear : Nat) : Date :=
  { year := if monthOf dayOfYear < 10 then year else year + 1
    month := calendarMonth (monthOf dayOfYear)
    day := dayOfYear - monthStart (monthOf dayOfYear) + 1 }

theorem monthOf_lt {dayOfYear : Nat} (h : dayOfYear ≤ 365) : monthOf dayOfYear < 12 := by
  unfold monthOf
  omega

theorem monthStart_monthOf_le (dayOfYear : Nat) : monthStart (monthOf dayOfYear) ≤ dayOfYear := by
  unfold monthStart monthOf
  omega

theorem lt_monthStart_monthOf (dayOfYear : Nat) :
    dayOfYear < monthStart (monthOf dayOfYear + 1) := by
  unfold monthStart monthOf
  omega

theorem calendarMonth_cases {month : Nat} (h : month < 12) :
    (month < 10 ∧ calendarMonth month = month + 3) ∨
      (10 ≤ month ∧ calendarMonth month = month - 9) := by
  unfold calendarMonth
  split <;> omega

/-- All months but February end where the next one begins. -/
theorem daysInMonth_calendarMonth {month : Nat} (h : month < 11) (year : Int) :
    daysInMonth year (calendarMonth month) = monthStart (month + 1) - monthStart month := by
  interval_cases month <;> rfl

/-! ### Years that begin in March -/

/-- The first day of March of a year. -/
def yearStart (year : Int) : Int :=
  year / 400 * 146097 + (year % 400 * 365 + year % 400 / 4 - year % 400 / 100) - epochDays

theorem yearStart_add_le {year year' : Int} (h : year < year') :
    yearStart year + 365 ≤ yearStart year' := by
  unfold yearStart
  omega

theorem toDays_newYear (year : Int) : toDays ⟨year, 1, 1⟩ = yearStart (year - 1) + 306 := by
  simp only [toDays, yearStart, Nat.reduceLeDiff, if_true]
  omega

theorem toDays_ofYearDay (year : Int) {dayOfYear : Nat} (h : dayOfYear ≤ 365) :
    (ofYearDay year dayOfYear).toDays = yearStart year + dayOfYear := by
  have hbegun := monthStart_monthOf_le dayOfYear
  unfold ofYearDay toDays yearStart
  rcases calendarMonth_cases (monthOf_lt h) with ⟨hmonth, hcalendar⟩ | ⟨hmonth, hcalendar⟩
  · have hback : (monthOf dayOfYear + 3 + 9) % 12 = monthOf dayOfYear := by omega
    have hspring : ¬ monthOf dayOfYear + 3 ≤ 2 := by omega
    simp only [hcalendar, if_pos hmonth, if_neg hspring, hback]
    unfold monthStart at *
    omega
  · have hmonths := monthOf_lt h
    have hback : (monthOf dayOfYear - 9 + 9) % 12 = monthOf dayOfYear := by omega
    have hwinter : monthOf dayOfYear - 9 ≤ 2 := by omega
    simp only [hcalendar, if_neg (Nat.not_lt.2 hmonth), if_pos hwinter, hback]
    unfold monthStart at *
    omega

theorem isValid_ofYearDay {year : Int} {dayOfYear : Nat} (h : dayOfYear ≤ 365)
    (hleap : dayOfYear = 365 → isLeapYear (year + 1) = true) :
    (ofYearDay year dayOfYear).IsValid := by
  have hmonth := monthOf_lt h
  have hcalendar : 1 ≤ calendarMonth (monthOf dayOfYear) ∧
      calendarMonth (monthOf dayOfYear) ≤ 12 := by
    rcases calendarMonth_cases hmonth with hcalendar | hcalendar <;> omega
  refine ⟨hcalendar.1, hcalendar.2, Nat.le_add_left 1 _, ?_⟩
  change dayOfYear - monthStart (monthOf dayOfYear) + 1 ≤
    daysInMonth _ (calendarMonth (monthOf dayOfYear))
  by_cases hlast : monthOf dayOfYear < 11
  · have hbegun := monthStart_monthOf_le dayOfYear
    have hends := lt_monthStart_monthOf dayOfYear
    rw [daysInMonth_calendarMonth hlast]
    omega
  · -- February comes last, and on the leap day it is longer
    have hfebruary : monthOf dayOfYear = 11 := by omega
    unfold ofYearDay
    rw [hfebruary]
    change dayOfYear - 337 + 1 ≤ if isLeapYear (year + 1) = true then 29 else 28
    by_cases hday : dayOfYear = 365
    · rw [if_pos (hleap hday), hday]
    · split <;> omega

theorem year_ofYearDay (year : Int) (dayOfYear : Nat) :
    (ofYearDay year dayOfYear).year = if dayOfYear < 306 then year else year + 1 := by
  have hmonth : monthOf dayOfYear < 10 ↔ dayOfYear < 306 := by
    unfold monthOf
    omega
  exact if_congr hmonth rfl rfl

/-! ### The cycles of an era -/

/-- How the days of an era fall into centuries, leap cycles and years. Of each only the last one can
be a day longer or shorter than the others. -/
structure Cycles (dayOfEra century leapCycle yearOfCycle dayOfYear : Nat) : Prop where
  dayOfEra_eq : dayOfEra = century * 36524 + leapCycle * 1461 + yearOfCycle * 365 + dayOfYear
  century_le : century ≤ 3
  leapCycle_le : leapCycle ≤ 24
  yearOfCycle_le : yearOfCycle ≤ 3
  dayOfYear_le : dayOfYear ≤ 365
  leapDay : dayOfYear = 365 → yearOfCycle = 3 ∧ (leapCycle = 24 → century = 3)

theorem cycles {dayOfEra : Nat} (h : dayOfEra < 146097) :
    let century := min 3 (dayOfEra / 36524)
    let dayOfCentury := dayOfEra - century * 36524
    let leapCycle := dayOfCentury / 1461
    let dayOfCycle := dayOfCentury - leapCycle * 1461
    let yearOfCycle := min 3 (dayOfCycle / 365)
    let dayOfYear := dayOfCycle - yearOfCycle * 365
    Cycles dayOfEra century leapCycle yearOfCycle dayOfYear := by
  intro century dayOfCentury leapCycle dayOfCycle yearOfCycle dayOfYear
  have hcentury : century ≤ 3 ∧ century * 36524 ≤ dayOfEra ∧
      (dayOfEra < century * 36524 + 36524 ∨ century = 3) := by omega
  have hcycle : leapCycle * 1461 ≤ dayOfCentury ∧ dayOfCentury < leapCycle * 1461 + 1461 := by
    omega
  have hyear : yearOfCycle ≤ 3 ∧ yearOfCycle * 365 ≤ dayOfCycle ∧
      (dayOfCycle < yearOfCycle * 365 + 365 ∨ yearOfCycle = 3) := by omega
  constructor <;> omega

section Cycles

variable {dayOfEra century leapCycle yearOfCycle dayOfYear : Nat}

theorem Cycles.isLeapYear_of_leapDay
    (h : Cycles dayOfEra century leapCycle yearOfCycle dayOfYear) (hday : dayOfYear = 365)
    (era : Int) :
    isLeapYear (era * 400 + (century * 100 + leapCycle * 4 + yearOfCycle : Nat) + 1) = true := by
  have hcentury := h.century_le
  have hcycle := h.leapCycle_le
  obtain ⟨hyear, hlast⟩ := h.leapDay hday
  simp only [isLeapYear, Bool.and_eq_true, Bool.or_eq_true, Bool.not_eq_true', decide_eq_true_eq,
    decide_eq_false_iff_not]
  omega

theorem Cycles.yearStart_add (h : Cycles dayOfEra century leapCycle yearOfCycle dayOfYear)
    (era : Int) :
    yearStart (era * 400 + (century * 100 + leapCycle * 4 + yearOfCycle : Nat)) + dayOfYear =
      era * 146097 + dayOfEra - epochDays := by
  obtain ⟨hday, hcentury, hcycle, hyear, -, -⟩ := h
  unfold yearStart
  omega

end Cycles

/-! ### Dates -/

theorem exists_ofYearDay (days : Int) :
    ∃ (year : Int) (dayOfYear : Nat), ofDays days = ofYearDay year dayOfYear ∧
      dayOfYear ≤ 365 ∧ (dayOfYear = 365 → isLeapYear (year + 1) = true) ∧
      yearStart year + dayOfYear = days := by
  have hera : ((days + epochDays) % 146097).toNat < 146097 := by omega
  have hcycles := cycles hera
  refine ⟨_, _, rfl, hcycles.dayOfYear_le, fun hday => hcycles.isLeapYear_of_leapDay hday _, ?_⟩
  rw [hcycles.yearStart_add]
  omega

theorem toDays_ofDays (days : Int) : (ofDays days).toDays = days := by
  obtain ⟨year, dayOfYear, hdate, hday, -, hdays⟩ := exists_ofYearDay days
  rw [hdate, toDays_ofYearDay year hday, hdays]

theorem isValid_ofDays (days : Int) : (ofDays days).IsValid := by
  obtain ⟨year, dayOfYear, hdate, hday, hleap, -⟩ := exists_ofYearDay days
  rw [hdate]
  exact isValid_ofYearDay hday hleap

/-- The first of January is where a year begins. -/
theorem le_year_ofDays_iff (year days : Int) :
    year ≤ (ofDays days).year ↔ toDays ⟨year, 1, 1⟩ ≤ days := by
  obtain ⟨march, dayOfYear, hdate, hday, -, rfl⟩ := exists_ofYearDay days
  rw [hdate, year_ofYearDay, toDays_newYear]
  rcases Int.lt_trichotomy (year - 1) march with hlater | rfl | hearlier
  · have hstart := yearStart_add_le hlater
    split <;> omega
  · split <;> omega
  · have hstart := yearStart_add_le hearlier
    split <;> omega

end DeadDrop.Date
