import DeadDrop.Text

/-!
# The calendar

Dates of the proleptic Gregorian calendar and the count of days since 1970-01-01. Years are taken
to begin in March, so that a leap day is the last of its year and the months' lengths follow one
line: month `m` (from 0 for March) begins on day `(153 * m + 2) / 5`.
-/

namespace DeadDrop

/-- A date of the proleptic Gregorian calendar, with a year zero and negative years before it. -/
structure Date where
  year : Int
  month : Nat
  day : Nat
  deriving DecidableEq, Repr

namespace Date

/-- Whether a year has a leap day. -/
def isLeapYear (year : Int) : Bool :=
  decide (year % 4 = 0) && (!decide (year % 100 = 0) || decide (year % 400 = 0))

/-- The number of days in a month. -/
def daysInMonth (year : Int) (month : Nat) : Nat :=
  if month = 2 then (if isLeapYear year then 29 else 28)
  else if month = 4 ∨ month = 6 ∨ month = 9 ∨ month = 11 then 30
  else 31

/-- Whether the calendar has such a day. -/
def IsValid (date : Date) : Prop :=
  1 ≤ date.month ∧ date.month ≤ 12 ∧ 1 ≤ date.day ∧ date.day ≤ daysInMonth date.year date.month

instance (date : Date) : Decidable date.IsValid := by unfold IsValid; infer_instance

/-- The days from 0000-03-01 to 1970-01-01. -/
def epochDays : Int := 719468

/-- The days from 1970-01-01 to a date. -/
def toDays (date : Date) : Int :=
  let year := if date.month ≤ 2 then date.year - 1 else date.year
  let month := (date.month + 9) % 12
  let dayOfYear := (153 * month + 2) / 5 + date.day - 1
  let yearOfEra := (year % 400).toNat
  let dayOfEra := yearOfEra * 365 + yearOfEra / 4 - yearOfEra / 100 + dayOfYear
  year / 400 * 146097 + dayOfEra - epochDays

/-- The date that lies so many days after 1970-01-01. -/
def ofDays (days : Int) : Date :=
  let shifted := days + epochDays
  let dayOfEra := (shifted % 146097).toNat
  let century := min 3 (dayOfEra / 36524)
  let dayOfCentury := dayOfEra - century * 36524
  let leapCycle := dayOfCentury / 1461
  let dayOfCycle := dayOfCentury - leapCycle * 1461
  let yearOfCycle := min 3 (dayOfCycle / 365)
  let dayOfYear := dayOfCycle - yearOfCycle * 365
  let yearOfEra := century * 100 + leapCycle * 4 + yearOfCycle
  let month := (5 * dayOfYear + 2) / 153
  let year := shifted / 146097 * 400 + yearOfEra
  { year := if month < 10 then year else year + 1
    month := if month < 10 then month + 3 else month - 9
    day := dayOfYear - (153 * month + 2) / 5 + 1 }

end Date

end DeadDrop
