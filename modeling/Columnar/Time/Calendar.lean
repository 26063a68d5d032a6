/-! The proleptic Gregorian calendar. A day is counted from the first of January 1970; a date is a
year, a month and a day of the month. -/
namespace Columnar

/-- A date of the Gregorian calendar; months and days count from one. -/
structure Date where
  year : Int
  month : Nat
  day : Nat
deriving DecidableEq, Repr

namespace Calendar

def isLeapYear (year : Int) : Bool :=
  year % 4 == 0 && (year % 100 != 0 || year % 400 == 0)

/-- The number of days from the first of January of year 0 to the first of January of a year. -/
def daysBeforeYear (year : Int) : Int :=
  365 * year + (year + 3) / 4 - (year + 99) / 100 + (year + 399) / 400

/-- The first of January 1970, counted from the first of January of year 0. -/
def epochDay : Int := daysBeforeYear 1970

def monthLengths (leap : Bool) : List Nat :=
  [31, if leap then 29 else 28, 31, 30, 31, 30, 31, 31, 30, 31, 30, 31]

def daysInMonth (year : Int) (month : Nat) : Nat :=
  (monthLengths (isLeapYear year)).getD (month - 1) 0

/-- The days of months together. -/
def totalDays : List Nat → Nat
  | [] => 0
  | length :: lengths => length + totalDays lengths

/-- The year of a day counted from year 0. The average length of a year gives an estimate that is
off by at most one. -/
def yearOfDay (day : Int) : Int :=
  let estimate := day * 400 / 146097
  if day < daysBeforeYear estimate then estimate - 1
  else if daysBeforeYear (estimate + 1) ≤ day then estimate + 1
  else estimate

/-- Month and day of the month of a day of the year, both counted from zero. -/
def monthOfDay : List Nat → Nat → Nat × Nat
  | [], day => (0, day)
  | length :: lengths, day =>
    if day < length then (0, day)
    else
      let (month, day) := monthOfDay lengths (day - length)
      (month + 1, day)

end Calendar

namespace Date

open Calendar

/-- The date of a day counted from the first of January 1970. -/
def ofDay (day : Int) : Date :=
  let day := day + epochDay
  let year := yearOfDay day
  let (month, dayOfMonth) :=
    monthOfDay (monthLengths (isLeapYear year)) (day - daysBeforeYear year).toNat
  ⟨year, month + 1, dayOfMonth + 1⟩

/-- The day of a date, counted from the first of January 1970. -/
def toDay (date : Date) : Int :=
  daysBeforeYear date.year - epochDay
    + totalDays ((monthLengths (isLeapYear date.year)).take (date.month - 1))
    + (date.day - 1 : Nat)

/-- Whether the calendar has such a date. -/
def isValid (date : Date) : Bool :=
  1 ≤ date.month && date.month ≤ 12 && 1 ≤ date.day && date.day ≤ daysInMonth date.year date.month

end Date

end Columnar
