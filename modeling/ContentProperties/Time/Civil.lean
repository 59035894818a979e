/-
The proleptic Gregorian calendar: days counted from the first of January
of year one, and the date a day falls on. Years before year one count on
through zero into the negatives. The year of a day is first estimated
from the mean length of a year, which is never off by more than one, and
then corrected.
-/

namespace ContentProperties.Time

-- ================================================= years

/-- Whether the year has a leap day. -/
def isLeap (year : Int) : Bool :=
  year % 4 == 0 && (year % 100 != 0 || year % 400 == 0)

/-- The days between the first of January of year one and that of the
given year, negative for earlier years. -/
def daysBeforeYear (year : Int) : Int :=
  let y := year - 1
  365 * y + y / 4 - y / 100 + y / 400

/-- The year that a day belongs to. Four hundred years have 146097
days. -/
def yearOfDay (day : Int) : Int :=
  let estimate := day * 400 / 146097 + 1
  if day < daysBeforeYear estimate then estimate - 1
  else if daysBeforeYear (estimate + 1) ≤ day then estimate + 1
  else estimate

-- ================================================= months

/-- The lengths of the months. -/
def monthLengths (leap : Bool) : List Nat :=
  [31, if leap then 29 else 28, 31, 30, 31, 30, 31, 31, 30, 31, 30, 31]

/-- The days of the first months, of months of the given lengths. -/
def daysOfMonths : Nat → List Nat → Nat
  | _, [] => 0
  | 0, _ => 0
  | months + 1, length :: rest => length + daysOfMonths months rest

/-- The month, counted on from `month`, and the day of that month, for a
day counted from zero over months of the given lengths. -/
def monthOfDay (month day : Nat) : List Nat → Nat × Nat
  | [] => (month, day + 1)
  | length :: rest =>
      if day < length then (month, day + 1)
      else monthOfDay (month + 1) (day - length) rest

-- ================================================= dates

/-- A date of the calendar. -/
structure CivilDate where
  year : Int
  /-- From 1 for January to 12. -/
  month : Nat
  /-- From 1. -/
  day : Nat
  deriving DecidableEq

namespace CivilDate

/-- The date a day falls on. -/
def ofDay (n : Int) : CivilDate :=
  let year := yearOfDay n
  let (month, day) :=
    monthOfDay 1 (n - daysBeforeYear year).toNat (monthLengths (isLeap year))
  ⟨year, month, day⟩

/-- Whether the month exists in every year and the day in that month. -/
def isValid (d : CivilDate) : Bool :=
  match (monthLengths (isLeap d.year))[d.month - 1]? with
  | some length => 1 ≤ d.month && 1 ≤ d.day && d.day ≤ length
  | none => false

/-- The day of a date. -/
def toDay (d : CivilDate) : Int :=
  daysBeforeYear d.year +
    (daysOfMonths (d.month - 1) (monthLengths (isLeap d.year)) +
      (d.day - 1) : Nat)

end CivilDate

end ContentProperties.Time
