/-!
# Dates

The proleptic Gregorian calendar: years of any sign with a year zero, months, days, and the
number that counts days from 1970-01-01. `Date.ofDayNumber` finds the year by an estimate that is
at most one year off, then the month by walking along the months of that year.
-/

namespace FilterQuery

/-- A calendar date. -/
structure Date where
  /-- The year; the year before year one is year zero. -/
  year : Int
  /-- The month, from one. -/
  month : Nat
  /-- The day of the month, from one. -/
  day : Nat
deriving DecidableEq, Repr

namespace Date

/-! ## Years and months -/

/-- Whether a year has a 29th of February. -/
def isLeapYear (year : Int) : Bool :=
  year % 4 == 0 && (year % 100 != 0 || year % 400 == 0)

/-- The lengths of the months of a year. -/
def monthLengths (leap : Bool) : List Nat :=
  [31, if leap then 29 else 28, 31, 30, 31, 30, 31, 31, 30, 31, 30, 31]

/-- The number of days of a month, counted from one; a month that does not exist has none. -/
def monthLength (year : Int) (month : Nat) : Nat :=
  match month with
  | 0 => 0
  | m + 1 => (monthLengths (isLeapYear year)).getD m 0

/-- Whether a date exists. -/
def isValid (d : Date) : Bool :=
  1 ≤ d.month && d.month ≤ 12 && 1 ≤ d.day && d.day ≤ monthLength d.year d.month

/-- The number of days between 0000-01-01 and the first day of a year. -/
def daysBeforeYear (year : Int) : Int :=
  365 * year + (year + 3) / 4 - (year + 99) / 100 + (year + 399) / 400

/-- The number of days of a year before the first day of a month. -/
def daysBeforeMonth (year : Int) (month : Nat) : Nat :=
  ((monthLengths (isLeapYear year)).take (month - 1)).foldr (· + ·) 0

/-! ## Day numbers -/

/-- The number of days between 0000-01-01 and 1970-01-01. -/
def epochOffset : Int := 719528

/-- How many days a date lies after its year's first day. -/
def dayOfYear (d : Date) : Nat :=
  daysBeforeMonth d.year d.month + d.day - 1

/-- The number of days from 1970-01-01 to a date. -/
def dayNumber (d : Date) : Int :=
  daysBeforeYear d.year + d.dayOfYear - epochOffset

/-- The year that contains a day, counted from 0000-01-01. The mean length of a year gives an
estimate that is off by at most one. -/
def yearOfDay (day : Int) : Int :=
  let estimate := 400 * day / 146097
  if day < daysBeforeYear estimate then estimate - 1
  else if daysBeforeYear (estimate + 1) ≤ day then estimate + 1
  else estimate

/-- Walks along month lengths: the month that contains a day counted from zero, and the day of that
month counted from one. -/
def monthAndDay (month day : Nat) : List Nat → Nat × Nat
  | [] => (month, day + 1)
  | length :: lengths =>
    if day < length then (month, day + 1) else monthAndDay (month + 1) (day - length) lengths

/-- The date of a day number. -/
def ofDayNumber (n : Int) : Date :=
  let day := n + epochOffset
  let year := yearOfDay day
  let (month, dayOfMonth) :=
    monthAndDay 1 (day - daysBeforeYear year).toNat (monthLengths (isLeapYear year))
  ⟨year, month, dayOfMonth⟩

/-! ## The supported range -/

/-- The first supported date. -/
def earliest : Date := ⟨-262143, 1, 1⟩

/-- The last supported date. -/
def latest : Date := ⟨262142, 12, 31⟩

/-- Whether a day number lies in the supported range. -/
def inRange (dayNumber : Int) : Bool :=
  earliest.dayNumber ≤ dayNumber && dayNumber ≤ latest.dayNumber

/-- The day number of a year, month and day that make a supported date. -/
def dayNumber? (year : Int) (month day : Nat) : Option Int :=
  let d : Date := ⟨year, month, day⟩
  if d.isValid && inRange d.dayNumber then some d.dayNumber else none

/-! ## Arithmetic -/

/-- Days since Monday, from zero to six; 1970-01-01 is a Thursday. -/
def daysFromMonday (dayNumber : Int) : Int :=
  (dayNumber + 3) % 7

/-- A date moved by whole months; a day that the new month does not have becomes its last day. -/
def addMonths (d : Date) (months : Int) : Date :=
  let total := d.year * 12 + (d.month : Int) - 1 + months
  let year := total / 12
  let month := (total % 12).toNat + 1
  ⟨year, month, min d.day (monthLength year month)⟩

end Date

end FilterQuery
