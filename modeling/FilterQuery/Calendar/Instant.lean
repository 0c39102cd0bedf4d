import FilterQuery.Calendar.Date

/-!
# Instants

Points in time, in UTC. Days have 86400 seconds; a leap second is the last second of its minute
going on for a second more, so its nanoseconds run from `10 ^ 9` to below `2 · 10 ^ 9`.

The boundaries of the calendar periods that contain an instant are midnights: `startOfDay`,
`startOfWeek` (weeks begin on Monday), `startOfMonth` and `startOfYear`. Shifts by months or days
answer nothing when they leave the supported range of dates.
-/

namespace FilterQuery

/-- A point in time. -/
structure Instant where
  /-- Whole seconds from the start of 1970, leap seconds not counted. -/
  seconds : Int
  /-- Nanoseconds after that second; one billion or more within a leap second. -/
  nanos : Nat
deriving DecidableEq, Repr

namespace Instant

/-- The number of seconds of a day. -/
def secondsPerDay : Int := 86400

/-- The number of nanoseconds of a second. -/
def nanosPerSecond : Nat := 1000000000

/-! ## Date and time of day -/

/-- The day number of the date of an instant. -/
def dayNumber (t : Instant) : Int :=
  t.seconds / secondsPerDay

/-- The seconds since midnight; a leap second counts as the second before it. -/
def secondOfDay (t : Instant) : Nat :=
  (t.seconds % secondsPerDay).toNat

/-- The date of an instant. -/
def date (t : Instant) : Date :=
  Date.ofDayNumber t.dayNumber

/-- Whether an instant is inside a leap second. -/
def isLeapSecond (t : Instant) : Bool :=
  nanosPerSecond ≤ t.nanos

/-- Midnight of a day. -/
def midnight (dayNumber : Int) : Instant :=
  ⟨dayNumber * secondsPerDay, 0⟩

/-- The instant of a time of day, in seconds since midnight, on a day. -/
def ofDayTime (dayNumber : Int) (secondOfDay nanos : Nat) : Instant :=
  ⟨dayNumber * secondsPerDay + secondOfDay, nanos⟩

/-- Whether the date of an instant is supported. -/
def inRange (t : Instant) : Bool :=
  Date.inRange t.dayNumber

/-! ## Starts of periods -/

/-- Midnight of the day that contains an instant. -/
def startOfDay (t : Instant) : Instant :=
  midnight t.dayNumber

/-- Midnight of the Monday of the week that contains an instant. -/
def startOfWeek (t : Instant) : Instant :=
  midnight (t.dayNumber - Date.daysFromMonday t.dayNumber)

/-- Midnight of the first day of the month that contains an instant. -/
def startOfMonth (t : Instant) : Instant :=
  midnight (t.dayNumber - ((t.date.day : Int) - 1))

/-- Midnight of the first of January of the year that contains an instant. -/
def startOfYear (t : Instant) : Instant :=
  midnight (t.dayNumber - t.date.dayOfYear)

/-! ## Shifts -/

/-- An instant moved by whole months, its time of day kept. -/
def addMonths? (t : Instant) (months : Int) : Option Instant :=
  let d := t.date.addMonths months
  let moved := ofDayTime d.dayNumber t.secondOfDay t.nanos
  if moved.inRange then some moved else none

/-- An instant without its leap second, as a move of some days leaves it: a move forward ends in the
second before, a move backward in the second after. -/
def leaveLeapSecond (t : Instant) (days : Int) : Instant :=
  if !t.isLeapSecond || days = 0 then t
  else if 0 < days then ⟨t.seconds, t.nanos - nanosPerSecond⟩
  else ⟨t.seconds + 1, t.nanos - nanosPerSecond⟩

/-- An instant moved forward by days of 24 hours. -/
def addDays? (t : Instant) (days : Int) : Option Instant :=
  let start := t.leaveLeapSecond days
  let moved : Instant := ⟨start.seconds + days * secondsPerDay, start.nanos⟩
  if moved.inRange then some moved else none

/-- An instant moved back by days of 24 hours. -/
def subDays? (t : Instant) (days : Int) : Option Instant :=
  t.addDays? (-days)

end Instant

end FilterQuery
