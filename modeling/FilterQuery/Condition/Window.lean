import FilterQuery.Condition.Tree
import FilterQuery.Operator
import FilterQuery.FilterError

/-!
# Windows of time

The operators that depend on the clock become half-open windows: the start belongs to a window, its
end does not. The windows of days, weeks, months and years are whole calendar periods; a window of
a number of days ends now. A window whose end is outside the supported range of dates is an error.
-/

namespace FilterQuery

namespace Window

/-- The start and the end of the calendar period that an operator names, each missing when it lies
outside the supported range; nothing for an operator that names no calendar period. -/
def calendar? (op : Operator) (now : Instant) : Option (Option Instant × Option Instant) :=
  let day := now.startOfDay
  let week := now.startOfWeek
  let month := now.startOfMonth
  let year := now.startOfYear
  match op with
  | .today => some (some day, day.addDays? 1)
  | .yesterday => some (day.subDays? 1, some day)
  | .thisWeek => some (some week, week.addDays? 7)
  | .lastWeek => some (week.subDays? 7, some week)
  | .thisMonth => some (some month, month.addMonths? 1)
  | .lastMonth => some (month.addMonths? (-1), some month)
  | .thisYear => some (some year, year.addMonths? 12)
  | .lastYear => some (year.addMonths? (-12), some year)
  | _ => none

/-- The error of a window that leaves the supported range. -/
def outOfRange (op : Operator) : FilterError :=
  .unresolved (.windowOutOfRange op.name)

/-- The condition that a column lies in a window. -/
def condition (column : ColumnRef) (start stop : Instant) : Condition :=
  .all [.compare column .gte (.timestamp start), .compare column .lt (.timestamp stop)]

/-- The condition that a column lies in the calendar period that an operator names. -/
def ofOperator (op : Operator) (now : Instant) (column : ColumnRef) :
    Except FilterError Condition :=
  match calendar? op now with
  | some (some start, some stop) => .ok (condition column start stop)
  | some _ => .error (outOfRange op)
  | none => .error (.unresolved (.notRelative op.name))

/-- The condition that a column lies in the last days. -/
def lastDays (now : Instant) (days : Int) (column : ColumnRef) : Except FilterError Condition :=
  match now.subDays? days with
  | some start => .ok (condition column start now)
  | none => .error (outOfRange .lastNDays)

/-- The condition that a column lies before the last days. -/
def olderThan (now : Instant) (days : Int) (column : ColumnRef) : Except FilterError Condition :=
  match now.subDays? days with
  | some stop => .ok (.compare column .lt (.timestamp stop))
  | none => .error (outOfRange .olderThanDays)

end Window

end FilterQuery
