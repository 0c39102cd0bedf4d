import Mathlib.Order.Monotone.Basic
import Mathlib.Algebra.Order.SuccPred
import Mathlib.Data.Int.SuccPred
import FilterQuery.Proofs.Calendar.Dates

/-!
# Calendar periods

Days, weeks, months and years, each kind numbered in the order of time. A day lies in the period
with a number when it lies between the first day of this period and that of the next
(`Period.number_eq_iff`), so the periods of a kind follow one another without gaps. The windows of
the operators that name calendar periods are made of these first days
(`Window.calendar?_current`, `Window.calendar?_previous`).
-/

namespace FilterQuery

/-! ## The order of instants -/

namespace Instant

/-- Instants are ordered by their seconds, and within a second by the nanoseconds after it. -/
instance : LT Instant :=
  ⟨fun a b => a.seconds < b.seconds ∨ a.seconds = b.seconds ∧ a.nanos < b.nanos⟩

instance : LE Instant :=
  ⟨fun a b => a.seconds < b.seconds ∨ a.seconds = b.seconds ∧ a.nanos ≤ b.nanos⟩

variable {a b : Instant}

theorem lt_iff : a < b ↔ a.seconds < b.seconds ∨ a.seconds = b.seconds ∧ a.nanos < b.nanos :=
  Iff.rfl

theorem le_iff : a ≤ b ↔ a.seconds < b.seconds ∨ a.seconds = b.seconds ∧ a.nanos ≤ b.nanos :=
  Iff.rfl

instance : DecidableLT Instant :=
  fun _ _ => decidable_of_iff _ lt_iff.symm

instance : DecidableLE Instant :=
  fun _ _ => decidable_of_iff _ le_iff.symm

theorem not_lt : ¬a < b ↔ b ≤ a := by
  rw [lt_iff, le_iff]
  omega

/-- The instants from a midnight on are those of the day that it begins and of later ones. -/
theorem midnight_le_iff {n : Int} : midnight n ≤ a ↔ n ≤ a.dayNumber := by
  simp only [le_iff, midnight, dayNumber, secondsPerDay]
  omega

theorem lt_midnight_iff {n : Int} : a < midnight n ↔ a.dayNumber < n := by
  rw [← Int.not_le, ← midnight_le_iff, ← not_lt, Classical.not_not]

end Instant

/-! ## Periods -/

/-- A kind of calendar period. Weeks begin on Monday. -/
inductive Period where
  /-- Days. -/
  | day
  /-- Weeks. -/
  | week
  /-- Months. -/
  | month
  /-- Years. -/
  | year
deriving DecidableEq, Repr

namespace Period

/-- The number of the period in which a day lies. Days and weeks are counted from 1970-01-01 and its
week, months from January of the year zero. -/
def number : Period → Int → Int
  | .day, n => n
  | .week, n => (n + 3) / 7
  | .month, n => (Date.ofDayNumber n).year * 12 + (Date.ofDayNumber n).month - 1
  | .year, n => (Date.ofDayNumber n).year

/-- The first day of the period with a number. -/
def first : Period → Int → Int
  | .day, i => i
  | .week, i => 7 * i - 3
  | .month, i => (Date.firstOfMonth i).dayNumber
  | .year, i => (Date.firstOfMonth (12 * i)).dayNumber

/-- The operator that names the current period. -/
def current : Period → Operator
  | .day => .today
  | .week => .thisWeek
  | .month => .thisMonth
  | .year => .thisYear

/-- The operator that names the period before the current one. -/
def previous : Period → Operator
  | .day => .yesterday
  | .week => .lastWeek
  | .month => .lastMonth
  | .year => .lastYear

/-! ## The first days of periods -/

theorem first_year (year : Int) : Period.year.first year = (Date.mk year 1 1).dayNumber := by
  have hyear : 12 * year / 12 = year := by omega
  have hmonth : (12 * year % 12).toNat = 0 := by omega
  rw [first, Date.firstOfMonth, hyear, hmonth]

/-- No period is empty. -/
theorem first_lt_succ (p : Period) (i : Int) : p.first i < p.first (i + 1) := by
  cases p with
  | day =>
    simp only [first]
    omega
  | week =>
    simp only [first]
    omega
  | month =>
    have hlength : 1 ≤ Date.monthLength (i / 12) ((i % 12).toNat + 1) :=
      Date.one_le_monthLength (i / 12) (by omega) (by omega)
    rw [first, first, Date.dayNumber_nextMonth]
    omega
  | year =>
    have hlength : 0 < Date.yearLength i := by
      rw [Date.yearLength]
      split
      · decide
      · decide
    rw [first_year, first_year, Date.dayNumber_nextYear]
    omega

theorem first_lt_first_iff (p : Period) {i j : Int} : p.first i < p.first j ↔ i < j := by
  have hmono : StrictMono p.first := strictMono_of_lt_succ fun i _ => p.first_lt_succ i
  exact hmono.lt_iff_lt

/-- The month in which a day lies is found with its date. -/
theorem firstOfMonth_number (n : Int) :
    Date.firstOfMonth (Period.month.number n) =
      ⟨(Date.ofDayNumber n).year, (Date.ofDayNumber n).month, 1⟩ := by
  obtain ⟨hlow, hhigh, -, -⟩ := (Date.isValid_iff _).1 (Date.isValid_ofDayNumber n)
  rw [number, Date.firstOfMonth]
  congr 1
  · omega
  · omega

/-- Two days are of the same month when their dates have the same year and the same month in it. -/
theorem number_month_eq_iff {m n : Int} :
    Period.month.number m = Period.month.number n ↔
      (Date.ofDayNumber m).year = (Date.ofDayNumber n).year ∧
        (Date.ofDayNumber m).month = (Date.ofDayNumber n).month := by
  obtain ⟨hlow, hhigh, -, -⟩ := (Date.isValid_iff _).1 (Date.isValid_ofDayNumber m)
  obtain ⟨hlow', hhigh', -, -⟩ := (Date.isValid_iff _).1 (Date.isValid_ofDayNumber n)
  simp only [number]
  omega

/-- How many days of its month come before a day. -/
theorem first_month_number (n : Int) :
    Period.month.first (Period.month.number n) = n - ((Date.ofDayNumber n).day - 1) := by
  obtain ⟨-, -, hday, -⟩ := (Date.isValid_iff _).1 (Date.isValid_ofDayNumber n)
  have hn := Date.dayNumber_ofDayNumber n
  rw [first, firstOfMonth_number]
  simp only [Date.dayNumber, Date.dayOfYear] at *
  omega

/-- How many days of its year come before a day. -/
theorem first_year_number (n : Int) :
    Period.year.first (Period.year.number n) = n - (Date.ofDayNumber n).dayOfYear := by
  have hn := Date.dayNumber_ofDayNumber n
  have hjanuary : (Date.mk (Date.ofDayNumber n).year 1 1).dayOfYear = 0 := rfl
  rw [first_year, number]
  simp only [Date.dayNumber, hjanuary] at *
  omega

/-- A day lies in the period whose number it has. -/
theorem first_number (p : Period) (n : Int) :
    p.first (p.number n) ≤ n ∧ n < p.first (p.number n + 1) := by
  cases p with
  | day =>
    simp only [first, number]
    omega
  | week =>
    simp only [first, number]
    omega
  | month =>
    obtain ⟨-, -, hday, hday'⟩ := (Date.isValid_iff _).1 (Date.isValid_ofDayNumber n)
    have hfirst := first_month_number n
    have hnext := Date.dayNumber_nextMonth (Period.month.number n)
    have hyear : Period.month.number n / 12 = (Date.ofDayNumber n).year :=
      congrArg Date.year (firstOfMonth_number n)
    have hmonth : (Period.month.number n % 12).toNat + 1 = (Date.ofDayNumber n).month :=
      congrArg Date.month (firstOfMonth_number n)
    rw [hyear, hmonth] at hnext
    simp only [first] at *
    omega
  | year =>
    have hfirst := first_year_number n
    have hlast := Date.dayOfYear_lt (Date.isValid_ofDayNumber n)
    refine ⟨by omega, ?_⟩
    rw [first_year, Date.dayNumber_nextYear, ← first_year]
    rw [number] at *
    omega

/-- The days of a period are those from its first one on to the first one of the next. -/
theorem number_eq_iff (p : Period) {n i : Int} :
    p.number n = i ↔ p.first i ≤ n ∧ n < p.first (i + 1) := by
  obtain ⟨hstart, hend⟩ := p.first_number n
  constructor
  · rintro rfl
    exact ⟨hstart, hend⟩
  · rintro ⟨hstart', hend'⟩
    have hle := p.first_lt_first_iff.1 (Int.lt_of_le_of_lt hstart' hend)
    have hge := p.first_lt_first_iff.1 (Int.lt_of_le_of_lt hstart hend')
    omega

end Period

/-! ## Starts of periods -/

namespace Instant

theorem startOfWeek_eq (t : Instant) :
    t.startOfWeek = midnight (Period.week.first (Period.week.number t.dayNumber)) := by
  rw [startOfWeek, Date.daysFromMonday, Period.number, Period.first]
  congr 1
  omega

theorem startOfMonth_eq (t : Instant) :
    t.startOfMonth = midnight (Period.month.first (Period.month.number t.dayNumber)) := by
  rw [Period.first_month_number]
  rfl

theorem startOfYear_eq (t : Instant) :
    t.startOfYear = midnight (Period.year.first (Period.year.number t.dayNumber)) := by
  rw [Period.first_year_number]
  rfl

/-- A midnight moved by days is a midnight. -/
theorem addDays?_midnight {n days : Int} {t : Instant} (h : (midnight n).addDays? days = some t) :
    t = midnight (n + days) := by
  have hstay : (midnight n).leaveLeapSecond days = midnight n := rfl
  simp only [addDays?, hstay] at h
  split at h
  · cases h
    simp only [midnight, Int.add_mul]
  · cases h

/-- The first midnight of a month moved by months is the first of a month. -/
theorem addMonths?_midnight {i months : Int} {t : Instant}
    (h : (midnight (Period.month.first i)).addMonths? months = some t) :
    t = midnight (Period.month.first (i + months)) := by
  have hdate : (midnight (Period.month.first i)).date = Date.firstOfMonth i := by
    rw [date, dayNumber_midnight, Period.first,
      Date.ofDayNumber_dayNumber (Date.isValid_firstOfMonth i)]
  have htime : (midnight (Period.month.first i)).secondOfDay = 0 := by
    simp only [secondOfDay, midnight, secondsPerDay]
    omega
  simp only [addMonths?, hdate, htime, Date.addMonths_firstOfMonth] at h
  split at h
  · cases h
    simp only [ofDayTime, midnight, Period.first]
    rw [Int.natCast_zero, Int.add_zero]
  · cases h

theorem addDays?_week {i weeks : Int} {t : Instant}
    (h : (midnight (Period.week.first i)).addDays? (7 * weeks) = some t) :
    t = midnight (Period.week.first (i + weeks)) := by
  have hweek : Period.week.first i + 7 * weeks = Period.week.first (i + weeks) := by
    simp only [Period.first]
    omega
  rw [addDays?_midnight h, hweek]

theorem addMonths?_year {i years : Int} {t : Instant}
    (h : (midnight (Period.year.first i)).addMonths? (12 * years) = some t) :
    t = midnight (Period.year.first (i + years)) := by
  have hyear : Period.month.first (12 * i + 12 * years) = Period.year.first (i + years) := by
    rw [← Int.mul_add]
    rfl
  rw [addMonths?_midnight h, hyear]

end Instant

/-! ## The windows of operators -/

namespace Window

variable {now : Instant}

/-- The window of the current period begins with its first day and ends with that of the next. -/
theorem calendar?_current (h : now.Central) (p : Period) :
    calendar? p.current now =
      some (some (.midnight (p.first (p.number now.dayNumber))),
        some (.midnight (p.first (p.number now.dayNumber + 1)))) := by
  have hshape : p.current.shape = .nothing := by
    cases p <;> rfl
  obtain ⟨start, stop, hwindow⟩ := calendar?_central h hshape
  rw [hwindow]
  cases p with
  | day =>
    simp only [Period.current, calendar?, Option.some.injEq, Prod.mk.injEq] at hwindow
    obtain ⟨rfl, hstop⟩ := hwindow
    rw [Instant.addDays?_midnight hstop]
    rfl
  | week =>
    simp only [Period.current, calendar?, Option.some.injEq, Prod.mk.injEq] at hwindow
    obtain ⟨rfl, hstop⟩ := hwindow
    have hdays : (7 : Int) = 7 * 1 := rfl
    rw [Instant.startOfWeek_eq, hdays] at hstop
    rw [Instant.startOfWeek_eq, Instant.addDays?_week hstop]
  | month =>
    simp only [Period.current, calendar?, Option.some.injEq, Prod.mk.injEq] at hwindow
    obtain ⟨rfl, hstop⟩ := hwindow
    rw [Instant.startOfMonth_eq] at hstop ⊢
    rw [Instant.addMonths?_midnight hstop]
  | year =>
    simp only [Period.current, calendar?, Option.some.injEq, Prod.mk.injEq] at hwindow
    obtain ⟨rfl, hstop⟩ := hwindow
    have hmonths : (12 : Int) = 12 * 1 := rfl
    rw [Instant.startOfYear_eq, hmonths] at hstop
    rw [Instant.startOfYear_eq, Instant.addMonths?_year hstop]

/-- The window of the period before the current one ends where that of the current one begins. -/
theorem calendar?_previous (h : now.Central) (p : Period) :
    calendar? p.previous now =
      some (some (.midnight (p.first (p.number now.dayNumber - 1))),
        some (.midnight (p.first (p.number now.dayNumber)))) := by
  have hshape : p.previous.shape = .nothing := by
    cases p <;> rfl
  obtain ⟨start, stop, hwindow⟩ := calendar?_central h hshape
  rw [hwindow]
  cases p with
  | day =>
    simp only [Period.previous, calendar?, Option.some.injEq, Prod.mk.injEq] at hwindow
    obtain ⟨hstart, rfl⟩ := hwindow
    rw [Instant.addDays?_midnight hstart]
    rfl
  | week =>
    simp only [Period.previous, calendar?, Option.some.injEq, Prod.mk.injEq] at hwindow
    obtain ⟨hstart, rfl⟩ := hwindow
    have hdays : (-7 : Int) = 7 * -1 := rfl
    rw [Instant.startOfWeek_eq, Instant.subDays?, hdays] at hstart
    rw [Instant.startOfWeek_eq, Instant.addDays?_week hstart]
    rfl
  | month =>
    simp only [Period.previous, calendar?, Option.some.injEq, Prod.mk.injEq] at hwindow
    obtain ⟨hstart, rfl⟩ := hwindow
    rw [Instant.startOfMonth_eq] at hstart ⊢
    rw [Instant.addMonths?_midnight hstart]
    rfl
  | year =>
    simp only [Period.previous, calendar?, Option.some.injEq, Prod.mk.injEq] at hwindow
    obtain ⟨hstart, rfl⟩ := hwindow
    have hmonths : (-12 : Int) = 12 * -1 := rfl
    rw [Instant.startOfYear_eq, hmonths] at hstart
    rw [Instant.startOfYear_eq, Instant.addMonths?_year hstart]
    rfl

end Window

end FilterQuery
