import FilterQuery.Condition.Window

/-!
# Windows far from the ends of time

At an instant that is far enough from both ends of the supported range of dates (`Instant.Central`),
no window leaves this range: the windows of calendar periods exist (`Window.calendar?_central`), and
so do those of any allowed number of days (`Instant.subDays?_central`). The calendar is only
estimated: a date lies within a few years of its day, and shifts by months move it by few days.
-/

namespace FilterQuery

namespace Date

/-! ## Estimates -/

/-- A day lies near the beginning of the year that is found for it. -/
theorem yearOfDay_bounds (day : Int) :
    -400 ≤ day - daysBeforeYear (yearOfDay day) ∧ day - daysBeforeYear (yearOfDay day) ≤ 800 := by
  simp only [yearOfDay]
  split
  · simp only [daysBeforeYear] at *
    omega
  · split
    · simp only [daysBeforeYear] at *
      omega
    · simp only [daysBeforeYear] at *
      omega

theorem daysBeforeYear_bounds (year other : Int) (hlow : year - 1 ≤ other)
    (hhigh : other ≤ year + 2) :
    daysBeforeYear year - 400 ≤ daysBeforeYear other ∧
      daysBeforeYear other ≤ daysBeforeYear year + 800 := by
  simp only [daysBeforeYear]
  omega

theorem monthAndDay_bounds (month day : Nat) (lengths : List Nat) :
    month ≤ (monthAndDay month day lengths).1 ∧
      (monthAndDay month day lengths).1 ≤ month + lengths.length ∧
      1 ≤ (monthAndDay month day lengths).2 ∧ (monthAndDay month day lengths).2 ≤ day + 1 := by
  induction lengths generalizing month day with
  | nil => simp [monthAndDay]
  | cons length lengths ih =>
    rw [monthAndDay]
    split
    · simp
    · have h := ih (month + 1) (day - length)
      simp only [List.length_cons]
      omega

theorem ofDayNumber_bounds (n : Int) :
    1 ≤ (ofDayNumber n).month ∧ (ofDayNumber n).month ≤ 13 ∧ 1 ≤ (ofDayNumber n).day ∧
      (ofDayNumber n).day ≤ 801 := by
  have hyear := yearOfDay_bounds (n + epochOffset)
  have hmonth := monthAndDay_bounds 1
    (n + epochOffset - daysBeforeYear (yearOfDay (n + epochOffset))).toNat
    (monthLengths (isLeapYear (yearOfDay (n + epochOffset))))
  have hlength : (monthLengths (isLeapYear (yearOfDay (n + epochOffset)))).length = 12 := rfl
  simp only [ofDayNumber]
  omega

theorem foldr_take_le (n : Nat) (ds : List Nat) :
    (ds.take n).foldr (· + ·) 0 ≤ ds.foldr (· + ·) 0 := by
  induction ds generalizing n with
  | nil => simp
  | cons d ds ih =>
    cases n with
    | zero => simp
    | succ n =>
      rw [List.take_succ_cons, List.foldr_cons, List.foldr_cons]
      exact Nat.add_le_add_left (ih n) d

theorem daysBeforeMonth_le (year : Int) (month : Nat) : daysBeforeMonth year month ≤ 366 := by
  refine Nat.le_trans (foldr_take_le (month - 1) _) ?_
  cases isLeapYear year <;> decide

theorem dayOfYear_le (n : Int) : (ofDayNumber n).dayOfYear ≤ 1166 := by
  have hday := ofDayNumber_bounds n
  have hmonth := daysBeforeMonth_le (ofDayNumber n).year (ofDayNumber n).month
  rw [dayOfYear]
  omega

/-- A shift by at most a year moves a date by few days. -/
theorem dayNumber_addMonths_bounds (n months : Int) (hlow : -12 ≤ months) (hhigh : months ≤ 12) :
    n - 1500 ≤ ((ofDayNumber n).addMonths months).dayNumber ∧
      ((ofDayNumber n).addMonths months).dayNumber ≤ n + 3000 := by
  obtain ⟨hmonth, hmonth', hday, hday'⟩ := ofDayNumber_bounds n
  have hyear : (ofDayNumber n).year = yearOfDay (n + epochOffset) := rfl
  have hstart := yearOfDay_bounds (n + epochOffset)
  rw [← hyear] at hstart
  generalize ofDayNumber n = d at *
  have hshift := daysBeforeYear_bounds d.year (d.addMonths months).year
    (by simp only [addMonths]; omega) (by simp only [addMonths]; omega)
  have hbefore := daysBeforeMonth_le (d.addMonths months).year (d.addMonths months).month
  have hshifted : (d.addMonths months).day ≤ d.day := Nat.min_le_left _ _
  simp only [dayNumber, dayOfYear] at *
  omega

end Date

namespace Instant

/-! ## Central instants -/

/-- An instant that is at least 400000 days away from both ends of the supported range. -/
def Central (t : Instant) : Prop :=
  Date.earliest.dayNumber + 400000 ≤ t.dayNumber ∧ t.dayNumber + 400000 ≤ Date.latest.dayNumber

theorem central_epoch : Central ⟨0, 0⟩ := by
  constructor <;> decide

/-- A day that is near a central instant is supported. -/
theorem Central.inRange {t : Instant} (h : t.Central) {n : Int} (hlow : t.dayNumber - 400000 ≤ n)
    (hhigh : n ≤ t.dayNumber + 400000) : Date.inRange n = true := by
  obtain ⟨hearly, hlate⟩ := h
  rw [Date.inRange, Bool.and_eq_true, decide_eq_true_eq, decide_eq_true_eq]
  omega

@[simp] theorem dayNumber_midnight (n : Int) : (midnight n).dayNumber = n := by
  simp only [dayNumber, midnight, secondsPerDay]
  omega

theorem dayNumber_ofDayTime (t : Instant) (n : Int) (nanos : Nat) :
    (ofDayTime n t.secondOfDay nanos).dayNumber = n := by
  simp only [dayNumber, ofDayTime, secondOfDay, secondsPerDay]
  omega

/-- A number of days from zero to the greatest allowed can be taken from a central instant. -/
theorem subDays?_central {t : Instant} (h : t.Central) {days : Int} (hlow : 0 ≤ days)
    (hhigh : days ≤ 365000) : ∃ moved, t.subDays? days = some moved := by
  have hstart : t.seconds ≤ (t.leaveLeapSecond (-days)).seconds ∧
      (t.leaveLeapSecond (-days)).seconds ≤ t.seconds + 1 := by
    rw [leaveLeapSecond]
    split
    · omega
    · split
      · show t.seconds ≤ t.seconds ∧ t.seconds ≤ t.seconds + 1
        omega
      · show t.seconds ≤ t.seconds + 1 ∧ t.seconds + 1 ≤ t.seconds + 1
        omega
  simp only [subDays?, addDays?]
  refine ⟨_, if_pos (h.inRange ?_ ?_)⟩
  · simp only [dayNumber, secondsPerDay] at *
    omega
  · simp only [dayNumber, secondsPerDay] at *
    omega

/-- Outside leap seconds, a move by days is one by their seconds. -/
theorem subDays?_of_not_leap {t : Instant} (h : t.isLeapSecond = false) (days : Int) :
    t.subDays? days =
      if Date.inRange (t.dayNumber - days) then
        some ⟨t.seconds - days * secondsPerDay, t.nanos⟩ else none := by
  have hstay : t.leaveLeapSecond (-days) = t := by
    rw [leaveLeapSecond, h]
    rfl
  have hseconds : t.seconds + -days * secondsPerDay = t.seconds - days * secondsPerDay := by
    rw [Int.neg_mul, Int.sub_eq_add_neg]
  have hday : (Instant.mk (t.seconds - days * secondsPerDay) t.nanos).dayNumber =
      t.dayNumber - days := by
    simp only [dayNumber, secondsPerDay]
    omega
  simp only [subDays?, addDays?, hstay, hseconds, inRange, hday]

/-! ## Starts of periods -/

/-- A midnight of the years before an instant. -/
def StartBefore (now t : Instant) : Prop :=
  ∃ n, t = midnight n ∧ now.dayNumber - 3000 ≤ n ∧ n ≤ now.dayNumber

theorem startBefore_day (now : Instant) : now.StartBefore now.startOfDay :=
  ⟨_, rfl, by omega, by omega⟩

theorem startBefore_week (now : Instant) : now.StartBefore now.startOfWeek := by
  refine ⟨_, rfl, ?_, ?_⟩
  · rw [Date.daysFromMonday]
    omega
  · rw [Date.daysFromMonday]
    omega

theorem startBefore_month (now : Instant) : now.StartBefore now.startOfMonth := by
  obtain ⟨-, -, hlow, hhigh⟩ := Date.ofDayNumber_bounds now.dayNumber
  refine ⟨_, rfl, ?_, ?_⟩
  · rw [date]
    omega
  · rw [date]
    omega

theorem startBefore_year (now : Instant) : now.StartBefore now.startOfYear := by
  have hyear := Date.dayOfYear_le now.dayNumber
  refine ⟨_, rfl, ?_, by omega⟩
  rw [date]
  omega

variable {now t : Instant}

theorem StartBefore.addDays? (hstart : now.StartBefore t) (h : now.Central) (days : Int)
    (hlow : -7 ≤ days) (hhigh : days ≤ 7) : ∃ moved, t.addDays? days = some moved := by
  obtain ⟨n, rfl, hn, hn'⟩ := hstart
  have hleap : (midnight n).leaveLeapSecond days = midnight n := rfl
  simp only [Instant.addDays?, hleap]
  refine ⟨_, if_pos (h.inRange ?_ ?_)⟩
  · simp only [dayNumber, midnight, secondsPerDay] at *
    omega
  · simp only [dayNumber, midnight, secondsPerDay] at *
    omega

theorem StartBefore.subDays? (hstart : now.StartBefore t) (h : now.Central) (days : Int)
    (hlow : -7 ≤ days) (hhigh : days ≤ 7) : ∃ moved, t.subDays? days = some moved :=
  hstart.addDays? h (-days) (by omega) (by omega)

theorem StartBefore.addMonths? (hstart : now.StartBefore t) (h : now.Central) (months : Int)
    (hlow : -12 ≤ months) (hhigh : months ≤ 12) : ∃ moved, t.addMonths? months = some moved := by
  obtain ⟨n, rfl, hn, hn'⟩ := hstart
  have hshift := Date.dayNumber_addMonths_bounds n months hlow hhigh
  have hdate : (midnight n).date = Date.ofDayNumber n := by rw [date, dayNumber_midnight]
  simp only [Instant.addMonths?, hdate]
  refine ⟨_, if_pos ?_⟩
  rw [Instant.inRange, dayNumber_ofDayTime]
  exact h.inRange (by omega) (by omega)

end Instant

/-! ## Windows of calendar periods -/

/-- The operators without operands name windows, and these exist at a central instant. -/
theorem Window.calendar?_central {now : Instant} (h : now.Central) {op : Operator}
    (hop : op.shape = .nothing) :
    ∃ start stop, Window.calendar? op now = some (some start, some stop) := by
  cases op with
  | today =>
    obtain ⟨stop, hstop⟩ := now.startBefore_day.addDays? h 1 (by decide) (by decide)
    exact ⟨_, stop, by rw [calendar?, hstop]⟩
  | yesterday =>
    obtain ⟨start, hstart⟩ := now.startBefore_day.subDays? h 1 (by decide) (by decide)
    exact ⟨start, _, by rw [calendar?, hstart]⟩
  | thisWeek =>
    obtain ⟨stop, hstop⟩ := now.startBefore_week.addDays? h 7 (by decide) (by decide)
    exact ⟨_, stop, by rw [calendar?, hstop]⟩
  | lastWeek =>
    obtain ⟨start, hstart⟩ := now.startBefore_week.subDays? h 7 (by decide) (by decide)
    exact ⟨start, _, by rw [calendar?, hstart]⟩
  | thisMonth =>
    obtain ⟨stop, hstop⟩ := now.startBefore_month.addMonths? h 1 (by decide) (by decide)
    exact ⟨_, stop, by rw [calendar?, hstop]⟩
  | lastMonth =>
    obtain ⟨start, hstart⟩ :=
      now.startBefore_month.addMonths? h (-1) (by decide) (by decide)
    exact ⟨start, _, by rw [calendar?, hstart]⟩
  | thisYear =>
    obtain ⟨stop, hstop⟩ := now.startBefore_year.addMonths? h 12 (by decide) (by decide)
    exact ⟨_, stop, by rw [calendar?, hstop]⟩
  | lastYear =>
    obtain ⟨start, hstart⟩ :=
      now.startBefore_year.addMonths? h (-12) (by decide) (by decide)
    exact ⟨start, _, by rw [calendar?, hstart]⟩
  | eq | ne | gt | gte | lt | lte | before | after | between | like | ilike | notLike | contains
  | icontains | notContains | startsWith | endsWith | isIn | notIn | isNull | lastNDays
  | olderThanDays => cases hop

end FilterQuery
