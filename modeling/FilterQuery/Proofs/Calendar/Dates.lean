import FilterQuery.Proofs.Calendar.Windows

/-!
# Dates and day numbers

The date of a day number exists and has this day number (`Date.isValid_ofDayNumber`,
`Date.dayNumber_ofDayNumber`), and it is the only one (`Date.ofDayNumber_dayNumber`): the estimate
of the year is put right in every case, and walking along the months of a year finds the month. So
the first days of two months that follow one another are as far apart as the first month is long,
and those of two years as the days of the year (`Date.dayNumber_nextMonth`,
`Date.dayNumber_nextYear`).
-/

namespace FilterQuery

namespace Date

/-! ## Years -/

/-- The number of days of a year. -/
def yearLength (year : Int) : Nat :=
  if isLeapYear year then 366 else 365

theorem isLeapYear_iff (year : Int) :
    isLeapYear year = true ↔ year % 4 = 0 ∧ (year % 100 ≠ 0 ∨ year % 400 = 0) := by
  simp [isLeapYear]

/-- Every fourth year has a day more, but of the full centuries only every fourth. -/
theorem daysBeforeYear_succ (year : Int) :
    daysBeforeYear (year + 1) = daysBeforeYear year + yearLength year := by
  by_cases hleap : isLeapYear year = true
  · rw [yearLength, if_pos hleap]
    rw [isLeapYear_iff] at hleap
    simp only [daysBeforeYear]
    omega
  · rw [yearLength, if_neg hleap]
    rw [isLeapYear_iff] at hleap
    simp only [daysBeforeYear]
    omega

theorem daysBeforeYear_lt {year other : Int} (h : year < other) :
    daysBeforeYear year < daysBeforeYear other := by
  simp only [daysBeforeYear]
  omega

/-- The estimate is put right: a day lies in the year that is found for it. -/
theorem yearOfDay_spec (day : Int) :
    daysBeforeYear (yearOfDay day) ≤ day ∧ day < daysBeforeYear (yearOfDay day + 1) := by
  rw [yearOfDay]
  split
  · rename_i hearly
    refine ⟨?_, by rwa [Int.sub_add_cancel]⟩
    simp only [daysBeforeYear] at *
    omega
  · rename_i hstart
    split
    · rename_i hlate
      refine ⟨hlate, ?_⟩
      simp only [daysBeforeYear] at *
      omega
    · rename_i hend
      exact ⟨by omega, by omega⟩

/-- A day lies in one year only. -/
theorem yearOfDay_eq {year day : Int} (hstart : daysBeforeYear year ≤ day)
    (hend : day < daysBeforeYear (year + 1)) : yearOfDay day = year := by
  obtain ⟨hstart', hend'⟩ := yearOfDay_spec day
  rcases Int.lt_trichotomy (yearOfDay day) year with hlt | heq | hgt
  · have hle : yearOfDay day + 1 = year ∨ yearOfDay day + 1 < year := by omega
    rcases hle with hle | hle
    · rw [hle] at hend'
      omega
    · have := daysBeforeYear_lt hle
      omega
  · exact heq
  · have hle : year + 1 = yearOfDay day ∨ year + 1 < yearOfDay day := by omega
    rcases hle with hle | hle
    · rw [hle] at hend
      omega
    · have := daysBeforeYear_lt hle
      omega

/-! ## Months -/

/-- The number of days in several months. -/
def total (lengths : List Nat) : Nat :=
  lengths.foldr (· + ·) 0

@[simp] theorem total_nil : total [] = 0 := rfl

@[simp] theorem total_cons (length : Nat) (lengths : List Nat) :
    total (length :: lengths) = length + total lengths := rfl

theorem total_monthLengths (year : Int) :
    total (monthLengths (isLeapYear year)) = yearLength year := by
  rw [yearLength]
  cases isLeapYear year <;> rfl

theorem total_take_succ (lengths : List Nat) (k : Nat) :
    total (lengths.take (k + 1)) = total (lengths.take k) + lengths.getD k 0 := by
  induction lengths generalizing k with
  | nil => simp
  | cons length lengths ih =>
    cases k with
    | zero => simp
    | succ k =>
      rw [List.take_succ_cons, total_cons, ih, List.take_succ_cons, total_cons, List.getD_cons_succ,
        Nat.add_assoc]

/-- A day of a month is found in it. -/
theorem monthAndDay_eq {lengths : List Nat} (month : Nat) {k day : Nat} (hday : 1 ≤ day)
    (hday' : day ≤ lengths.getD k 0) :
    monthAndDay month (total (lengths.take k) + day - 1) lengths = (month + k, day) := by
  induction lengths generalizing month k with
  | nil =>
    rw [List.getD_nil] at hday'
    omega
  | cons length lengths ih =>
    cases k with
    | zero =>
      rw [List.getD_cons_zero] at hday'
      rw [List.take_zero, total_nil, monthAndDay, if_pos (by omega)]
      refine Prod.ext (by simp) ?_
      show 0 + day - 1 + 1 = day
      omega
    | succ k =>
      rw [List.getD_cons_succ] at hday'
      have hpast : length + total (lengths.take k) + day - 1 - length =
          total (lengths.take k) + day - 1 := by omega
      rw [List.take_succ_cons, total_cons, monthAndDay, if_neg (by omega), hpast,
        ih (month + 1) hday', Nat.add_assoc, Nat.add_comm 1 k]

/-- Each day of a year lies in one of its months. -/
theorem exists_monthAndDay {lengths : List Nat} {n : Nat} (h : n < total lengths) :
    ∃ k day, k < lengths.length ∧ 1 ≤ day ∧ day ≤ lengths.getD k 0 ∧
      n = total (lengths.take k) + day - 1 := by
  induction lengths generalizing n with
  | nil => exact absurd h (Nat.not_lt_zero n)
  | cons length lengths ih =>
    by_cases hfirst : n < length
    · refine ⟨0, n + 1, by simp, by omega, ?_, ?_⟩
      · rw [List.getD_cons_zero]
        omega
      · rw [List.take_zero, total_nil]
        omega
    · rw [total_cons] at h
      obtain ⟨k, day, hk, hday, hday', hn⟩ := ih (n := n - length) (by omega)
      refine ⟨k + 1, day, by simpa using hk, hday, by rwa [List.getD_cons_succ], ?_⟩
      rw [List.take_succ_cons, total_cons]
      omega

theorem daysBeforeMonth_succ (year : Int) (k : Nat) :
    daysBeforeMonth year (k + 1) = total ((monthLengths (isLeapYear year)).take k) := rfl

theorem monthLength_succ (year : Int) (k : Nat) :
    monthLength year (k + 1) = (monthLengths (isLeapYear year)).getD k 0 := rfl

theorem daysBeforeMonth_next (year : Int) {month : Nat} (h : 1 ≤ month) :
    daysBeforeMonth year (month + 1) = daysBeforeMonth year month + monthLength year month := by
  obtain ⟨k, rfl⟩ := Nat.exists_eq_add_of_le' h
  rw [daysBeforeMonth_succ, daysBeforeMonth_succ, monthLength_succ, total_take_succ]

/-- The months of a year make up the year. -/
theorem daysBeforeMonth_last (year : Int) : daysBeforeMonth year 13 = yearLength year := by
  rw [daysBeforeMonth_succ, ← total_monthLengths, List.take_of_length_le (Nat.le_refl 12)]

theorem one_le_monthLength {month : Nat} (year : Int) (hlow : 1 ≤ month) (hhigh : month ≤ 12) :
    1 ≤ monthLength year month := by
  have hall : ∀ leap, ∀ k < 12, 1 ≤ (monthLengths leap).getD k 0 := by
    decide
  obtain ⟨k, rfl⟩ := Nat.exists_eq_add_of_le' hlow
  exact hall (isLeapYear year) k (by omega)

/-! ## Dates -/

theorem isValid_iff (d : Date) :
    d.isValid = true ↔
      1 ≤ d.month ∧ d.month ≤ 12 ∧ 1 ≤ d.day ∧ d.day ≤ monthLength d.year d.month := by
  simp [isValid, and_assoc]

theorem dayNumber_mk (year : Int) (k : Nat) {day : Nat} (hday : 1 ≤ day) :
    (Date.mk year (k + 1) day).dayNumber =
      daysBeforeYear year + total ((monthLengths (isLeapYear year)).take k) + day - 1 -
        epochOffset := by
  simp only [dayNumber, dayOfYear, daysBeforeMonth_succ]
  omega

/-- The date of a day number exists and has this day number. -/
theorem ofDayNumber_spec (n : Int) :
    (ofDayNumber n).isValid = true ∧ (ofDayNumber n).dayNumber = n := by
  obtain ⟨hstart, hend⟩ := yearOfDay_spec (n + epochOffset)
  rw [daysBeforeYear_succ, ← total_monthLengths] at hend
  have hinside : (n + epochOffset - daysBeforeYear (yearOfDay (n + epochOffset))).toNat <
      total (monthLengths (isLeapYear (yearOfDay (n + epochOffset)))) := by omega
  obtain ⟨k, day, hk, hday, hday', hsplit⟩ := exists_monthAndDay hinside
  have hdate : ofDayNumber n = ⟨yearOfDay (n + epochOffset), k + 1, day⟩ := by
    simp only [ofDayNumber, hsplit, monthAndDay_eq 1 hday hday', Nat.add_comm 1 k]
  rw [hdate]
  refine ⟨(isValid_iff _).2 ⟨Nat.le_add_left 1 k, hk, hday, hday'⟩, ?_⟩
  rw [dayNumber_mk _ _ hday]
  omega

theorem isValid_ofDayNumber (n : Int) : (ofDayNumber n).isValid = true :=
  (ofDayNumber_spec n).1

@[simp] theorem dayNumber_ofDayNumber (n : Int) : (ofDayNumber n).dayNumber = n :=
  (ofDayNumber_spec n).2

/-- A date that exists lies in its year. -/
theorem dayOfYear_lt {d : Date} (h : d.isValid = true) : d.dayOfYear < yearLength d.year := by
  obtain ⟨hmonth, -, hday, hday'⟩ := (isValid_iff d).1 h
  have hnext := daysBeforeMonth_next d.year hmonth
  have htake := foldr_take_le d.month (monthLengths (isLeapYear d.year))
  change daysBeforeMonth d.year (d.month + 1) ≤ total _ at htake
  rw [total_monthLengths] at htake
  rw [dayOfYear]
  omega

/-- A date that exists is found again from its day number. -/
theorem ofDayNumber_dayNumber {d : Date} (h : d.isValid = true) : ofDayNumber d.dayNumber = d := by
  obtain ⟨year, month, day⟩ := d
  obtain ⟨hmonth, -, hday, hday'⟩ :
      1 ≤ month ∧ month ≤ 12 ∧ 1 ≤ day ∧ day ≤ monthLength year month := (isValid_iff _).1 h
  obtain ⟨k, rfl⟩ := Nat.exists_eq_add_of_le' hmonth
  have hyear : total ((monthLengths (isLeapYear year)).take k) + day - 1 < yearLength year :=
    dayOfYear_lt h
  have hnumber := dayNumber_mk year k hday
  have hfound : yearOfDay ((Date.mk year (k + 1) day).dayNumber + epochOffset) = year := by
    refine yearOfDay_eq (by omega) ?_
    rw [daysBeforeYear_succ]
    omega
  have hrest : ((Date.mk year (k + 1) day).dayNumber + epochOffset - daysBeforeYear year).toNat =
      total ((monthLengths (isLeapYear year)).take k) + day - 1 := by omega
  simp only [ofDayNumber, hfound, hrest, monthAndDay_eq 1 hday hday', Nat.add_comm 1 k]

/-! ## First days -/

/-- The first day of a month, the months counted from January of the year zero. -/
def firstOfMonth (i : Int) : Date :=
  ⟨i / 12, (i % 12).toNat + 1, 1⟩

theorem isValid_firstOfMonth (i : Int) : (firstOfMonth i).isValid = true := by
  have hmonth : (i % 12).toNat + 1 ≤ 12 := by omega
  exact (isValid_iff _).2 ⟨Nat.le_add_left 1 _, hmonth, Nat.le_refl 1,
    one_le_monthLength _ (Nat.le_add_left 1 _) hmonth⟩

/-- Moving the first day of a month by months leads to the first day of a month. -/
theorem addMonths_firstOfMonth (i months : Int) :
    (firstOfMonth i).addMonths months = firstOfMonth (i + months) := by
  have hcount : i / 12 * 12 + (((i % 12).toNat + 1 : Nat) : Int) - 1 + months = i + months := by
    omega
  have hmonth : ((i + months) % 12).toNat + 1 ≤ 12 := by omega
  have hlength := one_le_monthLength ((i + months) / 12) (Nat.le_add_left 1 _) hmonth
  simp only [addMonths, firstOfMonth, hcount, Nat.min_eq_left hlength]

/-- The first days of two months that follow one another are as far apart as the first month is
long. -/
theorem dayNumber_nextMonth (i : Int) :
    (firstOfMonth (i + 1)).dayNumber =
      (firstOfMonth i).dayNumber + monthLength (i / 12) ((i % 12).toNat + 1) := by
  have hnext := daysBeforeMonth_next (i / 12) (Nat.le_add_left 1 (i % 12).toNat)
  by_cases hdecember : i % 12 = 11
  · have hyear : (i + 1) / 12 = i / 12 + 1 := by omega
    have hmonth : ((i + 1) % 12).toNat = 0 := by omega
    have heleven : (i % 12).toNat = 11 := by omega
    have hlast := daysBeforeMonth_last (i / 12)
    have hjanuary : daysBeforeMonth (i / 12 + 1) 1 = 0 := rfl
    rw [heleven] at hnext
    simp only [firstOfMonth, dayNumber, dayOfYear, hyear, hmonth, heleven, daysBeforeYear_succ,
      Nat.reduceAdd, hjanuary] at *
    omega
  · have hyear : (i + 1) / 12 = i / 12 := by omega
    have hmonth : ((i + 1) % 12).toNat = (i % 12).toNat + 1 := by omega
    simp only [firstOfMonth, dayNumber, dayOfYear, hyear, hmonth, hnext]
    omega

/-- The first days of two years that follow one another are as far apart as the first year is
long. -/
theorem dayNumber_nextYear (year : Int) :
    (Date.mk (year + 1) 1 1).dayNumber = (Date.mk year 1 1).dayNumber + yearLength year := by
  have hsucc := daysBeforeYear_succ year
  rw [dayNumber_mk _ 0 (Nat.le_refl 1), dayNumber_mk _ 0 (Nat.le_refl 1), List.take_zero,
    List.take_zero, total_nil]
  omega

end Date

end FilterQuery
