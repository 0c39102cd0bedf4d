import FilterQuery.Proofs.Blanks
import FilterQuery.Proofs.Calendar.Dates
import FilterQuery.Proofs.Calendar.Digits

/-!
# Spellings of instants

Every spelling of an instant is read as this instant (`Instant.ofText?_spelled`): the form of text
columns, local times with their offset from UTC, dates and times without an offset, and dates alone.
The forms are tried one after the other, so for each of them the forms before it have to be refused:
without an offset the strict form ends too early, and without a time of day the others do.
-/

namespace FilterQuery.Instant

/-! ## Instants that exist -/

/-- An instant that a clock can show: its nanoseconds are those of a second or of a leap second, and
a leap second goes on after the last second of a minute. -/
structure WellFormed (t : Instant) : Prop where
  /-- The nanoseconds are less than those of two seconds. -/
  nanos_lt : t.nanos < 2 * nanosPerSecond
  /-- A leap second is the end of a minute. -/
  leap : t.isLeapSecond = true → t.seconds % 60 = 59

/-- An instant without its fraction of a second; a leap second is a second of its own. -/
def wholeSecond (t : Instant) : Instant :=
  ⟨t.seconds, if t.isLeapSecond then nanosPerSecond else 0⟩

/-- An instant with another fraction of its second; a leap second stays one. -/
def withFraction (t : Instant) (nanos : Nat) : Instant :=
  ⟨t.seconds, nanos + if t.isLeapSecond then nanosPerSecond else 0⟩

/-- What clocks show at an offset from UTC, in minutes, as if it were a time in UTC. -/
def localTime (t : Instant) (minutes : Int) : Instant :=
  ⟨t.seconds + 60 * minutes, t.nanos⟩

/-- An instant in a year that is written with four digits. -/
def HasCivilYear (t : Instant) : Prop :=
  0 ≤ t.date.year ∧ t.date.year ≤ 9999

instance (t : Instant) : Decidable t.HasCivilYear :=
  inferInstanceAs (Decidable (_ ∧ _))

/-- The date and the time of day of an instant, with a separator between them and a rest after
them. -/
def written (t : Instant) (sep : Char) (rest : List Char) : List Char :=
  t.dateText ++ sep :: (t.timeText ++ rest)

variable {t : Instant}

theorem withFraction_zero (t : Instant) : t.withFraction 0 = t.wholeSecond := by
  rw [withFraction, wholeSecond, Nat.zero_add]

/-- With its own fraction of a second an instant is complete. -/
theorem WellFormed.withFraction (h : t.WellFormed) :
    t.withFraction (t.nanos % nanosPerSecond) = t := by
  have hlt := h.nanos_lt
  have hnanos : t.nanos % nanosPerSecond + (if t.isLeapSecond then nanosPerSecond else 0) =
      t.nanos := by
    cases hleap : t.isLeapSecond with
    | true =>
      rw [isLeapSecond, decide_eq_true_eq] at hleap
      rw [if_pos rfl]
      simp only [nanosPerSecond] at *
      omega
    | false =>
      rw [isLeapSecond, decide_eq_false_iff_not, Nat.not_le] at hleap
      rw [if_neg Bool.false_ne_true, Nat.add_zero, Nat.mod_eq_of_lt hleap]
  rw [Instant.withFraction, hnanos]

theorem stored_eq (t : Instant) : t.stored = String.ofList (t.written 'T' ['Z']) := by
  simp only [stored, written, List.append_assoc, List.cons_append]

theorem WellFormed.localTime (h : t.WellFormed) (minutes : Int) :
    (t.localTime minutes).WellFormed := by
  refine ⟨h.nanos_lt, fun hleap => ?_⟩
  have hleap' := h.leap hleap
  simp only [Instant.localTime]
  omega

/-- The years that are written with four digits are supported. -/
theorem HasCivilYear.inRange (h : t.HasCivilYear) : t.inRange = true := by
  obtain ⟨hlow, hhigh⟩ := h
  have hnumber : t.date.dayNumber = t.dayNumber := Date.dayNumber_ofDayNumber t.dayNumber
  have hday := Date.dayOfYear_lt (Date.isValid_ofDayNumber t.dayNumber)
  change t.date.dayOfYear < Date.yearLength t.date.year at hday
  have hlength : Date.yearLength t.date.year ≤ 366 := by
    rw [Date.yearLength]
    split <;> decide
  have hfirst : Date.earliest.dayNumber = -96465292 := by decide
  have hlast : Date.latest.dayNumber = 95026236 := by decide
  rw [Instant.inRange, Date.inRange, Bool.and_eq_true, decide_eq_true_eq, decide_eq_true_eq, hfirst,
    hlast, ← hnumber]
  simp only [Date.dayNumber, Date.daysBeforeYear, Date.epochOffset]
  omega

/-! ## Fields of the date and the time of day -/

theorem secondOfDay_lt (t : Instant) : t.secondOfDay < 86400 := by
  simp only [secondOfDay, secondsPerDay]
  omega

/-- The second that a clock shows. -/
def shownSecond (t : Instant) : Nat :=
  t.secondOfDay % 60 + if t.isLeapSecond then 1 else 0

theorem shownSecond_le (t : Instant) : t.shownSecond ≤ 60 := by
  rw [shownSecond]
  split <;> omega

theorem dayNumber?_date (hrange : t.inRange = true) :
    Date.dayNumber? t.date.year t.date.month t.date.day = some t.dayNumber := by
  have hvalid : Date.isValid ⟨t.date.year, t.date.month, t.date.day⟩ = true :=
    Date.isValid_ofDayNumber t.dayNumber
  have hnumber : Date.dayNumber ⟨t.date.year, t.date.month, t.date.day⟩ = t.dayNumber :=
    Date.dayNumber_ofDayNumber t.dayNumber
  have hsupported : Date.inRange t.dayNumber = true := hrange
  simp only [Date.dayNumber?, hvalid, hnumber, hsupported, Bool.and_self, if_true]

/-- The fields of an instant make up its second again. -/
theorem ofFields?_fields (ht : t.WellFormed) (hrange : t.inRange = true) (nanos : Nat) :
    ofFields? t.date.year t.date.month t.date.day (t.secondOfDay / 3600) (t.secondOfDay / 60 % 60)
        t.shownSecond nanos = some (t.withFraction nanos) := by
  have hday := dayNumber?_date hrange
  have hlt := t.secondOfDay_lt
  have hseconds : t.dayNumber * secondsPerDay + t.secondOfDay = t.seconds := by
    simp only [dayNumber, secondOfDay, secondsPerDay]
    omega
  have hclock : (decide (23 < t.secondOfDay / 3600) || decide (59 < t.secondOfDay / 60 % 60) ||
      decide (60 < t.shownSecond)) = false := by
    have hsecond := t.shownSecond_le
    simp only [Bool.or_eq_false_iff, decide_eq_false_iff_not]
    omega
  simp only [ofFields?, hday, hclock, Bool.false_eq_true, if_false]
  cases hleap : t.isLeapSecond with
  | true =>
    have hend := ht.leap hleap
    have hlast : t.secondOfDay % 60 = 59 := by
      simp only [secondOfDay, secondsPerDay]
      omega
    have hshown : t.shownSecond = 60 := by
      rw [shownSecond, hleap, hlast]
      rfl
    have hsum : t.secondOfDay / 3600 * 3600 + t.secondOfDay / 60 % 60 * 60 + 59 =
        t.secondOfDay := by omega
    rw [if_pos hshown, ofDayTime, hsum, hseconds, withFraction, hleap, if_pos rfl]
  | false =>
    have hshown : t.shownSecond = t.secondOfDay % 60 := by
      rw [shownSecond, hleap]
      rfl
    have hsum : t.secondOfDay / 3600 * 3600 + t.secondOfDay / 60 % 60 * 60 + t.shownSecond =
        t.secondOfDay := by omega
    rw [if_neg (by omega), ofDayTime, hsum, hseconds, withFraction, hleap,
      if_neg Bool.false_ne_true, Nat.add_zero]

/-! ## Reading dates and times of day -/

theorem yearText_of_hasCivilYear (h : t.HasCivilYear) :
    ∃ year : Nat, t.date.year = year ∧ year < 10 ^ 4 ∧ yearText t.date.year = padded 4 year := by
  obtain ⟨hlow, hhigh⟩ := h
  refine ⟨t.date.year.toNat, by omega, by omega, ?_⟩
  rw [yearText, if_pos (by simp [hlow, hhigh])]

theorem month_lt (t : Instant) : t.date.month < 10 ^ 2 := by
  obtain ⟨-, hmonth, -, -⟩ := (Date.isValid_iff _).1 (Date.isValid_ofDayNumber t.dayNumber)
  exact Nat.lt_of_le_of_lt hmonth (by decide)

theorem monthLength_le (year : Int) (month : Nat) : Date.monthLength year month ≤ 31 := by
  have hall : ∀ leap, ∀ length ∈ Date.monthLengths leap, length ≤ 31 := by decide
  cases month with
  | zero => exact Nat.zero_le 31
  | succ k =>
    rw [Date.monthLength_succ, List.getD_eq_getElem?_getD]
    cases hlength : (Date.monthLengths (Date.isLeapYear year))[k]? with
    | none => exact Nat.zero_le 31
    | some length => exact hall _ length (List.mem_of_getElem? hlength)

theorem day_lt (t : Instant) : t.date.day < 10 ^ 2 := by
  obtain ⟨-, -, -, hday⟩ := (Date.isValid_iff _).1 (Date.isValid_ofDayNumber t.dayNumber)
  exact Nat.lt_of_le_of_lt (hday.trans (monthLength_le _ _)) (by decide)

theorem hour_lt (t : Instant) : t.secondOfDay / 3600 < 10 ^ 2 := by
  have hlt := t.secondOfDay_lt
  omega

theorem minute_lt (t : Instant) : t.secondOfDay / 60 % 60 < 10 ^ 2 := by
  omega

theorem second_lt (t : Instant) : t.shownSecond < 10 ^ 2 :=
  Nat.lt_of_le_of_lt t.shownSecond_le (by decide)

/-- A date as it is written, before anything. -/
theorem dateText_append {year : Nat} (h : yearText t.date.year = padded 4 year)
    (rest : List Char) :
    t.dateText ++ rest =
      padded 4 year ++ '-' :: (padded 2 t.date.month ++ '-' :: (padded 2 t.date.day ++ rest)) := by
  simp only [dateText, h, List.append_assoc, List.cons_append]

/-- A time of day as it is written, before anything. -/
theorem timeText_append (t : Instant) (rest : List Char) :
    t.timeText ++ rest =
      padded 2 (t.secondOfDay / 3600) ++ ':' :: (padded 2 (t.secondOfDay / 60 % 60) ++
        ':' :: (padded 2 t.shownSecond ++ rest)) := by
  simp only [timeText, shownSecond, List.append_assoc, List.cons_append]

theorem readLooseYear_padded {year : Nat} (h : year < 10 ^ 4) (rest : List Char) :
    readLooseYear (padded 4 year ++ rest) = some ((year : Int), rest) := by
  rw [readLooseYear, trimStart_padded (by decide)]
  split
  · rename_i hsign
    exact absurd (isDigit_head_padded (by decide) (congrArg List.head? hsign)) (by decide)
  · rename_i hsign
    exact absurd (isDigit_head_padded (by decide) (congrArg List.head? hsign)) (by decide)
  · rw [readNumber_padded (by decide) h]
    rfl

/-- A date is read back, whatever follows it. -/
theorem readLooseDate_dateText (h : t.HasCivilYear) (rest : List Char) :
    readLooseDate (t.dateText ++ rest) = some ((t.date.year, t.date.month, t.date.day), rest) := by
  obtain ⟨year, hyear, hlt, htext⟩ := yearText_of_hasCivilYear h
  simp only [dateText_append htext, readLooseDate, readLooseYear_padded hlt, hyear,
    readLooseNumber_padded (by decide) t.month_lt, readLooseNumber_padded (by decide) t.day_lt,
    Text.afterHead, if_true, Option.bind_eq_bind, Option.bind_some]

/-- A time of day and a fraction of a second are read back when nothing follows them. -/
theorem readLooseTime_timeText (t : Instant) {nanos : Nat} {fraction : List Char}
    (h : WritesFraction nanos fraction) :
    readLooseTime (t.timeText ++ fraction) =
      some ((t.secondOfDay / 3600, t.secondOfDay / 60 % 60, t.shownSecond, nanos), []) := by
  have hfraction : readFraction fraction = some (nanos, []) := by
    have hread : readFraction (fraction ++ []) = some (nanos, []) :=
      readFraction_of_writes h (fun _ hc => by cases hc) (by simp)
    rwa [List.append_nil] at hread
  simp only [timeText_append, readLooseTime,
    readLooseNumber_padded (by decide) t.hour_lt, readLooseNumber_padded (by decide) t.minute_lt,
    readLooseNumber_padded (by decide) t.second_lt, hfraction,
    Text.afterHead, if_true, Option.bind_eq_bind, Option.bind_some]

/-! ## Offsets from UTC -/

/-- A text writes an offset from UTC in minutes: a sign, two digits of hours and two of minutes, or
for none the letter of UTC. -/
def WritesOffset (minutes : Int) (text : List Char) : Prop :=
  (minutes = 0 ∧ (text = ['Z'] ∨ text = ['z'])) ∨
    ∃ sign, (0 ≤ minutes ∧ sign = '+' ∨ minutes ≤ 0 ∧ (sign = '-' ∨ sign = '\u2212')) ∧
      text = sign :: padded 2 (minutes.natAbs / 60) ++ ':' :: padded 2 (minutes.natAbs % 60)

theorem magnitude_padded {hours minutes : Nat} (hhours : hours ≤ 23) (hminutes : minutes ≤ 59) :
    readOffset.magnitude (padded 2 hours ++ ':' :: padded 2 minutes) =
      some ((hours * 3600 + minutes * 60 : Int), []) := by
  have hread : readNumber 2 2 (padded 2 minutes ++ []) = some (minutes, []) :=
    readNumber_padded (Nat.le_refl 2) (by omega) []
  rw [List.append_nil] at hread
  have htwo : hours < 10 ^ 2 := by omega
  have hfits : (decide (23 < hours) || decide (59 < minutes)) = false := by
    simp only [Bool.or_eq_false_iff, decide_eq_false_iff_not]
    omega
  simp only [readOffset.magnitude, readNumber_padded (Nat.le_refl 2) htwo, hread, hfits,
    Text.afterHead, if_true, Option.bind_eq_bind, Option.bind_some, Bool.false_eq_true, if_false]

/-- An offset of less than a day is read back as seconds. -/
theorem readOffset_of_writes {minutes : Int} (hlow : -1439 ≤ minutes) (hhigh : minutes ≤ 1439)
    {text : List Char} (h : WritesOffset minutes text) :
    readOffset text = some (60 * minutes, []) := by
  rcases h with ⟨rfl, rfl | rfl⟩ | ⟨sign, hsign, rfl⟩
  · rfl
  · rfl
  · have hmagnitude := magnitude_padded (by omega : minutes.natAbs / 60 ≤ 23)
      (by omega : minutes.natAbs % 60 ≤ 59)
    rcases hsign with ⟨hahead, rfl⟩ | ⟨hbehind, hminus⟩
    · rw [List.cons_append, readOffset, hmagnitude]
      exact congrArg (fun n => some (n, [])) (by omega)
    · have hvalue : -(((minutes.natAbs / 60 : Nat) : Int) * 3600 +
          ((minutes.natAbs % 60 : Nat) : Int) * 60) = 60 * minutes := by omega
      rw [← hvalue]
      rcases hminus with rfl | rfl
      · rw [List.cons_append, readOffset, hmagnitude]
        rfl
      · rw [List.cons_append, readOffset, hmagnitude]
        rfl

/-- An offset begins with no digit and no point, and has no blanks in it. -/
theorem WritesOffset.plain {minutes : Int} {text : List Char} (h : WritesOffset minutes text) :
    StopsDigits text ∧ text.head? ≠ some '.' ∧ ∀ c ∈ text, Text.isBlank c = false := by
  have hdigits : ∀ n, ∀ c ∈ padded 2 n, Text.isBlank c = false := fun _ _ => isBlank_of_mem_padded
  rcases h with ⟨rfl, rfl | rfl⟩ | ⟨sign, hsign, rfl⟩
  · exact ⟨by rintro c ⟨⟩; rfl, by decide, List.forall_mem_singleton.2 rfl⟩
  · exact ⟨by rintro c ⟨⟩; rfl, by decide, List.forall_mem_singleton.2 rfl⟩
  · have hcase : sign = '+' ∨ sign = '-' ∨ sign = '\u2212' := by tauto
    have hplain : isDigit sign = false ∧ sign ≠ '.' ∧ Text.isBlank sign = false := by
      rcases hcase with rfl | rfl | rfl <;> decide
    obtain ⟨hstop, hpoint, hblank⟩ := hplain
    refine ⟨?_, ?_, ?_⟩
    · rintro c ⟨⟩
      exact hstop
    · rintro ⟨⟩
      exact hpoint rfl
    · rw [List.cons_append]
      refine List.forall_mem_cons.2 ⟨hblank, List.forall_mem_append.2 ⟨hdigits _, ?_⟩⟩
      exact List.forall_mem_cons.2 ⟨by decide, hdigits _⟩

/-! ## The forms of instants -/

/-- A date and a time of day in the strict form lead to what their offset says. -/
theorem ofOffsetText?_fields (h : t.HasCivilYear) {sep : Char}
    (hsep : sep = 'T' ∨ sep = 't' ∨ sep = ' ') {nanos : Nat} {fraction zone : List Char}
    (hfraction : WritesFraction nanos fraction) (hzone : StopsDigits zone)
    (hpoint : zone.head? ≠ some '.') :
    ofOffsetText? (t.written sep (fraction ++ zone)) =
      (readOffset zone).bind fun (offset, s) =>
        if !s.isEmpty then none
        else
          (ofFields? t.date.year t.date.month t.date.day (t.secondOfDay / 3600)
            (t.secondOfDay / 60 % 60) t.shownSecond nanos).bind fun moment =>
              let shifted : Instant := ⟨moment.seconds - offset, moment.nanos⟩
              if shifted.inRange then some shifted else none := by
  obtain ⟨year, hyear, hlt, htext⟩ := yearText_of_hasCivilYear h
  have hseparator : ∀ (rest : List Char) (next : List Char → Option Instant),
      (readSeparator (sep :: rest) >>= next) = next rest := by
    rcases hsep with rfl | rfl | rfl <;> exact fun _ _ => rfl
  have hnanos : ∀ next : Nat × List Char → Option Instant,
      (readFraction (fraction ++ zone) >>= next) = next (nanos, zone) := by
    rw [readFraction_of_writes hfraction hzone hpoint]
    exact fun _ => rfl
  simp only [ofOffsetText?, written, dateText_append htext, timeText_append,
    ↓bind_readNumber_padded hlt, ↓bind_readNumber_padded t.month_lt,
    ↓bind_readNumber_padded t.day_lt, ↓bind_readNumber_padded t.hour_lt,
    ↓bind_readNumber_padded t.minute_lt, ↓bind_readNumber_padded t.second_lt, ↓bind_afterHead,
    ↓hseparator, ↓hnanos, hyear]
  rfl

/-- The fields of an instant with its offset lead back to it. -/
theorem ofOffsetText?_localTime (ht : t.WellFormed) (hrange : t.inRange = true) {minutes : Int}
    (hlow : -1439 ≤ minutes) (hhigh : minutes ≤ 1439)
    (hlocal : (t.localTime minutes).HasCivilYear) {sep : Char}
    (hsep : sep = 'T' ∨ sep = 't' ∨ sep = ' ') {nanos : Nat} {fraction zone : List Char}
    (hfraction : WritesFraction nanos fraction) (hzone : WritesOffset minutes zone) :
    ofOffsetText? ((t.localTime minutes).written sep (fraction ++ zone)) =
      some (t.withFraction nanos) := by
  obtain ⟨hstop, hpoint, -⟩ := hzone.plain
  have hback : Instant.mk (((t.localTime minutes).withFraction nanos).seconds - 60 * minutes)
      ((t.localTime minutes).withFraction nanos).nanos = t.withFraction nanos := by
    rw [Instant.mk.injEq]
    exact ⟨Int.add_sub_cancel _ _, rfl⟩
  have hmoved : (t.withFraction nanos).inRange = true := hrange
  rw [ofOffsetText?_fields hlocal hsep hfraction hstop hpoint,
    readOffset_of_writes hlow hhigh hzone, Option.bind_some,
    ofFields?_fields (ht.localTime minutes) hlocal.inRange]
  simp only [List.isEmpty_nil, Bool.not_true, Bool.false_eq_true, if_false, Option.bind_some, hback,
    hmoved, if_true]

/-- Without an offset the strict form is refused. -/
theorem ofOffsetText?_written (h : t.HasCivilYear) {sep : Char} (hsep : sep = 'T' ∨ sep = ' ')
    {nanos : Nat} {fraction : List Char} (hfraction : WritesFraction nanos fraction) :
    ofOffsetText? (t.written sep fraction) = none := by
  have hread : ofOffsetText? (t.written sep (fraction ++ [])) = _ :=
    ofOffsetText?_fields h (hsep.imp_right .inr) hfraction (fun _ hc => by cases hc) (by simp)
  rw [List.append_nil] at hread
  exact hread

/-- The fields of an instant without an offset lead back to it. -/
theorem ofLooseText?_written (ht : t.WellFormed) (h : t.HasCivilYear)
    {separator : List Char → Option (List Char)} {sep : Char} {nanos : Nat} {fraction : List Char}
    (hsep : separator (sep :: (t.timeText ++ fraction)) = some (t.timeText ++ fraction))
    (hfraction : WritesFraction nanos fraction) :
    ofLooseText? separator (t.written sep fraction) = some (t.withFraction nanos) := by
  simp only [ofLooseText?, written, readLooseDate_dateText h, hsep,
    readLooseTime_timeText t hfraction, ofFields?_fields ht h.inRange, Option.bind_eq_bind,
    Option.bind_some, List.isEmpty_nil, if_true]

/-- A separator that is not the expected one is refused. -/
theorem ofLooseText?_refused (h : t.HasCivilYear) {separator : List Char → Option (List Char)}
    {sep : Char} {rest : List Char} (hsep : separator (sep :: (t.timeText ++ rest)) = none) :
    ofLooseText? separator (t.written sep rest) = none := by
  simp only [ofLooseText?, written, readLooseDate_dateText h, hsep, Option.bind_eq_bind,
    Option.bind_some, Option.bind_none]

/-- The forms without an offset are read when the strict form is refused. -/
theorem ofTrimmed?_written (ht : t.WellFormed) (h : t.HasCivilYear) {sep : Char}
    (hsep : sep = 'T' ∨ sep = ' ') {nanos : Nat} {fraction : List Char}
    (hfraction : WritesFraction nanos fraction) :
    ofTrimmed? (t.written sep fraction) = some (t.withFraction nanos) := by
  rw [ofTrimmed?, ofOffsetText?_written h hsep hfraction, Option.orElse_none]
  rcases hsep with rfl | rfl
  · have hletter : Text.afterHead ['T'] ('T' :: (t.timeText ++ fraction)) =
        some (t.timeText ++ fraction) := by
      simp [Text.afterHead]
    rw [ofLooseText?_written ht h hletter hfraction]
    rfl
  · have hletter : Text.afterHead ['T'] (' ' :: (t.timeText ++ fraction)) = none := by
      simp [Text.afterHead]
    have hblank : Text.trimStart (' ' :: (t.timeText ++ fraction)) = t.timeText ++ fraction := by
      rw [timeText_append]
      exact trimStart_padded (by decide) _ _
    have hread : ofLooseText? (fun s => some (Text.trimStart s)) (t.written ' ' fraction) = _ :=
      ofLooseText?_written ht h (congrArg some hblank) hfraction
    rw [ofLooseText?_refused h hletter, Option.orElse_none, hread]
    rfl

/-- Without a time of day only a date is read. -/
theorem ofTrimmed?_dateText (h : t.HasCivilYear) : ofTrimmed? t.dateText = some t.startOfDay := by
  have hdate := readLooseDate_dateText h []
  rw [List.append_nil] at hdate
  have hstrict : ofOffsetText? t.dateText = none := by
    obtain ⟨year, -, hlt, htext⟩ := yearText_of_hasCivilYear h
    rw [← List.append_nil t.dateText, dateText_append htext]
    simp only [ofOffsetText?, ↓bind_readNumber_padded hlt, ↓bind_readNumber_padded t.month_lt,
      ↓bind_readNumber_padded t.day_lt, ↓bind_afterHead]
    rfl
  have htimed : ∀ separator : List Char → Option (List Char),
      separator [] = none ∨ separator [] = some [] → ofLooseText? separator t.dateText = none := by
    intro separator hseparator
    have hnone : readLooseTime [] = none := rfl
    rcases hseparator with hseparator | hseparator <;>
      simp [ofLooseText?, hdate, hseparator, hnone]
  have hmidnight : ofDateText? t.dateText = some t.startOfDay := by
    simp only [ofDateText?, hdate, dayNumber?_date h.inRange, Option.bind_eq_bind, Option.bind_some,
      List.isEmpty_nil, if_true, Option.map_some, startOfDay]
  have hletter := htimed (Text.afterHead ['T']) (.inl rfl)
  have hblanks := htimed (fun s => some (Text.trimStart s)) (.inr rfl)
  rw [ofTrimmed?, hstrict, hletter, hblanks, hmidnight]
  rfl

/-! ## Blanks -/

theorem isBlank_of_mem_dateText (h : t.HasCivilYear) :
    ∀ c ∈ t.dateText, Text.isBlank c = false := by
  obtain ⟨year, -, -, htext⟩ := yearText_of_hasCivilYear h
  rw [← List.append_nil t.dateText, dateText_append htext]
  simp only [List.forall_mem_append, List.forall_mem_cons, List.append_nil]
  exact ⟨fun _ => isBlank_of_mem_padded, rfl, fun _ => isBlank_of_mem_padded, rfl,
    fun _ => isBlank_of_mem_padded⟩

theorem isBlank_of_mem_timeText (t : Instant) : ∀ c ∈ t.timeText, Text.isBlank c = false := by
  rw [← List.append_nil t.timeText, timeText_append]
  simp only [List.forall_mem_append, List.forall_mem_cons, List.append_nil]
  exact ⟨fun _ => isBlank_of_mem_padded, rfl, fun _ => isBlank_of_mem_padded, rfl,
    fun _ => isBlank_of_mem_padded⟩

theorem WritesFraction.plain {nanos : Nat} {fraction : List Char}
    (h : WritesFraction nanos fraction) : ∀ c ∈ fraction, Text.isBlank c = false := by
  rcases h with ⟨-, rfl⟩ | ⟨digits, rfl, -, hdigits, -⟩
  · simp
  · exact List.forall_mem_cons.2 ⟨rfl, fun c hc => isBlank_of_isDigit (hdigits c hc)⟩

theorem trim_dateText (h : t.HasCivilYear) : Text.trim t.dateText = t.dateText := by
  have hplain := isBlank_of_mem_dateText h
  exact Text.trim_eq_self (fun c hc => hplain c (List.mem_of_head? hc))
    (Text.endsPlainly_of_forall hplain)

/-- What begins with a date does not begin with a blank. -/
theorem isBlank_head_dateText (h : t.HasCivilYear) {rest : List Char} {c : Char}
    (hc : (t.dateText ++ rest).head? = some c) : Text.isBlank c = false := by
  obtain ⟨year, -, -, htext⟩ := yearText_of_hasCivilYear h
  rw [dateText_append htext] at hc
  exact isBlank_of_isDigit (isDigit_head_padded (by decide) hc)

theorem timeText_append_ne_nil (t : Instant) (rest : List Char) : t.timeText ++ rest ≠ [] := by
  rw [timeText_append]
  exact List.append_ne_nil_of_right_ne_nil _ (List.cons_ne_nil _ _)

/-- The only blank of a written instant is the one that may separate its date and time. -/
theorem trim_written (h : t.HasCivilYear) (sep : Char) {rest : List Char}
    (hrest : ∀ c ∈ rest, Text.isBlank c = false) :
    Text.trim (t.written sep rest) = t.written sep rest := by
  have hplain : Text.EndsPlainly (t.timeText ++ rest) :=
    Text.endsPlainly_of_forall (List.forall_mem_append.2 ⟨t.isBlank_of_mem_timeText, hrest⟩)
  refine Text.trim_eq_self (fun c hc => isBlank_head_dateText h hc) ?_
  rw [written, List.append_cons]
  exact hplain.after (t.timeText_append_ne_nil rest) _

theorem ofText?_ofList {s : List Char} (h : Text.trim s = s) :
    ofText? (String.ofList s) = ofTrimmed? s := by
  rw [ofText?, String.toList_ofList, h]

/-! ## Every spelling -/

/-- Every spelling of an instant is read as this instant. The form of text columns leads to its
whole second. A local time with its offset, and the forms without an offset, lead to the instant
itself when its fraction is written in full; its date alone leads to its midnight. Blanks around a
text change nothing. -/
theorem ofText?_spelled (ht : t.WellFormed) (hyear : t.HasCivilYear) :
    ofText? t.stored = some t.wholeSecond ∧
      (∀ minutes, -1439 ≤ minutes → minutes ≤ 1439 → (t.localTime minutes).HasCivilYear →
        ∀ fraction zone, WritesFraction (t.nanos % nanosPerSecond) fraction →
          WritesOffset minutes zone → ∀ sep ∈ ['T', 't', ' '],
            ofText? (.ofList ((t.localTime minutes).written sep (fraction ++ zone))) = some t) ∧
      (∀ fraction, WritesFraction (t.nanos % nanosPerSecond) fraction → ∀ sep ∈ ['T', ' '],
        ofText? (.ofList (t.written sep fraction)) = some t) ∧
      ofText? (.ofList t.dateText) = some t.startOfDay ∧
      ∀ before after, (∀ c ∈ before, Text.isBlank c = true) → (∀ c ∈ after, Text.isBlank c = true) →
        ∀ text, ofText? (.ofList (before ++ text ++ after)) = ofText? (.ofList text) := by
  have hoffset : ∀ minutes, -1439 ≤ minutes → minutes ≤ 1439 →
      (t.localTime minutes).HasCivilYear → ∀ nanos fraction zone, WritesFraction nanos fraction →
        WritesOffset minutes zone → ∀ sep ∈ ['T', 't', ' '],
          ofText? (.ofList ((t.localTime minutes).written sep (fraction ++ zone))) =
            some (t.withFraction nanos) := by
    intro minutes hlow hhigh hlocal nanos fraction zone hfraction hzone sep hsep
    rw [ofText?_ofList (trim_written hlocal sep
        (List.forall_mem_append.2 ⟨hfraction.plain, hzone.plain.2.2⟩)), ofTrimmed?,
      ofOffsetText?_localTime ht hyear.inRange hlow hhigh hlocal (by simpa using hsep) hfraction
        hzone]
    rfl
  refine ⟨?_, ?_, ?_, ?_, ?_⟩
  · have hutc : t.localTime 0 = t := by
      simp only [localTime, Int.mul_zero, Int.add_zero]
    have hread := hoffset 0 (by decide) (by decide) (hutc.symm ▸ hyear) 0 [] ['Z'] (.inl ⟨rfl, rfl⟩)
      (.inl ⟨rfl, .inl rfl⟩) 'T' (by decide)
    rw [hutc, withFraction_zero] at hread
    rw [stored_eq]
    exact hread
  · intro minutes hlow hhigh hlocal fraction zone hfraction hzone sep hsep
    rw [hoffset minutes hlow hhigh hlocal _ _ _ hfraction hzone sep hsep, ht.withFraction]
  · intro fraction hfraction sep hsep
    have hcase : sep = 'T' ∨ sep = ' ' := by simpa using hsep
    rw [ofText?_ofList (trim_written hyear sep hfraction.plain),
      ofTrimmed?_written ht hyear hcase hfraction, ht.withFraction]
  · rw [ofText?_ofList (trim_dateText hyear), ofTrimmed?_dateText hyear]
  · intro before after hbefore hafter text
    simp only [ofText?, String.toList_ofList, Text.trim_around hbefore hafter]

/-- In the leap second at the end of 2016 the new year has begun east of Greenwich. -/
theorem ofText?_spelled_leapSecond :
    ofText? "2016-12-31T23:59:60Z" = some ⟨1483228799, 1000000000⟩ ∧
      ofText? "2017-01-01T05:29:60.5+05:30" = some ⟨1483228799, 1500000000⟩ ∧
      ofText? "2016-12-31 23:59:60.500" = some ⟨1483228799, 1500000000⟩ ∧
      ofText? "2016-12-31" = some ⟨1483142400, 0⟩ ∧
      ofText? "\t2016-12-31 " = ofText? "2016-12-31" := by
  have hwell : WellFormed ⟨1483228799, 1500000000⟩ := ⟨by decide, fun _ => by decide⟩
  have hyear : HasCivilYear ⟨1483228799, 1500000000⟩ := by decide +kernel
  obtain ⟨hstored, hoffset, hplain, hdate, hblanks⟩ := ofText?_spelled hwell hyear
  have hhalf : ∀ digits, Digits digits → digits ≠ [] →
      numberFrom 0 digits * nanosPerSecond = 500000000 * 10 ^ digits.length →
        WritesFraction 500000000 ('.' :: digits) :=
    fun digits hdigits hne hvalue => .inr ⟨digits, rfl, hne, hdigits, hvalue⟩
  refine ⟨hstored, ?_, ?_, hdate, ?_⟩
  · exact hoffset 330 (by decide) (by decide) (by decide +kernel) _ _
      (hhalf ['5'] (by decide) (by decide) (by decide))
      (.inr ⟨'+', .inl ⟨by decide, rfl⟩, rfl⟩) 'T' (by decide)
  · exact hplain _ (hhalf ['5', '0', '0'] (by decide) (by decide) (by decide)) ' ' (by decide)
  · exact hblanks ['\t'] [' '] (List.forall_mem_singleton.2 rfl) (List.forall_mem_singleton.2 rfl)
      "2016-12-31".toList

end FilterQuery.Instant
