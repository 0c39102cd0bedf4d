import FilterQuery.Proofs.Calendar.Periods
import FilterQuery.Proofs.Meaning.FieldTests
import FilterQuery.Proofs.Condition.Compiling
import FilterQuery.Proofs.Schema.Catalog

/-!
# Relative dates

On a database that compares points in time by their order, the tests of a field against the clock
say of a point in time in which period it lies: the current day, week, month or year, or the one
before, and on which side of the beginning of the last days (`Resolution.relative_dates_exact`).
-/

namespace FilterQuery

/-! ## Comparing points in time -/

/-- Whether a point in time compares with another. -/
def Comparison.testInstants : Comparison → Instant → Instant → Bool
  | .eq, a, b => decide (a = b)
  | .ne, a, b => decide (a ≠ b)
  | .gt, a, b => decide (b < a)
  | .gte, a, b => decide (b ≤ a)
  | .lt, a, b => decide (a < b)
  | .lte, a, b => decide (a ≤ b)

namespace Database

variable {Cell : Type} {db : Database Cell} {time : Cell → Instant}

/-- A database of values that stand for points in time and are compared as these are. -/
def ComparesTimes (db : Database Cell) (time : Cell → Instant) : Prop :=
  ∀ op cell s, db.compare op cell (.timestamp s) = .ofBool (op.testInstants (time cell) s)

theorem ComparesTimes.isBefore (hdb : db.ComparesTimes time) (value : Option Cell)
    (stop : Instant) :
    db.isBefore value stop = .ofTest value fun cell => .ofBool (decide (time cell < stop)) := by
  cases value with
  | none => rfl
  | some cell => exact hdb .lt cell stop

theorem ComparesTimes.isWithin (hdb : db.ComparesTimes time) (value : Option Cell)
    (start stop : Instant) :
    db.isWithin value start stop =
      .ofTest value fun cell => .ofBool (decide (start ≤ time cell ∧ time cell < stop)) := by
  rw [Database.isWithin, hdb.isBefore]
  cases value with
  | none => rfl
  | some cell =>
    have hstart : db.compare .gte cell (.timestamp start) =
        .ofBool (decide (start ≤ time cell)) := hdb .gte cell start
    simp only [Truth.ofTest, hstart, Truth.and_ofBool, Bool.decide_and]

end Database

/-- The instants from the first midnight of a period to that of the next are those of its days. -/
theorem Period.within_iff (p : Period) (t : Instant) (i : Int) :
    Instant.midnight (p.first i) ≤ t ∧ t < Instant.midnight (p.first (i + 1)) ↔
      p.number t.dayNumber = i := by
  rw [Instant.midnight_le_iff, Instant.lt_midnight_iff, p.number_eq_iff]

namespace Resolution

/-- A test of a field becomes, at a place, a condition that says of the points in time in a column
what is said here, on every database that compares them by their order. -/
def TestsTime (registry : Registry) (now : Instant) (test : FieldTest) (scope : ResolveScope)
    (column : ColumnRef) (said : Instant → Bool) : Prop :=
  ∃ c, fieldTest registry now test scope = .ok c ∧
    ∀ {Cell : Type} (db : Database Cell) (time : Cell → Instant), db.ComparesTimes time →
      ∀ env : Env Cell, c.eval db env =
        .ofTest (column.value env) fun cell => .ofBool (said (time cell))

variable {registry : Registry} {scope : ResolveScope} {entity : Entity} {name : String}
  {field : Field} {now : Instant}

/-! ## What tests become -/

/-- A test of a field of times becomes what its operator makes of the clock. -/
theorem fieldTest_of_datetime (hentity : registry.find? scope.entity = some entity)
    (hfield : entity.field? name = some field) (hkind : field.kind = .datetime) {op : Operator}
    (hop : op.isRelativeDate = true) {operand : Operand} {c : Condition}
    (h : operandTest now ⟨name, op, operand⟩ .datetime ⟨scope.aliasName, field.column⟩ = .ok c) :
    fieldTest registry now ⟨name, op, operand⟩ scope = .ok c := by
  refine fieldTest_eq_ok.2 ⟨entity, field, hentity, hfield, ?_, ?_⟩
  · show op.supports field.kind = true
    rw [hkind, Operator.supports, hop]
    rfl
  · show operandTest now ⟨name, op, operand⟩ field.kind _ = .ok c
    rw [hkind]
    exact h

/-- An operator whose window is a calendar period says of a point in time that it lies in it. -/
theorem testsTime_of_period (hentity : registry.find? scope.entity = some entity)
    (hfield : entity.field? name = some field) (hkind : field.kind = .datetime) {op : Operator}
    (hop : op.isRelativeDate = true) {p : Period} {i : Int}
    (hwindow : Window.calendar? op now =
      some (some (.midnight (p.first i)), some (.midnight (p.first (i + 1))))) :
    TestsTime registry now ⟨name, op, .nothing⟩ scope ⟨scope.aliasName, field.column⟩
      (fun t => decide (p.number t.dayNumber = i)) := by
  refine ⟨Window.condition ⟨scope.aliasName, field.column⟩ (.midnight (p.first i))
    (.midnight (p.first (i + 1))), fieldTest_of_datetime hentity hfield hkind hop ?_, ?_⟩
  · simp only [operandTest, hop, if_true, Window.ofOperator, hwindow]
  · intro Cell db time hdb env
    simp only [eval_windowCondition, hdb.isWithin, p.within_iff]

/-- The test for the last days says of a point in time that it lies between their start and the
clock. -/
theorem testsTime_lastNDays (hentity : registry.find? scope.entity = some entity)
    (hfield : entity.field? name = some field) (hkind : field.kind = .datetime) {days : Int}
    {start : Instant} (hstart : now.subDays? days = some start) :
    TestsTime registry now ⟨name, .lastNDays, .single (.integer days)⟩ scope
      ⟨scope.aliasName, field.column⟩ (fun t => decide (start ≤ t ∧ t < now)) := by
  refine ⟨Window.condition ⟨scope.aliasName, field.column⟩ start now,
    fieldTest_of_datetime hentity hfield hkind rfl ?_, ?_⟩
  · simp only [operandTest, singleTest, Window.lastDays, hstart]
  · intro Cell db time hdb env
    rw [eval_windowCondition, hdb.isWithin]

/-- The test for what is older says of a point in time that it lies before their start. -/
theorem testsTime_olderThanDays (hentity : registry.find? scope.entity = some entity)
    (hfield : entity.field? name = some field) (hkind : field.kind = .datetime) {days : Int}
    {start : Instant} (hstart : now.subDays? days = some start) :
    TestsTime registry now ⟨name, .olderThanDays, .single (.integer days)⟩ scope
      ⟨scope.aliasName, field.column⟩ (fun t => decide (t < start)) := by
  refine ⟨.compare ⟨scope.aliasName, field.column⟩ .lt (.timestamp start),
    fieldTest_of_datetime hentity hfield hkind rfl ?_, ?_⟩
  · simp only [operandTest, singleTest, Window.olderThan, hstart]
  · intro Cell db time hdb env
    exact hdb.isBefore _ start

/-- The start of an allowed number of last days. -/
theorem subDays?_of_allowed (hnow : now.Central) (hleap : now.isLeapSecond = false) {days : Int}
    (hlow : 0 ≤ days) (hhigh : days ≤ maxRelativeDays) :
    now.subDays? days = some ⟨now.seconds - days * Instant.secondsPerDay, now.nanos⟩ := by
  obtain ⟨moved, hmoved⟩ := Instant.subDays?_central hnow hlow hhigh
  rw [Instant.subDays?_of_not_leap hleap] at hmoved ⊢
  split at hmoved
  · rename_i hrange
    rw [if_pos hrange]
  · cases hmoved

/-- Relative dates are exact. Where a place has a field of times and the clock is far from both ends
of time, the tests for the current day, week, month or year say of a point in time that it lies in
the same period as the clock, and those for the last one that it lies in the period right before it;
the windows of the two meet without overlapping. Outside leap seconds, the tests for a number of
last days and for what is older divide the points in time before the clock at that number of times
24 hours before it, and say nothing of the others. Of a missing value none of the tests says
anything. -/
theorem relative_dates_exact (hentity : registry.find? scope.entity = some entity)
    (hfield : entity.field? name = some field) (hkind : field.kind = .datetime)
    (hnow : now.Central) :
    let column : ColumnRef := ⟨scope.aliasName, field.column⟩
    (∀ p : Period,
      TestsTime registry now ⟨name, p.current, .nothing⟩ scope column
        (fun t => decide (p.number t.dayNumber = p.number now.dayNumber)) ∧
      TestsTime registry now ⟨name, p.previous, .nothing⟩ scope column
        (fun t => decide (p.number t.dayNumber = p.number now.dayNumber - 1)) ∧
      ∃ start middle stop, Window.calendar? p.previous now = some (some start, some middle) ∧
        Window.calendar? p.current now = some (some middle, some stop) ∧
        start < middle ∧ middle < stop ∧
        ∀ t, ¬((start ≤ t ∧ t < middle) ∧ (middle ≤ t ∧ t < stop))) ∧
    (now.isLeapSecond = false → ∀ days, 0 ≤ days → days ≤ maxRelativeDays →
      let start : Instant := ⟨now.seconds - days * Instant.secondsPerDay, now.nanos⟩
      TestsTime registry now ⟨name, .lastNDays, .single (.integer days)⟩ scope column
        (fun t => decide (start ≤ t ∧ t < now)) ∧
      TestsTime registry now ⟨name, .olderThanDays, .single (.integer days)⟩ scope column
        (fun t => decide (t < start)) ∧
      ∀ t, (t < now → ((start ≤ t ∧ t < now) ↔ ¬t < start)) ∧
        (now ≤ t → ¬(start ≤ t ∧ t < now) ∧ ¬t < start)) := by
  refine ⟨fun p => ⟨?_, ?_, ?_⟩, fun hleap days hlow hhigh => ⟨?_, ?_, ?_⟩⟩
  · have hop : p.current.isRelativeDate = true := by
      cases p <;> rfl
    exact testsTime_of_period hentity hfield hkind hop (Window.calendar?_current hnow p)
  · have hop : p.previous.isRelativeDate = true := by
      cases p <;> rfl
    refine testsTime_of_period hentity hfield hkind hop ?_
    rw [Int.sub_add_cancel]
    exact Window.calendar?_previous hnow p
  · have hmeet := p.first_lt_succ (p.number now.dayNumber - 1)
    rw [Int.sub_add_cancel] at hmeet
    refine ⟨_, _, _, Window.calendar?_previous hnow p, Window.calendar?_current hnow p, ?_, ?_, ?_⟩
    · rwa [Instant.lt_midnight_iff, Instant.dayNumber_midnight]
    · rw [Instant.lt_midnight_iff, Instant.dayNumber_midnight]
      exact p.first_lt_succ _
    · rintro t ⟨⟨-, hbefore⟩, hfrom, -⟩
      exact Instant.not_lt.2 hfrom hbefore
  · exact testsTime_lastNDays hentity hfield hkind (subDays?_of_allowed hnow hleap hlow hhigh)
  · exact testsTime_olderThanDays hentity hfield hkind
      (subDays?_of_allowed hnow hleap hlow hhigh)
  · intro t
    have hback : now.seconds - days * Instant.secondsPerDay ≤ now.seconds := by
      simp only [Instant.secondsPerDay]
      omega
    simp only [Instant.lt_iff, Instant.le_iff]
    constructor
    · intro hpast
      omega
    · intro hfuture
      omega

end Resolution

/-- A database of points in time that are compared by their order, and of no other test. -/
def Database.ofInstants : Database Instant where
  table _ := []
  compare op cell value :=
    match value with
    | .timestamp s => .ofBool (op.testInstants cell s)
    | _ => .unknown
  between _ _ _ := .unknown
  like _ _ _ _ := .unknown
  same _ _ := .unknown
  piece _ _ _ := .unknown

/-- The day before 1970-01-01 is of the same week, but of the last month. -/
theorem Resolution.relative_dates_exact_newYear :
    ∃ week month, fieldTest Catalog.registry ⟨0, 0⟩ ⟨"created_at", .thisWeek, .nothing⟩
        ⟨"card", none, "t0"⟩ = .ok week ∧
      fieldTest Catalog.registry ⟨0, 0⟩ ⟨"created_at", .lastMonth, .nothing⟩
        ⟨"card", none, "t0"⟩ = .ok month ∧
      week.eval Database.ofInstants (fun _ _ => some ⟨-1, 0⟩) = .holds ∧
      month.eval Database.ofInstants (fun _ _ => some ⟨-1, 0⟩) = .holds ∧
      month.eval Database.ofInstants (fun _ _ => some ⟨0, 0⟩) = .fails := by
  have hcard : Catalog.registry.find? (ResolveScope.entity ⟨"card", none, "t0"⟩) =
      some Catalog.card := rfl
  have hfield : Catalog.card.field? "created_at" = some ⟨"created_at", .datetime⟩ := rfl
  have hdb : Database.ofInstants.ComparesTimes id := fun _ _ _ => rfl
  obtain ⟨hperiods, -⟩ := relative_dates_exact hcard hfield rfl Instant.central_epoch
  obtain ⟨⟨week, hweek, hthis⟩, -⟩ := hperiods .week
  obtain ⟨-, ⟨month, hmonth, hlast⟩, -⟩ := hperiods .month
  refine ⟨week, month, hweek, hmonth, ?_, ?_, ?_⟩
  · rw [hthis _ id hdb]
    decide
  · rw [hlast _ id hdb]
    decide
  · rw [hlast _ id hdb]
    decide

end FilterQuery
