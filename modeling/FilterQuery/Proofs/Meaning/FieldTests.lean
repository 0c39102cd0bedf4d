import FilterQuery.Proofs.Condition.Resolving
import FilterQuery.Proofs.Meaning.Filter

/-!
# What tests on fields become

A test on a field that resolves becomes a condition that says of the column of the field what the
test means (`eval_fieldTest`): there is one lemma for each of the functions that make conditions of
operands.
-/

namespace FilterQuery.Resolution

variable {Cell : Type} {db : Database Cell} {env : Env Cell} {registry : Registry} {now : Instant}

/-! ## Operands -/

theorem parameter_eq_ok {t : FieldTest} {kind : ValueKind} {v : Value} {p : Parameter} :
    parameter t kind v = .ok p ↔ kind.coerce v = some p := by
  rw [parameter]
  cases kind.coerce v <;> simp

theorem parameters_eq_ok {t : FieldTest} {kind : ValueKind} {vs : List Value}
    {ps : List Parameter} : parameters t kind vs = .ok ps ↔ vs.map kind.coerce = ps.map some := by
  induction vs generalizing ps with
  | nil => cases ps <;> simp [parameters]
  | cons v vs ih =>
    simp only [parameters, bind_eq_ok, parameter_eq_ok, ih, Except.ok.injEq]
    cases ps with
    | nil => simp
    | cons q qs =>
      simp only [List.cons.injEq, List.map_cons]
      constructor
      · rintro ⟨p, hp, ps, hps, rfl, rfl⟩
        exact ⟨hp, hps⟩
      · rintro ⟨hp, hps⟩
        exact ⟨q, hp, qs, hps, rfl, rfl⟩

theorem eval_windowCondition (column : ColumnRef) (start stop : Instant) :
    (Window.condition column start stop).eval db env =
      db.isWithin (column.value env) start stop := by
  simp [Window.condition, Condition.eval, Condition.evals, Database.isWithin, Database.isBefore]

theorem meaning_nothing {t : FieldTest} {kind : ValueKind} {cell : Option Cell}
    (hoperand : t.operand = .nothing) :
    t.meaning db now kind cell = match Window.calendar? t.op now with
      | some (some start, some stop) => db.isWithin cell start stop
      | _ => .unknown := by
  obtain ⟨field, op, operand⟩ := t
  subst hoperand
  cases op <;> rfl

theorem eval_ofOperator {t : FieldTest} {kind : ValueKind} {column : ColumnRef} {c : Condition}
    (hoperand : t.operand = .nothing) (h : Window.ofOperator t.op now column = .ok c) :
    c.eval db env = t.meaning db now kind (column.value env) := by
  rw [Window.ofOperator] at h
  split at h
  · rename_i start stop hwindow
    obtain rfl := Except.ok.inj h
    rw [eval_windowCondition, meaning_nothing hoperand, hwindow]
  · cases h
  · cases h

theorem eval_patternTest {t : FieldTest} {kind : ValueKind} {column : ColumnRef} {text : String}
    {c : Condition} (hoperand : t.operand = .single (.text text)) (hop : t.op.isPattern = true)
    (h : patternTest t column text = .ok c) :
    c.eval db env = t.meaning db now kind (column.value env) := by
  obtain ⟨field, op, operand⟩ := t
  subst hoperand
  cases op <;> cases hop
  all_goals
    obtain rfl := Except.ok.inj h
    rfl

theorem eval_compareTest {t : FieldTest} {kind : ValueKind} {column : ColumnRef} {value : Value}
    {comparison : Comparison} {p : Parameter} (hoperand : t.operand = .single value)
    (hop : comparison? t.op = some comparison) (hp : kind.coerce value = some p) :
    (Condition.compare column comparison p).eval db env =
      t.meaning db now kind (column.value env) := by
  have hcompared : ∀ comparison, (Condition.compare column comparison p).eval db env =
      kind.compared db (column.value env) comparison value := by
    intro comparison
    rw [ValueKind.compared, hp]
    rfl
  rw [hcompared]
  obtain ⟨field, op, operand⟩ := t
  subst hoperand
  cases op <;> cases hop <;> rfl

theorem eval_singleTest {t : FieldTest} {kind : ValueKind} {column : ColumnRef} {value : Value}
    {c : Condition} (hoperand : t.operand = .single value)
    (h : singleTest now t kind column value = .ok c) :
    c.eval db env = t.meaning db now kind (column.value env) := by
  unfold singleTest at h
  split at h
  · rename_i b hop
    obtain rfl := Except.ok.inj h
    simp only [Condition.eval, FieldTest.meaning, hop, hoperand]
    cases b <;> cases column.value env <;> rfl
  · rename_i days hop
    rw [Window.lastDays] at h
    split at h
    · rename_i start hstart
      obtain rfl := Except.ok.inj h
      simp only [eval_windowCondition, FieldTest.meaning, hop, hoperand, hstart]
    · cases h
  · rename_i days hop
    rw [Window.olderThan] at h
    split at h
    · rename_i stop hstop
      obtain rfl := Except.ok.inj h
      simp only [FieldTest.meaning, hop, hoperand, hstop]
      rfl
    · cases h
  · split at h
    · exact eval_patternTest hoperand (by assumption) h
    · split at h
      · cases h
      · rename_i hcomparison
        obtain ⟨p, hp, rfl⟩ := map_eq_ok.1 h
        exact eval_compareTest hoperand hcomparison (parameter_eq_ok.1 hp)

theorem any_compared {kind : ValueKind} {cell : Option Cell} {vs : List Value} {ps : List Parameter}
    (h : vs.map kind.coerce = ps.map some) :
    vs.map (kind.compared db cell .eq) =
      ps.map fun p => .ofTest cell fun cell => db.compare .eq cell p := by
  induction vs generalizing ps with
  | nil => cases ps <;> simp_all
  | cons v vs ih =>
    cases ps with
    | nil => simp at h
    | cons p ps =>
      obtain ⟨hp, hps⟩ := List.cons.inj h
      rw [List.map_cons, List.map_cons, ih hps, ValueKind.compared, hp]

theorem eval_listTest {t : FieldTest} {kind : ValueKind} {column : ColumnRef} {values : List Value}
    {c : Condition} (hoperand : t.operand = .list values)
    (h : listTest t kind column values = .ok c) :
    c.eval db env = t.meaning db now kind (column.value env) := by
  rw [listTest] at h
  split at h
  · rename_i hop
    obtain ⟨ps, hps, h⟩ := bind_eq_ok.1 h
    have hvalues : values.map (kind.compared db (column.value env) .eq) = _ :=
      any_compared (parameters_eq_ok.1 hps)
    obtain ⟨field, op, operand⟩ := t
    obtain rfl : operand = .list values := hoperand
    rw [Bool.or_eq_true, decide_eq_true_eq, decide_eq_true_eq] at hop
    rcases hop with rfl | rfl
    · show c.eval db env = Truth.any (values.map (kind.compared db (column.value env) .eq))
      rw [hvalues]
      cases ps <;> obtain rfl := Except.ok.inj h <;> rfl
    · show c.eval db env = (Truth.any (values.map (kind.compared db (column.value env) .eq))).not
      rw [hvalues]
      cases ps <;> obtain rfl := Except.ok.inj h <;> rfl
  · cases h

/-- A test on a field becomes a condition that says what the test means. -/
theorem eval_operandTest {t : FieldTest} {kind : ValueKind} {column : ColumnRef} {c : Condition}
    (h : operandTest now t kind column = .ok c) :
    c.eval db env = t.meaning db now kind (column.value env) := by
  rw [operandTest] at h
  split at h
  · rename_i hoperand
    split at h
    · exact eval_ofOperator hoperand h
    · cases h
  · rename_i value hoperand
    exact eval_singleTest hoperand h
  · rename_i low high hoperand
    split at h
    · rename_i hop
      simp only [bind_eq_ok, parameter_eq_ok] at h
      obtain ⟨lo, hlo, hi, hhi, h⟩ := h
      obtain rfl := Except.ok.inj h
      simp only [Condition.eval, FieldTest.meaning, ValueKind.between, hop, hoperand, hlo, hhi]
    · cases h
  · rename_i values hoperand
    exact eval_listTest hoperand h

theorem eval_fieldTest {t : FieldTest} {place : ResolveScope} {c : Condition}
    (h : fieldTest registry now t place = .ok c) :
    c.eval db env = t.meaningAt registry db now place.entity (env place.aliasName) := by
  obtain ⟨e, field, he, hfield, -, hc⟩ := fieldTest_eq_ok.1 h
  rw [eval_operandTest hc, FieldTest.meaningAt, he, Option.bind_some, hfield]
  rfl

end FilterQuery.Resolution
