import FilterQuery.Proofs.Condition.Compiling
import FilterQuery.Proofs.Filter.Operands
import FilterQuery.Proofs.Schema.Catalog

/-!
# Checking operands and resolving them

An operand is looked at twice: the check asks whether it suits an operator and a kind, and resolving
makes a condition of it. Both go through the operators in an order of their own, and both accept the
same operands (`Resolution.operandTest_iff_check`), but for one class: the check bounds the days of
a window, and resolving makes a window of any number of days at which there is an instant
(`Operand.ExceedsDays`). The operands that are read from documents have the shape of their operator,
and no value in them is null or composed of others (`Operand.ofJson_shape`).
-/

namespace FilterQuery

namespace Value

/-- A value that is neither null nor composed of others. -/
def IsScalar (v : Value) : Prop :=
  v ≠ .null ∧ ∀ items, v ≠ .list items

end Value

namespace Operand

/-! ## The operands of documents -/

/-- The shape of an operand. -/
def shape : Operand → OperandShape
  | .nothing => .nothing
  | .single _ => .single
  | .pair _ _ => .pair
  | .list _ => .list

/-- The values that an operand is made of. -/
def values : Operand → List Value
  | .nothing => []
  | .single v => [v]
  | .pair low high => [low, high]
  | .list vs => vs

variable {name : String} {op : Operator} {kind : ValueKind}

theorem isScalar_of_scalar {json : Json} {v : Value} (h : scalar name op json = .ok v) :
    v.IsScalar := by
  rw [scalar] at h
  split at h
  · cases h
  · cases h
  · rename_i hnull hlist _
    cases h
    exact ⟨fun hv => hnull hv, fun items hv => hlist items hv⟩
  · cases h

theorem isScalar_of_scalars {js : List Json} {vs : List Value}
    (h : scalars name op js = .ok vs) : ∀ v ∈ vs, v.IsScalar := by
  induction js generalizing vs with
  | nil =>
    cases h
    exact List.forall_mem_nil _
  | cons j js ih =>
    obtain ⟨v, hv, rest, hrest, ⟨⟩⟩ : ∃ v, scalar name op j = .ok v ∧
        ∃ rest, scalars name op js = .ok rest ∧ Except.ok (v :: rest) = .ok vs := by
      simpa only [scalars, bind_eq_ok] using h
    exact List.forall_mem_cons.2 ⟨isScalar_of_scalar hv, ih hrest⟩

/-- What is read for an operator has the shape that it needs, of scalars. -/
theorem ofJson_shape {json : Json} {operand : Operand} (h : ofJson name op json = .ok operand) :
    operand.shape = op.shape ∧ ∀ v ∈ operand.values, v.IsScalar := by
  cases hshape : op.shape with
  | nothing =>
    simp only [ofJson, hshape] at h
    split at h
    · cases h
      exact ⟨rfl, List.forall_mem_nil _⟩
    · cases h
      exact ⟨rfl, List.forall_mem_nil _⟩
    · cases h
  | single =>
    obtain ⟨v, hv, rfl⟩ := (ofJson_single hshape).1 h
    exact ⟨rfl, List.forall_mem_singleton.2 (isScalar_of_scalar hv)⟩
  | pair =>
    obtain ⟨low, high, -, l, hl, r, hr, rfl⟩ := (ofJson_pair hshape).1 h
    exact ⟨rfl, List.forall_mem_cons.2
      ⟨isScalar_of_scalar hl, List.forall_mem_singleton.2 (isScalar_of_scalar hr)⟩⟩
  | list =>
    obtain ⟨items, -, vs, hvs, rfl⟩ := (ofJson_list hshape).1 h
    exact ⟨rfl, isScalar_of_scalars hvs⟩

/-! ## Windows of too many days -/

/-- The operand of a window of days is a number of days that is not allowed. -/
def ExceedsDays (op : Operator) (operand : Operand) (days : Int) : Prop :=
  (op = .lastNDays ∨ op = .olderThanDays) ∧ operand = .single (.integer days) ∧
    ¬(0 ≤ days ∧ days ≤ maxRelativeDays)

/-- The check of a window of days is whether the number is allowed. -/
theorem verdict_days (hop : op = .lastNDays ∨ op = .olderThanDays) (days : Int) :
    (verdict op kind (.single (.integer days))).1 = true ↔ 0 ≤ days ∧ days ≤ maxRelativeDays := by
  rcases hop with rfl | rfl
  · simp [verdict, isDayCount]
  · simp [verdict, isDayCount]

theorem ExceedsDays.not_check {operand : Operand} {days : Int} (h : ExceedsDays op operand days) :
    operand.check name op kind ≠ .ok () := by
  obtain ⟨hop, rfl, hdays⟩ := h
  rw [Ne, FilterDocument.check_eq_ok, verdict_days hop]
  exact hdays

end Operand

/-- The days by which an instant outside leap seconds can be moved back are those that lead to a
supported date. -/
theorem Instant.isSome_subDays? {now : Instant} (hleap : now.isLeapSecond = false) (days : Int) :
    (now.subDays? days).isSome = Date.inRange (now.dayNumber - days) := by
  rw [subDays?_of_not_leap hleap]
  split
  · rename_i hrange
    exact hrange.symm
  · rename_i hrange
    exact (Bool.not_eq_true _ ▸ hrange).symm

namespace Window

variable {now : Instant} {column : ColumnRef} {days : Int} {c : Condition}

theorem start_of_lastDays (h : lastDays now days column = .ok c) :
    ∃ start, now.subDays? days = some start := by
  rw [lastDays] at h
  split at h
  · rename_i start hstart
    exact ⟨start, hstart⟩
  · cases h

theorem start_of_olderThan (h : olderThan now days column = .ok c) :
    ∃ start, now.subDays? days = some start := by
  rw [olderThan] at h
  split at h
  · rename_i start hstart
    exact ⟨start, hstart⟩
  · cases h

/-- The operators that name a calendar period take no operand. -/
theorem shape_of_ofOperator {op : Operator} (h : ofOperator op now column = .ok c) :
    op.shape = .nothing := by
  cases op <;> first | rfl | cases h

end Window

namespace Resolution

variable {now : Instant} {t : FieldTest} {kind : ValueKind} {column : ColumnRef} {v : Value}

/-! ## What resolving asks for -/

theorem suits_of_parameter {p : Parameter} (h : parameter t kind v = .ok p) :
    Operand.suits kind v = true := by
  rw [parameter] at h
  split at h
  · rename_i hp
    rw [Operand.suits, hp]
    rfl
  · cases h

theorem suits_of_parameters {vs : List Value} {ps : List Parameter}
    (h : parameters t kind vs = .ok ps) : ∀ v ∈ vs, Operand.suits kind v = true := by
  induction vs generalizing ps with
  | nil => exact List.forall_mem_nil _
  | cons v vs ih =>
    obtain ⟨p, hp, rest, hrest, -⟩ : ∃ p, parameter t kind v = .ok p ∧
        ∃ rest, parameters t kind vs = .ok rest ∧ Except.ok (p :: rest) = .ok ps := by
      simpa only [parameters, bind_eq_ok] using h
    exact List.forall_mem_cons.2 ⟨suits_of_parameter hp, ih hrest⟩

/-- The ways in which a test with one operand becomes a condition. -/
inductive SingleCase (now : Instant) (t : FieldTest) (kind : ValueKind) : Value → Prop
  /-- A test for null is told which way to go. -/
  | null (b : Bool) (hop : t.op = .isNull) : SingleCase now t kind (.bool b)
  /-- A window of days begins at an instant. -/
  | days (days : Int) (start : Instant) (hop : t.op = .lastNDays ∨ t.op = .olderThanDays)
    (hstart : now.subDays? days = some start) : SingleCase now t kind (.integer days)
  /-- A pattern is a text. -/
  | pattern (text : String) (hop : t.op.isPattern = true) : SingleCase now t kind (.text text)
  /-- What a field is compared with suits its kind. -/
  | comparison (v : Value) (comparison : Comparison) (hop : comparison? t.op = some comparison)
    (hsuits : Operand.suits kind v = true) : SingleCase now t kind v

/-- A test with one operand becomes a condition in one of these ways only. -/
theorem singleCase_of_ok {c : Condition} (h : singleTest now t kind column v = .ok c) :
    SingleCase now t kind v := by
  unfold singleTest at h
  split at h
  · rename_i b hop
    exact .null b hop
  · rename_i days hop
    obtain ⟨start, hstart⟩ := Window.start_of_lastDays h
    exact .days days start (.inl hop) hstart
  · rename_i days hop
    obtain ⟨start, hstart⟩ := Window.start_of_olderThan h
    exact .days days start (.inr hop) hstart
  · split at h
    · rename_i hpattern _ _ _
      exact .pattern _ hpattern
    · split at h
      · cases h
      · rename_i comparison hcomparison
        obtain ⟨p, hp, -⟩ := map_eq_ok.1 h
        exact .comparison _ comparison hcomparison (suits_of_parameter hp)

/-- Comparisons are checked as such. -/
theorem verdict_of_comparison {comparison : Comparison} (h : comparison? t.op = some comparison) :
    (Operand.verdict t.op kind (.single v)).1 = Operand.suits kind v := by
  cases hop : t.op <;> rw [hop] at h <;> first | rfl | cases h

theorem verdict_of_pattern (h : t.op.isPattern = true) (text : String) :
    (Operand.verdict t.op kind (.single (.text text))).1 = true := by
  cases hop : t.op <;> rw [hop] at h <;> first | rfl | cases h

/-- What becomes a condition passes the check, or it is a window of too many days. -/
theorem SingleCase.check_or_exceeds (h : SingleCase now t kind v) :
    (Operand.verdict t.op kind (.single v)).1 = true ∨
      ∃ days start, Operand.ExceedsDays t.op (.single v) days ∧
        now.subDays? days = some start := by
  cases h with
  | null b hop =>
    rw [hop]
    exact .inl rfl
  | days days start hop hstart =>
    by_cases hallowed : 0 ≤ days ∧ days ≤ maxRelativeDays
    · exact .inl ((Operand.verdict_days hop days).2 hallowed)
    · exact .inr ⟨days, start, ⟨hop, rfl, hallowed⟩, hstart⟩
  | pattern text hop => exact .inl (verdict_of_pattern hop text)
  | comparison _ comparison hop hsuits =>
    rw [verdict_of_comparison hop]
    exact .inl hsuits

/-- A window of days with a start becomes a condition, however many days it has. -/
theorem singleTest_days (hop : t.op = .lastNDays ∨ t.op = .olderThanDays) {days : Int}
    {start : Instant} (hstart : now.subDays? days = some start) :
    ∃ c, singleTest now t kind column (.integer days) = .ok c := by
  rcases hop with hop | hop
  · exact ⟨Window.condition column start now,
      by simp only [singleTest, hop, Window.lastDays, hstart]⟩
  · exact ⟨.compare column .lt (.timestamp start),
      by simp only [singleTest, hop, Window.olderThan, hstart]⟩

theorem shape_of_isIn_or_notIn {op : Operator} (h : op = .isIn ∨ op = .notIn) :
    op.shape = .list := by
  rcases h with rfl | rfl
  · rfl
  · rfl

/-- What becomes a condition passes the check, or it is a window of too many days. -/
theorem check_or_exceeds {c : Condition} (h : operandTest now t kind column = .ok c) :
    t.operand.check t.field t.op kind = .ok () ∨
      ∃ days start, Operand.ExceedsDays t.op t.operand days ∧ now.subDays? days = some start := by
  rw [FilterDocument.check_eq_ok]
  rw [operandTest] at h
  split at h
  · rename_i hoperand
    split at h
    · have hshape := Window.shape_of_ofOperator h
      rw [hoperand]
      exact .inl (by simp only [Operand.verdict, hshape, beq_self_eq_true])
    · cases h
  · rename_i v hoperand
    rw [hoperand]
    exact (singleCase_of_ok h).check_or_exceeds
  · rename_i low high hoperand
    split at h
    · rename_i hop
      simp only [bind_eq_ok] at h
      obtain ⟨p, hp, q, hq, -⟩ := h
      have hlow := suits_of_parameter hp
      have hhigh := suits_of_parameter hq
      rw [hoperand, hop]
      exact .inl (by simp only [Operand.verdict, Operator.shape, hlow, hhigh, beq_self_eq_true,
        Bool.and_self])
    · cases h
  · rename_i vs hoperand
    rw [listTest] at h
    split at h
    · rename_i hop
      obtain ⟨ps, hps, -⟩ := bind_eq_ok.1 h
      have hshape := shape_of_isIn_or_notIn (by simpa using hop)
      have hall := List.all_eq_true.2 (suits_of_parameters hps)
      rw [hoperand]
      exact .inl (by simp only [Operand.verdict, hshape, hall, beq_self_eq_true, Bool.and_self])
    · cases h

/-- At a central instant, resolving accepts what the check accepts, and the windows of too many days
that begin at an instant. -/
theorem operandTest_iff_check (hnow : now.Central) (column : ColumnRef) :
    (∃ c, operandTest now t kind column = .ok c) ↔
      t.operand.check t.field t.op kind = .ok () ∨
        ∃ days start, Operand.ExceedsDays t.op t.operand days ∧
          now.subDays? days = some start := by
  constructor
  · rintro ⟨c, hc⟩
    exact check_or_exceeds hc
  · rintro (hcheck | ⟨days, start, ⟨hop, hoperand, -⟩, hstart⟩)
    · exact operandTest_ok hnow column hcheck
    · simp only [operandTest, hoperand]
      exact singleTest_days hop hstart

/-- Checking an operand and resolving the test of a field with it agree. Where a place has a field
of a kind that has the operator, and the clock is far from both ends of time, the test becomes a
condition just when the operand passes the check; but a number of days that the check refuses is
accepted where the days lead to a supported date. The operands of documents have the shape of their
operator and are made of scalars. -/
theorem fieldTest_agrees_with_check {registry : Registry} {scope : ResolveScope} {entity : Entity}
    {name : String} {field : Field} {op : Operator}
    (hentity : registry.find? scope.entity = some entity)
    (hfield : entity.field? name = some field) (hsupports : op.supports field.kind = true)
    (hnow : now.Central) :
    (∀ operand : Operand,
      ((∃ c, fieldTest registry now ⟨name, op, operand⟩ scope = .ok c) ↔
        operand.check name op field.kind = .ok () ∨
          ∃ days start, Operand.ExceedsDays op operand days ∧ now.subDays? days = some start) ∧
      ∀ days, Operand.ExceedsDays op operand days → operand.check name op field.kind ≠ .ok ()) ∧
    (now.isLeapSecond = false → ∀ days,
      (now.subDays? days).isSome = Date.inRange (now.dayNumber - days)) ∧
    ∀ json operand, Operand.ofJson name op json = .ok operand →
      operand.shape = op.shape ∧ ∀ v ∈ operand.values, v.IsScalar := by
  refine ⟨fun operand => ⟨?_, fun days => Operand.ExceedsDays.not_check⟩,
    Instant.isSome_subDays?, fun json operand => Operand.ofJson_shape⟩
  rw [← operandTest_iff_check (t := ⟨name, op, operand⟩) hnow ⟨scope.aliasName, field.column⟩]
  refine exists_congr fun c => ?_
  rw [fieldTest_eq_ok]
  constructor
  · rintro ⟨e, f, he, hf, -, hc⟩
    obtain rfl : entity = e := Option.some.inj (hentity ▸ he)
    obtain rfl : field = f := Option.some.inj (hfield ▸ hf)
    exact hc
  · intro hc
    exact ⟨entity, field, hentity, hfield, hsupports, hc⟩

/-- The check refuses a window of more days than are allowed, for which there is a condition. -/
theorem fieldTest_agrees_with_check_exceeding :
    (∃ c, fieldTest Catalog.registry ⟨0, 0⟩
        ⟨"created_at", .lastNDays, .single (.integer 365001)⟩ ⟨"card", none, "t0"⟩ = .ok c) ∧
      (Operand.single (.integer 365001)).check "created_at" .lastNDays .datetime ≠ .ok () := by
  have hcard : Catalog.registry.find? (ResolveScope.entity ⟨"card", none, "t0"⟩) =
      some Catalog.card := rfl
  have hfield : Catalog.card.field? "created_at" = some ⟨"created_at", .datetime⟩ := rfl
  have hsupports : Operator.lastNDays.supports .datetime = true := rfl
  obtain ⟨hagree, hrange, -⟩ :=
    fieldTest_agrees_with_check hcard hfield hsupports Instant.central_epoch
  have hexceeds : Operand.ExceedsDays .lastNDays (.single (.integer 365001)) 365001 :=
    ⟨.inl rfl, rfl, by decide⟩
  have hsome : (Instant.subDays? ⟨0, 0⟩ 365001).isSome = true := by
    rw [hrange rfl]
    decide
  obtain ⟨start, hstart⟩ := Option.isSome_iff_exists.1 hsome
  obtain ⟨hiff, hrefused⟩ := hagree (.single (.integer 365001))
  exact ⟨hiff.2 (.inr ⟨365001, start, hexceeds, hstart⟩), hrefused 365001 hexceeds⟩

end Resolution

end FilterQuery
