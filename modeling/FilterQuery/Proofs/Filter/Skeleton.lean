import FilterQuery.Calendar.Instant
import FilterQuery.JoinPlan.Planning
import FilterQuery.Proofs.Filter.Rules

/-!
# Skeletons of filters

The skeleton of a filter is everything about it but the values: its shape, names, operators,
quantifiers, the shapes and lengths of its operands, and the truth values of tests for null, which
choose between two forms of a test. What the skeleton leaves out are the *sources* of the filter,
the operands and sizes, to which the clock is added where a test depends on it; `Filter.sources`
lists them in the order of the tests. Planning looks at the skeleton only
(`JoinPlan.ofFilter_skeleton`).
-/

namespace FilterQuery

/-! ## Skeletons -/

/-- What is left of a value: the truth value of a test for null, and nothing of any other. -/
def Value.skeleton (op : Operator) : Value → Value
  | .bool b => if op = .isNull then .bool b else .null
  | _ => .null

/-- An operand without its values. -/
def Operand.skeleton (op : Operator) : Operand → Operand
  | .nothing => .nothing
  | .single value => .single (value.skeleton op)
  | .pair _ _ => .pair .null .null
  | .list items => .list (items.map fun _ => .null)

/-- A test on a field without the values of its operand. -/
def FieldTest.skeleton (t : FieldTest) : FieldTest :=
  ⟨t.field, t.op, t.operand.skeleton t.op⟩

mutual

/-- A filter without its values. -/
def Filter.skeleton : Filter → Filter
  | .field test => .field test.skeleton
  | .all items => .all (Filter.skeletons items)
  | .any items => .any (Filter.skeletons items)
  | .not item => .not item.skeleton
  | .entity filter => .entity filter.skeleton
  | .related test => .related test.skeleton
  | .raw sql values => .raw sql (values.map fun _ => .null)

/-- A filter of an entity without its values. -/
def EntityFilter.skeleton : EntityFilter → EntityFilter
  | ⟨code, fields, nested, related, all, any, negated⟩ =>
    ⟨code, fields.map FieldTest.skeleton, Filter.nestedSkeletons nested,
      RelatedTest.skeletons related, Filter.skeletons all, Filter.skeletons any,
      Filter.optionalSkeleton negated⟩

/-- A test on a collection without its values. -/
def RelatedTest.skeleton : RelatedTest → RelatedTest
  | .quantified relation quantifier filter => .quantified relation quantifier filter.skeleton
  | .size relation op _ => .size relation op 0

/-- Filters without their values. -/
def Filter.skeletons : List Filter → List Filter
  | [] => []
  | f :: fs => f.skeleton :: Filter.skeletons fs

/-- Filters of related entities without their values. -/
def Filter.nestedSkeletons : List (String × Filter) → List (String × Filter)
  | [] => []
  | (relation, f) :: fs => (relation, f.skeleton) :: Filter.nestedSkeletons fs

/-- Tests on collections without their values. -/
def RelatedTest.skeletons : List RelatedTest → List RelatedTest
  | [] => []
  | t :: ts => t.skeleton :: RelatedTest.skeletons ts

/-- A filter that may be missing, without its values. -/
def Filter.optionalSkeleton : Option Filter → Option Filter
  | none => none
  | some f => some f.skeleton

end

theorem Filter.skeletons_eq_map (fs : List Filter) : skeletons fs = fs.map skeleton := by
  induction fs with
  | nil => rfl
  | cons f fs ih => rw [skeletons, ih, List.map_cons]

theorem Filter.nestedSkeletons_eq_map (fs : List (String × Filter)) :
    nestedSkeletons fs = fs.map fun p => (p.1, p.2.skeleton) := by
  induction fs with
  | nil => rfl
  | cons p fs ih => rw [nestedSkeletons, ih, List.map_cons]

theorem RelatedTest.skeletons_eq_map (ts : List RelatedTest) :
    skeletons ts = ts.map skeleton := by
  induction ts with
  | nil => rfl
  | cons t ts ih => rw [skeletons, ih, List.map_cons]

theorem Filter.optionalSkeleton_eq_map (f? : Option Filter) :
    optionalSkeleton f? = f?.map skeleton := by
  cases f? <;> rfl

/-! ### Filters of one skeleton -/

namespace Filter

variable {g : Filter}

theorem field_of_skeleton {t : FieldTest} (h : (field t).skeleton = g.skeleton) :
    ∃ u, g = .field u ∧ t.skeleton = u.skeleton := by
  cases g <;> simp_all [skeleton]

theorem all_of_skeleton {fs : List Filter} (h : (all fs).skeleton = g.skeleton) :
    ∃ gs, g = .all gs ∧ fs.map skeleton = gs.map skeleton := by
  cases g <;> simp_all [skeleton, skeletons_eq_map]

theorem any_of_skeleton {fs : List Filter} (h : (any fs).skeleton = g.skeleton) :
    ∃ gs, g = .any gs ∧ fs.map skeleton = gs.map skeleton := by
  cases g <;> simp_all [skeleton, skeletons_eq_map]

theorem not_of_skeleton {f : Filter} (h : (not f).skeleton = g.skeleton) :
    ∃ f', g = .not f' ∧ f.skeleton = f'.skeleton := by
  cases g <;> simp_all [skeleton]

theorem entity_of_skeleton {ef : EntityFilter} (h : (entity ef).skeleton = g.skeleton) :
    ∃ eg, g = .entity eg ∧ ef.skeleton = eg.skeleton := by
  cases g <;> simp_all [skeleton]

theorem quantified_of_skeleton {name : String} {q : Quantifier} {f : Filter}
    (h : (related (.quantified name q f)).skeleton = g.skeleton) :
    ∃ f', g = .related (.quantified name q f') ∧ f.skeleton = f'.skeleton := by
  cases g with
  | related u => cases u <;> simp_all [skeleton, RelatedTest.skeleton]
  | _ => simp [skeleton] at h

theorem size_of_skeleton {name : String} {op : SizeOp} {n : Nat}
    (h : (related (.size name op n)).skeleton = g.skeleton) :
    ∃ n', g = .related (.size name op n') := by
  cases g with
  | related u => cases u <;> simp_all [skeleton, RelatedTest.skeleton]
  | _ => simp [skeleton] at h

theorem raw_of_skeleton {sql : String} {values : List Parameter}
    (h : (raw sql values).skeleton = g.skeleton) :
    ∃ values', g = .raw sql values' ∧ values.length = values'.length := by
  cases g with
  | raw sql' values' =>
    simp only [skeleton, raw.injEq, List.map_const', List.replicate_inj] at h
    obtain ⟨rfl, hlength, -⟩ := h
    exact ⟨values', rfl, hlength⟩
  | _ => simp [skeleton] at h

end Filter

/-! ## Sources -/

/-- What a parameter is made from. -/
inductive Source where
  /-- An operand. -/
  | operand (value : Value)
  /-- The number that a size is compared with. -/
  | size (count : Nat)
  /-- The clock. -/
  | clock (now : Instant)
  /-- A number of days and the clock. -/
  | days (value : Value) (now : Instant)
  /-- A value that comes with a piece of SQL. -/
  | given (value : Parameter)

/-- What the parameters of a test on a field are made from, in order. A test for null has none, and
a window has a start and an end. -/
def FieldTest.sources (now : Instant) (t : FieldTest) : List Source :=
  match t.op, t.operand with
  | .isNull, _ => []
  | .lastNDays, .single value => [.days value now, .clock now]
  | .olderThanDays, .single value => [.days value now]
  | _, .nothing => [.clock now, .clock now]
  | _, .single value => [.operand value]
  | _, .pair low high => [.operand low, .operand high]
  | _, .list items => items.map .operand

mutual

/-- What the parameters of a filter are made from, in order. -/
def Filter.sources (now : Instant) : Filter → List Source
  | .field test => test.sources now
  | .all items => Filter.sourcesOfAll now items
  | .any items => Filter.sourcesOfAll now items
  | .not item => item.sources now
  | .entity filter => filter.sources now
  | .related test => test.sources now
  | .raw _ values => values.map .given

/-- What the parameters of a filter of an entity are made from. -/
def EntityFilter.sources (now : Instant) : EntityFilter → List Source
  | ⟨_, fields, nested, related, all, any, negated⟩ =>
    fields.flatMap (FieldTest.sources now) ++ Filter.sourcesOfNested now nested ++
      RelatedTest.sourcesOfAll now related ++ Filter.sourcesOfAll now all ++
      Filter.sourcesOfAll now any ++ Filter.sourcesOfOptional now negated

/-- What the parameters of a test on a collection are made from. -/
def RelatedTest.sources (now : Instant) : RelatedTest → List Source
  | .quantified _ _ filter => filter.sources now
  | .size _ _ count => [.size count]

/-- What the parameters of several filters are made from. -/
def Filter.sourcesOfAll (now : Instant) : List Filter → List Source
  | [] => []
  | f :: fs => f.sources now ++ Filter.sourcesOfAll now fs

/-- What the parameters of filters of related entities are made from. -/
def Filter.sourcesOfNested (now : Instant) : List (String × Filter) → List Source
  | [] => []
  | (_, f) :: fs => f.sources now ++ Filter.sourcesOfNested now fs

/-- What the parameters of several tests on collections are made from. -/
def RelatedTest.sourcesOfAll (now : Instant) : List RelatedTest → List Source
  | [] => []
  | t :: ts => t.sources now ++ RelatedTest.sourcesOfAll now ts

/-- What the parameters of a filter that may be missing are made from. -/
def Filter.sourcesOfOptional (now : Instant) : Option Filter → List Source
  | none => []
  | some f => f.sources now

end

theorem Filter.sourcesOfAll_eq_flatMap (now : Instant) (fs : List Filter) :
    sourcesOfAll now fs = fs.flatMap (sources now) := by
  induction fs with
  | nil => rfl
  | cons f fs ih => rw [sourcesOfAll, ih, List.flatMap_cons]

theorem Filter.sourcesOfNested_eq_flatMap (now : Instant) (fs : List (String × Filter)) :
    sourcesOfNested now fs = fs.flatMap fun p => p.2.sources now := by
  induction fs with
  | nil => rfl
  | cons p fs ih => rw [sourcesOfNested, ih, List.flatMap_cons]

theorem RelatedTest.sourcesOfAll_eq_flatMap (now : Instant) (ts : List RelatedTest) :
    sourcesOfAll now ts = ts.flatMap fun t => (Filter.related t).sources now := by
  induction ts with
  | nil => rfl
  | cons t ts ih => rw [sourcesOfAll, ih, List.flatMap_cons, Filter.sources]

theorem Filter.sourcesOfOptional_eq_flatMap (now : Instant) (f? : Option Filter) :
    sourcesOfOptional now f? = f?.toList.flatMap (sources now) := by
  cases f? with
  | none => rfl
  | some f => simp [sourcesOfOptional]

/-! ## Planning -/

namespace JoinPlan

variable {registry : Registry}

mutual

/-- Planning a filter plans its skeleton. -/
theorem addFilter_skeleton : ∀ (f : Filter) (scope : PlanScope) (plan : JoinPlan),
    addFilter registry f.skeleton scope plan = addFilter registry f scope plan
  | .field _, _, _ => rfl
  | .all items, scope, plan => by
    simp only [Filter.skeleton, addFilter, addItems_skeleton items]
  | .any items, scope, plan => by
    simp only [Filter.skeleton, addFilter, addItems_skeleton items]
  | .not item, scope, plan => by
    simp only [Filter.skeleton, addFilter, addFilter_skeleton item]
  | .entity filter, scope, plan => by
    simp only [Filter.skeleton, addFilter, addEntity_skeleton filter]
  | .related test, scope, plan => by
    simp only [Filter.skeleton, addFilter, addRelated_skeleton test]
  | .raw _ _, _, _ => rfl

theorem addEntity_skeleton : ∀ (f : EntityFilter) (scope : PlanScope) (plan : JoinPlan),
    addEntity registry f.skeleton scope plan = addEntity registry f scope plan
  | ⟨code, fields, nested, related, all, any, negated⟩, scope, plan => by
    simp only [EntityFilter.skeleton, addEntity, addNested_skeleton nested,
      addTests_skeleton related, addItems_skeleton all, addItems_skeleton any,
      addOptional_skeleton negated]

theorem addRelated_skeleton : ∀ (t : RelatedTest) (scope : PlanScope) (plan : JoinPlan),
    addRelated registry t.skeleton scope plan = addRelated registry t scope plan
  | .quantified relation quantifier filter, scope, plan => by
    simp only [RelatedTest.skeleton, addRelated, addFilter_skeleton filter]
  | .size _ _ _, _, _ => rfl

theorem addItems_skeleton : ∀ (fs : List Filter) (scope : PlanScope) (plan : JoinPlan),
    addItems registry (Filter.skeletons fs) scope plan = addItems registry fs scope plan
  | [], _, _ => rfl
  | f :: fs, scope, plan => by
    simp only [Filter.skeletons, addItems, addFilter_skeleton f, addItems_skeleton fs]

theorem addNested_skeleton : ∀ (fs : List (String × Filter)) (scope : PlanScope)
    (plan : JoinPlan),
    addNested registry (Filter.nestedSkeletons fs) scope plan = addNested registry fs scope plan
  | [], _, _ => rfl
  | (relation, f) :: fs, scope, plan => by
    simp only [Filter.nestedSkeletons, addNested, addFilter_skeleton f, addNested_skeleton fs]

theorem addTests_skeleton : ∀ (ts : List RelatedTest) (scope : PlanScope) (plan : JoinPlan),
    addTests registry (RelatedTest.skeletons ts) scope plan = addTests registry ts scope plan
  | [], _, _ => rfl
  | t :: ts, scope, plan => by
    simp only [RelatedTest.skeletons, addTests, addRelated_skeleton t, addTests_skeleton ts]

theorem addOptional_skeleton : ∀ (f? : Option Filter) (scope : PlanScope) (plan : JoinPlan),
    addOptional registry (Filter.optionalSkeleton f?) scope plan =
      addOptional registry f? scope plan
  | none, _, _ => rfl
  | some f, scope, plan => by
    simp only [Filter.optionalSkeleton, addOptional, addFilter_skeleton f]

end

/-- Filters of one skeleton have one plan. -/
theorem ofFilter_skeleton {f g : Filter} (h : f.skeleton = g.skeleton) (root : String) :
    ofFilter registry root f = ofFilter registry root g := by
  simp only [ofFilter]
  congr 1
  funext entity
  rw [← addFilter_skeleton f, h, addFilter_skeleton g]

end JoinPlan

end FilterQuery
