import FilterQuery.Operand

/-!
# Filter trees

A filter as a tree: tests on fields, the logical combinations, filters of one entity, tests on
collections of related rows, and pieces of SQL. The tree says nothing about tables and aliases;
these come in with the join plan.
-/

namespace FilterQuery

/-- A test on one field. -/
structure FieldTest where
  /-- The field. -/
  field : String
  /-- The operator. -/
  op : Operator
  /-- What the operator is applied to. -/
  operand : Operand

/-- How many of the related rows must satisfy a filter. -/
inductive Quantifier where
  /-- At least one. -/
  | any
  /-- Every one. -/
  | all
  /-- Not one. -/
  | none
deriving DecidableEq, Repr

/-- How a number of related rows is compared. -/
inductive SizeOp where
  /-- Equal. -/
  | eq
  /-- Greater. -/
  | gt
  /-- Greater or equal. -/
  | gte
  /-- Less. -/
  | lt
  /-- Less or equal. -/
  | lte
deriving DecidableEq, Repr

mutual

/-- A filter. -/
inductive Filter where
  /-- A test on a field of the current entity. -/
  | field (test : FieldTest)
  /-- Every item holds. -/
  | all (items : List Filter)
  /-- Some item holds. -/
  | any (items : List Filter)
  /-- The item does not hold. -/
  | not (item : Filter)
  /-- A filter of one entity. -/
  | entity (filter : EntityFilter)
  /-- A test on the rows that a relation leads to. -/
  | related (test : RelatedTest)
  /-- A piece of SQL with the values of its markers. -/
  | raw (sql : String) (parameters : List Parameter)

/-- The parts of a filter of one entity, all of which must hold. An empty list is a missing part,
also of `any`; without any part the filter holds for every row. -/
structure EntityFilter where
  /-- The entity. -/
  code : String
  /-- The tests on its fields. -/
  fields : List FieldTest
  /-- Filters of related entities, by relation. -/
  nested : List (String × Filter)
  /-- Tests on collections of related rows. -/
  related : List RelatedTest
  /-- Filters each of which must hold. -/
  all : List Filter
  /-- Filters one of which must hold. -/
  any : List Filter
  /-- A filter that must not hold. -/
  negated : Option Filter

/-- A test on the rows that a relation leads to. -/
inductive RelatedTest where
  /-- A number of them, as a quantifier says, satisfies a filter. -/
  | quantified (relation : String) (quantifier : Quantifier) (filter : Filter)
  /-- Their number compares with a given one. -/
  | size (relation : String) (op : SizeOp) (count : Nat)

end

namespace EntityFilter

/-- The filter of an entity that holds for every row. -/
def everything (code : String) : EntityFilter :=
  ⟨code, [], [], [], [], [], none⟩

/-- Whether a filter has no part. -/
def isEmpty (f : EntityFilter) : Bool :=
  f.fields.isEmpty && f.nested.isEmpty && f.related.isEmpty && f.all.isEmpty && f.any.isEmpty &&
    f.negated.isNone

end EntityFilter

/-! ## Counting conditions -/

mutual

/-- The number of tests in a filter: those on fields, those on collections, and pieces of SQL. -/
def Filter.conditionCount : Filter → Nat
  | .field _ => 1
  | .all items => Filter.countAll items
  | .any items => Filter.countAll items
  | .not item => item.conditionCount
  | .entity filter => filter.conditionCount
  | .related test => test.conditionCount
  | .raw _ _ => 1

/-- The number of tests in a filter of one entity. -/
def EntityFilter.conditionCount : EntityFilter → Nat
  | ⟨_, fields, nested, related, all, any, negated⟩ =>
    fields.length + Filter.countNested nested + Filter.countRelated related +
      (Filter.countAll all + Filter.countAll any + Filter.countOptional negated)

/-- The number of tests in a test on a collection: itself, and those of its filter. -/
def RelatedTest.conditionCount : RelatedTest → Nat
  | .quantified _ _ filter => 1 + filter.conditionCount
  | .size _ _ _ => 1

/-- The number of tests in several filters. -/
def Filter.countAll : List Filter → Nat
  | [] => 0
  | f :: fs => f.conditionCount + Filter.countAll fs

/-- The number of tests in the filters of several relations. -/
def Filter.countNested : List (String × Filter) → Nat
  | [] => 0
  | (_, f) :: fs => f.conditionCount + Filter.countNested fs

/-- The number of tests in several tests on collections. -/
def Filter.countRelated : List RelatedTest → Nat
  | [] => 0
  | t :: ts => t.conditionCount + Filter.countRelated ts

/-- The number of tests in a filter that may be missing. -/
def Filter.countOptional : Option Filter → Nat
  | none => 0
  | some f => f.conditionCount

end

end FilterQuery
