import FilterQuery.Filter.Tree
import FilterQuery.LikePattern
import FilterQuery.Condition.Window
import FilterQuery.Schema.Registry
import FilterQuery.Proofs.Meaning.Database

/-!
# What filters mean

The meaning of a filter on a row of its entity, without aliases, joins and subqueries: a field is
the value of its column in the row, a single-valued relation leads to the related row or to a row of
nulls, and a test on a collection asks for the related rows. `Filter.meaning` is what a filter is
meant to say, against which compilation is measured.
-/

namespace FilterQuery

variable {Cell : Type}

/-! ## Related rows -/

namespace Database

/-- The rows of an entity. -/
def rowsOf (registry : Registry) (db : Database Cell) (code : String) : List (Row Cell) :=
  match registry.find? code with
  | some e => db.table e.table
  | none => []

/-- Whether a relation relates two rows: each pair of its columns is equal in them. -/
def relates (db : Database Cell) (relation : Relation) (row other : Row Cell) : Bool :=
  decide (Truth.all (relation.columns.map fun p => db.sameCell (row p.1) (other p.2)) = .holds)

/-- The rows to which a relation leads from a row. -/
def relatedRows (registry : Registry) (db : Database Cell) (relation : Relation) (row : Row Cell) :
    List (Row Cell) :=
  (db.rowsOf registry relation.target).filter (db.relates relation row)

/-- The row to which a single-valued relation leads from a row, or the row of nulls. -/
def relatedRow (registry : Registry) (db : Database Cell) (relation : Relation) (row : Row Cell) :
    Row Cell :=
  (db.relatedRows registry relation row).headD Row.null

/-- What a relation says of a row when something is said of the rows that it leads to: a
single-valued relation says it of the related row, and any other that it holds of some related
row. -/
def related (registry : Registry) (db : Database Cell) (code name : String) (row : Row Cell)
    (meaning : String → Row Cell → Truth) : Truth :=
  match registry.relation? code name with
  | some relation =>
    if relation.isMany then
      .ofBool ((db.relatedRows registry relation row).any fun other =>
        decide (meaning relation.target other = .holds))
    else meaning relation.target (db.relatedRow registry relation row)
  | none => .unknown

/-- A single-valued relation leads from each row to at most one. -/
def SingleValued (registry : Registry) (db : Database Cell) : Prop :=
  ∀ code name relation, registry.relation? code name = some relation → relation.isMany = false →
    ∀ row ∈ db.rowsOf registry code, (db.relatedRows registry relation row).length ≤ 1

end Database

/-! ## Tests on fields -/

/-- Whether a value compares with an operand of a kind. -/
def ValueKind.compared (kind : ValueKind) (db : Database Cell) (cell : Option Cell)
    (op : Comparison) (operand : Value) : Truth :=
  match kind.coerce operand with
  | some value => .ofTest cell fun cell => db.compare op cell value
  | none => .unknown

/-- Whether a value lies between two operands of a kind. -/
def ValueKind.between (kind : ValueKind) (db : Database Cell) (cell : Option Cell)
    (low high : Value) : Truth :=
  match kind.coerce low, kind.coerce high with
  | some low, some high => .ofTest cell fun cell => db.between cell low high
  | _, _ => .unknown

/-- Whether a value matches a pattern. -/
def Database.matchesPattern (db : Database Cell) (cell : Option Cell) (pattern : String)
    (ignoreCase escaped : Bool) : Truth :=
  .ofTest cell fun cell => db.like cell pattern ignoreCase escaped

/-- Whether a value holds a text at a position. -/
def Database.holdsText (db : Database Cell) (cell : Option Cell) (position : LikePattern.Position)
    (text : String) (ignoreCase : Bool) : Truth :=
  db.matchesPattern cell (LikePattern.literalText position text) ignoreCase true

/-- Whether a value lies before a time. -/
def Database.isBefore (db : Database Cell) (cell : Option Cell) (time : Instant) : Truth :=
  .ofTest cell fun cell => db.compare .lt cell (.timestamp time)

/-- Whether a value lies in a window of time, the start included and the end not. -/
def Database.isWithin (db : Database Cell) (cell : Option Cell) (start stop : Instant) : Truth :=
  Truth.and (.ofTest cell fun cell => db.compare .gte cell (.timestamp start))
    (db.isBefore cell stop)

/-- The meaning of a test on a field of a kind whose column has a value, at a given time. Tests that
a filter cannot be compiled with say nothing. -/
def FieldTest.meaning (db : Database Cell) (now : Instant) (kind : ValueKind) (test : FieldTest)
    (cell : Option Cell) : Truth :=
  match test.op, test.operand with
  | .eq, .single v => kind.compared db cell .eq v
  | .ne, .single v => kind.compared db cell .ne v
  | .gt, .single v => kind.compared db cell .gt v
  | .after, .single v => kind.compared db cell .gt v
  | .gte, .single v => kind.compared db cell .gte v
  | .lt, .single v => kind.compared db cell .lt v
  | .before, .single v => kind.compared db cell .lt v
  | .lte, .single v => kind.compared db cell .lte v
  | .between, .pair low high => kind.between db cell low high
  | .like, .single (.text s) => db.matchesPattern cell s false false
  | .ilike, .single (.text s) => db.matchesPattern cell s true false
  | .notLike, .single (.text s) => (db.matchesPattern cell s false false).not
  | .contains, .single (.text s) => db.holdsText cell .anywhere s false
  | .icontains, .single (.text s) => db.holdsText cell .anywhere s true
  | .notContains, .single (.text s) => (db.holdsText cell .anywhere s false).not
  | .startsWith, .single (.text s) => db.holdsText cell .atStart s false
  | .endsWith, .single (.text s) => db.holdsText cell .atEnd s false
  | .isIn, .list vs => .any (vs.map (kind.compared db cell .eq))
  | .notIn, .list vs => (Truth.any (vs.map (kind.compared db cell .eq))).not
  | .isNull, .single (.bool b) => .ofBool (cell.isNone == b)
  | .lastNDays, .single (.integer n) =>
    match now.subDays? n with
    | some start => db.isWithin cell start now
    | none => .unknown
  | .olderThanDays, .single (.integer n) =>
    match now.subDays? n with
    | some stop => db.isBefore cell stop
    | none => .unknown
  | op, .nothing =>
    match Window.calendar? op now with
    | some (some start, some stop) => db.isWithin cell start stop
    | _ => .unknown
  | _, _ => .unknown

/-- The meaning of a test on a field of an entity, on a row of the entity. -/
def FieldTest.meaningAt (registry : Registry) (db : Database Cell) (now : Instant) (code : String)
    (row : Row Cell) (test : FieldTest) : Truth :=
  match (registry.find? code).bind fun e => e.field? test.field with
  | some field => test.meaning db now field.kind (row field.column)
  | none => .unknown

/-! ## Tests on collections -/

/-- The comparison of a number of rows with another. -/
def SizeOp.test : SizeOp → Nat → Nat → Bool
  | .eq, m, n => m == n
  | .gt, m, n => decide (n < m)
  | .gte, m, n => decide (n ≤ m)
  | .lt, m, n => decide (m < n)
  | .lte, m, n => decide (m ≤ n)

/-- Whether a quantified number of rows makes a test hold. A row for which the test is unknown does
not make it hold. -/
def Quantifier.test (quantifier : Quantifier) (rows : List (Row Cell)) (test : Row Cell → Truth) :
    Bool :=
  match quantifier with
  | .any => rows.any fun row => decide (test row = .holds)
  | .all => rows.all fun row => decide (test row = .holds)
  | .none => !rows.any fun row => decide (test row = .holds)

/-! ## Filters -/

mutual

/-- The meaning of a filter on a row of an entity. -/
def Filter.meaning (registry : Registry) (db : Database Cell) (now : Instant) :
    Filter → String → Row Cell → Truth
  | .field test, code, row => test.meaningAt registry db now code row
  | .all items, code, row => .all (Filter.meanings registry db now items code row)
  | .any items, code, row => .any (Filter.meanings registry db now items code row)
  | .not item, code, row => (Filter.meaning registry db now item code row).not
  | .entity filter, code, row => EntityFilter.meaning registry db now filter code row
  | .related test, code, row => RelatedTest.meaning registry db now test code row
  | .raw _ _, _, _ => .unknown

/-- The meaning of a filter of an entity: the conjunction of its parts. -/
def EntityFilter.meaning (registry : Registry) (db : Database Cell) (now : Instant) :
    EntityFilter → String → Row Cell → Truth
  | ⟨_, fields, nested, related, all, any, negated⟩, code, row =>
    .all (fields.map (FieldTest.meaningAt registry db now code row) ++
      Filter.nestedMeanings registry db now nested code row ++
      RelatedTest.meanings registry db now related code row ++
      Filter.meanings registry db now all code row ++
      (if any.isEmpty then [] else [.any (Filter.meanings registry db now any code row)]) ++
      Filter.negatedMeaning registry db now negated code row)

/-- The meaning of a test on the rows that a relation leads to. -/
def RelatedTest.meaning (registry : Registry) (db : Database Cell) (now : Instant) :
    RelatedTest → String → Row Cell → Truth
  | .quantified name quantifier filter, code, row =>
    match registry.relation? code name with
    | some relation =>
      .ofBool (quantifier.test (db.relatedRows registry relation row) fun other =>
        Filter.meaning registry db now filter relation.target other)
    | none => .unknown
  | .size name op count, code, row =>
    match registry.relation? code name with
    | some relation => .ofBool (op.test (db.relatedRows registry relation row).length count)
    | none => .unknown

/-- The meanings of filters on one row. -/
def Filter.meanings (registry : Registry) (db : Database Cell) (now : Instant) :
    List Filter → String → Row Cell → List Truth
  | [], _, _ => []
  | f :: fs, code, row =>
    Filter.meaning registry db now f code row :: Filter.meanings registry db now fs code row

/-- The meanings of filters of related entities. -/
def Filter.nestedMeanings (registry : Registry) (db : Database Cell) (now : Instant) :
    List (String × Filter) → String → Row Cell → List Truth
  | [], _, _ => []
  | (name, f) :: fs, code, row =>
    (db.related registry code name row fun target other =>
        Filter.meaning registry db now f target other) ::
      Filter.nestedMeanings registry db now fs code row

/-- The meanings of tests on collections. -/
def RelatedTest.meanings (registry : Registry) (db : Database Cell) (now : Instant) :
    List RelatedTest → String → Row Cell → List Truth
  | [], _, _ => []
  | t :: ts, code, row =>
    RelatedTest.meaning registry db now t code row ::
      RelatedTest.meanings registry db now ts code row

/-- The meaning of a negated filter that may be missing. -/
def Filter.negatedMeaning (registry : Registry) (db : Database Cell) (now : Instant) :
    Option Filter → String → Row Cell → List Truth
  | none, _, _ => []
  | some f, code, row => [(Filter.meaning registry db now f code row).not]

end

/-! ## Meanings of lists -/

section

variable {registry : Registry} {db : Database Cell} {now : Instant}

theorem Filter.meanings_eq_map (fs : List Filter) (code : String) (row : Row Cell) :
    Filter.meanings registry db now fs code row =
      fs.map fun f => f.meaning registry db now code row := by
  induction fs with
  | nil => rfl
  | cons f fs ih => rw [Filter.meanings, ih, List.map_cons]

theorem RelatedTest.meanings_eq_map (ts : List RelatedTest) (code : String) (row : Row Cell) :
    RelatedTest.meanings registry db now ts code row =
      ts.map fun t => (Filter.related t).meaning registry db now code row := by
  induction ts with
  | nil => rfl
  | cons t ts ih => rw [RelatedTest.meanings, ih, List.map_cons, Filter.meaning]

theorem Filter.negatedMeaning_eq_map (f? : Option Filter) (code : String) (row : Row Cell) :
    Filter.negatedMeaning registry db now f? code row =
      f?.toList.map fun f => (f.meaning registry db now code row).not := by
  cases f? <;> rfl

theorem Filter.nestedMeanings_eq_map (fs : List (String × Filter)) (code : String)
    (row : Row Cell) :
    Filter.nestedMeanings registry db now fs code row = fs.map fun p =>
      db.related registry code p.1 row fun target other =>
        p.2.meaning registry db now target other := by
  induction fs with
  | nil => rfl
  | cons p fs ih => rw [Filter.nestedMeanings, ih, List.map_cons]

end

end FilterQuery
