import FilterQuery.Condition.Window
import FilterQuery.JoinPlan.Planning
import FilterQuery.LikePattern

/-!
# Resolving filters

A filter becomes a condition once a join plan says which alias stands for which path. Fields become
columns, operands become parameters of the kind of their field, and relations to many rows become
subqueries: a filter of such a relation, and the quantifiers, ask whether a related row satisfies
the filter. For "every row" the question is whether some row fails to satisfy it, so that a row for
which the filter is unknown counts as a failure, and so that "every" and "not one" hold where
there is no row at all.
-/

namespace FilterQuery

/-- The place in a filter that resolution has reached. -/
structure ResolveScope where
  /-- The entity whose rows are filtered. -/
  entity : String
  /-- The path from the root, unless it is the root. -/
  path : Option String
  /-- The alias of the rows. -/
  aliasName : String

namespace Resolution

/-! ## Fields -/

/-- The comparison that an operator is. -/
def comparison? : Operator → Option Comparison
  | .eq => some .eq
  | .ne => some .ne
  | .gt => some .gt
  | .after => some .gt
  | .gte => some .gte
  | .lt => some .lt
  | .before => some .lt
  | .lte => some .lte
  | _ => none

/-- The place of the literal text that an operator looks for. -/
def literalPosition? : Operator → Option LikePattern.Position
  | .contains => some .anywhere
  | .icontains => some .anywhere
  | .notContains => some .anywhere
  | .startsWith => some .atStart
  | .endsWith => some .atEnd
  | _ => none

/-- Whether an operator has no regard to case. -/
def ignoresCase (op : Operator) : Bool :=
  op == .ilike || op == .icontains

/-- Whether an operator holds where its pattern does not match. -/
def isNegated (op : Operator) : Bool :=
  op == .notLike || op == .notContains

/-- The error of an operand that does not suit. -/
def badOperand (test : FieldTest) : FilterError :=
  .unresolved (.badOperand test.field test.op.name)

/-- An operand as a parameter of a kind. -/
def parameter (test : FieldTest) (kind : ValueKind) (value : Value) :
    Except FilterError Parameter :=
  match kind.coerce value with
  | some p => .ok p
  | none => .error (badOperand test)

/-- Operands as parameters of a kind. -/
def parameters (test : FieldTest) (kind : ValueKind) :
    List Value → Except FilterError (List Parameter)
  | [] => .ok []
  | v :: vs => do
    let p ← parameter test kind v
    let ps ← parameters test kind vs
    .ok (p :: ps)

/-- A test with a pattern as a condition. -/
def patternTest (test : FieldTest) (column : ColumnRef) (text : String) :
    Except FilterError Condition :=
  match literalPosition? test.op with
  | some position =>
    .ok (.like column (LikePattern.literalText position text) (ignoresCase test.op) true
      (isNegated test.op))
  | none => .ok (.like column text (ignoresCase test.op) false (isNegated test.op))

/-- A test with one operand as a condition. -/
def singleTest (now : Instant) (test : FieldTest) (kind : ValueKind) (column : ColumnRef)
    (value : Value) : Except FilterError Condition :=
  match test.op, value with
  | .isNull, .bool isNull => .ok (.isNull column (!isNull))
  | .lastNDays, .integer days => Window.lastDays now days column
  | .olderThanDays, .integer days => Window.olderThan now days column
  | op, value =>
    match op.isPattern, value with
    | true, .text text => patternTest test column text
    | _, value =>
      match comparison? op with
      | none => .error (badOperand test)
      | some comparison => (parameter test kind value).map (.compare column comparison)

/-- A test with a list of operands as a condition. An empty list has no member. -/
def listTest (test : FieldTest) (kind : ValueKind) (column : ColumnRef) (values : List Value) :
    Except FilterError Condition :=
  if test.op = .isIn || test.op = .notIn then do
    let ps ← parameters test kind values
    let negated := test.op == .notIn
    if ps.isEmpty then .ok (if negated then .always else .never)
    else .ok (.isIn column ps negated)
  else .error (badOperand test)

/-- A test on a column of a kind as a condition. -/
def operandTest (now : Instant) (test : FieldTest) (kind : ValueKind) (column : ColumnRef) :
    Except FilterError Condition :=
  match test.operand with
  | .nothing =>
    if test.op.isRelativeDate then Window.ofOperator test.op now column
    else .error (badOperand test)
  | .single value => singleTest now test kind column value
  | .pair low high =>
    if test.op = .between then do
      let low ← parameter test kind low
      let high ← parameter test kind high
      .ok (.between column low high)
    else .error (badOperand test)
  | .list values => listTest test kind column values

/-- The field of a test. Its absence is a fault of the filter's construction. -/
def fieldOf (registry : Registry) (entity name : String) : Except FilterError Field :=
  match registry.find? entity with
  | none => .error (.unresolved (.unknownEntity entity))
  | some e =>
    match e.field? name with
    | none => .error (.unresolved (.unknownField entity name))
    | some f => .ok f

/-- A test on a field as a condition. -/
def fieldTest (registry : Registry) (now : Instant) (test : FieldTest) (scope : ResolveScope) :
    Except FilterError Condition := do
  let field ← fieldOf registry scope.entity test.field
  if !test.op.supports field.kind then
    .error (.unresolved (.unsupported test.op.name test.field field.kind.name))
  else operandTest now test field.kind ⟨scope.aliasName, field.column⟩

/-- The tests on fields of a filter as conditions. -/
def fieldTests (registry : Registry) (now : Instant) (scope : ResolveScope) :
    List FieldTest → Except FilterError (List Condition)
  | [] => .ok []
  | t :: ts => do
    let c ← fieldTest registry now t scope
    let cs ← fieldTests registry now scope ts
    .ok (c :: cs)

/-! ## Pieces of SQL -/

/-- The word in a piece of SQL for which the alias of its place is put in. -/
def aliasWord : List Char :=
  ['\x7b', 'a', 'l', 'i', 'a', 's', '\x7d']

/-- A text in which another takes the place of every occurrence of a word; `skip` characters of an
occurrence are still to be passed over. -/
def replaceWord (word replacement : List Char) : Nat → List Char → List Char
  | _, [] => []
  | skip + 1, _ :: cs => replaceWord word replacement skip cs
  | 0, c :: cs =>
    if word.isPrefixOf (c :: cs) then
      replacement ++ replaceWord word replacement (word.length - 1) cs
    else c :: replaceWord word replacement 0 cs

/-- A piece of SQL as a condition. It needs as many values as it has markers. -/
def rawTest (sql : String) (values : List Parameter) (scope : ResolveScope) :
    Except FilterError Condition :=
  let sql := String.ofList (replaceWord aliasWord scope.aliasName.toList 0 sql.toList)
  let markers := LikePattern.countMarkers sql
  if markers = values.length then .ok (.raw sql values)
  else .error (.unresolved (.markerCount markers values.length))

/-! ## Relations -/

/-- The join of a relation below a place, and the place of its target. -/
def child (plan : JoinPlan) (name : String) (scope : ResolveScope) :
    Except FilterError (PlannedJoin × ResolveScope) :=
  let path := JoinPlan.childPath scope.path name
  match plan.find? path with
  | none => .error (.unresolved (.unplanned path))
  | some join => .ok (join, ⟨join.target, some path, join.aliasName⟩)

/-- A relation that must lead to many rows. -/
def collection (plan : JoinPlan) (name : String) (scope : ResolveScope) :
    Except FilterError (PlannedJoin × ResolveScope) := do
  let (join, scope) ← child plan name scope
  if join.relation.isMany then .ok (join, scope)
  else .error (.unresolved (.notACollection join.path))

/-- The condition that a quantified number of related rows satisfies a condition. -/
def quantified (plan : JoinPlan) (join : PlannedJoin) (quantifier : Quantifier)
    (inner : Condition) : Condition :=
  match quantifier with
  | .any => .hasRow (plan.subquery join inner) false
  | .all => .hasRow (plan.subquery join (.notTrue inner)) true
  | .none => .hasRow (plan.subquery join inner) true

/-- The comparison of a number of rows. -/
def sizeComparison : SizeOp → Comparison
  | .eq => .eq
  | .gt => .gt
  | .gte => .gte
  | .lt => .lt
  | .lte => .lte

/-- The condition that the number of related rows compares with a given one. -/
def sized (plan : JoinPlan) (join : PlannedJoin) (op : SizeOp) (count : Nat) :
    Except FilterError Condition :=
  if (count : Int) ≤ maxInt64 then
    .ok (.rowCount (plan.subquery join .always) (sizeComparison op) count)
  else .error (.unresolved (.sizeOutOfRange count join.path))

/-- The condition that a filter of a relation makes: on the joined row itself, or that there is a
row in the collection. -/
def nestedCondition (plan : JoinPlan) (join : PlannedJoin) (inner : Condition) : Condition :=
  if join.relation.isMany then .hasRow (plan.subquery join inner) false else inner

/-! ## Filters -/

mutual

/-- A filter as a condition. -/
def filter (registry : Registry) (plan : JoinPlan) (now : Instant) :
    Filter → ResolveScope → Except FilterError Condition
  | .field test, scope => fieldTest registry now test scope
  | .all items, scope => do
    let cs ← filters registry plan now items scope
    .ok (.allOf cs)
  | .any items, scope => do
    let cs ← filters registry plan now items scope
    .ok (.anyOf cs)
  | .not item, scope => do
    let c ← filter registry plan now item scope
    .ok (.not c)
  | .entity f, scope => entityFilter registry plan now f scope
  | .related test, scope => relatedTest registry plan now test scope
  | .raw sql values, scope => rawTest sql values scope

/-- A filter of an entity as the conjunction of its parts. -/
def entityFilter (registry : Registry) (plan : JoinPlan) (now : Instant) :
    EntityFilter → ResolveScope → Except FilterError Condition
  | ⟨code, fields, nested, related, all, any, negated⟩, scope =>
    if code ≠ scope.entity then .error (.unresolved (.wrongEntity code scope.entity))
    else do
      let fields ← fieldTests registry now scope fields
      let nested ← nestedFilters registry plan now nested scope
      let related ← relatedTests registry plan now related scope
      let all ← filters registry plan now all scope
      let any ← filters registry plan now any scope
      let negated ← negatedFilter registry plan now negated scope
      let any := if any.isEmpty then [] else [Condition.anyOf any]
      .ok (.allOf (fields ++ nested ++ related ++ all ++ any ++ negated))

/-- A test on a collection as a condition. -/
def relatedTest (registry : Registry) (plan : JoinPlan) (now : Instant) :
    RelatedTest → ResolveScope → Except FilterError Condition
  | .quantified relation quantifier f, scope => do
    let (join, inside) ← collection plan relation scope
    let inner ← filter registry plan now f inside
    .ok (quantified plan join quantifier inner)
  | .size relation op count, scope => do
    let (join, _) ← collection plan relation scope
    sized plan join op count

/-- Filters at one place as conditions. -/
def filters (registry : Registry) (plan : JoinPlan) (now : Instant) :
    List Filter → ResolveScope → Except FilterError (List Condition)
  | [], _ => .ok []
  | f :: fs, scope => do
    let c ← filter registry plan now f scope
    let cs ← filters registry plan now fs scope
    .ok (c :: cs)

/-- Filters of related entities as conditions. -/
def nestedFilters (registry : Registry) (plan : JoinPlan) (now : Instant) :
    List (String × Filter) → ResolveScope → Except FilterError (List Condition)
  | [], _ => .ok []
  | (relation, f) :: fs, scope => do
    let (join, inside) ← child plan relation scope
    let inner ← filter registry plan now f inside
    let cs ← nestedFilters registry plan now fs scope
    .ok (nestedCondition plan join inner :: cs)

/-- Tests on collections as conditions. -/
def relatedTests (registry : Registry) (plan : JoinPlan) (now : Instant) :
    List RelatedTest → ResolveScope → Except FilterError (List Condition)
  | [], _ => .ok []
  | t :: ts, scope => do
    let c ← relatedTest registry plan now t scope
    let cs ← relatedTests registry plan now ts scope
    .ok (c :: cs)

/-- A negated filter that may be missing, as no or one condition. -/
def negatedFilter (registry : Registry) (plan : JoinPlan) (now : Instant) :
    Option Filter → ResolveScope → Except FilterError (List Condition)
  | none, _ => .ok []
  | some f, scope => do
    let c ← filter registry plan now f scope
    .ok [.not c]

end

/-- The place of the root of a plan. -/
def rootScope (plan : JoinPlan) : ResolveScope :=
  ⟨plan.root, none, JoinPlan.rootAlias⟩

end Resolution

/-- A filter as a condition on the rows of a join plan, at a given time. -/
def Filter.resolve (registry : Registry) (plan : JoinPlan) (now : Instant) (filter : Filter) :
    Except FilterError Condition :=
  Resolution.filter registry plan now filter (Resolution.rootScope plan)

end FilterQuery
