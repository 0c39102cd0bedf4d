import FilterQuery.Filter.Tree
import FilterQuery.Filter.Limits
import FilterQuery.Schema.Registry
import FilterQuery.Json.Reader
import FilterQuery.Json.Printer

/-!
# Filters as documents

Reading a filter of an entity from a JSON document. An object whose keys are all logical words is
a combination of filters; any other object is a filter of the entity, in which

* `and`, `or` and `not` hold further filters of the same entity,
* a field holds an object from operators to operands,
* a relation holds a filter of its target, or, when it leads to many rows, an object from
  collection keywords to their operands.

Everything is checked against the registry while it is read: names, operators, operands, and the
limits. The number of conditions read so far is passed along, so that the first fault in the order
of the document is the one reported. The levels of nesting that are left bound the recursion.
-/

namespace FilterQuery

/-! ## Words -/

/-- The word for a conjunction. -/
def andWord : String := "and"

/-- The word for a disjunction. -/
def orWord : String := "or"

/-- The word for a negation. -/
def notWord : String := "not"

/-- Whether a key is a logical word. -/
def isLogicalWord (key : String) : Bool :=
  key == andWord || key == orWord || key == notWord

/-- What a keyword asks of a collection. -/
inductive CollectionKeyword where
  /-- How many rows satisfy a filter. -/
  | quantifier (quantifier : Quantifier)
  /-- Whether there are no rows, or some. -/
  | emptiness (empty : Bool)
  /-- How the number of rows compares. -/
  | size (op : SizeOp)
deriving DecidableEq, Repr

/-- The keyword that a key of a document is. -/
def CollectionKeyword.ofName? : String → Option CollectionKeyword
  | "any" => some (.quantifier .any)
  | "all" => some (.quantifier .all)
  | "none" => some (.quantifier .none)
  | "is_empty" => some (.emptiness true)
  | "is_not_empty" => some (.emptiness false)
  | "size_eq" => some (.size .eq)
  | "size_gt" => some (.size .gt)
  | "size_gte" => some (.size .gte)
  | "size_lt" => some (.size .lt)
  | "size_lte" => some (.size .lte)
  | _ => none

/-- Whether a key is a keyword of collections. -/
def isCollectionKeyword (key : String) : Bool :=
  (CollectionKeyword.ofName? key).isSome

/-- What messages call a relation in the place of the kind of a field. -/
def Relation.kindName (r : Relation) : String :=
  if r.isMany then "collection relation" else "single-valued relation"

/-- Whether a value is an object. -/
def Json.isObject : Json → Bool
  | .object _ => true
  | _ => false

namespace FilterDocument

/-- Reads a part of a document, from the number of conditions before it to the number after it. -/
abbrev PartReader (α : Type) := Json → Nat → Except FilterError (α × Nat)

/-- The number of conditions after one more. -/
def countCondition (limits : FilterLimits) (count : Nat) : Except FilterError Nat :=
  if limits.maxConditions < count + 1 then
    .error (.tooComplex (.conditions limits.maxConditions))
  else .ok (count + 1)

/-! ## Logical words -/

/-- Reads the items of a logical word. -/
def readItems (read : PartReader Filter) (word : String) :
    List Json → Nat → Except FilterError (List Filter × Nat)
  | [], count => .ok ([], count)
  | j :: js, count =>
    if !j.isObject then .error (.malformedLogical word .itemNotAnObject)
    else do
      let (f, count) ← read j count
      let (fs, count) ← readItems read word js count
      .ok (f :: fs, count)

/-- Reads the list of filters of a logical word. -/
def readList (read : PartReader Filter) (word : String) : PartReader (List Filter) :=
  fun json count =>
    match json with
    | .array items => readItems read word items count
    | _ => .error (.malformedLogical word .notAList)

/-- Reads the filter of a negation. -/
def readNegated (read : PartReader Filter) : PartReader Filter :=
  fun json count =>
    if json.isObject then read json count else .error (.malformedLogical notWord .notAnObject)

/-- Reads one logical word with its operand as a filter. -/
def readCombinator (read : PartReader Filter) (word : String) : PartReader Filter :=
  fun json count =>
    if word = andWord then (readList read andWord json count).map fun (fs, n) => (.all fs, n)
    else if word = orWord then (readList read orWord json count).map fun (fs, n) => (.any fs, n)
    else (readNegated read json count).map fun (f, n) => (.not f, n)

/-- Reads an object whose keys are logical words, one filter for each. -/
def readCombinators (read : PartReader Filter) :
    List (String × Json) → Nat → Except FilterError (List Filter × Nat)
  | [], count => .ok ([], count)
  | (word, j) :: ms, count => do
    let (f, count) ← readCombinator read word j count
    let (fs, count) ← readCombinators read ms count
    .ok (f :: fs, count)

/-- The filter of an object of logical words: a lone word stands for itself. -/
def combine : List Filter → Filter
  | [f] => f
  | fs => .all fs

/-! ## Fields -/

/-- Reads one operator of a field with its operand. -/
def readTest (name : String) (kind : ValueKind) (key : String) (json : Json) :
    Except FilterError FieldTest :=
  match (Operator.ofName? key).filter fun op => op.supports kind with
  | none => .error (.unsupportedOperator name key kind.name)
  | some op => do
    let operand ← Operand.ofJson name op json
    Operand.check name op kind operand
    .ok ⟨name, op, operand⟩

/-- Reads the operators of a field. -/
def readTests (limits : FilterLimits) (name : String) (kind : ValueKind) :
    List (String × Json) → Nat → Except FilterError (List FieldTest × Nat)
  | [], count => .ok ([], count)
  | (key, j) :: ms, count => do
    let test ← readTest name kind key j
    let count ← countCondition limits count
    let (tests, count) ← readTests limits name kind ms count
    .ok (test :: tests, count)

/-- Reads the value of a field: a non-empty object of operators. -/
def readField (limits : FilterLimits) (name : String) (field : Field) :
    PartReader (List FieldTest) :=
  fun json count =>
    match json with
    | .object (m :: ms) => readTests limits name field.kind (m :: ms) count
    | _ => .error (.malformedFilter (.fieldNotAMap name))

/-! ## Relations -/

/-- Reads the operand of a keyword of a collection. -/
def readKeyword (read : PartReader Filter) (relation key : String) (keyword : CollectionKeyword) :
    PartReader RelatedTest :=
  fun json count =>
    match keyword with
    | .quantifier q =>
      if json.isObject then
        (read json count).map fun (f, n) => (.quantified relation q f, n)
      else .error (.malformedFilter (.quantifierNotAnObject relation key))
    | .emptiness empty =>
      match json with
      | .bool flag => .ok (.size relation (if flag == empty then .eq else .gt) 0, count)
      | _ => .error (.valueMismatch relation key "true or false")
    | .size op =>
      match json with
      | .integer n =>
        if 0 ≤ n && n ≤ maxInt64 then .ok (.size relation op n.toNat, count)
        else .error (.valueMismatch relation key s!"an integer between 0 and {maxInt64}")
      | _ => .error (.valueMismatch relation key s!"an integer between 0 and {maxInt64}")

/-- Reads the keywords of a collection; each is one condition beside those of its filter. -/
def readKeywords (limits : FilterLimits) (read : PartReader Filter) (relation : String) :
    List (String × Json) → Nat → Except FilterError (List RelatedTest × Nat)
  | [], count => .ok ([], count)
  | (key, j) :: ms, count =>
    match CollectionKeyword.ofName? key with
    | none => readKeywords limits read relation ms count
    | some keyword => do
      let (test, count) ← readKeyword read relation key keyword j count
      let count ← countCondition limits count
      let (tests, count) ← readKeywords limits read relation ms count
      .ok (test :: tests, count)

/-- What the value of a relation adds to a filter: a filter of the related entity, or tests on the
collection of related rows. -/
inductive RelationPart where
  /-- A filter of the target. -/
  | nested (filter : Filter)
  /-- Tests on the collection. -/
  | related (tests : List RelatedTest)

/-- Adds the part that a relation holds to a filter. -/
def RelationPart.addTo (part : RelationPart) (relation : String) (filter : EntityFilter) :
    EntityFilter :=
  match part with
  | .nested f => { filter with nested := filter.nested ++ [(relation, f)] }
  | .related tests => { filter with related := filter.related ++ tests }

/-- Reads the value of a relation. A key that names an operator is refused, unless the target has a
member of that name. Collection keywords stand alone and only on collections; without any of them
the value is a filter of the target. -/
def readRelation (registry : Registry) (limits : FilterLimits)
    (read : Entity → PartReader Filter) (name : String) (relation : Relation) :
    PartReader RelationPart :=
  fun json count =>
    match json with
    | .object members => do
      let target ← registry.lookup relation.target
      match members.find? fun m => Operator.isName m.1 && !target.hasMember m.1 with
      | some m => .error (.unsupportedOperator name m.1 relation.kindName)
      | none =>
        let keywords := members.countP fun m => isCollectionKeyword m.1
        if keywords = 0 then
          (read target json count).map fun (f, n) => (.nested f, n)
        else if keywords ≠ members.length then
          .error (.malformedFilter (.mixedKeywords name))
        else if !relation.isMany then
          .error (.unsupportedOperator name ((members.map Prod.fst).headD "") relation.kindName)
        else
          (readKeywords limits (read target) name members count).map fun (ts, n) =>
            (.related ts, n)
    | _ => .error (.malformedFilter (.relationNotAnObject name))

/-! ## Filters of an entity -/

/-- The error of a key that is neither a field nor a relation. It is taken for a relation when its
value looks like a filter, which holds no operators. -/
def unknownKey (entity : Entity) (key : String) (json : Json) : FilterError :=
  match json with
  | .object members =>
    if members.any fun m => Operator.isName m.1 then .unknownField entity.code key
    else .unknownRelation entity.code key
  | _ => .unknownField entity.code key

/-- The negated part of a filter with one more negation. -/
def addNegated (previous : Option Filter) (filter : Filter) : Option Filter :=
  match previous with
  | none => some filter
  | some previous => some (.all [previous, filter])

/-- Reads one member of a filter of an entity and adds it to the filter. -/
def readMember (registry : Registry) (limits : FilterLimits)
    (read : Entity → PartReader Filter) (entity : Entity) (key : String) (json : Json)
    (filter : EntityFilter) (count : Nat) : Except FilterError (EntityFilter × Nat) :=
  if key = andWord then
    (readList (read entity) andWord json count).map fun (fs, n) =>
      ({ filter with all := filter.all ++ fs }, n)
  else if key = orWord then
    (readList (read entity) orWord json count).map fun (fs, n) =>
      ({ filter with any := filter.any ++ fs }, n)
  else if key = notWord then
    (readNegated (read entity) json count).map fun (f, n) =>
      ({ filter with negated := addNegated filter.negated f }, n)
  else
    match entity.field? key with
    | some field =>
      (readField limits key field json count).map fun (tests, n) =>
        ({ filter with fields := filter.fields ++ tests }, n)
    | none =>
      match entity.relation? key with
      | some relation =>
        (readRelation registry limits read key relation json count).map fun (part, n) =>
          (part.addTo key filter, n)
      | none => .error (unknownKey entity key json)

/-- Reads the members of a filter of an entity in order. -/
def readMembers (registry : Registry) (limits : FilterLimits)
    (read : Entity → PartReader Filter) (entity : Entity) :
    List (String × Json) → EntityFilter → Nat → Except FilterError (EntityFilter × Nat)
  | [], filter, count => .ok (filter, count)
  | (key, j) :: ms, filter, count => do
    let (filter, count) ← readMember registry limits read entity key j filter count
    readMembers registry limits read entity ms filter count

/-! ## Documents -/

/-- Whether an object combines filters by logical words alone. -/
def isCombination (members : List (String × Json)) : Bool :=
  !members.isEmpty && members.all fun m => isLogicalWord m.1

/-- Reads a filter of an entity inside which one level of nesting less than given is left. -/
def readFilter (registry : Registry) (limits : FilterLimits) : Nat → Entity → PartReader Filter
  | 0, _, _, _ => .error (.tooComplex (.depth limits.maxDepth))
  | levels + 1, entity, json, count =>
    match json with
    | .object members =>
      if isCombination members then
        (readCombinators (readFilter registry limits levels entity) members count).map
          fun (fs, n) => (combine fs, n)
      else
        (readMembers registry limits (readFilter registry limits levels) entity members
          (.everything entity.code) count).map fun (f, n) => (.entity f, n)
    | json => .error (.malformedFilter (.notAnObject json.compact))

/-- The levels that a document may have: the outermost object and the nested ones. -/
def levelsOf (limits : FilterLimits) : Nat :=
  limits.maxDepth + 1

/-- Reads a document as a filter of an entity. -/
def read (registry : Registry) (limits : FilterLimits) (entity : Entity) (json : Json) :
    Except FilterError Filter :=
  (readFilter registry limits (levelsOf limits) entity json 0).map Prod.fst

end FilterDocument

end FilterQuery
