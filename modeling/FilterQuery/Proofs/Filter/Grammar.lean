import FilterQuery.Operand
import FilterQuery.Filter.Document
import FilterQuery.Schema.Registry

/-!
# The grammar of filter documents

Which JSON values are filters of an entity, said without a reader: no order of checks, no errors
and no limits, only what every member of an object has to be. The key of a member is taken for a
logical word first, then for a field and then for a relation.

`Json.depth` and `Json.memberCount` measure a document against the limits of a reader.
-/

namespace FilterQuery

/-! ## Operands -/

/-- Whether a JSON value is a value of a kind. Null, arrays and objects are values of no kind. -/
def Json.IsOfKind : ValueKind → Json → Prop
  | .text, .text _ => True
  | .integer, .integer n => minInt64 ≤ n ∧ n ≤ maxInt64
  | .float, .integer _ => True
  | .float, .float _ => True
  | .boolean, .bool _ => True
  | .uuid, .text s => (Uuid.canonical? s).isSome
  | .datetime, .text s => (Instant.ofText? s).isSome
  | .enum variants, .text s => s ∈ variants
  | _, _ => False

/-- Whether a JSON value is an integer between zero and a bound. -/
def Json.IsCount (bound : Int) : Json → Prop
  | .integer n => 0 ≤ n ∧ n ≤ bound
  | _ => False

/-- Whether a JSON value is the one operand of an operator that takes one. -/
def Operator.AppliesTo (op : Operator) (kind : ValueKind) (json : Json) : Prop :=
  if op = .isNull then ∃ flag, json = .bool flag
  else if op = .lastNDays ∨ op = .olderThanDays then json.IsCount maxRelativeDays
  else if op.isPattern then ∃ text, json = .text text
  else json.IsOfKind kind

/-- Whether a JSON value is an operand of an operator for the fields of a kind. An operator that
takes nothing is written with `true` or `null`. -/
def ValidOperand (op : Operator) (kind : ValueKind) (json : Json) : Prop :=
  match op.shape with
  | .nothing => json = .bool true ∨ json = .null
  | .single => op.AppliesTo kind json
  | .pair => ∃ low high, json = .array [low, high] ∧ low.IsOfKind kind ∧ high.IsOfKind kind
  | .list => ∃ items, json = .array items ∧ ∀ j ∈ items, j.IsOfKind kind

/-- Whether a key names an operator that the fields of a kind have, with an operand of it. -/
def ValidTest (kind : ValueKind) (key : String) (json : Json) : Prop :=
  ∃ op, Operator.ofName? key = some op ∧ op.supports kind ∧ ValidOperand op kind json

/-- The value of a field: some tests, at least one. -/
inductive ValidField (kind : ValueKind) : Json → Prop
  | tests {members : List (String × Json)} (nonempty : members ≠ [])
      (valid : ∀ m ∈ members, ValidTest kind m.1 m.2) : ValidField kind (.object members)

/-! ## Filters -/

mutual

/-- A filter of an entity: an object, each of whose members is one that the filters of the entity
may have. -/
inductive ValidFilter (registry : Registry) : Entity → Json → Prop
  | object {entity : Entity} {members : List (String × Json)}
      (valid : ∀ m ∈ members, ValidMember registry entity m.1 m.2) :
      ValidFilter registry entity (.object members)

/-- A member of a filter of an entity. -/
inductive ValidMember (registry : Registry) : Entity → String → Json → Prop
  | list {entity : Entity} {key : String} {items : List Json}
      (isWord : key = andWord ∨ key = orWord) (valid : ∀ j ∈ items, ValidFilter registry entity j) :
      ValidMember registry entity key (.array items)
  | negation {entity : Entity} {key : String} {json : Json} (isWord : key = notWord)
      (valid : ValidFilter registry entity json) : ValidMember registry entity key json
  | field {entity : Entity} {key : String} {json : Json} {field : Field}
      (noWord : isLogicalWord key = false) (isField : entity.field? key = some field)
      (valid : ValidField field.kind json) : ValidMember registry entity key json
  | relation {entity : Entity} {key : String} {json : Json} {relation : Relation} {target : Entity}
      (noWord : isLogicalWord key = false) (noField : entity.field? key = none)
      (isRelation : entity.relation? key = some relation)
      (isTarget : registry.find? relation.target = some target)
      (valid : ValidRelation registry relation target json) : ValidMember registry entity key json

/-- The value of a relation to a target: an object without operators, as far as they are not
members of the target, that is either a filter of the target or, when the relation leads to many
rows, an object of keywords, at least one. -/
inductive ValidRelation (registry : Registry) : Relation → Entity → Json → Prop
  | nested {relation : Relation} {target : Entity} {members : List (String × Json)}
      (noOperator : ∀ m ∈ members, Operator.isName m.1 = true → target.hasMember m.1 = true)
      (noKeyword : ∀ m ∈ members, isCollectionKeyword m.1 = false)
      (valid : ValidFilter registry target (.object members)) :
      ValidRelation registry relation target (.object members)
  | collection {relation : Relation} {target : Entity} {members : List (String × Json)}
      (noOperator : ∀ m ∈ members, Operator.isName m.1 = true → target.hasMember m.1 = true)
      (isMany : relation.isMany = true) (nonempty : members ≠ [])
      (valid : ∀ m ∈ members, ValidKeyword registry target m.1 m.2) :
      ValidRelation registry relation target (.object members)

/-- A keyword of a collection of rows of a target, with what it asks: a filter of the target, a
truth value or a number of rows. -/
inductive ValidKeyword (registry : Registry) : Entity → String → Json → Prop
  | quantifier {target : Entity} {key : String} {json : Json} {quantifier : Quantifier}
      (isKeyword : CollectionKeyword.ofName? key = some (.quantifier quantifier))
      (valid : ValidFilter registry target json) : ValidKeyword registry target key json
  | emptiness {target : Entity} {key : String} {empty flag : Bool}
      (isKeyword : CollectionKeyword.ofName? key = some (.emptiness empty)) :
      ValidKeyword registry target key (.bool flag)
  | size {target : Entity} {key : String} {json : Json} {op : SizeOp}
      (isKeyword : CollectionKeyword.ofName? key = some (.size op))
      (valid : json.IsCount maxInt64) : ValidKeyword registry target key json

end

/-! ## Members by their keys -/

variable {registry : Registry} {entity target : Entity} {relation : Relation} {key : String}
  {json : Json} {members : List (String × Json)}

theorem isLogicalWord_of_list (h : key = andWord ∨ key = orWord) :
    isLogicalWord key = true ∧ key ≠ notWord := by
  obtain rfl | rfl := h
  · decide
  · decide

theorem isLogicalWord_eq_true (h : isLogicalWord key = true) :
    (key = andWord ∨ key = orWord) ∨ key = notWord := by
  simpa [isLogicalWord] using h

theorem validFilter_object :
    ValidFilter registry entity (.object members) ↔
      ∀ m ∈ members, ValidMember registry entity m.1 m.2 := by
  constructor
  · rintro ⟨hvalid⟩
    exact hvalid
  · exact .object

theorem ValidFilter.isObject (h : ValidFilter registry entity json) : json.isObject = true := by
  cases h
  rfl

theorem validMember_list (hword : key = andWord ∨ key = orWord) :
    ValidMember registry entity key json ↔
      ∃ items, json = .array items ∧ ∀ j ∈ items, ValidFilter registry entity j := by
  obtain ⟨hlogical, hnot⟩ := isLogicalWord_of_list hword
  constructor
  · intro h
    cases h with
    | list _ hvalid => exact ⟨_, rfl, hvalid⟩
    | negation hword _ => exact absurd hword hnot
    | field hnone _ _ => simp [hnone] at hlogical
    | relation hnone _ _ _ _ => simp [hnone] at hlogical
  · rintro ⟨items, rfl, hvalid⟩
    exact .list hword hvalid

theorem validMember_negation :
    ValidMember registry entity notWord json ↔ ValidFilter registry entity json := by
  constructor
  · intro h
    cases h with
    | list hword _ => exact absurd rfl (isLogicalWord_of_list hword).2
    | negation _ hvalid => exact hvalid
    | field hnone _ _ => exact absurd hnone (by decide)
    | relation hnone _ _ _ _ => exact absurd hnone (by decide)
  · exact .negation rfl

theorem validMember_field {field : Field} (hword : isLogicalWord key = false)
    (hfield : entity.field? key = some field) :
    ValidMember registry entity key json ↔ ValidField field.kind json := by
  constructor
  · intro h
    cases h with
    | list hlist _ => simp [(isLogicalWord_of_list hlist).1] at hword
    | negation hnot _ =>
      subst hnot
      exact absurd hword (by decide)
    | field _ hfield' hvalid =>
      cases hfield.symm.trans hfield'
      exact hvalid
    | relation _ hnone _ _ _ => simp [hnone] at hfield
  · exact .field hword hfield

theorem validMember_relation (hword : isLogicalWord key = false)
    (hfield : entity.field? key = none) :
    ValidMember registry entity key json ↔
      ∃ relation target, entity.relation? key = some relation ∧
        registry.find? relation.target = some target ∧
        ValidRelation registry relation target json := by
  constructor
  · intro h
    cases h with
    | list hlist _ => simp [(isLogicalWord_of_list hlist).1] at hword
    | negation hnot _ =>
      subst hnot
      exact absurd hword (by decide)
    | field _ hfield' _ => simp [hfield] at hfield'
    | relation _ _ hrelation htarget hvalid => exact ⟨_, _, hrelation, htarget, hvalid⟩
  · rintro ⟨relation, target, hrelation, htarget, hvalid⟩
    exact .relation hword hfield hrelation htarget hvalid

/-! ## Values of relations -/

theorem ValidKeyword.isKeyword (h : ValidKeyword registry target key json) :
    isCollectionKeyword key = true := by
  cases h with
  | quantifier hkey _ => simp [isCollectionKeyword, hkey]
  | emptiness hkey => simp [isCollectionKeyword, hkey]
  | size hkey _ => simp [isCollectionKeyword, hkey]

theorem validKeyword_quantifier {quantifier : Quantifier}
    (hkey : CollectionKeyword.ofName? key = some (.quantifier quantifier)) :
    ValidKeyword registry target key json ↔ ValidFilter registry target json := by
  constructor
  · intro h
    cases h with
    | quantifier _ hvalid => exact hvalid
    | emptiness hother => simp [hkey] at hother
    | size hother _ => simp [hkey] at hother
  · exact .quantifier hkey

theorem validKeyword_emptiness {empty : Bool}
    (hkey : CollectionKeyword.ofName? key = some (.emptiness empty)) :
    ValidKeyword registry target key json ↔ ∃ flag, json = .bool flag := by
  constructor
  · intro h
    cases h with
    | quantifier hother _ => simp [hkey] at hother
    | emptiness _ => exact ⟨_, rfl⟩
    | size hother _ => simp [hkey] at hother
  · rintro ⟨flag, rfl⟩
    exact .emptiness hkey

theorem validKeyword_size {op : SizeOp} (hkey : CollectionKeyword.ofName? key = some (.size op)) :
    ValidKeyword registry target key json ↔ json.IsCount maxInt64 := by
  constructor
  · intro h
    cases h with
    | quantifier hother _ => simp [hkey] at hother
    | emptiness hother => simp [hkey] at hother
    | size _ hvalid => exact hvalid
  · exact .size hkey

theorem ValidRelation.exists_object (h : ValidRelation registry relation target json) :
    ∃ members, json = .object members ∧
      ∀ m ∈ members, Operator.isName m.1 = true → target.hasMember m.1 = true := by
  cases h with
  | nested hoperator _ _ => exact ⟨_, rfl, hoperator⟩
  | collection hoperator _ _ _ => exact ⟨_, rfl, hoperator⟩

/-- Without keywords among its keys, the value of a relation is a filter of the target. -/
theorem validRelation_nested
    (hoperator : ∀ m ∈ members, Operator.isName m.1 = true → target.hasMember m.1 = true)
    (hkeyword : ∀ m ∈ members, isCollectionKeyword m.1 = false) :
    ValidRelation registry relation target (.object members) ↔
      ValidFilter registry target (.object members) := by
  constructor
  · intro h
    cases h with
    | nested _ _ hvalid => exact hvalid
    | collection _ _ hnonempty hvalid =>
      obtain ⟨m, hm⟩ := List.exists_mem_of_ne_nil members hnonempty
      exact absurd (hvalid m hm).isKeyword (by simp [hkeyword m hm])
  · exact .nested hoperator hkeyword

/-- With a keyword among its keys, it asks something of a collection by all of them. -/
theorem validRelation_collection
    (hoperator : ∀ m ∈ members, Operator.isName m.1 = true → target.hasMember m.1 = true)
    (hkeyword : ∃ m ∈ members, isCollectionKeyword m.1 = true) :
    ValidRelation registry relation target (.object members) ↔
      relation.isMany = true ∧ ∀ m ∈ members, ValidKeyword registry target m.1 m.2 := by
  obtain ⟨m, hm, hkey⟩ := hkeyword
  constructor
  · intro h
    cases h with
    | nested _ hnone _ => exact absurd hkey (by simp [hnone m hm])
    | collection _ hmany _ hvalid => exact ⟨hmany, hvalid⟩
  · rintro ⟨hmany, hvalid⟩
    exact .collection hoperator hmany (List.ne_nil_of_mem hm) hvalid

/-! ## Measures -/

namespace Json

mutual

/-- How many objects are nested in one another, at the deepest place. -/
def depth : Json → Nat
  | .array items => depthOfItems items
  | .object members => depthOfMembers members + 1
  | _ => 0

/-- The greatest depth among some values. -/
def depthOfItems : List Json → Nat
  | [] => 0
  | j :: js => max j.depth (depthOfItems js)

/-- The greatest depth among the values of some members. -/
def depthOfMembers : List (String × Json) → Nat
  | [] => 0
  | (_, j) :: ms => max j.depth (depthOfMembers ms)

end

mutual

/-- How many members the objects in a value have together. -/
def memberCount : Json → Nat
  | .array items => countOfItems items
  | .object members => countOfMembers members
  | _ => 0

/-- How many members the objects in some values have together. -/
def countOfItems : List Json → Nat
  | [] => 0
  | j :: js => j.memberCount + countOfItems js

/-- How many members there are, counting those inside. -/
def countOfMembers : List (String × Json) → Nat
  | [] => 0
  | (_, j) :: ms => j.memberCount + 1 + countOfMembers ms

end

end Json

end FilterQuery
