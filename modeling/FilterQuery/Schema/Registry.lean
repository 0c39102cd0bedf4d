import FilterQuery.Schema.Entity
import FilterQuery.FilterError

/-!
# The registry of entities

A registry holds sound entities under their codes. `Registry.register` adds one or says why not,
and never changes an entity that is registered. `Registry.validate` accepts the closed
registries: every relation leads to a registered entity by at least one pair of columns, and both
sides declare the columns.
-/

namespace FilterQuery

/-- A collection of entities. -/
structure Registry where
  /-- The entities by their codes. -/
  entities : NameMap Entity
  /-- Every entity stands under its own code and is sound. -/
  sound : ∀ p ∈ entities.entries, p.2.code = p.1 ∧ p.2.IsSound

namespace Registry

/-! ## Registering -/

/-- The registry without entities. -/
def empty : Registry :=
  ⟨NameMap.empty, by simp [NameMap.empty]⟩

/-- The registry with an entity put in that is sound. -/
def insert (r : Registry) (e : Entity) (h : e.IsSound) : Registry :=
  ⟨r.entities.insert e.code e, fun p hp => by
    rcases NameMap.mem_insertEntry hp with hp | hp
    · subst hp
      exact ⟨rfl, h⟩
    · exact r.sound p hp⟩

/-- Adds an entity whose code is new, whose names are declared once and that has a primary key. -/
def register (r : Registry) (e : Entity) : Except FilterError Registry :=
  if r.entities.contains e.code then .error (.duplicateEntity e.code)
  else if hn : e.repeated = [] then
    if hk : e.primaryKey = [] then .error (.invalidMetadata e.code .emptyPrimaryKey)
    else .ok (r.insert e ⟨hn, hk⟩)
  else .error (.invalidMetadata e.code (.repeatedName (e.repeated.headD "")))

/-- Adds entities one after another; the registry reached, and the first error, at which it
stops. -/
def registerAll (r : Registry) : List Entity → Registry × Except FilterError Unit
  | [] => (r, .ok ())
  | e :: es =>
    match r.register e with
    | .ok r => registerAll r es
    | .error error => (r, .error error)

/-! ## Looking up -/

/-- The entity with a code. -/
def find? (r : Registry) (code : String) : Option Entity :=
  r.entities.find? code

/-- The entities, in increasing order of their codes. -/
def toList (r : Registry) : List Entity :=
  r.entities.entries.map Prod.snd

/-- The number of entities. -/
def size (r : Registry) : Nat :=
  r.entities.size

/-- The entity with a code, or the error that there is none. -/
def lookup (r : Registry) (code : String) : Except FilterError Entity :=
  match r.find? code with
  | some e => .ok e
  | none => .error (.unknownEntity code)

/-- A field of an entity, or the error that the entity or the field does not exist. -/
def lookupField (r : Registry) (code name : String) : Except FilterError Field := do
  let e ← r.lookup code
  match e.field? name with
  | some f => .ok f
  | none => .error (.unknownField code name)

/-- A relation of an entity. -/
def relation? (r : Registry) (code name : String) : Option Relation :=
  (r.find? code).bind fun e => e.relation? name

/-- A relation of an entity, or the error that the entity or the relation does not exist. -/
def lookupRelation (r : Registry) (code name : String) : Except FilterError Relation := do
  let e ← r.lookup code
  match e.relation? name with
  | some relation => .ok relation
  | none => .error (.unknownRelation code name)

/-! ## Closed registries -/

/-- What is wrong with the first faulty pair of columns of a relation. -/
def columnFault? (source target : Entity) (relation : String) :
    List (String × String) → Option MetadataFault
  | [] => none
  | (own, other) :: pairs =>
    if !source.declaresColumn own then some (.undeclaredColumn relation own)
    else if !target.declaresColumn other then
      some (.undeclaredTargetColumn relation other target.code)
    else columnFault? source target relation pairs

/-- What is wrong with a relation of an entity. -/
def relationFault? (r : Registry) (source : Entity) (name : String) (relation : Relation) :
    Option MetadataFault :=
  match r.find? relation.target with
  | none => some (.unknownTarget name relation.target)
  | some target =>
    if relation.columns.isEmpty then some (.noJoinColumns name)
    else columnFault? source target name relation.columns

/-- What is wrong with the first faulty relation of an entity. -/
def entityFault? (r : Registry) (e : Entity) : Option FilterError :=
  (e.relations.findSome? fun p => r.relationFault? e p.1 p.2).map (.invalidMetadata e.code)

/-- Checks that every relation leads to a registered entity through declared columns. The error is
that of the first faulty relation in the order of entity codes and relation names. -/
def validate (r : Registry) : Except FilterError Unit :=
  match r.toList.findSome? r.entityFault? with
  | some error => .error error
  | none => .ok ()

end Registry

end FilterQuery
