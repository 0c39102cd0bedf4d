import FilterQuery.NameMap
import FilterQuery.Value

/-!
# Entities

What can be filtered: an entity has a table, a primary key, and members, which are fields stored
in columns and relations to other entities. Fields and relations share one space of names, so a
name is never both. An entity is built by declaring its members one after another; a name that is
declared again is remembered, and the registry refuses the entity.
-/

namespace FilterQuery

/-- A field of an entity. -/
structure Field where
  /-- The column that stores the field. -/
  column : String
  /-- The kind of its values. -/
  kind : ValueKind
deriving DecidableEq, Repr

/-- How many rows a relation leads to. -/
inductive Cardinality where
  /-- At most one. -/
  | one
  /-- Any number. -/
  | many
deriving DecidableEq, Repr

/-- A relation of an entity. -/
structure Relation where
  /-- The entity that the relation leads to. -/
  target : String
  /-- How many rows it leads to. -/
  cardinality : Cardinality
  /-- The columns that are equal in related rows, those of the source first in each pair. -/
  columns : List (String × String)
deriving DecidableEq, Repr

/-- Whether a relation leads to any number of rows. -/
def Relation.isMany (r : Relation) : Bool :=
  r.cardinality == .many

/-- What a name of an entity stands for. -/
inductive Member where
  /-- A field. -/
  | field (field : Field)
  /-- A relation. -/
  | relation (relation : Relation)
deriving DecidableEq, Repr

/-- An entity that can be filtered. -/
structure Entity where
  /-- The name of the entity. -/
  code : String
  /-- The table that stores its rows. -/
  table : String
  /-- The columns that identify a row. -/
  primaryKey : List String
  /-- Its fields and relations. -/
  members : NameMap Member
  /-- The names that were declared again, in order. -/
  repeated : List String

namespace Entity

/-! ## Declaring -/

/-- An entity without members and without a primary key. -/
def new (code table : String) : Entity :=
  ⟨code, table, [], NameMap.empty, []⟩

/-- The entity with a primary key. -/
def withKey (e : Entity) (columns : List String) : Entity :=
  { e with primaryKey := columns }

/-- The entity with a further member. -/
def declare (e : Entity) (name : String) (member : Member) : Entity :=
  { e with
    members := e.members.insert name member
    repeated := if e.members.contains name then e.repeated ++ [name] else e.repeated }

/-- The entity with a field stored in a column. -/
def withField (e : Entity) (name column : String) (kind : ValueKind) : Entity :=
  e.declare name (.field ⟨column, kind⟩)

/-- The entity with a field stored in the column of its name. -/
def field (e : Entity) (name : String) (kind : ValueKind) : Entity :=
  e.withField name name kind

/-- The entity with a relation. -/
def withRelation (e : Entity) (name : String) (relation : Relation) : Entity :=
  e.declare name (.relation relation)

/-! ## Looking up -/

/-- The field with a name. -/
def field? (e : Entity) (name : String) : Option Field :=
  match e.members.find? name with
  | some (.field f) => some f
  | _ => none

/-- The relation with a name. -/
def relation? (e : Entity) (name : String) : Option Relation :=
  match e.members.find? name with
  | some (.relation r) => some r
  | _ => none

/-- Whether a name is a field or a relation. -/
def hasMember (e : Entity) (name : String) : Bool :=
  e.members.contains name

/-- The fields with their names, in increasing order of the names. -/
def fields (e : Entity) : List (String × Field) :=
  e.members.entries.filterMap fun
    | (name, .field f) => some (name, f)
    | _ => none

/-- The relations with their names, in increasing order of the names. -/
def relations (e : Entity) : List (String × Relation) :=
  e.members.entries.filterMap fun
    | (name, .relation r) => some (name, r)
    | _ => none

/-- Whether a column belongs to the primary key or stores a field. -/
def declaresColumn (e : Entity) (column : String) : Bool :=
  e.primaryKey.contains column || e.fields.any fun f => f.2.column == column

/-- Whether an entity can be registered: no name is declared twice, and rows are identified. -/
def IsSound (e : Entity) : Prop :=
  e.repeated = [] ∧ e.primaryKey ≠ []

end Entity

end FilterQuery
