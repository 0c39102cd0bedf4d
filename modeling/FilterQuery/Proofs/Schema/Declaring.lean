import Mathlib.Data.List.Nodup
import FilterQuery.Proofs.Schema.Plain

/-!
# Declaring entities

An entity is declared in steps: fields, relations and the primary key, in any order and any number.
`Blueprint` is an entity before it is built, as its steps in their order. The entity that is built
can be registered exactly when no name is declared twice and the last key is not empty
(`Blueprint.isSound_entity`), and then it has the members that are declared
(`Blueprint.find?_entity`).
-/

namespace FilterQuery

/-! ## Declaring an entity -/

/-- A step in the declaration of an entity. -/
inductive Declaration where
  /-- A field stored in the column of its name. -/
  | field (name : String) (kind : ValueKind)
  /-- A field stored in a column. -/
  | mappedField (name column : String) (kind : ValueKind)
  /-- A relation. -/
  | relation (name : String) (relation : Relation)
  /-- The primary key, in place of one declared before. -/
  | key (columns : List String)

namespace Declaration

/-- The entity after a further step. -/
def apply (e : Entity) : Declaration → Entity
  | .field name kind => e.field name kind
  | .mappedField name column kind => e.withField name column kind
  | .relation name r => e.withRelation name r
  | .key columns => e.withKey columns

/-- The member that a step declares, with its name. -/
def member? : Declaration → Option (String × Member)
  | .field name kind => some (name, .field ⟨name, kind⟩)
  | .mappedField name column kind => some (name, .field ⟨column, kind⟩)
  | .relation name r => some (name, .relation r)
  | .key _ => none

/-- The primary key that a step declares. -/
def key? : Declaration → Option (List String)
  | .key columns => some columns
  | _ => none

/-- A step declares either a member or the primary key. -/
theorem member_or_key (d : Declaration) :
    (∃ name member, d.member? = some (name, member) ∧ d.key? = none ∧
      ∀ e, d.apply e = e.declare name member) ∨
    ∃ columns, d.member? = none ∧ d.key? = some columns ∧ ∀ e, d.apply e = e.withKey columns := by
  cases d with
  | field name kind => exact Or.inl ⟨_, _, rfl, rfl, fun _ => rfl⟩
  | mappedField name column kind => exact Or.inl ⟨_, _, rfl, rfl, fun _ => rfl⟩
  | relation name r => exact Or.inl ⟨_, _, rfl, rfl, fun _ => rfl⟩
  | key columns => exact Or.inr ⟨_, rfl, rfl, fun _ => rfl⟩

end Declaration

/-- An entity as it is declared. -/
structure Blueprint where
  /-- The name of the entity. -/
  code : String
  /-- The table that stores its rows. -/
  table : String
  /-- The declarations, in their order. -/
  steps : List Declaration

namespace Blueprint

/-- The entity that is built. -/
def entity (b : Blueprint) : Entity :=
  b.steps.foldl Declaration.apply (.new b.code b.table)

/-- The members that are declared, with their names. -/
def members (b : Blueprint) : List (String × Member) :=
  b.steps.filterMap Declaration.member?

/-- The primary key that is declared last. -/
def key (b : Blueprint) : List String :=
  (b.steps.filterMap Declaration.key?).getLast?.getD []

/-- Each name is declared once, among fields and relations together, and rows are identified. -/
def Sound (b : Blueprint) : Prop :=
  (b.members.map Prod.fst).Nodup ∧ b.key ≠ []

/-- No name is declared both for a field and for a relation. -/
theorem Sound.disjoint {b : Blueprint} (h : b.Sound) {name : String} {field : Field}
    {relation : Relation} (hfield : (name, .field field) ∈ b.members) :
    (name, .relation relation) ∉ b.members := by
  intro hrelation
  have hsame := List.inj_on_of_nodup_map h.1 hfield hrelation rfl
  cases hsame

end Blueprint

namespace Entity

variable (steps : List Declaration) (e : Entity)

theorem code_foldl : (steps.foldl Declaration.apply e).code = e.code := by
  induction steps generalizing e with
  | nil => rfl
  | cons d ds ih =>
    rw [List.foldl_cons, ih]
    cases d <;> rfl

theorem primaryKey_foldl : (steps.foldl Declaration.apply e).primaryKey =
    (steps.filterMap Declaration.key?).getLast?.getD e.primaryKey := by
  induction steps generalizing e with
  | nil => rfl
  | cons d ds ih =>
    rw [List.foldl_cons, ih]
    rcases d.member_or_key with ⟨name, member, _, hkey, happly⟩ | ⟨columns, _, hkey, happly⟩
    · rw [List.filterMap_cons_none hkey, happly]
      rfl
    · rw [List.filterMap_cons_some hkey, List.getLast?_cons, happly]
      rfl

/-- No name is declared again as long as the steps declare different names, none of which was
declared before. -/
theorem repeated_foldl : (steps.foldl Declaration.apply e).repeated = [] ↔
    e.repeated = [] ∧ ((steps.filterMap Declaration.member?).map Prod.fst).Nodup ∧
      ∀ name ∈ (steps.filterMap Declaration.member?).map Prod.fst,
        e.members.contains name = false := by
  induction steps generalizing e with
  | nil => simp
  | cons d ds ih =>
    rw [List.foldl_cons, ih]
    rcases d.member_or_key with ⟨name, member, hmember, _, happly⟩ | ⟨columns, hmember, _, happly⟩
    · rw [List.filterMap_cons_some hmember, happly, List.map_cons, List.nodup_cons]
      have hnone : (e.declare name member).repeated = [] ↔
          e.repeated = [] ∧ e.members.contains name = false := by
        rw [declare]
        cases e.members.contains name <;> simp
      have hother (other : String) : (e.declare name member).members.contains other = false ↔
          name ≠ other ∧ e.members.contains other = false := by
        rw [declare, NameMap.contains_insert]
        simp
      simp only [hnone, hother, List.forall_mem_cons]
      constructor
      · rintro ⟨⟨hrepeated, hname⟩, hnodup, hall⟩
        exact ⟨hrepeated, ⟨fun hmem => (hall name hmem).1 rfl, hnodup⟩, hname,
          fun other hmem => (hall other hmem).2⟩
      · rintro ⟨hrepeated, ⟨hfresh, hnodup⟩, hname, hall⟩
        exact ⟨⟨hrepeated, hname⟩, hnodup,
          fun other hmem => ⟨fun heq => hfresh (heq ▸ hmem), hall other hmem⟩⟩
    · rw [List.filterMap_cons_none hmember, happly]
      rfl

/-- With different names, each name stands for what is declared under it. -/
theorem find?_foldl (hnodup : ((steps.filterMap Declaration.member?).map Prod.fst).Nodup)
    {name : String} {member : Member} :
    (steps.foldl Declaration.apply e).members.find? name = some member ↔
      (name, member) ∈ steps.filterMap Declaration.member? ∨
        name ∉ (steps.filterMap Declaration.member?).map Prod.fst ∧
          e.members.find? name = some member := by
  induction steps generalizing e with
  | nil => simp
  | cons d ds ih =>
    rw [List.foldl_cons]
    rcases d.member_or_key with ⟨first, value, hmember, _, happly⟩ | ⟨columns, hmember, _, happly⟩
    · rw [List.filterMap_cons_some hmember, List.map_cons, List.nodup_cons] at hnodup
      obtain ⟨hfresh, hnodup⟩ := hnodup
      rw [ih _ hnodup, happly, declare, NameMap.find?_insert, List.filterMap_cons_some hmember,
        List.map_cons]
      by_cases heq : first = name
      · subst heq
        have hout : (first, member) ∉ ds.filterMap Declaration.member? :=
          fun hmem => hfresh (List.mem_map.2 ⟨_, hmem, rfl⟩)
        simp [hout, hfresh, eq_comm]
      · have hne : name ≠ first := fun h => heq h.symm
        simp [heq, hne]
    · rw [List.filterMap_cons_none hmember] at hnodup ⊢
      rw [ih _ hnodup, happly]
      rfl

end Entity

namespace Blueprint

variable {b : Blueprint}

@[simp] theorem code_entity (b : Blueprint) : b.entity.code = b.code :=
  Entity.code_foldl b.steps _

theorem primaryKey_entity (b : Blueprint) : b.entity.primaryKey = b.key :=
  Entity.primaryKey_foldl b.steps _

/-- An entity can be registered when its declarations are sound. -/
theorem isSound_entity : b.entity.IsSound ↔ b.Sound := by
  have hfresh : ∀ name ∈ b.members.map Prod.fst,
      (Entity.new b.code b.table).members.contains name = false := fun _ _ => rfl
  rw [Entity.IsSound, primaryKey_entity, Sound, entity, Entity.repeated_foldl]
  exact and_congr_left' ⟨fun h => h.2.1, fun h => ⟨rfl, h, hfresh⟩⟩

/-- A sound entity has the members that are declared. -/
theorem find?_entity (h : b.Sound) {name : String} {member : Member} :
    b.entity.members.find? name = some member ↔ (name, member) ∈ b.members := by
  rw [entity, Entity.find?_foldl _ _ h.1]
  simp [Entity.new, members]

theorem field?_entity (h : b.Sound) {name : String} {field : Field} :
    b.entity.field? name = some field ↔ (name, .field field) ∈ b.members := by
  rw [← find?_entity h, Entity.field?]
  cases b.entity.members.find? name with
  | none => simp
  | some member => cases member <;> simp

theorem relation?_entity (h : b.Sound) {name : String} {relation : Relation} :
    b.entity.relation? name = some relation ↔ (name, .relation relation) ∈ b.members := by
  rw [← find?_entity h, Entity.relation?]
  cases b.entity.members.find? name with
  | none => simp
  | some member => cases member <;> simp

theorem hasMember_entity (h : b.Sound) {name : String} :
    b.entity.hasMember name = true ↔ ∃ member, (name, member) ∈ b.members := by
  rw [Entity.hasMember, NameMap.contains, Option.isSome_iff_exists]
  exact exists_congr fun member => find?_entity h

end Blueprint

end FilterQuery
