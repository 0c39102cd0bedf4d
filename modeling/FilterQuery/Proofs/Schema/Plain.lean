import FilterQuery.Proofs.Schema.Closed

/-!
# The plain part of a registry

A path spells one chain of relations as long as no name of a relation has a point in it. A registry
may have such names all the same; its plain part (`Registry.plain`) is what is left of it without
these relations. It has the same entities with the same tables and fields, and the relations with
plain names (`Registry.relation?_plain`), and it is closed when the registry is
(`Registry.validate_plain`). Who only uses plain names cannot tell the two apart.
-/

namespace FilterQuery

/-! ## Maps -/

namespace NameMap

variable {α β : Type} {name : String}

/-- The map with the entries that satisfy a condition. -/
def restrict (keep : String → α → Bool) (m : NameMap α) : NameMap α :=
  ⟨m.entries.filter fun e => keep e.1 e.2, m.ordered.filter _⟩

/-- The map with another value for each name. -/
def mapValues (f : α → β) (m : NameMap α) : NameMap β :=
  ⟨m.entries.map fun e => (e.1, f e.2), List.pairwise_map.2 m.ordered⟩

theorem find?_eq_some {m : NameMap α} {value : α} :
    m.find? name = some value ↔ (name, value) ∈ m.entries :=
  ⟨mem_of_findEntry, findEntry_of_mem m.ordered⟩

theorem find?_restrict (keep : String → α → Bool) (m : NameMap α) :
    (m.restrict keep).find? name = (m.find? name).filter (keep name) := by
  refine Option.ext fun value => ?_
  rw [find?_eq_some, Option.filter_eq_some_iff, find?_eq_some, restrict, List.mem_filter]

theorem find?_mapValues (f : α → β) (m : NameMap α) :
    (m.mapValues f).find? name = (m.find? name).map f := by
  simp only [find?, mapValues]
  induction m.entries with
  | nil => rfl
  | cons e es ih =>
    rw [List.map_cons, findEntry, findEntry]
    split
    · rfl
    · exact ih

end NameMap

/-! ## Entities -/

/-- Whether a member of an entity is a field, or a relation without a point in its name. -/
def Member.isPlain (name : String) : Member → Bool
  | .field _ => true
  | .relation _ => decide ('.' ∉ name.toList)

namespace Entity

variable {source target : Entity} {name : String}

/-- An entity without the relations that have a point in their names. -/
def plain (e : Entity) : Entity :=
  { e with members := e.members.restrict Member.isPlain }

@[simp] theorem code_plain (e : Entity) : e.plain.code = e.code := rfl

@[simp] theorem field?_plain (e : Entity) (name : String) :
    e.plain.field? name = e.field? name := by
  simp only [field?, plain, NameMap.find?_restrict]
  cases e.members.find? name with
  | none => rfl
  | some member =>
    cases member with
    | field f => rfl
    | relation r =>
      by_cases hpoint : '.' ∈ name.toList
      · simp [Option.filter_some, Member.isPlain, hpoint]
      · simp [Option.filter_some, Member.isPlain, hpoint]

theorem relation?_plain (e : Entity) (name : String) :
    e.plain.relation? name = if '.' ∈ name.toList then none else e.relation? name := by
  simp only [relation?, plain, NameMap.find?_restrict]
  cases e.members.find? name with
  | none => simp
  | some member =>
    cases member with
    | field f => simp [Option.filter_some, Member.isPlain]
    | relation r =>
      by_cases hpoint : '.' ∈ name.toList
      · simp [Option.filter_some, Member.isPlain, hpoint]
      · simp [Option.filter_some, Member.isPlain, hpoint]

@[simp] theorem fields_plain (e : Entity) : e.plain.fields = e.fields := by
  rw [fields, plain, NameMap.restrict, List.filterMap_filter, fields]
  congr 1
  funext p
  obtain ⟨name, member⟩ := p
  cases member with
  | field f => rfl
  | relation r => simp

@[simp] theorem declaresColumn_plain (e : Entity) (column : String) :
    e.plain.declaresColumn column = e.declaresColumn column := by
  rw [declaresColumn, fields_plain]
  rfl

theorem mem_relations_of_plain {e : Entity} {p : String × Relation} (h : p ∈ e.plain.relations) :
    p ∈ e.relations := by
  rw [relations, plain, NameMap.restrict] at h
  exact (List.filter_sublist.filterMap _).subset h

end Entity

/-! ## Registries -/

namespace Registry

variable {r : Registry} {code name : String}

/-- One registry declares none but the relations of another. -/
def Within (part r : Registry) : Prop :=
  ∀ code name relation, part.relation? code name = some relation →
    r.relation? code name = some relation

/-- A registry without the relations that have a point in their names. -/
def plain (r : Registry) : Registry :=
  ⟨r.entities.mapValues Entity.plain, fun p hp => by
    obtain ⟨q, hq, rfl⟩ := List.mem_map.1 hp
    exact r.sound q hq⟩

theorem find?_plain (r : Registry) (code : String) :
    r.plain.find? code = (r.find? code).map Entity.plain :=
  NameMap.find?_mapValues Entity.plain r.entities

theorem relation?_plain (r : Registry) (code name : String) :
    r.plain.relation? code name = if '.' ∈ name.toList then none else r.relation? code name := by
  rw [relation?, relation?, find?_plain]
  cases r.find? code with
  | none => simp
  | some e => exact e.relation?_plain name

theorem relation?_plain_eq_some {relation : Relation} :
    r.plain.relation? code name = some relation ↔
      '.' ∉ name.toList ∧ r.relation? code name = some relation := by
  rw [relation?_plain]
  split
  · rename_i hpoint
    simp [hpoint]
  · rename_i hpoint
    simp [hpoint]

theorem within_plain (r : Registry) : r.plain.Within r :=
  fun _ _ _ h => (relation?_plain_eq_some.1 h).2

theorem within_refl (r : Registry) : r.Within r :=
  fun _ _ _ h => h

theorem plainRelations_plain (r : Registry) : r.plain.PlainRelations :=
  fun _ _ _ h => (relation?_plain_eq_some.1 h).1

theorem toList_plain (r : Registry) : r.plain.toList = r.toList.map Entity.plain := by
  simp only [toList, plain, NameMap.mapValues, List.map_map, Function.comp_def]

theorem columnFault?_plain (source target : Entity) (name : String)
    (columns : List (String × String)) :
    columnFault? source.plain target.plain name columns =
      columnFault? source target name columns := by
  induction columns with
  | nil => rfl
  | cons p ps ih =>
    simp only [columnFault?, Entity.declaresColumn_plain, Entity.code_plain, ih]

theorem relationFault?_plain (source : Entity) (name : String) (relation : Relation) :
    r.plain.relationFault? source.plain name relation = r.relationFault? source name relation := by
  rw [relationFault?, relationFault?, find?_plain]
  cases r.find? relation.target with
  | none => rfl
  | some target => simp only [Option.map_some, columnFault?_plain]

/-- The plain part of a closed registry is closed. -/
theorem validate_plain (h : r.validate = .ok ()) : r.plain.validate = .ok () := by
  rw [validate_eq_ok] at h ⊢
  rw [toList_plain, List.forall_mem_map]
  intro e he
  rw [entityFault?_eq_none]
  intro p hp
  rw [relationFault?_plain]
  exact entityFault?_eq_none.1 (h e he) p (Entity.mem_relations_of_plain hp)

end Registry

end FilterQuery
