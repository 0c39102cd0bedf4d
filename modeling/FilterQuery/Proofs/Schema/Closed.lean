import FilterQuery.Schema.Registry
import FilterQuery.Proofs.Result

/-!
# Closed registries

What a registry that passes `Registry.validate` gives to those who follow its relations: the
target of every relation is registered, and the pairs of columns of a relation, of which there is
at least one, are declared by both entities (`Registry.closed_relation`).
-/

namespace FilterQuery

/-! ## Looking up -/

theorem NameMap.mem_of_findEntry {α : Type} {name : String} {value : α} {es : List (String × α)}
    (h : findEntry name es = some value) : (name, value) ∈ es := by
  induction es with
  | nil => simp [findEntry] at h
  | cons e es ih =>
    rw [findEntry] at h
    split at h
    · rename_i heq
      simp only [Option.some.injEq] at h
      rw [← heq, ← h]
      exact List.mem_cons_self
    · exact List.mem_cons_of_mem _ (ih h)

theorem NameMap.findEntry_of_mem {α : Type} {name : String} {value : α} {es : List (String × α)}
    (hordered : es.Pairwise fun a b => a.1 < b.1) (h : (name, value) ∈ es) :
    findEntry name es = some value := by
  induction es with
  | nil => cases h
  | cons e es ih =>
    obtain ⟨hfirst, hordered⟩ := List.pairwise_cons.1 hordered
    rw [findEntry]
    rcases List.mem_cons.1 h with rfl | h
    · rw [if_pos rfl]
    · have hne : e.1 ≠ name := fun heq => String.lt_irrefl name (heq ▸ hfirst (name, value) h)
      rw [if_neg hne]
      exact ih hordered h

namespace Registry

variable {r : Registry} {code name : String}

/-- An entity is found under its own code. -/
theorem code_of_find? {e : Entity} (h : r.find? code = some e) : e.code = code :=
  (r.sound _ (NameMap.mem_of_findEntry h)).1

theorem mem_toList_of_find? {e : Entity} (h : r.find? code = some e) : e ∈ r.toList :=
  List.mem_map.2 ⟨_, NameMap.mem_of_findEntry h, rfl⟩

/-- Every entity is found under its own code. -/
theorem find?_of_mem_toList {e : Entity} (h : e ∈ r.toList) : r.find? e.code = some e := by
  obtain ⟨⟨code, e'⟩, hmem, rfl⟩ := List.mem_map.1 h
  have hcode : e'.code = code := (r.sound _ hmem).1
  subst hcode
  exact NameMap.findEntry_of_mem r.entities.ordered hmem

/-- Entities stand in a registry in increasing order of their codes. -/
theorem pairwise_toList (r : Registry) :
    r.toList.Pairwise fun a b => a.code < b.code := by
  refine List.pairwise_map.2 (r.entities.ordered.imp_of_mem ?_)
  intro a b ha hb hab
  rw [(r.sound a ha).1, (r.sound b hb).1]
  exact hab

/-- Different entities of a registry have different codes. -/
theorem eq_of_code {e other : Entity} (he : e ∈ r.toList) (hother : other ∈ r.toList)
    (hcode : other.code = e.code) : other = e := by
  have hfound := find?_of_mem_toList hother
  rw [hcode, find?_of_mem_toList he] at hfound
  exact (Option.some.inj hfound).symm

theorem lookup_eq_ok {e : Entity} : r.lookup code = .ok e ↔ r.find? code = some e := by
  rw [lookup]
  cases r.find? code <;> simp

theorem relation?_eq_some {relation : Relation} :
    r.relation? code name = some relation ↔
      ∃ e, r.find? code = some e ∧ e.relation? name = some relation := by
  rw [relation?]
  cases r.find? code <;> simp

theorem lookupRelation_eq_ok {relation : Relation} :
    r.lookupRelation code name = .ok relation ↔ r.relation? code name = some relation := by
  rw [lookupRelation, bind_eq_ok, relation?_eq_some]
  constructor
  · rintro ⟨e, he, hrel⟩
    refine ⟨e, lookup_eq_ok.1 he, ?_⟩
    split at hrel
    · rename_i found hfound
      rw [hfound, Except.ok.inj hrel]
    · cases hrel
  · rintro ⟨e, he, hrel⟩
    exact ⟨e, lookup_eq_ok.2 he, by rw [hrel]⟩

end Registry

theorem Entity.mem_relations {e : Entity} {name : String} {relation : Relation}
    (h : e.relation? name = some relation) : (name, relation) ∈ e.relations := by
  rw [Entity.relation?] at h
  split at h
  · rename_i found hfound
    refine List.mem_filterMap.2 ⟨_, NameMap.mem_of_findEntry hfound, ?_⟩
    rw [Option.some.inj h]
  · cases h

theorem Entity.mem_fields {e : Entity} {name : String} {field : Field}
    (h : e.field? name = some field) : (name, field) ∈ e.fields := by
  rw [Entity.field?] at h
  split at h
  · rename_i found hfound
    refine List.mem_filterMap.2 ⟨_, NameMap.mem_of_findEntry hfound, ?_⟩
    rw [Option.some.inj h]
  · cases h

theorem Entity.field?_of_relation? {entity : Entity} {name : String} {relation : Relation}
    (h : entity.relation? name = some relation) : entity.field? name = none := by
  unfold Entity.relation? at h
  split at h
  · rename_i found hfound
    simp only [Entity.field?, hfound]
  · cases h

/-- The column of a field is declared. -/
theorem Entity.declaresColumn_field {e : Entity} {name : String} {field : Field}
    (h : e.field? name = some field) : e.declaresColumn field.column = true := by
  rw [Entity.declaresColumn, Bool.or_eq_true, List.any_eq_true]
  exact Or.inr ⟨_, Entity.mem_fields h, beq_self_eq_true _⟩

/-! ## Validation -/

namespace Registry

theorem columnFault?_eq_none {source target : Entity} {relation : String}
    {columns : List (String × String)} (h : columnFault? source target relation columns = none) :
    ∀ p ∈ columns, source.declaresColumn p.1 = true ∧ target.declaresColumn p.2 = true := by
  induction columns with
  | nil => simp
  | cons p ps ih =>
    rw [columnFault?] at h
    split at h
    · cases h
    · rename_i hown
      split at h
      · cases h
      · rename_i hother
        rintro q (_ | ⟨_, hq⟩)
        · exact ⟨by simpa using hown, by simpa using hother⟩
        · exact ih h q hq

theorem entityFault?_eq_none {r : Registry} {e : Entity} :
    r.entityFault? e = none ↔ ∀ p ∈ e.relations, r.relationFault? e p.1 p.2 = none := by
  rw [entityFault?, Option.map_eq_none_iff, List.findSome?_eq_none_iff]

theorem validate_eq_ok {r : Registry} :
    r.validate = .ok () ↔ ∀ e ∈ r.toList, r.entityFault? e = none := by
  rw [← List.findSome?_eq_none_iff, validate]
  cases r.toList.findSome? r.entityFault? with
  | none => simp
  | some error => simp

/-- A relation of a closed registry leads from a registered entity to a registered entity through
columns that both declare. -/
theorem closed_relation {r : Registry} {code name : String} {relation : Relation}
    (hclosed : r.validate = .ok ()) (h : r.relation? code name = some relation) :
    ∃ source target, r.find? code = some source ∧ r.find? relation.target = some target ∧
      relation.columns ≠ [] ∧ ∀ p ∈ relation.columns,
        source.declaresColumn p.1 = true ∧ target.declaresColumn p.2 = true := by
  obtain ⟨source, hsource, hrel⟩ := relation?_eq_some.1 h
  have hentity : r.entityFault? source = none :=
    validate_eq_ok.1 hclosed source (mem_toList_of_find? hsource)
  have hfault : r.relationFault? source name relation = none :=
    entityFault?_eq_none.1 hentity _ (Entity.mem_relations hrel)
  rw [relationFault?] at hfault
  split at hfault
  · cases hfault
  · rename_i target htarget
    split at hfault
    · cases hfault
    · rename_i hcolumns
      exact ⟨source, target, hsource, htarget, by simpa using hcolumns,
        columnFault?_eq_none hfault⟩

/-- No relation of a registry has a point in its name, so that a path spells one chain of
relations. -/
def PlainRelations (r : Registry) : Prop :=
  ∀ code name relation, r.relation? code name = some relation → '.' ∉ name.toList

theorem plainRelations_of_mem {r : Registry}
    (h : ∀ e ∈ r.toList, ∀ p ∈ e.relations, '.' ∉ p.1.toList) : r.PlainRelations := by
  intro code name relation hrel
  obtain ⟨e, he, hrel⟩ := relation?_eq_some.1 hrel
  exact h e (mem_toList_of_find? he) _ (Entity.mem_relations hrel)

end Registry

end FilterQuery
