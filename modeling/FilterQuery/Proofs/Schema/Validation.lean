import FilterQuery.Proofs.JoinPlan.Chains
import FilterQuery.Proofs.Meaning.Database
import FilterQuery.Proofs.Schema.Registration
import FilterQuery.Schema.Catalog

/-!
# What validation accepts

`Registry.validate` accepts the closed registries (`Registry.Closed`): every relation leads to a
registered entity by at least one pair of columns, and both entities have the columns. Any other
registry is refused on account of its first faulty relation, in the order of entity codes and
relation names, whatever the order of registration was. Who follows relations through a closed
registry never comes to an unknown entity (`Closed.endOf_along`) and joins by equations between
columns all along, never by a condition that always holds (`Condition.Equates`).
-/

namespace FilterQuery

/-! ## The first fault -/

/-- What a search finds in an ordered list is the first of all that there is to find. -/
theorem findSome?_first {α β : Type} {f : α → Option β} {before : α → α → Prop}
    {l : List α} {b : β} (hordered : l.Pairwise before) (h : l.findSome? f = some b) :
    ∃ a ∈ l, f a = some b ∧ ∀ x ∈ l, f x ≠ none → x = a ∨ before a x := by
  obtain ⟨l₁, a, l₂, rfl, ha, hnone⟩ := List.findSome?_eq_some_iff.1 h
  refine ⟨a, by simp, ha, ?_⟩
  intro x hx hfound
  rcases List.mem_append.1 hx with hx | hx
  · exact absurd (hnone x hx) hfound
  · rcases List.mem_cons.1 hx with hx | hx
    · exact Or.inl hx
    · exact Or.inr ((List.pairwise_cons.1 (List.pairwise_append.1 hordered).2.1).1 x hx)

/-- Relations stand in an entity in increasing order of their names. -/
theorem Entity.pairwise_relations (e : Entity) : e.relations.Pairwise fun a b => a.1 < b.1 := by
  refine List.Pairwise.filterMap _ ?_ e.members.ordered
  rintro ⟨name, member⟩ ⟨other, otherMember⟩ hlt p hp q hq
  cases member with
  | field f => cases hp
  | relation r =>
    cases otherMember with
    | field f => cases hq
    | relation r' =>
      cases hp
      cases hq
      exact hlt

/-! ## Closed registries -/

/-- A column belongs to the primary key or stores a field. -/
def Entity.HasColumn (e : Entity) (column : String) : Prop :=
  column ∈ e.primaryKey ∨ ∃ name field, e.field? name = some field ∧ field.column = column

theorem Entity.declaresColumn_iff {e : Entity} {column : String} :
    e.declaresColumn column = true ↔ e.HasColumn column := by
  rw [declaresColumn, Bool.or_eq_true, List.contains_iff_mem, List.any_eq_true, HasColumn]
  refine or_congr_right ⟨?_, ?_⟩
  · rintro ⟨⟨name, field⟩, hmem, hcolumn⟩
    exact ⟨name, field, field?_of_mem hmem, by simpa using hcolumn⟩
  · rintro ⟨name, field, hfield, hcolumn⟩
    exact ⟨_, mem_fields hfield, by simpa using hcolumn⟩

namespace Registry

/-- A relation of an entity leads to a registered entity, by at least one pair of columns, the
first of each pair a column of the entity and the second a column of the target. -/
def Joins (r : Registry) (source : Entity) (relation : Relation) : Prop :=
  ∃ target, r.find? relation.target = some target ∧ relation.columns ≠ [] ∧
    ∀ p ∈ relation.columns, source.HasColumn p.1 ∧ target.HasColumn p.2

/-- Every relation of every entity joins. -/
def Closed (r : Registry) : Prop :=
  ∀ code source, r.find? code = some source →
    ∀ name relation, source.relation? name = some relation → r.Joins source relation

/-- What keeps a relation of an entity from joining. -/
inductive Faulty (r : Registry) (source : Entity) (name : String) (relation : Relation) :
    MetadataFault → Prop
  /-- The target is not registered. -/
  | target (h : r.find? relation.target = none) :
      Faulty r source name relation (.unknownTarget name relation.target)
  /-- There is no pair of columns. -/
  | noColumns (h : relation.columns = []) : Faulty r source name relation (.noJoinColumns name)
  /-- The entity does not have a column. -/
  | column {p : String × String} (hp : p ∈ relation.columns) (h : ¬source.HasColumn p.1) :
      Faulty r source name relation (.undeclaredColumn name p.1)
  /-- The target does not have a column. -/
  | targetColumn {target : Entity} {p : String × String}
      (htarget : r.find? relation.target = some target) (hp : p ∈ relation.columns)
      (h : ¬target.HasColumn p.2) :
      Faulty r source name relation (.undeclaredTargetColumn name p.2 target.code)

variable {r : Registry} {source : Entity} {name : String} {relation : Relation}
  {fault : MetadataFault}

/-- A faulty relation does not join. -/
theorem Faulty.not_joins (h : r.Faulty source name relation fault) : ¬r.Joins source relation := by
  rintro ⟨target, htarget, hcolumns, hpairs⟩
  cases h with
  | target hnone =>
    rw [htarget] at hnone
    cases hnone
  | noColumns hempty => exact hcolumns hempty
  | column hp hno => exact hno (hpairs _ hp).1
  | targetColumn hother hp hno =>
    rw [htarget] at hother
    obtain rfl := Option.some.inj hother
    exact hno (hpairs _ hp).2

theorem faulty_of_columnFault? {target : Entity} (htarget : r.find? relation.target = some target)
    {columns : List (String × String)} (hcolumns : ∀ p ∈ columns, p ∈ relation.columns)
    (h : columnFault? source target name columns = some fault) :
    r.Faulty source name relation fault := by
  induction columns with
  | nil => cases h
  | cons p ps ih =>
    rw [columnFault?] at h
    have hp : p ∈ relation.columns := hcolumns p List.mem_cons_self
    by_cases hown : source.declaresColumn p.1 = true
    · by_cases hother : target.declaresColumn p.2 = true
      · rw [if_neg (by simp [hown]), if_neg (by simp [hother])] at h
        exact ih (fun q hq => hcolumns q (List.mem_cons_of_mem _ hq)) h
      · rw [if_neg (by simp [hown]), if_pos (by simp [hother])] at h
        obtain rfl := Option.some.inj h
        exact .targetColumn htarget hp fun hcolumn => hother (Entity.declaresColumn_iff.2 hcolumn)
    · rw [if_pos (by simp [hown])] at h
      obtain rfl := Option.some.inj h
      exact .column hp fun hcolumn => hown (Entity.declaresColumn_iff.2 hcolumn)

/-- A fault that is found is one. -/
theorem faulty_of_relationFault? (h : r.relationFault? source name relation = some fault) :
    r.Faulty source name relation fault := by
  rw [relationFault?] at h
  cases htarget : r.find? relation.target with
  | none =>
    rw [htarget] at h
    obtain rfl := Option.some.inj h
    exact .target htarget
  | some target =>
    simp only [htarget] at h
    by_cases hcolumns : relation.columns = []
    · rw [if_pos (by simp [hcolumns])] at h
      obtain rfl := Option.some.inj h
      exact .noColumns hcolumns
    · rw [if_neg (by simpa using hcolumns)] at h
      exact faulty_of_columnFault? htarget (fun _ hp => hp) h

/-- No fault is found in the relations that join, and only in these. -/
theorem relationFault?_eq_none :
    r.relationFault? source name relation = none ↔ r.Joins source relation := by
  constructor
  · intro h
    rw [relationFault?] at h
    split at h
    · cases h
    · rename_i target htarget
      split at h
      · cases h
      · rename_i hcolumns
        refine ⟨target, htarget, by simpa using hcolumns, fun p hp => ?_⟩
        obtain ⟨hown, hother⟩ := columnFault?_eq_none h p hp
        exact ⟨Entity.declaresColumn_iff.1 hown, Entity.declaresColumn_iff.1 hother⟩
  · intro hjoins
    cases hfault : r.relationFault? source name relation with
    | none => rfl
    | some fault => exact absurd hjoins (faulty_of_relationFault? hfault).not_joins

theorem entityFault?_eq_none_iff : r.entityFault? source = none ↔
    ∀ name relation, source.relation? name = some relation → r.Joins source relation := by
  rw [entityFault?_eq_none]
  constructor
  · intro h name relation hrel
    exact relationFault?_eq_none.1 (h _ (Entity.mem_relations hrel))
  · rintro h ⟨name, relation⟩ hmem
    exact relationFault?_eq_none.2 (h name relation (Entity.relation?_of_mem hmem))

/-- The fault of an entity is that of its first faulty relation. -/
theorem entityFault?_eq_some {error : FilterError} (h : r.entityFault? source = some error) :
    ∃ name relation fault, error = .invalidMetadata source.code fault ∧
      source.relation? name = some relation ∧ r.Faulty source name relation fault ∧
      ∀ other otherRelation, source.relation? other = some otherRelation →
        ¬r.Joins source otherRelation → name ≤ other := by
  obtain ⟨fault, hfault, rfl⟩ := Option.map_eq_some_iff.1 h
  obtain ⟨⟨name, relation⟩, hmem, hfound, hfirst⟩ :=
    findSome?_first source.pairwise_relations hfault
  refine ⟨name, relation, fault, rfl, Entity.relation?_of_mem hmem,
    faulty_of_relationFault? hfound, ?_⟩
  intro other otherRelation hrel hno
  rcases hfirst _ (Entity.mem_relations hrel)
      (fun hnone => hno (relationFault?_eq_none.1 hnone)) with heq | hlt
  · exact (Prod.mk.inj heq).1 ▸ String.le_refl _
  · exact String.not_lt.1 fun hgt => String.lt_irrefl _ (String.lt_trans hlt hgt)

theorem validate_eq_ok_iff : r.validate = .ok () ↔ r.Closed := by
  rw [validate_eq_ok]
  constructor
  · intro h code source hsource
    exact entityFault?_eq_none_iff.1 (h source (mem_toList_of_find? hsource))
  · intro h source hmem
    exact entityFault?_eq_none_iff.2 (h source.code source (find?_of_mem_toList hmem))

/-- A registry that is not closed is refused on account of its first faulty relation. -/
theorem validate_eq_error {error : FilterError} (h : r.validate = .error error) :
    ∃ source name relation fault, error = .invalidMetadata source.code fault ∧
      r.find? source.code = some source ∧ source.relation? name = some relation ∧
      r.Faulty source name relation fault ∧
      ∀ code other otherName otherRelation, r.find? code = some other →
        other.relation? otherName = some otherRelation → ¬r.Joins other otherRelation →
        source.code < code ∨ source.code = code ∧ name ≤ otherName := by
  rw [validate] at h
  split at h
  · rename_i found hfound
    obtain rfl := Except.error.inj h
    obtain ⟨source, hmem, hfault, hfirst⟩ := findSome?_first r.pairwise_toList hfound
    obtain ⟨name, relation, fault, rfl, hrel, hfaulty, hleast⟩ := entityFault?_eq_some hfault
    refine ⟨source, name, relation, fault, rfl, find?_of_mem_toList hmem, hrel, hfaulty, ?_⟩
    intro code other otherName otherRelation hother hotherRel hno
    obtain rfl := code_of_find? hother
    have hotherFault : r.entityFault? other ≠ none :=
      fun hnone => hno (entityFault?_eq_none_iff.1 hnone otherName otherRelation hotherRel)
    rcases hfirst other (mem_toList_of_find? hother) hotherFault with rfl | hlt
    · exact Or.inr ⟨rfl, hleast otherName otherRelation hotherRel hno⟩
    · exact Or.inl hlt
  · cases h

end Registry

/-! ## Following relations -/

/-- An equation between a column of one alias and a column of another, or several of these. -/
inductive Condition.Equates (own other : String → Prop) (left right : String) : Condition → Prop
  /-- A single equation. -/
  | one {a b : String} (ha : own a) (hb : other b) :
      Equates own other left right (.sameColumns ⟨left, a⟩ ⟨right, b⟩)
  /-- Several equations, all of which are to hold. -/
  | several {items : List Condition} (hlength : 2 ≤ items.length)
      (h : ∀ item ∈ items, ∃ a b, own a ∧ other b ∧ item = .sameColumns ⟨left, a⟩ ⟨right, b⟩) :
      Equates own other left right (.all items)

theorem equates_columnsMatch {own other : String → Prop} {columns : List (String × String)}
    (hne : columns ≠ []) (h : ∀ p ∈ columns, own p.1 ∧ other p.2) (left right : String) :
    (columnsMatch columns left right).Equates own other left right := by
  match columns, hne with
  | [p], _ =>
    obtain ⟨ha, hb⟩ := h p List.mem_cons_self
    exact .one ha hb
  | p :: q :: ps, _ =>
    have hitems : ∀ item ∈ (p :: q :: ps).map fun pair =>
        Condition.sameColumns ⟨left, pair.1⟩ ⟨right, pair.2⟩,
        ∃ a b, own a ∧ other b ∧ item = .sameColumns ⟨left, a⟩ ⟨right, b⟩ := by
      intro item hitem
      obtain ⟨pair, hpair, rfl⟩ := List.mem_map.1 hitem
      obtain ⟨ha, hb⟩ := h pair hpair
      exact ⟨pair.1, pair.2, ha, hb, rfl⟩
    exact .several (by simp) hitems

theorem Condition.Equates.ne_always {own other : String → Prop} {left right : String}
    {c : Condition} (h : c.Equates own other left right) : c ≠ .always := by
  rintro rfl
  cases h

/-- Equations are not a condition that always holds: a row of nulls satisfies none of them. -/
theorem Condition.Equates.eval_ne_holds {own other : String → Prop} {left right : String}
    {c : Condition} (h : c.Equates own other left right) {Cell : Type} (db : Database Cell)
    {env : Env Cell} (hnull : env left = Row.null) : c.eval db env ≠ .holds := by
  have hone (a b : String) :
      (Condition.sameColumns ⟨left, a⟩ ⟨right, b⟩).eval db env = .unknown := by
    rw [Condition.eval, ColumnRef.value, hnull]
    rfl
  intro hholds
  cases h with
  | one ha hb =>
    rw [hone] at hholds
    cases hholds
  | several hlength h =>
    rename_i items
    cases items with
    | nil => simp at hlength
    | cons item items =>
      obtain ⟨a, b, _, _, rfl⟩ := h item List.mem_cons_self
      rw [Condition.eval, Condition.evals, Truth.all_cons, Truth.and_eq_holds, hone] at hholds
      cases hholds.1

namespace Registry

variable {r : Registry} {start : String} {names : List String} {relations : List Relation}

/-- Following relations through a closed registry comes to registered entities only. -/
theorem Closed.endOf_along (h : r.Closed)
    (hstart : ∃ e, r.find? start = some e) (halong : r.along? start names = some relations) :
    ∃ e, r.find? (JoinPlan.endOf start relations) = some e := by
  induction names generalizing start relations with
  | nil =>
    obtain rfl := Option.some.inj halong
    exact hstart
  | cons name names ih =>
    simp only [along?, Option.bind_eq_bind, Option.bind_eq_some_iff] at halong
    obtain ⟨relation, hrel, rest, hrest, heq⟩ := halong
    obtain rfl := Option.some.inj heq
    obtain ⟨source, hsource, hrelation⟩ := relation?_eq_some.1 hrel
    obtain ⟨target, htarget, _⟩ := h start source hsource name relation hrelation
    show ∃ e, r.find? (JoinPlan.endOf relation.target rest) = some e
    exact ih ⟨target, htarget⟩ hrest

/-- Each relation on a chain is declared by the entity that the relations before it lead to. -/
theorem relation_of_along (halong : r.along? start names = some relations) {n : Nat}
    {relation : Relation} (hn : relations[n]? = some relation) :
    ∃ name source, names[n]? = some name ∧
      r.find? (JoinPlan.endOf start (relations.take n)) = some source ∧
      source.relation? name = some relation := by
  induction names generalizing start relations n with
  | nil =>
    obtain rfl := Option.some.inj halong
    simp at hn
  | cons name names ih =>
    simp only [along?, Option.bind_eq_bind, Option.bind_eq_some_iff] at halong
    obtain ⟨first, hfirst, rest, hrest, heq⟩ := halong
    obtain rfl := Option.some.inj heq
    cases n with
    | zero =>
      obtain rfl := Option.some.inj hn
      obtain ⟨source, hsource, hrelation⟩ := relation?_eq_some.1 hfirst
      exact ⟨name, source, rfl, hsource, hrelation⟩
    | succ n => exact ih hrest hn

/-- **Validation accepts exactly the closed registries.** A registry that is refused is refused on
account of its first faulty relation in the order of entity codes and relation names, which only
depends on the entities, not on how they were registered. Once a registry is accepted, any chain of
relations that starts at a registered entity leads to a registered entity, and each of its
relations is joined by equations between columns of its entity and of its target, whatever the
aliases are; a row of nulls is joined to no row. -/
theorem validate_closed (r : Registry) :
    (r.validate = .ok () ↔ r.Closed) ∧
    (∀ error, r.validate = .error error →
      ∃ source name relation fault, error = .invalidMetadata source.code fault ∧
        r.find? source.code = some source ∧ source.relation? name = some relation ∧
        r.Faulty source name relation fault ∧
        ∀ code other otherName otherRelation, r.find? code = some other →
          other.relation? otherName = some otherRelation → ¬r.Joins other otherRelation →
          source.code < code ∨ source.code = code ∧ name ≤ otherName) ∧
    (∀ other : Registry, (∀ e, e ∈ other.toList ↔ e ∈ r.toList) → other.validate = r.validate) ∧
    (r.validate = .ok () → ∀ start, (∃ e, r.lookup start = .ok e) →
      ∀ names relations, r.along? start names = some relations →
        (∃ e, r.lookup (JoinPlan.endOf start relations) = .ok e) ∧
        ∀ n relation, relations[n]? = some relation → ∃ name source target,
          names[n]? = some name ∧
          r.lookup (JoinPlan.endOf start (relations.take n)) = .ok source ∧
          source.relation? name = some relation ∧ r.lookup relation.target = .ok target ∧
          ∀ left right,
            (columnsMatch relation.columns left right).Equates source.HasColumn target.HasColumn
              left right ∧
            columnsMatch relation.columns left right ≠ .always ∧
            ∀ (Cell : Type) (db : Database Cell) (env : Env Cell), env left = Row.null →
              (columnsMatch relation.columns left right).eval db env ≠ .holds) := by
  refine ⟨validate_eq_ok_iff, fun error => validate_eq_error, ?_, ?_⟩
  · intro other hsame
    have heq : other = r := by
      refine ext_find? fun code => Option.ext fun e => ?_
      constructor
      · intro h
        have hmem := (hsame e).1 (mem_toList_of_find? h)
        rw [← code_of_find? h, find?_of_mem_toList hmem]
      · intro h
        have hmem := (hsame e).2 (mem_toList_of_find? h)
        rw [← code_of_find? h, find?_of_mem_toList hmem]
    rw [heq]
  · intro hvalid start hstart names relations halong
    have hclosed : r.Closed := validate_eq_ok_iff.1 hvalid
    simp only [lookup_eq_ok] at hstart ⊢
    refine ⟨hclosed.endOf_along hstart halong, fun n relation hn => ?_⟩
    obtain ⟨name, source, hname, hsource, hrelation⟩ := relation_of_along halong hn
    obtain ⟨target, htarget, hcolumns, hpairs⟩ := hclosed _ source hsource name relation hrelation
    refine ⟨name, source, target, hname, hsource, hrelation, htarget, fun left right => ?_⟩
    have hequates := equates_columnsMatch hcolumns hpairs left right
    exact ⟨hequates, hequates.ne_always, fun Cell db env => hequates.eval_ne_holds db⟩

/-- The catalog is closed, so that relations that lead in a circle lead to entities all the way.
Cards alone are not: of the relations that lead away from them the first one by name is reported,
although it is declared last. -/
theorem validate_closed_catalog :
    Catalog.registry.Closed ∧
    (∃ relations, Catalog.registry.along? "deck" ["cards", "author_user", "cards"] =
      some relations ∧ ∃ e, Catalog.registry.lookup (JoinPlan.endOf "deck" relations) = .ok e) ∧
    ¬(empty.registerAll [Catalog.card]).1.Closed ∧
    (empty.registerAll [Catalog.card]).1.validate =
      .error (.invalidMetadata "card" (.unknownTarget "author_user" "animestars_user")) := by
  have hvalid := Catalog.validate_registry
  obtain ⟨hclosed, -, -, hchains⟩ := validate_closed Catalog.registry
  have hrefused : (empty.registerAll [Catalog.card]).1.validate =
      .error (.invalidMetadata "card" (.unknownTarget "author_user" "animestars_user")) := rfl
  obtain ⟨relations, hcircle⟩ : ∃ relations,
      Catalog.registry.along? "deck" ["cards", "author_user", "cards"] = some relations := ⟨_, rfl⟩
  have hdeck : ∃ e, Catalog.registry.lookup "deck" = .ok e := ⟨Catalog.deck, rfl⟩
  refine ⟨hclosed.1 hvalid, ⟨relations, hcircle, (hchains hvalid "deck" hdeck _ _ hcircle).1⟩,
    fun h => ?_, hrefused⟩
  rw [← (validate_closed _).1, hrefused] at h
  cases h

end Registry

end FilterQuery
