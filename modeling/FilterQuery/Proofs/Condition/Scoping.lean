import FilterQuery.Proofs.Condition.Resolving
import FilterQuery.Proofs.JoinPlan.Levels
import FilterQuery.Proofs.Schema.Catalog

/-!
# Scopes of aliases

A condition speaks of the rows of tables by their aliases. `Condition.Scoped` holds a condition to
the aliases that are known where it stands: a column belongs to an alias that is known and to the
entity for which this alias stands, and a subquery brings aliases that are new, each known from
its own join onwards. Nothing is known of a piece of SQL, so it is never in scope.

The aliases known at a place of a filter are not those of its path alone: a plan gives every path
one alias, and a subquery repeats the joins of its whole level. `Known` is what stays true on the
way down, so that what a filter compiles to leaves no alias dangling and captures none
(`Resolution.filter_scoped`).
-/

namespace FilterQuery

/-! ## Conditions in scope -/

/-- The column of an alias that is known, declared by the entity that the alias stands for. -/
def ColumnRef.InScope (registry : Registry) (plan : JoinPlan) (known : List String)
    (c : ColumnRef) : Prop :=
  c.aliasName ∈ known ∧ ∃ code e, plan.entityOf? c.aliasName = some code ∧
    registry.find? code = some e ∧ e.declaresColumn c.column = true

/-- An alias of a plan stands for the rows of a table. -/
def JoinPlan.StandsFor (registry : Registry) (plan : JoinPlan) (aliasName table : String) : Prop :=
  ∃ code e, plan.entityOf? aliasName = some code ∧ registry.find? code = some e ∧ e.table = table

/-- The aliases known after some joins. -/
def Join.bring (known : List String) : List Join → List String
  | [] => known
  | ⟨_, aliasName, _⟩ :: js => bring (aliasName :: known) js

mutual

/-- A condition all of whose columns are in scope, where some aliases are known. -/
def Condition.Scoped (registry : Registry) (plan : JoinPlan) : List String → Condition → Prop
  | _, .always => True
  | _, .never => True
  | known, .compare column _ _ => column.InScope registry plan known
  | known, .sameColumns left right =>
    left.InScope registry plan known ∧ right.InScope registry plan known
  | known, .between column _ _ => column.InScope registry plan known
  | known, .like column _ _ _ _ => column.InScope registry plan known
  | known, .isIn column _ _ => column.InScope registry plan known
  | known, .isNull column _ => column.InScope registry plan known
  | known, .all items => Condition.AllScoped registry plan known items
  | known, .any items => Condition.AllScoped registry plan known items
  | known, .not item => Condition.Scoped registry plan known item
  | known, .notTrue item => Condition.Scoped registry plan known item
  | known, .hasRow subquery _ => Subquery.Scoped registry plan known subquery
  | known, .rowCount subquery _ _ => Subquery.Scoped registry plan known subquery
  | _, .raw _ _ => False

/-- Conditions each of which is in scope. -/
def Condition.AllScoped (registry : Registry) (plan : JoinPlan) :
    List String → List Condition → Prop
  | _, [] => True
  | known, c :: cs =>
    Condition.Scoped registry plan known c ∧ Condition.AllScoped registry plan known cs

/-- A subquery with a new alias whose joins, correlation and filter are in scope. -/
def Subquery.Scoped (registry : Registry) (plan : JoinPlan) : List String → Subquery → Prop
  | known, ⟨table, aliasName, joins, correlation, filter⟩ =>
    aliasName ∉ known ∧ plan.StandsFor registry aliasName table ∧
      Join.AllScoped registry plan (aliasName :: known) joins ∧
      Condition.Scoped registry plan (Join.bring (aliasName :: known) joins) correlation ∧
      Condition.Scoped registry plan (Join.bring (aliasName :: known) joins) filter

/-- Joins each of which brings a new alias, with a condition on this alias and those before it. -/
def Join.AllScoped (registry : Registry) (plan : JoinPlan) : List String → List Join → Prop
  | _, [] => True
  | known, ⟨table, aliasName, on⟩ :: js =>
    aliasName ∉ known ∧ plan.StandsFor registry aliasName table ∧
      Condition.Scoped registry plan (aliasName :: known) on ∧
      Join.AllScoped registry plan (aliasName :: known) js

end

variable {registry : Registry} {plan : JoinPlan} {known : List String} {scope : PlanScope}
  {j : PlannedJoin} {name : String}

namespace Condition

theorem allScoped_iff {cs : List Condition} :
    AllScoped registry plan known cs ↔ ∀ c ∈ cs, c.Scoped registry plan known := by
  induction cs with
  | nil => simp [AllScoped]
  | cons c cs ih => rw [AllScoped, ih, List.forall_mem_cons]

theorem scoped_allOf {cs : List Condition} (h : ∀ c ∈ cs, c.Scoped registry plan known) :
    (allOf cs).Scoped registry plan known := by
  match cs with
  | [] => simp [allOf, Scoped]
  | [c] => exact h c List.mem_cons_self
  | c :: d :: cs =>
    show (Condition.all (c :: d :: cs)).Scoped registry plan known
    rw [Scoped, allScoped_iff]
    exact h

theorem scoped_anyOf {cs : List Condition} (h : ∀ c ∈ cs, c.Scoped registry plan known) :
    (anyOf cs).Scoped registry plan known := by
  match cs with
  | [] => simp [anyOf, Scoped]
  | [c] => exact h c List.mem_cons_self
  | c :: d :: cs =>
    show (Condition.any (c :: d :: cs)).Scoped registry plan known
    rw [Scoped, allScoped_iff]
    exact h

theorem scoped_onColumn {column : ColumnRef} (hcolumn : column.InScope registry plan known)
    {c : Condition} (h : Resolution.OnColumn column c) : c.Scoped registry plan known := by
  induction h with
  | always => simp [Scoped]
  | never => simp [Scoped]
  | compare => simpa [Scoped] using hcolumn
  | between => simpa [Scoped] using hcolumn
  | like => simpa [Scoped] using hcolumn
  | isIn => simpa [Scoped] using hcolumn
  | isNull => simpa [Scoped] using hcolumn
  | both _ _ ihc ihd => exact ⟨ihc, ihd, trivial⟩

end Condition

theorem Join.mem_bring {js : List Join} {a : String} :
    a ∈ Join.bring known js ↔ a ∈ known ∨ ∃ j ∈ js, j.aliasName = a := by
  induction js generalizing known with
  | nil => simp [Join.bring]
  | cons j js ih =>
    obtain ⟨table, aliasName, on⟩ := j
    rw [Join.bring, ih, List.mem_cons]
    simp only [List.mem_cons, exists_eq_or_imp]
    tauto

/-! ## The aliases known at a place -/

namespace JoinPlan

/-- What is true of the aliases known at a place of a filter: that of the place and those of its
level are known, and every other one belongs to a level further up. -/
structure Known (plan : JoinPlan) (scope : PlanScope) (known : List String) : Prop where
  place : scope.aliasName ∈ known
  level : ∀ k ∈ plan.levelJoins scope.anchor, k.aliasName ∈ known
  above : ∀ k ∈ plan.joins, k.aliasName ∈ known → depth k.placement.anchor? ≤ depth scope.anchor

theorem Planned.depth_anchor_scope_le (h : Planned registry plan) (hs : plan.Reaches scope) :
    depth scope.anchor ≤ depth scope.path := by
  rcases hs with rfl | ⟨k, hk, rfl⟩
  · exact Nat.le_refl 0
  · exact h.depth_anchor_le hk

/-- No join inside a collection is known where the collection is not yet entered. -/
theorem Known.fresh (hplan : Planned registry plan) (hs : plan.Reaches scope)
    (hknown : plan.Known scope known) (hfollows : Follows registry scope name j) {k : PlannedJoin}
    (hk : k ∈ plan.joins) (hplace : k.placement = .inside j.path) : k.aliasName ∉ known := by
  intro hmem
  have habove := hknown.above k hk hmem
  rw [hplace, Placement.anchor?, hfollows.path] at habove
  have hbelow := depth_lt_childPath scope.path name
  have hanchor := hplan.depth_anchor_scope_le hs
  omega

/-- The aliases known at the root. -/
theorem Planned.known_root (h : Planned registry plan) :
    plan.Known plan.rootScope
      (Join.bring [rootAlias] (plan.outerJoins.map PlannedJoin.join)) := by
  refine ⟨?_, ?_, ?_⟩
  · exact Join.mem_bring.2 (Or.inl List.mem_cons_self)
  · intro k hk
    exact Join.mem_bring.2 (Or.inr ⟨k.join, List.mem_map_of_mem hk, rfl⟩)
  · intro k hk hmem
    rcases Join.mem_bring.1 hmem with hroot | ⟨_, hi, halias⟩
    · exact absurd (List.mem_singleton.1 hroot) (h.alias_ne_root hk)
    · obtain ⟨i, houter, rfl⟩ := List.mem_map.1 hi
      have hlevel : i ∈ plan.levelJoins none := houter
      obtain ⟨hjoins, -, hplace⟩ := h.mem_levelJoins.1 hlevel
      obtain rfl := h.eq_of_alias hjoins hk halias
      rw [hplace]
      exact Nat.le_refl 0

/-- Following a single-valued relation makes no alias known: the level has them all. -/
theorem Known.nested (hplan : Planned registry plan) (hknown : plan.Known scope known)
    (hj : j ∈ plan.joins) (hfollows : Follows registry scope name j)
    (hone : j.relation.isMany = false) : plan.Known j.scope known := by
  obtain ⟨hlevel, hanchor⟩ := hplan.nested_level hj hfollows hone
  refine ⟨?_, ?_, ?_⟩
  · exact hknown.level j hlevel
  · rw [hanchor]
    exact hknown.level
  · rw [hanchor]
    exact hknown.above

/-- Entering the subquery of a collection makes its alias known, and those of its level. -/
theorem Known.inside (hplan : Planned registry plan) (hs : plan.Reaches scope)
    (hknown : plan.Known scope known) (hj : j ∈ plan.joins)
    (hfollows : Follows registry scope name j) (hmany : j.relation.isMany = true) :
    plan.Known j.scope
      (Join.bring (j.aliasName :: known) ((plan.innerJoins j.path).map PlannedJoin.join)) := by
  have hanchor := hplan.anchor_of_many hj hmany
  refine ⟨?_, ?_, ?_⟩
  · exact Join.mem_bring.2 (Or.inl List.mem_cons_self)
  · rw [hanchor]
    intro k hk
    exact Join.mem_bring.2 (Or.inr ⟨k.join, List.mem_map_of_mem hk, rfl⟩)
  · rw [hanchor]
    intro k hk hmem
    rcases Join.mem_bring.1 hmem with hold | ⟨_, hi, halias⟩
    · rcases List.mem_cons.1 hold with halias | hold
      · obtain rfl := hplan.eq_of_alias hk hj halias
        rw [hplan.placement_of_many hk hmany]
        exact Nat.le_refl _
      · have habove := hknown.above k hk hold
        have hbelow := depth_lt_childPath scope.path name
        have hupper := hplan.depth_anchor_scope_le hs
        rw [hfollows.path]
        omega
    · obtain ⟨i, hinner, rfl⟩ := List.mem_map.1 hi
      have hlevel : i ∈ plan.levelJoins (some j.path) := hinner
      obtain ⟨hjoins, -, hiplace⟩ := hplan.mem_levelJoins.1 hlevel
      obtain rfl := hplan.eq_of_alias hjoins hk halias
      rw [hiplace]
      exact Nat.le_refl _

/-! ## Joins and subqueries -/

theorem Planned.standsFor (h : Planned registry plan) (hj : j ∈ plan.joins) :
    plan.StandsFor registry j.aliasName j.table := by
  obtain ⟨s, n, -, hfollows⟩ := h.follows hj
  obtain ⟨target, htarget, htable⟩ := hfollows.table
  exact ⟨j.target, target, h.entityOf?_alias hj, htarget, htable.symm⟩

/-- The condition of a join speaks of its own alias and of that which it hangs on. -/
theorem Planned.condition_scoped (h : Planned registry plan) (hclosed : registry.validate = .ok ())
    (hj : j ∈ plan.joins) (hparent : j.parent ∈ known) (halias : j.aliasName ∈ known) :
    j.condition.Scoped registry plan known := by
  obtain ⟨s, n, hs, hfollows⟩ := h.follows hj
  obtain ⟨source, target, hsource, htarget, -, hcolumns⟩ :=
    Registry.closed_relation hclosed hfollows.relation
  refine Condition.scoped_allOf ?_
  intro c hc
  obtain ⟨p, hp, rfl⟩ := List.mem_map.1 hc
  obtain ⟨hown, hother⟩ := hcolumns p hp
  refine ⟨⟨hparent, s.entity, source, ?_, hsource, hown⟩,
    ⟨halias, j.target, target, h.entityOf?_alias hj, htarget, hother⟩⟩
  show plan.entityOf? j.parent = some s.entity
  rw [hfollows.parent]
  exact h.entityOf?_scope hs

theorem Planned.joins_scoped (h : Planned registry plan) (hclosed : registry.validate = .ok ())
    {js : List PlannedJoin} (hjs : ∀ k ∈ js, k ∈ plan.joins) (hchained : Chained known js) :
    Join.AllScoped registry plan known (js.map PlannedJoin.join) := by
  induction js generalizing known with
  | nil => exact trivial
  | cons k ks ih =>
    obtain ⟨hparent, hnew, hks⟩ := hchained
    have hk := hjs k List.mem_cons_self
    refine ⟨hnew, h.standsFor hk, ?_, ih (fun i hi => hjs i (List.mem_cons_of_mem _ hi)) hks⟩
    exact h.condition_scoped hclosed hk (List.mem_cons_of_mem _ hparent) List.mem_cons_self

/-- The subquery of a collection is in scope where its filter is in scope inside. -/
theorem Known.subquery_scoped (hplan : Planned registry plan)
    (hclosed : registry.validate = .ok ()) (hs : plan.Reaches scope)
    (hknown : plan.Known scope known) (hj : j ∈ plan.joins)
    (hfollows : Follows registry scope name j) (hmany : j.relation.isMany = true) {c : Condition}
    (hc : c.Scoped registry plan
      (Join.bring (j.aliasName :: known) ((plan.innerJoins j.path).map PlannedJoin.join))) :
    (plan.subquery j c).Scoped registry plan known := by
  have hchained : Chained (j.aliasName :: known) (plan.levelJoins (some j.path)) := by
    refine hplan.chained_level (by simp) ?_ ?_
    · intro k hk _ hpath
      rw [hplan.eq_of_path hk hj (Option.some.inj hpath).symm]
      exact List.mem_cons_self
    · intro k hk hmem
      obtain ⟨hk, hone, hplace⟩ := hplan.mem_levelJoins.1 hk
      rcases List.mem_cons.1 hmem with halias | hold
      · rw [hplan.eq_of_alias hk hj halias, hmany] at hone
        cases hone
      · exact hknown.fresh hplan hs hfollows hk hplace hold
  refine ⟨?_, hplan.standsFor hj, ?_, ?_, hc⟩
  · exact hknown.fresh hplan hs hfollows hj (hplan.placement_of_many hj hmany)
  · refine hplan.joins_scoped hclosed (fun k hk => ?_) hchained
    exact (List.mem_filter.1 hk).1
  · refine hplan.condition_scoped hclosed hj ?_ ?_
    · rw [hfollows.parent]
      exact Join.mem_bring.2 (Or.inl (List.mem_cons_of_mem _ hknown.place))
    · exact Join.mem_bring.2 (Or.inl List.mem_cons_self)

end JoinPlan

/-! ## Filters -/

namespace Resolution

open JoinPlan (Planned Known Follows)

theorem place_inScope (hplan : Planned registry plan) (hs : plan.Reaches scope)
    (hknown : plan.Known scope known) {e : Entity} {field : Field} {fieldName : String}
    (he : registry.find? scope.entity = some e) (hfield : e.field? fieldName = some field) :
    ColumnRef.InScope registry plan known ⟨scope.aliasName, field.column⟩ :=
  ⟨hknown.place, scope.entity, e, hplan.entityOf?_scope hs, he, Entity.declaresColumn_field hfield⟩

/-- The conditions that the parts of a filter become are in scope together. -/
theorem entityParts_scoped {tests nested related all any negated : List Condition}
    (h : ∀ c ∈ tests ++ nested ++ related ++ all ++ any ++ negated, c.Scoped registry plan known) :
    ∀ c ∈ entityParts tests nested related all any negated, c.Scoped registry plan known := by
  intro c hc
  simp only [List.mem_append] at h
  simp only [entityParts, List.mem_append, List.mem_map] at hc
  rcases hc with (hc | hc) | ⟨d, hd, rfl⟩
  · exact h c (Or.inl (Or.inl hc))
  · split at hc
    · cases hc
    · obtain rfl := List.mem_singleton.1 hc
      exact Condition.scoped_anyOf fun d hd => h d (Or.inl (Or.inr hd))
  · exact h d (Or.inr hd)

/-- A filter without pieces of SQL resolves to a condition in scope, wherever what is known suits
the place. -/
theorem filter_scoped (hclosed : registry.validate = .ok ()) (hplain : registry.PlainRelations)
    (hplan : Planned registry plan) {now : Instant} {f : Filter} {c : Condition}
    (hfits : f.Fits registry scope.entity) (hraw : f.RawFree) (hs : plan.Reaches scope)
    (h : filter registry plan now f scope.place = .ok c) (hknown : plan.Known scope known) :
    c.Scoped registry plan known := by
  refine resolved_induct (P := fun s _ c => ∀ known, plan.Reaches s → plan.Known s known →
    c.Scoped registry plan known) hplan hplain ?field ?all ?any ?not ?entity ?quantified ?size ?raw
    (hfits.obeys hraw) hs rfl h known hs hknown
  case field =>
    intro s t c hs _ hc known _ hknown
    obtain ⟨e, field, he, hfield, -, hc⟩ := fieldTest_eq_ok.1 hc
    exact Condition.scoped_onColumn (place_inScope hplan hs hknown he hfield)
      (operandTest_onColumn hc)
  case all =>
    intro s fs cs hcs known hs hknown
    exact Condition.scoped_allOf (forall_mem_right hcs fun f _ c hc => hc known hs hknown)
  case any =>
    intro s fs cs hcs known hs hknown
    exact Condition.scoped_anyOf (forall_mem_right hcs fun f _ c hc => hc known hs hknown)
  case not =>
    intro s f c hc known hs hknown
    exact hc known hs hknown
  case entity =>
    intro s ef tests nested related all any negated _ h₁ h₂ h₃ h₄ h₅ h₆ known hs hknown
    refine Condition.scoped_allOf (entityParts_scoped ?_)
    simp only [List.forall_mem_append]
    refine ⟨⟨⟨⟨⟨?_, ?_⟩, ?_⟩, ?_⟩, ?_⟩, ?_⟩
    · exact forall_mem_right h₁ fun t _ c hc => hc known hs hknown
    · refine forall_mem_right h₂ ?_
      rintro p _ c ⟨j, hj, hfollows, inner, hinner, rfl⟩
      rw [nestedCondition]
      split
      · rename_i hmany
        exact hknown.subquery_scoped hplan hclosed hs hj hfollows hmany
          (hinner _ (JoinPlan.reaches_scope hj) (hknown.inside hplan hs hj hfollows hmany))
      · rename_i hone
        exact hinner known (JoinPlan.reaches_scope hj)
          (hknown.nested hplan hj hfollows (by simpa using hone))
    · exact forall_mem_right h₃ fun t _ c hc => hc known hs hknown
    · exact forall_mem_right h₄ fun f _ c hc => hc known hs hknown
    · exact forall_mem_right h₅ fun f _ c hc => hc known hs hknown
    · exact forall_mem_right h₆ fun f _ c hc => hc known hs hknown
  case quantified =>
    intro s name q f j inner hj hfollows hmany hinner known hs hknown
    have hinside := hinner _ (JoinPlan.reaches_scope hj)
      (hknown.inside hplan hs hj hfollows hmany)
    cases q with
    | any => exact hknown.subquery_scoped hplan hclosed hs hj hfollows hmany hinside
    | all =>
      have hnot : Condition.Scoped registry plan _ (.notTrue inner) := hinside
      exact hknown.subquery_scoped hplan hclosed hs hj hfollows hmany hnot
    | none => exact hknown.subquery_scoped hplan hclosed hs hj hfollows hmany hinside
  case size =>
    intro s name op n j hj hfollows hmany _ known hs hknown
    exact hknown.subquery_scoped hplan hclosed hs hj hfollows hmany trivial
  case raw =>
    intro s sql values c hfalse
    exact hfalse.elim

end Resolution

/-- What a filter without pieces of SQL compiles to is well scoped. The outer joins can be written
after the table of the root in their order, each with an alias that is new; and where their aliases
are known, the condition names no column but those that the entities of known aliases declare, and
enters no subquery whose aliases are not new. -/
theorem Engine.compile_scoped (e : Engine) (hplain : e.registry.PlainRelations) {root : String}
    {f : Filter} (hraw : f.RawFree) {now : Instant} {compiled : CompiledFilter}
    (h : e.compile root f now = .ok compiled) :
    compiled.plan.StandsFor e.registry JoinPlan.rootAlias compiled.plan.table ∧
      Join.AllScoped e.registry compiled.plan [JoinPlan.rootAlias]
        (compiled.plan.outerJoins.map PlannedJoin.join) ∧
      compiled.condition.Scoped e.registry compiled.plan
        (Join.bring [JoinPlan.rootAlias] (compiled.plan.outerJoins.map PlannedJoin.join)) := by
  simp only [compile, bind_eq_ok] at h
  obtain ⟨plan, hofFilter, condition, hresolve, h⟩ := h
  obtain rfl := Except.ok.inj h
  obtain ⟨hplan, rfl, -, hfits⟩ := JoinPlan.ofFilter_spec hplain hofFilter
  obtain ⟨entity, hentity, htable⟩ := hplan.root
  refine ⟨⟨plan.root, entity, plan.entityOf?_rootAlias, hentity, htable.symm⟩, ?_, ?_⟩
  · exact hplan.joins_scoped e.closed (fun k hk => (List.mem_filter.1 hk).1) hplan.chained_outer
  · exact Resolution.filter_scoped e.closed hplain hplan hfits hraw (JoinPlan.reaches_root plan)
      hresolve hplan.known_root

theorem Engine.compile_scoped_rareDecks :
    ∃ compiled, Catalog.engine.compile "deck" Catalog.rareDecks ⟨0, 0⟩ = .ok compiled ∧
      compiled.condition.Scoped Catalog.registry compiled.plan
        (Join.bring [JoinPlan.rootAlias] (compiled.plan.outerJoins.map PlannedJoin.join)) := by
  obtain ⟨compiled, h⟩ := Catalog.compile_rareDecks ⟨0, 0⟩
  have hscoped := Engine.compile_scoped Catalog.engine Catalog.plainRelations_registry
    Catalog.rawFree_rareDecks h
  exact ⟨compiled, h, hscoped.2.2⟩

end FilterQuery
