import FilterQuery.Proofs.JoinPlan.Growth

/-!
# Plans of one root

Two plans of one root agree on every path that both have: the joins follow the same relation, from
the same entity to the same table, and are written inside the same collection
(`Planned.agrees`). Only the aliases differ, and `aliasOver` takes the one to the other.
-/

namespace FilterQuery.JoinPlan

/-- The alias that another plan has for the path that an alias stands for. The alias of the root is
the same in all plans. -/
def aliasOver (own other : JoinPlan) (aliasName : String) : String :=
  match own.joins.find? fun j => j.aliasName == aliasName with
  | none => aliasName
  | some j =>
    match other.find? j.path with
    | none => aliasName
    | some k => k.aliasName

/-- A join of another plan for a path that a plan does not have, written in the subquery of the
collection that has an alias. -/
def AddedBy (own other : JoinPlan) (aliasName : String) (join : Join) : Prop :=
  ∃ collection ∈ other.joins, collection.aliasName = aliasName ∧
    ∃ j ∈ other.innerJoins collection.path, own.find? j.path = none ∧ j.join = join

variable {registry : Registry} {own other : JoinPlan} {scope scope' : PlanScope}
  {j k : PlannedJoin}

theorem path_of_reaches {plan : JoinPlan} (h : plan.Reaches scope) (hpath : scope.path = none) :
    scope = plan.rootScope := by
  rcases h with h | ⟨j, -, rfl⟩
  · exact h
  · cases hpath

theorem join_of_reaches {plan : JoinPlan} {path : String} (h : plan.Reaches scope)
    (hpath : scope.path = some path) : ∃ j ∈ plan.joins, scope = j.scope ∧ j.path = path := by
  rcases h with rfl | ⟨j, hj, rfl⟩
  · cases hpath
  · exact ⟨j, hj, rfl, Option.some.inj hpath⟩

/-- Joins that follow one relation from places that agree lead to places that agree. -/
theorem Follows.agrees {name : String} (h : Follows registry scope name j)
    (h' : Follows registry scope' name k) (hentity : scope.entity = scope'.entity)
    (hanchor : scope.anchor = scope'.anchor) (hpath : j.path = k.path) :
    j.relation = k.relation ∧ j.table = k.table ∧ j.placement = k.placement := by
  have hrelation : j.relation = k.relation := by
    have hfound := h'.relation
    rw [← hentity, h.relation] at hfound
    exact Option.some.inj hfound
  obtain ⟨target, htarget, htable⟩ := h.table
  obtain ⟨target', htarget', htable'⟩ := h'.table
  rw [hrelation, htarget'] at htarget
  cases htarget
  refine ⟨hrelation, htable.trans htable'.symm, ?_⟩
  rw [h.placement, h'.placement, hrelation, hpath, hanchor]

/-- Places that two plans of one root reach at the same path are places of the same entity, inside
the same collection. -/
theorem Planned.scope_agrees (hown : Planned registry own) (hother : Planned registry other)
    (hplain : registry.PlainRelations) (hroot : own.root = other.root) (hs : own.Reaches scope)
    (hs' : other.Reaches scope') (hpath : scope.path = scope'.path) :
    scope.entity = scope'.entity ∧ scope.anchor = scope'.anchor := by
  induction hown generalizing scope scope' with
  | @start root hfound =>
    rcases hs with rfl | ⟨j, hj, -⟩
    · obtain rfl := path_of_reaches hs' hpath.symm
      exact ⟨hroot, rfl⟩
    · cases hj
  | @push plan j before name hplan hbefore hj halias hnew ih =>
    rcases hs with rfl | ⟨i, hi, rfl⟩
    · exact ih hroot (reaches_root plan) hs' hpath
    · rcases List.mem_append.1 hi with hi | hi
      · exact ih hroot (reaches_scope hi) hs' hpath
      · -- the last join of the plan hangs on a place before it, and so does its counterpart
        obtain rfl := List.mem_singleton.1 hi
        obtain ⟨k, hk, rfl, hkpath⟩ := join_of_reaches hs' hpath.symm
        obtain ⟨before', name', hbefore', hk'⟩ := hother.follows hk
        obtain ⟨hparent, rfl⟩ := childPath_inj (hplain _ _ _ hj.relation)
          (hplain _ _ _ hk'.relation) (hj.path.symm.trans (hkpath.symm.trans hk'.path))
        obtain ⟨hentity, hanchor⟩ := ih hroot hbefore hbefore' hparent
        obtain ⟨hrelation, -, hplacement⟩ := hj.agrees hk' hentity hanchor hkpath.symm
        simp [PlannedJoin.scope, PlannedJoin.target, hrelation, hplacement]

/-- The alias of a place is taken to that of the place at the same path. -/
theorem Planned.aliasOver_scope (hown : Planned registry own) (hother : Planned registry other)
    (hs : own.Reaches scope) (hs' : other.Reaches scope') (hpath : scope.path = scope'.path) :
    own.aliasOver other scope.aliasName = scope'.aliasName := by
  rcases hs with rfl | ⟨j, hj, rfl⟩
  · obtain rfl := path_of_reaches hs' hpath.symm
    have hnone : (own.joins.find? fun j => j.aliasName == rootAlias) = none := by
      rw [List.find?_eq_none]
      intro j hj
      simpa using hown.alias_ne_root hj
    show own.aliasOver other rootAlias = rootAlias
    rw [aliasOver, hnone]
  · obtain ⟨k, hk, rfl, hkpath⟩ := join_of_reaches hs' hpath.symm
    have hfind : (own.joins.find? fun i => i.aliasName == j.aliasName) = some j := by
      cases hfound : own.joins.find? fun i => i.aliasName == j.aliasName with
      | none => exact absurd (beq_self_eq_true _) (List.find?_eq_none.1 hfound j hj)
      | some i =>
        have halias : i.aliasName = j.aliasName := by simpa using List.find?_some hfound
        rw [hown.eq_of_alias (List.mem_of_find?_eq_some hfound) hj halias]
    have hcounterpart : other.find? j.path = some k := by
      rw [← hkpath]
      exact hother.find?_eq_some hk
    show own.aliasOver other j.aliasName = k.aliasName
    rw [aliasOver, hfind]
    simp only [hcounterpart]

/-- The joins that two plans of one root have for a path. -/
structure Counterparts (own other : JoinPlan) (j k : PlannedJoin) : Prop where
  relation : j.relation = k.relation
  table : j.table = k.table
  placement : j.placement = k.placement
  aliasName : own.aliasOver other j.aliasName = k.aliasName
  parent : own.aliasOver other j.parent = k.parent

/-- The joins that two plans of one root have for one path differ in their aliases only. -/
theorem Planned.agrees (hown : Planned registry own) (hother : Planned registry other)
    (hplain : registry.PlainRelations) (hroot : own.root = other.root) (hj : j ∈ own.joins)
    (hk : k ∈ other.joins) (hpath : j.path = k.path) : Counterparts own other j k := by
  obtain ⟨s, name, hs, hfollows⟩ := hown.follows hj
  obtain ⟨s', name', hs', hfollows'⟩ := hother.follows hk
  obtain ⟨hparent, rfl⟩ := childPath_inj (hplain _ _ _ hfollows.relation)
    (hplain _ _ _ hfollows'.relation) (hfollows.path.symm.trans (hpath.trans hfollows'.path))
  obtain ⟨hentity, hanchor⟩ := hown.scope_agrees hother hplain hroot hs hs' hparent
  obtain ⟨hrelation, htable, hplacement⟩ := hfollows.agrees hfollows' hentity hanchor hpath
  refine ⟨hrelation, htable, hplacement, ?_, ?_⟩
  · exact hown.aliasOver_scope hother (reaches_scope hj) (reaches_scope hk) (congrArg some hpath)
  · rw [hfollows.parent, hfollows'.parent]
    exact hown.aliasOver_scope hother hs hs' hparent

end FilterQuery.JoinPlan
