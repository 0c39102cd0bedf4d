import FilterQuery.Proofs.JoinPlan.Growth

/-!
# The levels of a plan

The single-valued joins of a plan are written in the outer query or in the subquery of a
collection: each of these is a level, and `levelJoins` lists its joins. `Planned.chained_level`
says that the joins of a level can be written in their order: each hangs on the alias that opens
the level or on a join before it, and brings a new alias. `entityOf?` says for which entity an
alias stands.
-/

namespace FilterQuery.JoinPlan

/-- The single-valued joins of the outer query, or of the subquery of the collection at a path. -/
def levelJoins (plan : JoinPlan) : Option String → List PlannedJoin
  | none => plan.outerJoins
  | some anchor => plan.innerJoins anchor

/-- Joins in an order in which they can be written: each one hangs on an alias that is known before
it, and its own alias is new. -/
def Chained : List String → List PlannedJoin → Prop
  | _, [] => True
  | known, j :: js =>
    j.parent ∈ known ∧ j.aliasName ∉ known ∧ Chained (j.aliasName :: known) js

/-- The entity for whose rows an alias stands. -/
def entityOf? (plan : JoinPlan) (aliasName : String) : Option String :=
  if aliasName = rootAlias then some plan.root
  else (plan.joins.find? fun j => j.aliasName == aliasName).map PlannedJoin.target

variable {registry : Registry} {plan : JoinPlan} {scope : PlanScope} {j k : PlannedJoin}
  {known : List String} {name : String}

/-! ## What aliases stand for -/

@[simp] theorem entityOf?_rootAlias (plan : JoinPlan) : plan.entityOf? rootAlias = some plan.root :=
  if_pos rfl

theorem Planned.entityOf?_alias (h : Planned registry plan) (hj : j ∈ plan.joins) :
    plan.entityOf? j.aliasName = some j.target := by
  rw [JoinPlan.entityOf?, if_neg (h.alias_ne_root hj)]
  cases hfind : plan.joins.find? fun k => k.aliasName == j.aliasName with
  | none => exact absurd (beq_self_eq_true _) (List.find?_eq_none.1 hfind j hj)
  | some k =>
    have halias : k.aliasName = j.aliasName := by simpa using List.find?_some hfind
    rw [h.eq_of_alias (List.mem_of_find?_eq_some hfind) hj halias]
    rfl

/-- The alias of a place stands for the entity of the place. -/
theorem Planned.entityOf?_scope (h : Planned registry plan) (hs : plan.Reaches scope) :
    plan.entityOf? scope.aliasName = some scope.entity := by
  rcases hs with rfl | ⟨j, hj, rfl⟩
  · exact entityOf?_rootAlias plan
  · exact h.entityOf?_alias hj

/-! ## Cardinalities and placements -/

/-- A collection is written as a subquery of its own. -/
theorem Planned.placement_of_many (h : Planned registry plan) (hj : j ∈ plan.joins)
    (hmany : j.relation.isMany = true) : j.placement = .inside j.path := by
  obtain ⟨s, n, -, hfollows⟩ := h.follows hj
  rw [hfollows.placement, if_pos hmany]
  rfl

theorem Planned.mem_levelJoins (h : Planned registry plan) {anchor : Option String} :
    j ∈ plan.levelJoins anchor ↔
      j ∈ plan.joins ∧ j.relation.isMany = false ∧ j.placement = placementOf anchor := by
  cases anchor with
  | some p => simp [levelJoins, innerJoins, PlannedJoin.isInside, placementOf]
  | none =>
    simp only [levelJoins, outerJoins, List.mem_filter, beq_iff_eq, placementOf]
    constructor
    · rintro ⟨hj, houter⟩
      refine ⟨hj, ?_, houter⟩
      cases hmany : j.relation.isMany with
      | false => rfl
      | true => rw [h.placement_of_many hj hmany] at houter; cases houter
    · rintro ⟨hj, -, houter⟩
      exact ⟨hj, houter⟩

theorem Planned.anchor_of_many (h : Planned registry plan) (hj : j ∈ plan.joins)
    (hmany : j.relation.isMany = true) : j.scope.anchor = some j.path := by
  rw [PlannedJoin.scope, h.placement_of_many hj hmany]
  rfl

/-- The level of a place has the join of a single-valued relation, and the place that it leads to
is on this level. -/
theorem Planned.nested_level (h : Planned registry plan) (hj : j ∈ plan.joins)
    (hfollows : Follows registry scope name j) (hone : j.relation.isMany = false) :
    j ∈ plan.levelJoins scope.anchor ∧ j.scope.anchor = scope.anchor := by
  have hplace : j.placement = placementOf scope.anchor := by
    simp [hfollows.placement, hone]
  exact ⟨h.mem_levelJoins.2 ⟨hj, hone, hplace⟩, by simp [PlannedJoin.scope, hplace]⟩

/-- The collection that a join is written inside lies on the way to the join. -/
theorem Planned.depth_anchor_le (h : Planned registry plan) (hj : j ∈ plan.joins) :
    depth j.placement.anchor? ≤ depth (some j.path) := by
  induction h generalizing j with
  | start _ => simp [JoinPlan.start] at hj
  | @push plan k s n _ hs hk _ _ ih =>
    rcases List.mem_append.1 hj with hj | hj
    · exact ih hj
    · obtain rfl := List.mem_singleton.1 hj
      rw [hk.placement, anchor?_placementOf]
      split
      · exact Nat.le_refl _
      · rw [hk.path]
        refine Nat.le_trans ?_ (Nat.le_of_lt (depth_lt_childPath s.path n))
        rcases hs with rfl | ⟨i, hi, rfl⟩
        · exact Nat.zero_le _
        · exact ih hi

/-! ## The order of a level -/

theorem chained_append {js : List PlannedJoin} (h : Chained known js)
    (hparent : j.parent ∈ known ∨ j.parent ∈ js.map (·.aliasName)) (hknown : j.aliasName ∉ known)
    (hnew : j.aliasName ∉ js.map (·.aliasName)) : Chained known (js ++ [j]) := by
  induction js generalizing known with
  | nil => exact ⟨by simpa using hparent, hknown, trivial⟩
  | cons k ks ih =>
    obtain ⟨hk, hfresh, hks⟩ := h
    rw [List.map_cons, List.mem_cons, not_or] at hnew
    refine ⟨hk, hfresh, ih hks ?_ ?_ hnew.2⟩
    · rw [List.map_cons, List.mem_cons] at hparent
      rw [List.mem_cons]
      tauto
    · rw [List.mem_cons, not_or]
      exact ⟨hnew.1, hknown⟩

theorem levelJoins_push (plan : JoinPlan) (j : PlannedJoin) (anchor : Option String) :
    ∃ js, (plan.push j).levelJoins anchor = plan.levelJoins anchor ++ js ∧
      (js = [] ∨ js = [j]) := by
  cases anchor with
  | none =>
    refine ⟨[j].filter fun k => k.placement == .outer, by simp [levelJoins, outerJoins, push], ?_⟩
    rw [List.filter_singleton]
    cases j.placement == Placement.outer <;> simp
  | some p =>
    refine ⟨[j].filter fun k => k.isInside p, by simp [levelJoins, innerJoins, push], ?_⟩
    rw [List.filter_singleton]
    cases j.isInside p <;> simp

/-- The joins of a level can be written in their order once the alias that opens the level is
known: that of the root, or that of the collection. -/
theorem Planned.chained_level (h : Planned registry plan) {anchor : Option String}
    (hroot : anchor = none → rootAlias ∈ known)
    (hmany : ∀ k ∈ plan.joins, k.relation.isMany = true → anchor = some k.path →
      k.aliasName ∈ known)
    (hnew : ∀ k ∈ plan.levelJoins anchor, k.aliasName ∉ known) :
    Chained known (plan.levelJoins anchor) := by
  induction h with
  | start _ => cases anchor <;> exact trivial
  | @push plan j s n hplan hs hj halias hfind ih =>
    have hpush : Planned registry (plan.push j) := .push hplan hs hj halias hfind
    obtain ⟨js, hlevel, hjs⟩ := levelJoins_push plan j anchor
    have hbefore : Chained known (plan.levelJoins anchor) := by
      refine ih (fun k hk => hmany k (List.mem_append_left _ hk)) fun k hk => hnew k ?_
      rw [hlevel]
      exact List.mem_append_left _ hk
    rcases hjs with rfl | rfl
    · rwa [hlevel, List.append_nil]
    · have hmem : j ∈ (plan.push j).levelJoins anchor := by simp [hlevel]
      obtain ⟨hjoins, hone, hplace⟩ := hpush.mem_levelJoins.1 hmem
      have hanchor : s.anchor = anchor := by
        have hplace' := hj.placement
        rw [hone, if_neg (by simp), hplace] at hplace'
        simpa using (congrArg Placement.anchor? hplace').symm
      rw [hlevel]
      refine chained_append hbefore ?_ (hnew j hmem) ?_
      · -- the parent opens the level or stands before the join in it
        rw [hj.parent]
        rcases hs with rfl | ⟨k, hk, rfl⟩
        · exact Or.inl (hroot hanchor.symm)
        · cases hcard : k.relation.isMany with
          | true =>
            refine Or.inl (hmany k (List.mem_append_left _ hk) hcard ?_)
            rw [← hanchor, PlannedJoin.scope, hplan.placement_of_many hk hcard]
            rfl
          | false =>
            refine Or.inr (List.mem_map.2 ⟨k, hplan.mem_levelJoins.2 ⟨hk, hcard, ?_⟩, rfl⟩)
            rw [← hanchor, PlannedJoin.scope, placementOf_anchor?]
      · intro hold
        obtain ⟨k, hk, heq⟩ := List.mem_map.1 hold
        have hk' := (hplan.mem_levelJoins.1 hk).1
        obtain rfl := hpush.eq_of_alias (List.mem_append_left _ hk') hjoins heq
        exact find?_eq_none_iff.1 hfind k hk' rfl

/-- The outer joins can be written after the table of the root. -/
theorem Planned.chained_outer (h : Planned registry plan) :
    Chained [rootAlias] plan.outerJoins := by
  show Chained [rootAlias] (plan.levelJoins none)
  refine h.chained_level (fun _ => List.mem_singleton_self _) (by simp) ?_
  intro k hk hmem
  exact h.alias_ne_root (h.mem_levelJoins.1 hk).1 (List.mem_singleton.1 hmem)

/-- The joins of the subquery of a collection can be written after its table. -/
theorem Planned.chained_inner (h : Planned registry plan) (hj : j ∈ plan.joins)
    (hmany : j.relation.isMany = true) : Chained [j.aliasName] (plan.innerJoins j.path) := by
  show Chained [j.aliasName] (plan.levelJoins (some j.path))
  refine h.chained_level (by simp) ?_ ?_
  · intro k hk _ hpath
    rw [h.eq_of_path hk hj (Option.some.inj hpath).symm]
    exact List.mem_singleton_self _
  · intro k hk hmem
    obtain ⟨hk, hone, -⟩ := h.mem_levelJoins.1 hk
    rw [h.eq_of_alias hk hj (List.mem_singleton.1 hmem), hmany] at hone
    cases hone

end FilterQuery.JoinPlan
