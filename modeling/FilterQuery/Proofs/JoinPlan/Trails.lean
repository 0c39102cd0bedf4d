import FilterQuery.Proofs.JoinPlan.Growth
import FilterQuery.Proofs.Lists

/-!
# Trails

Planning looks at little of a filter. A trail is what it looks at: the relations in the order in
which the filter follows them, each with what lies below it, and the entities that are expected
where a filter of an entity stands. Negations, the choice between a conjunction and a disjunction,
quantifiers, sizes, tests on fields and pieces of SQL leave no trace.

Planning a filter is walking its trail (`addFilter_eq_addTrail`), so that a trail has three cases to
consider where a filter has many. Walking adds the first occurrences of the paths of the trail
(`addTrail_lists`), keeps what was planned before (`addTrail_isStageOf`), and adds nothing when it
is done again (`addTrail_again`).
-/

namespace FilterQuery

/-- The relations that a filter follows, in order. -/
inductive Trail where
  /-- No relation is left. -/
  | done
  /-- A filter of an entity stands here. -/
  | expect (code : String) (rest : Trail)
  /-- A relation is followed, with what is below it and what comes after it. -/
  | follow (name : String) (below rest : Trail)
deriving DecidableEq, Repr

namespace Trail

/-- One trail and then another one at the same place. -/
def append : Trail → Trail → Trail
  | .done, other => other
  | .expect code rest, other => .expect code (rest.append other)
  | .follow name below rest, other => .follow name below (rest.append other)

instance : Append Trail :=
  ⟨append⟩

@[simp] theorem expect_append (code : String) (t u : Trail) :
    expect code t ++ u = expect code (t ++ u) := rfl

@[simp] theorem follow_append (name : String) (below t u : Trail) :
    follow name below t ++ u = follow name below (t ++ u) := rfl

/-- The paths of a trail below a path, in the order in which they are met. -/
def paths : Option String → Trail → List String
  | _, .done => []
  | parent, .expect _ rest => rest.paths parent
  | parent, .follow name below rest =>
    JoinPlan.childPath parent name ::
      (below.paths (some (JoinPlan.childPath parent name)) ++ rest.paths parent)

@[simp] theorem paths_append (parent : Option String) (t u : Trail) :
    (t ++ u).paths parent = t.paths parent ++ u.paths parent := by
  induction t with
  | done => rfl
  | expect code rest ih => exact ih
  | follow name below rest _ ih => simp [paths, ih]

end Trail

/-! ## The trail of a filter -/

mutual

/-- The trail of a filter. -/
def Filter.trail : Filter → Trail
  | .field _ => .done
  | .all items => Filter.trailOfItems items
  | .any items => Filter.trailOfItems items
  | .not item => item.trail
  | .entity filter => filter.trail
  | .related test => test.trail
  | .raw _ _ => .done

/-- The trail of a filter of an entity: nested filters, tests on collections, the conjunction, the
disjunction and the negation. -/
def EntityFilter.trail : EntityFilter → Trail
  | ⟨code, _, nested, related, all, any, negated⟩ =>
    .expect code (Filter.trailOfNested nested ++ (RelatedTest.trailOfTests related ++
      (Filter.trailOfItems all ++ (Filter.trailOfItems any ++ Filter.trailOfOptional negated))))

/-- The trail of a test on a collection. -/
def RelatedTest.trail : RelatedTest → Trail
  | .quantified name _ filter => .follow name filter.trail .done
  | .size name _ _ => .follow name .done .done

/-- The trail of several filters. -/
def Filter.trailOfItems : List Filter → Trail
  | [] => .done
  | f :: fs => f.trail ++ Filter.trailOfItems fs

/-- The trail of filters of related entities. -/
def Filter.trailOfNested : List (String × Filter) → Trail
  | [] => .done
  | (name, f) :: fs => .follow name f.trail (Filter.trailOfNested fs)

/-- The trail of several tests on collections. -/
def RelatedTest.trailOfTests : List RelatedTest → Trail
  | [] => .done
  | t :: ts => t.trail ++ RelatedTest.trailOfTests ts

/-- The trail of a filter that may be missing. -/
def Filter.trailOfOptional : Option Filter → Trail
  | none => .done
  | some f => f.trail

end

namespace JoinPlan

mutual

/-- The paths that a filter follows are those of its trail. -/
theorem followed_eq_paths (parent : Option String) :
    ∀ f : Filter, followed parent f = f.trail.paths parent
  | .field _ => rfl
  | .all items => followedByItems_eq_paths parent items
  | .any items => followedByItems_eq_paths parent items
  | .not item => followed_eq_paths parent item
  | .entity filter => followedByEntity_eq_paths parent filter
  | .related test => followedByTest_eq_paths parent test
  | .raw _ _ => rfl

theorem followedByEntity_eq_paths (parent : Option String) :
    ∀ f : EntityFilter, followedByEntity parent f = f.trail.paths parent
  | ⟨_, _, nested, related, all, any, negated⟩ => by
    simp only [followedByEntity, EntityFilter.trail, Trail.paths, Trail.paths_append,
      followedByNested_eq_paths parent nested, followedByTests_eq_paths parent related,
      followedByItems_eq_paths parent all, followedByItems_eq_paths parent any,
      followedByOptional_eq_paths parent negated, List.append_assoc]

theorem followedByTest_eq_paths (parent : Option String) :
    ∀ t : RelatedTest, followedByTest parent t = t.trail.paths parent
  | .quantified name _ filter => by
    simp only [followedByTest, RelatedTest.trail, Trail.paths, List.append_nil,
      followed_eq_paths _ filter]
  | .size _ _ _ => rfl

theorem followedByItems_eq_paths (parent : Option String) :
    ∀ fs : List Filter, followedByItems parent fs = (Filter.trailOfItems fs).paths parent
  | [] => rfl
  | f :: fs => by
    simp only [followedByItems, Filter.trailOfItems, Trail.paths_append,
      followed_eq_paths parent f, followedByItems_eq_paths parent fs]

theorem followedByNested_eq_paths (parent : Option String) :
    ∀ fs : List (String × Filter),
      followedByNested parent fs = (Filter.trailOfNested fs).paths parent
  | [] => rfl
  | (name, f) :: fs => by
    simp only [followedByNested, Filter.trailOfNested, Trail.paths, List.cons_append,
      followed_eq_paths _ f, followedByNested_eq_paths parent fs]

theorem followedByTests_eq_paths (parent : Option String) :
    ∀ ts : List RelatedTest,
      followedByTests parent ts = (RelatedTest.trailOfTests ts).paths parent
  | [] => rfl
  | t :: ts => by
    simp only [followedByTests, RelatedTest.trailOfTests, Trail.paths_append,
      followedByTest_eq_paths parent t, followedByTests_eq_paths parent ts]

theorem followedByOptional_eq_paths (parent : Option String) :
    ∀ f? : Option Filter, followedByOptional parent f? = (Filter.trailOfOptional f?).paths parent
  | none => rfl
  | some f => followed_eq_paths parent f

end

/-! ## Walking a trail -/

variable {registry : Registry} {scope scope' child : PlanScope} {plan plan' plan'' : JoinPlan}
  {name : String} {t u : Trail}

/-- Plans the joins of a trail at a place. -/
def addTrail (registry : Registry) : Trail → PlanScope → JoinPlan → Except FilterError JoinPlan
  | .done, _, plan => .ok plan
  | .expect code rest, scope, plan =>
    if code ≠ scope.entity then .error (wrongEntity code scope.entity)
    else addTrail registry rest scope plan
  | .follow name below rest, scope, plan => do
    let (child, plan) ← visit registry name scope plan
    let plan ← addTrail registry below child plan
    addTrail registry rest scope plan

/-- One trail is walked and then the other one. -/
theorem addTrail_append (t u : Trail) (scope : PlanScope) (plan : JoinPlan) :
    addTrail registry (t ++ u) scope plan =
      addTrail registry t scope plan >>= fun plan => addTrail registry u scope plan := by
  induction t generalizing scope plan with
  | done => rfl
  | expect code rest ih =>
    simp only [Trail.expect_append, addTrail]
    split
    · rfl
    · exact ih scope plan
  | follow name below rest _ ih =>
    simp only [Trail.follow_append, addTrail, ih, bind_assoc]

mutual

/-- Planning a filter is walking its trail. -/
theorem addFilter_eq_addTrail : ∀ (f : Filter) (scope : PlanScope) (plan : JoinPlan),
    addFilter registry f scope plan = addTrail registry f.trail scope plan
  | .field _, _, _ => rfl
  | .all items, scope, plan => addItems_eq_addTrail items scope plan
  | .any items, scope, plan => addItems_eq_addTrail items scope plan
  | .not item, scope, plan => addFilter_eq_addTrail item scope plan
  | .entity filter, scope, plan => addEntity_eq_addTrail filter scope plan
  | .related test, scope, plan => addRelated_eq_addTrail test scope plan
  | .raw _ _, _, _ => rfl

theorem addEntity_eq_addTrail : ∀ (f : EntityFilter) (scope : PlanScope) (plan : JoinPlan),
    addEntity registry f scope plan = addTrail registry f.trail scope plan
  | ⟨code, _, nested, related, all, any, negated⟩, scope, plan => by
    simp only [addEntity, EntityFilter.trail, addTrail, addTrail_append,
      addNested_eq_addTrail nested, addTests_eq_addTrail related, addItems_eq_addTrail all,
      addItems_eq_addTrail any, addOptional_eq_addTrail negated]

theorem addRelated_eq_addTrail : ∀ (t : RelatedTest) (scope : PlanScope) (plan : JoinPlan),
    addRelated registry t scope plan = addTrail registry t.trail scope plan
  | .quantified name _ filter, scope, plan => by
    simp only [addRelated, RelatedTest.trail, addTrail, addFilter_eq_addTrail filter]
    cases visit registry name scope plan with
    | error e => rfl
    | ok p => exact (bind_pure _).symm
  | .size name _ _, scope, plan => by
    simp only [addRelated, RelatedTest.trail, addTrail]
    cases visit registry name scope plan with
    | error e => rfl
    | ok p => rfl

theorem addItems_eq_addTrail : ∀ (fs : List Filter) (scope : PlanScope) (plan : JoinPlan),
    addItems registry fs scope plan = addTrail registry (Filter.trailOfItems fs) scope plan
  | [], _, _ => rfl
  | f :: fs, scope, plan => by
    simp only [addItems, Filter.trailOfItems, addTrail_append, addFilter_eq_addTrail f,
      addItems_eq_addTrail fs]

theorem addNested_eq_addTrail : ∀ (fs : List (String × Filter)) (scope : PlanScope)
    (plan : JoinPlan),
    addNested registry fs scope plan = addTrail registry (Filter.trailOfNested fs) scope plan
  | [], _, _ => rfl
  | (name, f) :: fs, scope, plan => by
    simp only [addNested, Filter.trailOfNested, addTrail, addFilter_eq_addTrail f,
      addNested_eq_addTrail fs]

theorem addTests_eq_addTrail : ∀ (ts : List RelatedTest) (scope : PlanScope) (plan : JoinPlan),
    addTests registry ts scope plan = addTrail registry (RelatedTest.trailOfTests ts) scope plan
  | [], _, _ => rfl
  | t :: ts, scope, plan => by
    simp only [addTests, RelatedTest.trailOfTests, addTrail_append, addRelated_eq_addTrail t,
      addTests_eq_addTrail ts]

theorem addOptional_eq_addTrail : ∀ (f? : Option Filter) (scope : PlanScope) (plan : JoinPlan),
    addOptional registry f? scope plan =
      addTrail registry (Filter.trailOfOptional f?) scope plan
  | none, _, _ => rfl
  | some f, scope, plan => addFilter_eq_addTrail f scope plan

end

/-! ## What a walk does -/

/-- Following a relation leads to its target, at the path below the place; the path has a join
already, or the plan gets one. -/
theorem visit_cases (h : visit registry name scope plan = .ok (child, plan')) :
    (∃ relation, registry.lookupRelation scope.entity name = .ok relation ∧
      child.entity = relation.target) ∧
    child.path = some (childPath scope.path name) ∧
    ((∃ j, plan.find? (childPath scope.path name) = some j ∧ plan' = plan) ∨
      (plan.find? (childPath scope.path name) = none ∧
        ∃ j : PlannedJoin, j.path = childPath scope.path name ∧ plan' = plan.push j)) := by
  simp only [visit, bind_eq_ok] at h
  obtain ⟨relation, hrel, h⟩ := h
  split at h
  · rename_i j hfind
    obtain ⟨rfl, rfl⟩ := Prod.mk.inj (Except.ok.inj h)
    exact ⟨⟨relation, hrel, rfl⟩, rfl, .inl ⟨j, hfind, rfl⟩⟩
  · rename_i hfind
    obtain ⟨target, -, h⟩ := bind_eq_ok.1 h
    obtain ⟨rfl, rfl⟩ := Prod.mk.inj (Except.ok.inj h)
    exact ⟨⟨relation, hrel, rfl⟩, rfl, .inr ⟨hfind, _, rfl, rfl⟩⟩

theorem mem_paths_iff {path : String} :
    path ∈ plan.joins.map (·.path) ↔ ∃ j, plan.find? path = some j := by
  cases hfind : plan.find? path with
  | none =>
    have hnone := find?_eq_none_iff.1 hfind
    simpa using hnone
  | some j =>
    obtain ⟨hj, hpath⟩ := mem_of_find? hfind
    simp only [Option.some.injEq, exists_eq', iff_true]
    exact List.mem_map.2 ⟨j, hj, hpath⟩

/-- The joins of a plan are for some paths that were met, each where it was met first. -/
def Lists (plan : JoinPlan) (paths : List String) : Prop :=
  plan.joins.map (·.path) = paths.eraseDups

theorem visit_lists {ps : List String} (hplan : plan.Lists ps)
    (h : visit registry name scope plan = .ok (child, plan')) :
    plan'.Lists (ps ++ [childPath scope.path name]) := by
  obtain ⟨-, -, ⟨j, hfind, rfl⟩ | ⟨hfind, j, hpath, rfl⟩⟩ := visit_cases h
  · have hmem : childPath scope.path name ∈ ps := by
      rw [← List.mem_eraseDups, ← hplan]
      exact mem_paths_iff.2 ⟨j, hfind⟩
    rw [Lists, eraseDups_concat, if_pos hmem]
    exact hplan
  · have hnew : childPath scope.path name ∉ ps := by
      rw [← List.mem_eraseDups, ← hplan, mem_paths_iff, hfind]
      rintro ⟨j, ⟨⟩⟩
    rw [Lists, eraseDups_concat, if_neg hnew, ← hplan, push, List.map_append, List.map_singleton,
      hpath]

/-- Walking a trail adds the paths of the trail where they are new, in the order of the trail. -/
theorem addTrail_lists {ps : List String} (hplan : plan.Lists ps)
    (h : addTrail registry t scope plan = .ok plan') :
    plan'.Lists (ps ++ t.paths scope.path) := by
  induction t generalizing scope plan plan' ps with
  | done =>
    obtain rfl := Except.ok.inj h
    simpa [Trail.paths] using hplan
  | expect code rest ih =>
    unfold addTrail at h
    split at h
    · cases h
    · exact ih hplan h
  | follow name below rest ihbelow ihrest =>
    simp only [addTrail, bind_eq_ok] at h
    obtain ⟨⟨child, first⟩, hfirst, second, hsecond, hrest⟩ := h
    obtain ⟨-, hpath, -⟩ := visit_cases hfirst
    have hbelow := ihbelow (visit_lists hplan hfirst) hsecond
    rw [hpath] at hbelow
    simpa [Trail.paths] using ihrest hbelow hrest

theorem visit_isStageOf (h : visit registry name scope plan = .ok (child, plan')) :
    plan.IsStageOf plan' := by
  obtain ⟨-, -, ⟨j, -, rfl⟩ | ⟨-, j, -, rfl⟩⟩ := visit_cases h
  · exact .refl _
  · exact isStageOf_push _ _

/-- Walking a trail keeps the joins that were planned before, in their places. -/
theorem addTrail_isStageOf (h : addTrail registry t scope plan = .ok plan') :
    plan.IsStageOf plan' := by
  induction t generalizing scope plan plan' with
  | done => exact Except.ok.inj h ▸ .refl plan
  | expect code rest ih =>
    unfold addTrail at h
    split at h
    · cases h
    · exact ih h
  | follow name below rest ihbelow ihrest =>
    simp only [addTrail, bind_eq_ok] at h
    obtain ⟨⟨child, first⟩, hfirst, second, hsecond, hrest⟩ := h
    exact (visit_isStageOf hfirst).trans ((ihbelow hsecond).trans (ihrest hrest))

theorem IsStageOf.find?_of_visit (hstage : plan'.IsStageOf plan'')
    (h : visit registry name scope plan = .ok (child, plan')) :
    ∃ j, plan''.find? (childPath scope.path name) = some j := by
  refine mem_paths_iff.1 ((hstage.2.map _).subset ?_)
  obtain ⟨-, -, ⟨j, hfind, rfl⟩ | ⟨-, j, hpath, rfl⟩⟩ := visit_cases h
  · exact mem_paths_iff.2 ⟨j, hfind⟩
  · simp [push, hpath]

/-- A trail that was walked adds nothing to a later plan, at a place of the same entity and path. -/
theorem addTrail_again (h : addTrail registry t scope plan = .ok plan')
    (hstage : plan'.IsStageOf plan'') (hentity : scope'.entity = scope.entity)
    (hpath : scope'.path = scope.path) : addTrail registry t scope' plan'' = .ok plan'' := by
  induction t generalizing scope scope' plan plan' with
  | done => rfl
  | expect code rest ih =>
    unfold addTrail at h ⊢
    rw [hentity]
    split at h
    · cases h
    · rename_i hcode
      rw [if_neg hcode]
      exact ih h hstage hentity hpath
  | follow name below rest ihbelow ihrest =>
    simp only [addTrail, bind_eq_ok] at h
    obtain ⟨⟨child, first⟩, hfirst, second, hsecond, hrest⟩ := h
    have hsecondStage := (addTrail_isStageOf hrest).trans hstage
    obtain ⟨⟨relation, hrel, hchild⟩, hchildPath, -⟩ := visit_cases hfirst
    obtain ⟨j, hfind⟩ :=
      ((addTrail_isStageOf hsecond).trans hsecondStage).find?_of_visit hfirst
    -- the relation leads to the same entity, and its path has its join
    have hvisit : visit registry name scope' plan'' =
        .ok (⟨relation.target, some (childPath scope.path name), j.aliasName,
          if relation.isMany then some (childPath scope.path name) else scope'.anchor⟩,
          plan'') := by
      simp only [visit, hentity, hpath, hrel, hfind, bind, Except.bind]
    simp only [addTrail, hvisit, bind, Except.bind]
    rw [ihbelow hsecond hsecondStage hchild.symm hchildPath.symm]
    exact ihrest hrest hstage hentity hpath

end JoinPlan

end FilterQuery
