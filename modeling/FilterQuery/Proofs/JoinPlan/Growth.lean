import Mathlib.Data.List.Nodup
import FilterQuery.JoinPlan.Planning
import FilterQuery.Proofs.Filter.Rules
import FilterQuery.Proofs.JoinPlan.Paths
import FilterQuery.Proofs.Schema.Closed

/-!
# How plans grow

A plan grows by one join at a time, each of which follows a declared relation from a place that the
plan has already reached. `Planned` says this and nothing else, and everything known about plans
is drawn from it: paths and aliases are distinct, a join is what the registry declares for the
place it starts from, and a place is determined by its path. `visit_spec` is the one step of
planning; planning a whole filter is a run of such steps (`addFilter_grows`) and succeeds exactly
on the filters that fit the registry (`addFilter_grows`, `addFilter_of_fits`).
-/

namespace FilterQuery

/-- The path of the last collection on the way to a join. -/
def Placement.anchor? : Placement → Option String
  | .outer => none
  | .inside anchor => some anchor

/-- The place that a join leads to. -/
def PlannedJoin.scope (j : PlannedJoin) : PlanScope :=
  ⟨j.target, some j.path, j.aliasName, j.placement.anchor?⟩

namespace JoinPlan

open Registry (lookupRelation_eq_ok)

@[simp] theorem anchor?_placementOf (a : Option String) : (placementOf a).anchor? = a := by
  cases a <;> rfl

@[simp] theorem placementOf_anchor? (p : Placement) : placementOf p.anchor? = p := by
  cases p <;> rfl

/-- A plan has reached a place: it is the root, or a join leads to it. -/
def Reaches (plan : JoinPlan) (scope : PlanScope) : Prop :=
  scope = plan.rootScope ∨ ∃ j ∈ plan.joins, scope = j.scope

/-- A join follows a relation from a place, as a registry declares it. -/
structure Follows (registry : Registry) (scope : PlanScope) (name : String) (j : PlannedJoin) :
    Prop where
  relation : registry.relation? scope.entity name = some j.relation
  path : j.path = childPath scope.path name
  parent : j.parent = scope.aliasName
  source : j.source = scope.entity
  table : ∃ target, registry.find? j.relation.target = some target ∧ j.table = target.table
  placement : j.placement = placementOf (if j.relation.isMany then some j.path else scope.anchor)

/-- The plans that planning can build. -/
inductive Planned (registry : Registry) : JoinPlan → Prop
  | start {root : Entity} : registry.find? root.code = some root → Planned registry (.start root)
  | push {plan : JoinPlan} {j : PlannedJoin} {scope : PlanScope} {name : String} :
      Planned registry plan → plan.Reaches scope → Follows registry scope name j →
      j.aliasName = plan.nextAlias → plan.find? j.path = none → Planned registry (plan.push j)

/-- A plan is an earlier stage of another. -/
def IsStageOf (plan plan' : JoinPlan) : Prop :=
  plan.root = plan'.root ∧ plan.joins <+: plan'.joins

variable {registry : Registry} {plan plan' : JoinPlan} {scope scope' : PlanScope}
  {j k : PlannedJoin} {name : String}

theorem IsStageOf.refl (plan : JoinPlan) : plan.IsStageOf plan :=
  ⟨rfl, List.prefix_rfl⟩

theorem IsStageOf.trans {plan'' : JoinPlan} (h : plan.IsStageOf plan')
    (h' : plan'.IsStageOf plan'') : plan.IsStageOf plan'' :=
  ⟨h.1.trans h'.1, h.2.trans h'.2⟩

theorem isStageOf_push (plan : JoinPlan) (j : PlannedJoin) : plan.IsStageOf (plan.push j) :=
  ⟨rfl, List.prefix_append _ _⟩

theorem Reaches.mono (h : plan.Reaches scope) (hstage : plan.IsStageOf plan') :
    plan'.Reaches scope := by
  rcases h with h | ⟨j, hj, h⟩
  · exact Or.inl (by rw [h, rootScope, rootScope, hstage.1])
  · exact Or.inr ⟨j, hstage.2.subset hj, h⟩

theorem reaches_root (plan : JoinPlan) : plan.Reaches plan.rootScope :=
  Or.inl rfl

theorem reaches_scope (h : j ∈ plan.joins) : plan.Reaches j.scope :=
  Or.inr ⟨j, h, rfl⟩

/-- The place that a join leads to, in terms of the place that it starts from. -/
theorem Follows.scope_eq (h : Follows registry scope name j) :
    j.scope = ⟨j.relation.target, some j.path, j.aliasName,
      if j.relation.isMany then some j.path else scope.anchor⟩ := by
  simp [PlannedJoin.scope, PlannedJoin.target, h.placement]

/-! ## What planned plans are -/

theorem Planned.root (h : Planned registry plan) :
    ∃ root, registry.find? plan.root = some root ∧ plan.table = root.table := by
  induction h with
  | start hroot => exact ⟨_, hroot, rfl⟩
  | push _ _ _ _ _ ih => exact ih

/-- Every join follows a relation from a place that the plan reaches. -/
theorem Planned.follows (h : Planned registry plan) (hj : j ∈ plan.joins) :
    ∃ scope name, plan.Reaches scope ∧ Follows registry scope name j := by
  induction h with
  | start _ => simp [JoinPlan.start] at hj
  | @push plan k scope name _ hscope hk _ _ ih =>
    rcases List.mem_append.1 hj with hj | hj
    · obtain ⟨s, n, hs, hfollows⟩ := ih hj
      exact ⟨s, n, hs.mono (isStageOf_push plan k), hfollows⟩
    · rw [List.mem_singleton] at hj
      exact ⟨scope, name, hscope.mono (isStageOf_push plan k), hj ▸ hk⟩

theorem find?_eq_none_iff {path : String} :
    plan.find? path = none ↔ ∀ j ∈ plan.joins, j.path ≠ path := by
  simp [find?, List.find?_eq_none]

theorem mem_of_find? {path : String} (h : plan.find? path = some j) :
    j ∈ plan.joins ∧ j.path = path := by
  refine ⟨List.mem_of_find?_eq_some h, ?_⟩
  simpa using List.find?_some h

theorem Planned.paths_nodup (h : Planned registry plan) : (plan.joins.map (·.path)).Nodup := by
  induction h with
  | start _ => simp [JoinPlan.start]
  | @push plan k _ _ _ _ _ _ hnew ih =>
    simp only [JoinPlan.push, List.map_append, List.map_cons, List.map_nil]
    refine List.nodup_append.2 ⟨ih, by simp, ?_⟩
    rintro p hp q hq rfl
    obtain ⟨j, hj, rfl⟩ := List.mem_map.1 hp
    exact find?_eq_none_iff.1 hnew j hj (List.mem_singleton.1 hq)

/-- Two joins of one path are one join. -/
theorem Planned.eq_of_path (h : Planned registry plan) (hj : j ∈ plan.joins) (hk : k ∈ plan.joins)
    (hpath : j.path = k.path) : j = k :=
  List.inj_on_of_nodup_map h.paths_nodup hj hk hpath

theorem Planned.find?_eq_some (h : Planned registry plan) (hj : j ∈ plan.joins) :
    plan.find? j.path = some j := by
  cases hfind : plan.find? j.path with
  | none => exact absurd rfl (find?_eq_none_iff.1 hfind j hj)
  | some k =>
    obtain ⟨hk, hpath⟩ := mem_of_find? hfind
    rw [h.eq_of_path hk hj hpath]

/-- The aliases of a plan, that of the root among them, are the first numbers in order. -/
theorem Planned.aliases_eq (h : Planned registry plan) :
    rootAlias :: plan.joins.map (·.aliasName) =
      (List.range (plan.joins.length + 1)).map numberedAlias := by
  induction h with
  | start _ => simp [JoinPlan.start, rootAlias_eq]
  | @push plan k _ _ _ _ _ halias _ ih =>
    simp only [JoinPlan.push, List.map_append, List.map_cons, List.map_nil, List.length_append,
      List.length_singleton]
    rw [List.range_succ, List.map_append, ← ih, halias, nextAlias_eq]
    rfl

theorem Planned.aliases_nodup (h : Planned registry plan) :
    (rootAlias :: plan.joins.map (·.aliasName)).Nodup := by
  rw [h.aliases_eq]
  refine List.Nodup.map_on ?_ List.nodup_range
  exact fun m _ n _ hmn => numberedAlias_inj hmn

/-- Two joins of one alias are one join. -/
theorem Planned.eq_of_alias (h : Planned registry plan) (hj : j ∈ plan.joins) (hk : k ∈ plan.joins)
    (halias : j.aliasName = k.aliasName) : j = k :=
  List.inj_on_of_nodup_map (List.nodup_cons.1 h.aliases_nodup).2 hj hk halias

theorem Planned.alias_ne_root (h : Planned registry plan) (hj : j ∈ plan.joins) :
    j.aliasName ≠ rootAlias := by
  intro hroot
  refine (List.nodup_cons.1 h.aliases_nodup).1 ?_
  exact List.mem_map.2 ⟨j, hj, hroot⟩

/-- A place is determined by its path. -/
theorem Planned.scope_eq_of_path (h : Planned registry plan) (hs : plan.Reaches scope)
    (hs' : plan.Reaches scope') (hpath : scope.path = scope'.path) : scope = scope' := by
  rcases hs with rfl | ⟨j, hj, rfl⟩ <;> rcases hs' with rfl | ⟨k, hk, rfl⟩
  · rfl
  · cases hpath
  · cases hpath
  · rw [h.eq_of_path hj hk (Option.some.inj hpath)]

/-- The join at the path of a relation below a place follows this relation from this place. -/
theorem Planned.follows_of_path (h : Planned registry plan) (hplain : registry.PlainRelations)
    (hs : plan.Reaches scope) {relation : Relation}
    (hrel : registry.relation? scope.entity name = some relation) (hj : j ∈ plan.joins)
    (hpath : j.path = childPath scope.path name) : Follows registry scope name j := by
  obtain ⟨s, n, hreach, hfollows⟩ := h.follows hj
  obtain ⟨hparent, rfl⟩ := childPath_inj (hplain _ _ _ hfollows.relation) (hplain _ _ _ hrel)
    (hfollows.path.symm.trans hpath)
  rwa [h.scope_eq_of_path hreach hs hparent] at hfollows

/-! ## A step of planning -/

/-- A plan has a join for each of some paths. -/
def Covers (plan : JoinPlan) (paths : List String) : Prop :=
  ∀ p ∈ paths, ∃ j ∈ plan.joins, j.path = p

theorem Covers.mono {paths : List String} (h : plan.Covers paths) (hstage : plan.IsStageOf plan') :
    plan'.Covers paths := by
  intro p hp
  obtain ⟨j, hj, hpath⟩ := h p hp
  exact ⟨j, hstage.2.subset hj, hpath⟩

theorem covers_append {ps qs : List String} :
    plan.Covers (ps ++ qs) ↔ plan.Covers ps ∧ plan.Covers qs :=
  List.forall_mem_append

theorem covers_flatMap {α : Type} {as : List α} {paths : α → List String} :
    plan.Covers (as.flatMap paths) ↔ ∀ a ∈ as, plan.Covers (paths a) := by
  simp only [Covers, List.mem_flatMap]
  exact ⟨fun h a ha p hp => h p ⟨a, ha, hp⟩, fun h p ⟨a, ha, hp⟩ => h a ha p hp⟩

theorem covers_cons {path : String} {ps : List String} :
    plan.Covers (path :: ps) ↔ (∃ j ∈ plan.joins, j.path = path) ∧ plan.Covers ps :=
  List.forall_mem_cons

/-- Following a relation leads to the place of a join that follows it, and keeps every join that
was planned before. -/
theorem visit_spec (hplan : Planned registry plan) (hplain : registry.PlainRelations)
    (hs : plan.Reaches scope) {child : PlanScope}
    (h : visit registry name scope plan = .ok (child, plan')) :
    ∃ j ∈ plan'.joins, Follows registry scope name j ∧ child = j.scope ∧
      Planned registry plan' ∧ plan.IsStageOf plan' := by
  simp only [visit, bind_eq_ok, lookupRelation_eq_ok] at h
  obtain ⟨relation, hrel, h⟩ := h
  split at h
  · -- the path has a join already
    rename_i j hfind
    obtain ⟨rfl, rfl⟩ := Prod.mk.inj (Except.ok.inj h)
    obtain ⟨hj, hpath⟩ := mem_of_find? hfind
    have hfollows := hplan.follows_of_path hplain hs hrel hj hpath
    obtain rfl : relation = j.relation := Option.some.inj (hrel.symm.trans hfollows.relation)
    exact ⟨j, hj, hfollows, by rw [hfollows.scope_eq, hpath], hplan, .refl plan⟩
  · -- a new join is planned
    rename_i hfind
    obtain ⟨target, htarget, h⟩ := bind_eq_ok.1 h
    obtain ⟨rfl, rfl⟩ := Prod.mk.inj (Except.ok.inj h)
    have hfollows : Follows registry scope name
        ⟨childPath scope.path name, plan.nextAlias, scope.aliasName, scope.entity, target.table,
          relation, placementOf (if relation.isMany then some (childPath scope.path name)
            else scope.anchor)⟩ :=
      ⟨hrel, rfl, rfl, rfl, ⟨target, Registry.lookup_eq_ok.1 htarget, rfl⟩, rfl⟩
    exact ⟨_, by simp [JoinPlan.push], hfollows, by rw [hfollows.scope_eq],
      .push hplan hs hfollows rfl hfind, isStageOf_push _ _⟩

/-- In a closed registry a declared relation can be followed. -/
theorem visit_ok (hclosed : registry.validate = .ok ()) {relation : Relation}
    (hrel : registry.relation? scope.entity name = some relation) (plan : JoinPlan) :
    ∃ child plan', visit registry name scope plan = .ok (child, plan') ∧
      child.entity = relation.target := by
  obtain ⟨_, target, _, htarget, _⟩ := Registry.closed_relation hclosed hrel
  rw [visit, lookupRelation_eq_ok.2 hrel]
  simp only [bind, Except.bind]
  split
  · exact ⟨_, _, rfl, rfl⟩
  · rw [Registry.lookup_eq_ok.2 htarget]
    exact ⟨_, _, rfl, rfl⟩

/-! ## Planning a filter -/

/-- What planning leaves behind: a plan of which the one before is a stage, with a join for each of
some paths. -/
structure Grown (registry : Registry) (plan plan' : JoinPlan) (paths : List String) : Prop where
  planned : Planned registry plan'
  stage : plan.IsStageOf plan'
  covers : plan'.Covers paths

theorem Grown.refl (h : Planned registry plan) : Grown registry plan plan [] :=
  ⟨h, .refl plan, by simp [Covers]⟩

theorem Grown.trans {plan'' : JoinPlan} {ps qs : List String} (h : Grown registry plan plan' ps)
    (h' : Grown registry plan' plan'' qs) : Grown registry plan plan'' (ps ++ qs) :=
  ⟨h'.planned, h.stage.trans h'.stage, covers_append.2 ⟨h.covers.mono h'.stage, h'.covers⟩⟩

/-- Following a relation and planning below it. -/
theorem Grown.below {plan'' : JoinPlan} {ps : List String} (hj : j ∈ plan'.joins)
    (hfollows : Follows registry scope name j) (hstage : plan.IsStageOf plan')
    (h : Grown registry plan' plan'' ps) :
    Grown registry plan plan'' (childPath scope.path name :: ps) := by
  refine ⟨h.planned, hstage.trans h.stage, ?_⟩
  rintro p (_ | ⟨_, hp⟩)
  · exact ⟨j, h.stage.2.subset hj, hfollows.path⟩
  · exact h.covers p hp

/-- Planning a filter at a place that is reached grows the plan by the paths of the filter, and
shows that the filter fits. -/
def PlansWell (registry : Registry) (f : Filter) : Prop :=
  ∀ scope plan plan', Planned registry plan → plan.Reaches scope →
    addFilter registry f scope plan = .ok plan' →
    Grown registry plan plan' (followed scope.path f) ∧ f.Fits registry scope.entity

theorem addItems_grows {fs : List Filter} (ih : ∀ f ∈ fs, PlansWell registry f)
    (hplan : Planned registry plan) (hs : plan.Reaches scope)
    (h : addItems registry fs scope plan = .ok plan') :
    Grown registry plan plan' (followedByItems scope.path fs) ∧
      ∀ f ∈ fs, f.Fits registry scope.entity := by
  induction fs generalizing plan with
  | nil =>
    obtain rfl := Except.ok.inj h
    exact ⟨.refl hplan, by simp⟩
  | cons f fs ihfs =>
    obtain ⟨middle, hf, h⟩ := bind_eq_ok.1 h
    obtain ⟨hgrown, hfits⟩ := ih f List.mem_cons_self _ _ _ hplan hs hf
    obtain ⟨hgrown', hfits'⟩ := ihfs (fun g hg => ih g (List.mem_cons_of_mem _ hg)) hgrown.planned
      (hs.mono hgrown.stage) h
    exact ⟨hgrown.trans hgrown', List.forall_mem_cons.2 ⟨hfits, hfits'⟩⟩

theorem addTests_grows {ts : List RelatedTest} (ih : ∀ t ∈ ts, PlansWell registry (.related t))
    (hplan : Planned registry plan) (hs : plan.Reaches scope)
    (h : addTests registry ts scope plan = .ok plan') :
    Grown registry plan plan' (followedByTests scope.path ts) ∧
      ∀ t ∈ ts, (Filter.related t).Fits registry scope.entity := by
  induction ts generalizing plan with
  | nil =>
    obtain rfl := Except.ok.inj h
    exact ⟨.refl hplan, by simp⟩
  | cons t ts ihts =>
    obtain ⟨middle, ht, h⟩ := bind_eq_ok.1 h
    obtain ⟨hgrown, hfits⟩ := ih t List.mem_cons_self _ _ _ hplan hs ht
    obtain ⟨hgrown', hfits'⟩ := ihts (fun u hu => ih u (List.mem_cons_of_mem _ hu)) hgrown.planned
      (hs.mono hgrown.stage) h
    exact ⟨hgrown.trans hgrown', List.forall_mem_cons.2 ⟨hfits, hfits'⟩⟩

theorem addNested_grows (hplain : registry.PlainRelations) {fs : List (String × Filter)}
    (ih : ∀ name f, (name, f) ∈ fs → PlansWell registry f)
    (hplan : Planned registry plan) (hs : plan.Reaches scope)
    (h : addNested registry fs scope plan = .ok plan') :
    Grown registry plan plan' (followedByNested scope.path fs) ∧
      ∀ name f, (name, f) ∈ fs →
        ∃ r, registry.relation? scope.entity name = some r ∧ f.Fits registry r.target := by
  induction fs generalizing plan with
  | nil =>
    obtain rfl := Except.ok.inj h
    exact ⟨.refl hplan, by simp⟩
  | cons p fs ihfs =>
    obtain ⟨name, f⟩ := p
    simp only [addNested, bind_eq_ok] at h
    obtain ⟨⟨child, first⟩, hvisit, second, hf, h⟩ := h
    obtain ⟨j, hj, hfollows, rfl, hfirst, hstage⟩ := visit_spec hplan hplain hs hvisit
    obtain ⟨hgrown, hfits⟩ := ih name f List.mem_cons_self _ _ _ hfirst (reaches_scope hj) hf
    have hbelow := hgrown.below hj hfollows hstage
    obtain ⟨hgrown', hfits'⟩ := ihfs (fun n g hg => ih n g (List.mem_cons_of_mem _ hg))
      hbelow.planned (hs.mono hbelow.stage) h
    refine ⟨?_, ?_⟩
    · rw [PlannedJoin.scope, hfollows.path] at hbelow
      exact hbelow.trans hgrown'
    · rintro n g (_ | ⟨_, hg⟩)
      · exact ⟨j.relation, hfollows.relation, hfits⟩
      · exact hfits' n g hg

theorem addOptional_grows {f? : Option Filter} (ih : ∀ f, f? = some f → PlansWell registry f)
    (hplan : Planned registry plan) (hs : plan.Reaches scope)
    (h : addOptional registry f? scope plan = .ok plan') :
    Grown registry plan plan' (followedByOptional scope.path f?) ∧
      ∀ f, f? = some f → f.Fits registry scope.entity := by
  cases f? with
  | none =>
    obtain rfl := Except.ok.inj h
    exact ⟨.refl hplan, by simp⟩
  | some f =>
    obtain ⟨hgrown, hfits⟩ := ih f rfl _ _ _ hplan hs h
    exact ⟨hgrown, fun g hg => Option.some.inj hg ▸ hfits⟩

theorem addEntity_grows (hplain : registry.PlainRelations) {ef : EntityFilter}
    (ihn : ∀ name f, (name, f) ∈ ef.nested → PlansWell registry f)
    (ihr : ∀ t ∈ ef.related, PlansWell registry (.related t))
    (iha : ∀ f ∈ ef.all, PlansWell registry f) (iho : ∀ f ∈ ef.any, PlansWell registry f)
    (ihneg : ∀ f, ef.negated = some f → PlansWell registry f) :
    PlansWell registry (.entity ef) := by
  obtain ⟨code, tests, nested, related, all, any, negated⟩ := ef
  intro scope plan plan' hplan hs h
  simp only [addFilter, addEntity] at h
  split at h
  · cases h
  · rename_i hcode
    simp only [bind_eq_ok] at h
    obtain ⟨p₁, h₁, p₂, h₂, p₃, h₃, p₄, h₄, h₅⟩ := h
    obtain ⟨g₁, f₁⟩ := addNested_grows hplain ihn hplan hs h₁
    have hs₁ := hs.mono g₁.stage
    obtain ⟨g₂, f₂⟩ := addTests_grows ihr g₁.planned hs₁ h₂
    have hs₂ := hs₁.mono g₂.stage
    obtain ⟨g₃, f₃⟩ := addItems_grows iha g₂.planned hs₂ h₃
    have hs₃ := hs₂.mono g₃.stage
    obtain ⟨g₄, f₄⟩ := addItems_grows iho g₃.planned hs₃ h₄
    have hs₄ := hs₃.mono g₄.stage
    obtain ⟨g₅, f₅⟩ := addOptional_grows ihneg g₄.planned hs₄ h₅
    refine ⟨(((g₁.trans g₂).trans g₃).trans g₄).trans g₅, ?_⟩
    refine .entity (by simpa using hcode) (fun _ _ => trivial) ?_ ?_ f₂ f₃ f₄ f₅
    · intro name f hf
      obtain ⟨r, hr, -⟩ := f₁ name f hf
      exact ⟨r, hr⟩
    · intro name f r hf hr
      obtain ⟨r', hr', hfits⟩ := f₁ name f hf
      exact Option.some.inj (hr.symm.trans hr') ▸ hfits

/-- Planning a filter grows the plan by the paths of the filter, and only a filter that fits can be
planned. -/
theorem addFilter_grows (hplain : registry.PlainRelations) (f : Filter) : PlansWell registry f := by
  induction f using Filter.induct with
  | field t =>
    intro scope plan plan' hplan hs h
    obtain rfl := Except.ok.inj h
    exact ⟨.refl hplan, .field trivial⟩
  | all fs ih =>
    intro scope plan plan' hplan hs h
    obtain ⟨hgrown, hfits⟩ := addItems_grows ih hplan hs h
    exact ⟨hgrown, .all hfits⟩
  | any fs ih =>
    intro scope plan plan' hplan hs h
    obtain ⟨hgrown, hfits⟩ := addItems_grows ih hplan hs h
    exact ⟨hgrown, .any hfits⟩
  | not f ih =>
    intro scope plan plan' hplan hs h
    obtain ⟨hgrown, hfits⟩ := ih scope plan plan' hplan hs h
    exact ⟨hgrown, .not hfits⟩
  | entity ef ihn ihr iha iho ihneg => exact addEntity_grows hplain ihn ihr iha iho ihneg
  | quantified name q f ih =>
    intro scope plan plan' hplan hs h
    simp only [addFilter, addRelated, bind_eq_ok] at h
    obtain ⟨⟨child, first⟩, hvisit, h⟩ := h
    obtain ⟨j, hj, hfollows, rfl, hfirst, hstage⟩ := visit_spec hplan hplain hs hvisit
    obtain ⟨hgrown, hfits⟩ := ih _ _ _ hfirst (reaches_scope hj) h
    have hbelow := hgrown.below hj hfollows hstage
    rw [PlannedJoin.scope, hfollows.path] at hbelow
    exact ⟨hbelow, .quantified hfollows.relation trivial hfits⟩
  | size name op n =>
    intro scope plan plan' hplan hs h
    obtain ⟨⟨child, first⟩, hvisit, rfl⟩ := map_eq_ok.1 h
    obtain ⟨j, hj, hfollows, -, hfirst, hstage⟩ := visit_spec hplan hplain hs hvisit
    exact ⟨Grown.below hj hfollows hstage (.refl hfirst), .size hfollows.relation trivial trivial⟩
  | raw sql values =>
    intro scope plan plan' hplan hs h
    obtain rfl := Except.ok.inj h
    exact ⟨.refl hplan, .raw trivial⟩

/-! ## Filters that can be planned -/

theorem addItems_ok {fs : List Filter}
    (ih : ∀ f ∈ fs, ∀ plan, ∃ plan', addFilter registry f scope plan = .ok plan')
    (plan : JoinPlan) : ∃ plan', addItems registry fs scope plan = .ok plan' := by
  induction fs generalizing plan with
  | nil => exact ⟨plan, rfl⟩
  | cons f fs ihfs =>
    obtain ⟨middle, hf⟩ := ih f List.mem_cons_self plan
    obtain ⟨plan', hfs⟩ := ihfs (fun g hg => ih g (List.mem_cons_of_mem _ hg)) middle
    exact ⟨plan', bind_eq_ok.2 ⟨middle, hf, hfs⟩⟩

theorem addTests_ok {ts : List RelatedTest}
    (ih : ∀ t ∈ ts, ∀ plan, ∃ plan', addFilter registry (.related t) scope plan = .ok plan')
    (plan : JoinPlan) : ∃ plan', addTests registry ts scope plan = .ok plan' := by
  induction ts generalizing plan with
  | nil => exact ⟨plan, rfl⟩
  | cons t ts ihts =>
    obtain ⟨middle, ht⟩ := ih t List.mem_cons_self plan
    obtain ⟨plan', hts⟩ := ihts (fun u hu => ih u (List.mem_cons_of_mem _ hu)) middle
    exact ⟨plan', bind_eq_ok.2 ⟨middle, ht, hts⟩⟩

theorem addNested_ok {fs : List (String × Filter)}
    (ih : ∀ name f, (name, f) ∈ fs → ∀ plan, ∃ child middle plan',
      visit registry name scope plan = .ok (child, middle) ∧
        addFilter registry f child middle = .ok plan')
    (plan : JoinPlan) : ∃ plan', addNested registry fs scope plan = .ok plan' := by
  induction fs generalizing plan with
  | nil => exact ⟨plan, rfl⟩
  | cons p fs ihfs =>
    obtain ⟨child, first, second, hvisit, hf⟩ := ih p.1 p.2 List.mem_cons_self plan
    obtain ⟨plan', hfs⟩ := ihfs (fun n g hg => ih n g (List.mem_cons_of_mem _ hg)) second
    refine ⟨plan', ?_⟩
    simp only [addNested, bind_eq_ok]
    exact ⟨(child, first), hvisit, second, hf, hfs⟩

/-- Over a closed registry every filter that fits can be planned. -/
theorem addFilter_of_fits (hclosed : registry.validate = .ok ()) {code : String} {f : Filter}
    (hfits : f.Fits registry code) (scope : PlanScope) (hcode : scope.entity = code)
    (plan : JoinPlan) : ∃ plan', addFilter registry f scope plan = .ok plan' := by
  induction hfits generalizing scope plan with
  | field _ => exact ⟨plan, rfl⟩
  | all _ ih => exact addItems_ok (fun f hf => ih f hf scope hcode) plan
  | any _ ih => exact addItems_ok (fun f hf => ih f hf scope hcode) plan
  | not _ ih => exact ih scope hcode plan
  | @entity code ef hef _ hrel _ _ _ _ _ ihn ihr iha iho ihneg =>
    obtain ⟨_, tests, nested, related, all, any, negated⟩ := ef
    have hnested : ∀ name f, (name, f) ∈ nested → ∀ plan, ∃ child middle plan',
        visit registry name scope plan = .ok (child, middle) ∧
          addFilter registry f child middle = .ok plan' := by
      intro name f hf plan
      obtain ⟨r, hr⟩ := hrel name f hf
      obtain ⟨child, middle, hvisit, hchild⟩ := visit_ok hclosed (hcode ▸ hr) plan
      obtain ⟨plan', hplan'⟩ := ihn name f r hf hr child hchild middle
      exact ⟨child, middle, plan', hvisit, hplan'⟩
    obtain ⟨p₁, h₁⟩ := addNested_ok hnested plan
    obtain ⟨p₂, h₂⟩ := addTests_ok (fun t ht => ihr t ht scope hcode) p₁
    obtain ⟨p₃, h₃⟩ := addItems_ok (fun f hf => iha f hf scope hcode) p₂
    obtain ⟨p₄, h₄⟩ := addItems_ok (fun f hf => iho f hf scope hcode) p₃
    obtain ⟨p₅, h₅⟩ : ∃ p₅, addOptional registry negated scope p₄ = .ok p₅ := by
      cases negated with
      | none => exact ⟨p₄, rfl⟩
      | some f => exact ihneg f rfl scope hcode p₄
    refine ⟨p₅, ?_⟩
    simp only [addFilter, addEntity]
    rw [if_neg (by simpa [hcode] using hef)]
    exact bind_eq_ok.2 ⟨p₁, h₁, bind_eq_ok.2 ⟨p₂, h₂, bind_eq_ok.2 ⟨p₃, h₃,
      bind_eq_ok.2 ⟨p₄, h₄, h₅⟩⟩⟩⟩
  | quantified hr _ _ ih =>
    obtain ⟨child, middle, hvisit, hchild⟩ := visit_ok hclosed (hcode ▸ hr) plan
    obtain ⟨plan', hplan'⟩ := ih child hchild middle
    refine ⟨plan', ?_⟩
    simp only [addFilter, addRelated, bind_eq_ok]
    exact ⟨(child, middle), hvisit, hplan'⟩
  | size hr _ _ =>
    obtain ⟨child, middle, hvisit, -⟩ := visit_ok hclosed (hcode ▸ hr) plan
    exact ⟨middle, map_eq_ok.2 ⟨(child, middle), hvisit, rfl⟩⟩
  | raw _ => exact ⟨plan, rfl⟩

/-! ## The plan of a filter -/

/-- The plan of a filter of a root: a planned plan of this root with a join for each path of the
filter, which fits the registry. -/
theorem ofFilter_spec (hplain : registry.PlainRelations) {root : String} {f : Filter}
    (h : ofFilter registry root f = .ok plan) :
    Planned registry plan ∧ plan.root = root ∧ plan.Covers (followed none f) ∧
      f.Fits registry root := by
  obtain ⟨entity, hentity, h⟩ := bind_eq_ok.1 h
  have hfind := Registry.lookup_eq_ok.1 hentity
  have hcode := Registry.code_of_find? hfind
  have hstart : Planned registry (start entity) := .start (by rw [hcode, hfind])
  obtain ⟨hgrown, hfits⟩ := addFilter_grows hplain f _ _ _ hstart (reaches_root _) h
  exact ⟨hgrown.planned, hgrown.stage.1.symm.trans hcode, hgrown.covers, hcode ▸ hfits⟩

theorem ofFilter_ok (hclosed : registry.validate = .ok ()) {root : String} {f : Filter}
    {entity : Entity} (hroot : registry.find? root = some entity) (hfits : f.Fits registry root) :
    ∃ plan, ofFilter registry root f = .ok plan := by
  obtain ⟨plan, hplan⟩ := addFilter_of_fits hclosed hfits (start entity).rootScope
    (Registry.code_of_find? hroot) (start entity)
  exact ⟨plan, bind_eq_ok.2 ⟨entity, Registry.lookup_eq_ok.2 hroot, hplan⟩⟩

end JoinPlan

end FilterQuery
