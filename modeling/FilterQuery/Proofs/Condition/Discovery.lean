import FilterQuery.Proofs.Condition.Resolving
import FilterQuery.Proofs.JoinPlan.Trails
import FilterQuery.Proofs.Schema.Catalog

/-!
# First discoveries

Planning and resolution walk a filter each on its own. Resolution asks the plan for the paths of the
filter and for no others (`Resolution.filter_misses`), and planning joins exactly these paths, in
the order in which it meets them first. So the plan of a filter depends on its trail alone, begins
with the plan of any part that is walked first, and is never asked for a path that it lacks
(`JoinPlan.ofFilter_discovers`). Nothing is assumed of the names of relations.
-/

namespace FilterQuery

/-! ## Joins that are missed -/

namespace Resolution

/-- A step of resolution that, when it fails for want of a join, asked for one of some paths, for
which the plan has none. -/
def MissesOnly {α : Type} (plan : JoinPlan) (paths : List String) : Except FilterError α → Prop
  | .ok _ => True
  | .error error =>
    ∀ path, error = .unresolved (.unplanned path) → path ∈ paths ∧ plan.find? path = none

variable {registry : Registry} {plan : JoinPlan} {now : Instant} {place : ResolveScope}
  {paths paths' : List String}

theorem MissesOnly.mono {α : Type} {x : Except FilterError α} (h : MissesOnly plan paths x)
    (hsub : paths ⊆ paths') : MissesOnly plan paths' x := by
  cases x with
  | ok a => trivial
  | error error =>
    intro path herror
    obtain ⟨hpath, hnone⟩ := h path herror
    exact ⟨hsub hpath, hnone⟩

theorem MissesOnly.bind {α β : Type} {x : Except FilterError α} {f : α → Except FilterError β}
    (h : MissesOnly plan paths x) (hf : ∀ a, x = .ok a → MissesOnly plan paths (f a)) :
    MissesOnly plan paths (x >>= f) := by
  cases x with
  | ok a => exact hf a rfl
  | error error => exact h

theorem MissesOnly.map {α β : Type} {x : Except FilterError α} {f : α → β}
    (h : MissesOnly plan paths x) : MissesOnly plan paths (x.map f) := by
  cases x with
  | ok a => trivial
  | error error => exact h

/-! ### Fields -/

theorem parameter_misses (t : FieldTest) (kind : ValueKind) (value : Value) :
    MissesOnly plan paths (parameter t kind value) := by
  unfold parameter
  split
  · trivial
  · nofun

theorem parameters_misses (t : FieldTest) (kind : ValueKind) (values : List Value) :
    MissesOnly plan paths (parameters t kind values) := by
  induction values with
  | nil => trivial
  | cons v vs ih =>
    exact (parameter_misses t kind v).bind fun p _ => ih.bind fun ps _ => trivial

theorem patternTest_misses (t : FieldTest) (column : ColumnRef) (text : String) :
    MissesOnly plan paths (patternTest t column text) := by
  unfold patternTest
  split
  · trivial
  · trivial

theorem singleTest_misses (t : FieldTest) (kind : ValueKind) (column : ColumnRef) (value : Value) :
    MissesOnly plan paths (singleTest now t kind column value) := by
  unfold singleTest
  split
  · trivial
  · unfold Window.lastDays
    split
    · trivial
    · nofun
  · unfold Window.olderThan
    split
    · trivial
    · nofun
  · split
    · exact patternTest_misses t column _
    · split
      · nofun
      · exact (parameter_misses t kind _).map

theorem operandTest_misses (t : FieldTest) (kind : ValueKind) (column : ColumnRef) :
    MissesOnly plan paths (operandTest now t kind column) := by
  unfold operandTest
  split
  · split
    · unfold Window.ofOperator
      split
      · trivial
      · nofun
      · nofun
    · nofun
  · exact singleTest_misses t kind column _
  · split
    · exact (parameter_misses t kind _).bind fun _ _ =>
        (parameter_misses t kind _).bind fun _ _ => trivial
    · nofun
  · unfold listTest
    split
    · refine (parameters_misses t kind _).bind fun ps _ => ?_
      simp only
      split
      · trivial
      · trivial
    · nofun

theorem fieldTest_misses (t : FieldTest) :
    MissesOnly plan paths (fieldTest registry now t place) := by
  unfold fieldTest
  refine MissesOnly.bind ?_ fun field _ => ?_
  · unfold fieldOf
    split
    · nofun
    · split
      · nofun
      · trivial
  · split
    · nofun
    · exact operandTest_misses t field.kind _

theorem fieldTests_misses (ts : List FieldTest) :
    MissesOnly plan paths (fieldTests registry now place ts) := by
  induction ts with
  | nil => trivial
  | cons t ts ih => exact (fieldTest_misses t).bind fun c _ => ih.bind fun cs _ => trivial

/-! ### Relations and filters -/

theorem child_misses (name : String) :
    MissesOnly plan [JoinPlan.childPath place.path name] (child plan name place) := by
  unfold child
  dsimp only
  split
  · rename_i hfind
    rintro path ⟨⟩
    exact ⟨List.mem_singleton_self _, hfind⟩
  · trivial

theorem child_path {name : String} {j : PlannedJoin} {inside : ResolveScope}
    (h : child plan name place = .ok (j, inside)) :
    inside.path = some (JoinPlan.childPath place.path name) := by
  unfold child at h
  dsimp only at h
  split at h
  · cases h
  · obtain ⟨-, rfl⟩ := Prod.mk.inj (Except.ok.inj h)
    rfl

theorem collection_misses (name : String) :
    MissesOnly plan [JoinPlan.childPath place.path name] (collection plan name place) := by
  refine (child_misses name).bind fun p _ => ?_
  dsimp only
  split
  · trivial
  · nofun

mutual

/-- Resolution of a filter misses no other joins than those of the paths of the filter. -/
theorem filter_misses : ∀ (f : Filter) (place : ResolveScope),
    MissesOnly plan (JoinPlan.followed place.path f) (filter registry plan now f place)
  | .field t, place => fieldTest_misses t
  | .all items, place => (filters_misses items place).bind fun _ _ => trivial
  | .any items, place => (filters_misses items place).bind fun _ _ => trivial
  | .not item, place => (filter_misses item place).bind fun _ _ => trivial
  | .entity f, place => entityFilter_misses f place
  | .related t, place => relatedTest_misses t place
  | .raw sql values, place => by
    unfold filter rawTest
    dsimp only
    split
    · trivial
    · nofun

theorem entityFilter_misses : ∀ (f : EntityFilter) (place : ResolveScope),
    MissesOnly plan (JoinPlan.followedByEntity place.path f)
      (entityFilter registry plan now f place)
  | ⟨code, fields, nested, related, all, any, negated⟩, place => by
    unfold entityFilter
    split
    · nofun
    · refine (fieldTests_misses fields).bind fun _ _ => ?_
      refine ((nestedFilters_misses nested place).mono ?_).bind fun _ _ => ?_
      · simp [JoinPlan.followedByEntity]
      refine ((relatedTests_misses related place).mono ?_).bind fun _ _ => ?_
      · intro path hpath
        simp [JoinPlan.followedByEntity, hpath]
      refine ((filters_misses all place).mono ?_).bind fun _ _ => ?_
      · intro path hpath
        simp [JoinPlan.followedByEntity, hpath]
      refine ((filters_misses any place).mono ?_).bind fun _ _ => ?_
      · intro path hpath
        simp [JoinPlan.followedByEntity, hpath]
      refine ((negatedFilter_misses negated place).mono ?_).bind fun _ _ => trivial
      intro path hpath
      simp [JoinPlan.followedByEntity, hpath]

theorem relatedTest_misses : ∀ (t : RelatedTest) (place : ResolveScope),
    MissesOnly plan (JoinPlan.followedByTest place.path t) (relatedTest registry plan now t place)
  | .quantified name q f, place => by
    unfold relatedTest
    refine ((collection_misses name).mono ?_).bind fun p hp => ?_
    · simp [JoinPlan.followedByTest]
    · have hpath := child_path (collection_eq_ok.1 hp).1
      refine ((filter_misses f p.2).mono ?_).bind fun _ _ => trivial
      simp [JoinPlan.followedByTest, hpath]
  | .size name op n, place => by
    unfold relatedTest
    refine ((collection_misses name).mono ?_).bind fun p _ => ?_
    · simp [JoinPlan.followedByTest]
    · dsimp only
      unfold sized
      split
      · trivial
      · nofun

theorem filters_misses : ∀ (fs : List Filter) (place : ResolveScope),
    MissesOnly plan (JoinPlan.followedByItems place.path fs) (filters registry plan now fs place)
  | [], _ => trivial
  | f :: fs, place => by
    unfold filters
    refine ((filter_misses f place).mono ?_).bind fun _ _ =>
      ((filters_misses fs place).mono ?_).bind fun _ _ => trivial
    · simp [JoinPlan.followedByItems]
    · simp [JoinPlan.followedByItems]

theorem nestedFilters_misses : ∀ (fs : List (String × Filter)) (place : ResolveScope),
    MissesOnly plan (JoinPlan.followedByNested place.path fs)
      (nestedFilters registry plan now fs place)
  | [], _ => trivial
  | (name, f) :: fs, place => by
    unfold nestedFilters
    refine ((child_misses name).mono ?_).bind fun p hp => ?_
    · simp [JoinPlan.followedByNested]
    · have hpath := child_path hp
      refine ((filter_misses f p.2).mono ?_).bind fun _ _ =>
        ((nestedFilters_misses fs place).mono ?_).bind fun _ _ => trivial
      · intro path hmem
        rw [hpath] at hmem
        simp [JoinPlan.followedByNested, hmem]
      · intro path hmem
        simp [JoinPlan.followedByNested, hmem]

theorem relatedTests_misses : ∀ (ts : List RelatedTest) (place : ResolveScope),
    MissesOnly plan (JoinPlan.followedByTests place.path ts)
      (relatedTests registry plan now ts place)
  | [], _ => trivial
  | t :: ts, place => by
    unfold relatedTests
    refine ((relatedTest_misses t place).mono ?_).bind fun _ _ =>
      ((relatedTests_misses ts place).mono ?_).bind fun _ _ => trivial
    · simp [JoinPlan.followedByTests]
    · simp [JoinPlan.followedByTests]

theorem negatedFilter_misses : ∀ (f? : Option Filter) (place : ResolveScope),
    MissesOnly plan (JoinPlan.followedByOptional place.path f?)
      (negatedFilter registry plan now f? place)
  | none, _ => trivial
  | some f, place => (filter_misses f place).bind fun _ _ => trivial

end

end Resolution

/-! ## The plan of a filter -/

namespace JoinPlan

variable {registry : Registry} {root : String} {f g : Filter} {plan plan' : JoinPlan}

theorem ofFilter_eq_addTrail :
    ofFilter registry root f = registry.lookup root >>= fun entity =>
      addTrail registry f.trail (start entity).rootScope (start entity) := by
  simp only [ofFilter, addFilter_eq_addTrail]

/-- The joins of a plan are for the paths that the filter follows, in the order of their first
occurrences. -/
theorem ofFilter_paths (h : ofFilter registry root f = .ok plan) :
    plan.joins.map (·.path) = (followed none f).eraseDups := by
  rw [ofFilter_eq_addTrail] at h
  obtain ⟨entity, -, h⟩ := bind_eq_ok.1 h
  have hstart : (start entity).Lists [] := rfl
  rw [followed_eq_paths]
  exact addTrail_lists hstart h

/-- A plan has a join for every path that its filter follows. -/
theorem find?_of_mem_followed (h : ofFilter registry root f = .ok plan) {path : String}
    (hpath : path ∈ followed none f) : ∃ j, plan.find? path = some j := by
  rw [← mem_paths_iff, ofFilter_paths h]
  exact List.mem_eraseDups.2 hpath

theorem trail_pair (f g : Filter) : (Filter.all [f, g]).trail = f.trail ++ (g.trail ++ .done) :=
  rfl

/-- The plan of a conjunction begins with that of the item that comes first. -/
theorem ofFilter_pair (h : ofFilter registry root (.all [f, g]) = .ok plan') :
    ∃ plan, ofFilter registry root f = .ok plan ∧ plan.IsStageOf plan' := by
  rw [ofFilter_eq_addTrail] at h
  obtain ⟨entity, hentity, h⟩ := bind_eq_ok.1 h
  rw [trail_pair, addTrail_append] at h
  obtain ⟨plan, hplan, h⟩ := bind_eq_ok.1 h
  refine ⟨plan, ?_, addTrail_isStageOf h⟩
  rw [ofFilter_eq_addTrail]
  exact bind_eq_ok.2 ⟨entity, hentity, hplan⟩

/-- A filter that is asked twice is planned as if it was asked once. -/
theorem ofFilter_twice (registry : Registry) (root : String) (f : Filter) :
    ofFilter registry root (.all [f, f]) = ofFilter registry root f := by
  rw [ofFilter_eq_addTrail, ofFilter_eq_addTrail, trail_pair]
  congr 1
  funext entity
  rw [addTrail_append]
  cases hplan : addTrail registry f.trail (start entity).rootScope (start entity) with
  | error error => rfl
  | ok plan =>
    show addTrail registry (f.trail ++ .done) (start entity).rootScope plan = .ok plan
    rw [addTrail_append, addTrail_again hplan (.refl plan) rfl rfl]
    rfl

/-- A plan holds exactly the paths that its filter follows, in the order in which they are met
first, so that resolution of the filter never misses a join. The plan depends on nothing but the
trail of the filter: neither on negations, nor on the choice between a conjunction and a
disjunction, nor on quantifiers and sizes, nor on tests on fields and pieces of SQL. The plan of a
conjunction begins with the plan of its first item, and a conjunction of a filter with itself has
the plan of the filter. -/
theorem ofFilter_discovers (registry : Registry) (root : String) (f : Filter) :
    (∀ plan, ofFilter registry root f = .ok plan →
      plan.joins.map (·.path) = (followed none f).eraseDups ∧
      ∀ now path, f.resolve registry plan now ≠ .error (.unresolved (.unplanned path))) ∧
    (∀ g : Filter, g.trail = f.trail → ofFilter registry root g = ofFilter registry root f) ∧
    (∀ g plan', ofFilter registry root (.all [f, g]) = .ok plan' →
      ∃ plan, ofFilter registry root f = .ok plan ∧ plan.joins <+: plan'.joins) ∧
    ofFilter registry root (.all [f, f]) = ofFilter registry root f := by
  refine ⟨?_, ?_, ?_, ofFilter_twice registry root f⟩
  · intro plan hplan
    refine ⟨ofFilter_paths hplan, fun now path hmissed => ?_⟩
    have hmisses : Resolution.MissesOnly plan (followed none f) (f.resolve registry plan now) :=
      Resolution.filter_misses f (Resolution.rootScope plan)
    rw [hmissed] at hmisses
    obtain ⟨hpath, hnone⟩ := hmisses path rfl
    obtain ⟨j, hj⟩ := find?_of_mem_followed hplan hpath
    rw [hnone] at hj
    cases hj
  · intro g hg
    rw [ofFilter_eq_addTrail, ofFilter_eq_addTrail, hg]
  · intro g plan' h
    obtain ⟨plan, hplan, hstage⟩ := ofFilter_pair h
    exact ⟨plan, hplan, hstage.2⟩

end JoinPlan

/-- Decks that are nothing like `Catalog.rareDecks` but for the relations that are followed. -/
def Catalog.unlikeRareDecks : Filter :=
  .not (.any [.field ⟨"anime_name", .isNull, .single (.bool true)⟩,
    .related (.quantified "cards" .none (.entity ⟨"card", [], [("author_user", .raw "1 = 1" [])],
      [], [], [], none⟩))])

theorem JoinPlan.ofFilter_discovers_rareDecks :
    ∃ plan, ofFilter Catalog.registry "deck" Catalog.rareDecks = .ok plan ∧
      plan.joins.map (·.path) = ["cards", "cards.author_user"] ∧
      ofFilter Catalog.registry "deck" Catalog.unlikeRareDecks = .ok plan := by
  obtain ⟨hown, hother, -, -⟩ := ofFilter_discovers Catalog.registry "deck" Catalog.rareDecks
  obtain ⟨plan, hplan⟩ : ∃ plan,
      ofFilter Catalog.registry "deck" Catalog.rareDecks = .ok plan := ⟨_, rfl⟩
  have htrail : Catalog.unlikeRareDecks.trail = Catalog.rareDecks.trail := rfl
  refine ⟨plan, hplan, (hown plan hplan).1, ?_⟩
  rw [hother _ htrail, hplan]

end FilterQuery
