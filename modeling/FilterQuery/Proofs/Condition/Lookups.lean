import FilterQuery.Proofs.Condition.Resolving
import FilterQuery.Proofs.JoinPlan.Chains

/-!
# Looking joins up

Resolution walks a filter on its own, after planning has walked it, and the path of a relation is
all that the two walks have in common. `Visits` says which parts of a filter resolution comes to, at
which place, and by which chain of relations; `LooksUp` says which joins it asks the plan for.

When no relation has a point in its name, a path identifies its chain
(`JoinPlan.ofFilter_identifies`): chains that differ have paths that differ, and every join that is
looked up is there and is what the registry declares for the very chain that led to it. A point in a
name breaks this: then two chains can share a path, and the second one is given the join of the
first (`Orders.not_identifies`).
-/

namespace FilterQuery

/-! ## Parts of filters -/

/-- A filter is an immediate part of another, asked of the same row. -/
inductive Filter.PartOf : Filter → Filter → Prop
  | all {f : Filter} {fs : List Filter} : f ∈ fs → PartOf f (.all fs)
  | any {f : Filter} {fs : List Filter} : f ∈ fs → PartOf f (.any fs)
  | not {f : Filter} : PartOf f (.not f)
  | related {t : RelatedTest} {ef : EntityFilter} :
      t ∈ ef.related → PartOf (.related t) (.entity ef)
  | inAll {f : Filter} {ef : EntityFilter} : f ∈ ef.all → PartOf f (.entity ef)
  | inAny {f : Filter} {ef : EntityFilter} : f ∈ ef.any → PartOf f (.entity ef)
  | negated {f : Filter} {ef : EntityFilter} : ef.negated = some f → PartOf f (.entity ef)

/-- A filter is an immediate part of another, asked of the rows that a relation leads to. -/
inductive Filter.PartAcross (name : String) : Filter → Filter → Prop
  | nested {f : Filter} {ef : EntityFilter} : (name, f) ∈ ef.nested → PartAcross name f (.entity ef)
  | quantified {f : Filter} {q : Quantifier} : PartAcross name f (.related (.quantified name q f))

/-- A filter asks something of the rows that a relation leads to. -/
inductive Filter.Asks (name : String) : Filter → Prop
  | across {f g : Filter} : f.PartAcross name g → Asks name g
  | size {op : SizeOp} {n : Nat} : Asks name (.related (.size name op n))

section

variable {registry : Registry} {rules : Filter.Rules} {code name : String} {f g : Filter}
  {parent : Option String}

theorem Filter.Obeys.part (h : g.Obeys registry rules code) (hpart : f.PartOf g) :
    f.Obeys registry rules code := by
  cases hpart with
  | all hf =>
    cases h with
    | all hfs => exact hfs f hf
  | any hf =>
    cases h with
    | any hfs => exact hfs f hf
  | not =>
    cases h with
    | not hf => exact hf
  | related ht =>
    cases h with
    | entity _ _ _ _ hrelated _ _ _ => exact hrelated _ ht
  | inAll hf =>
    cases h with
    | entity _ _ _ _ _ hall _ _ => exact hall f hf
  | inAny hf =>
    cases h with
    | entity _ _ _ _ _ _ hany _ => exact hany f hf
  | negated hf =>
    cases h with
    | entity _ _ _ _ _ _ _ hnegated => exact hnegated f hf

theorem Filter.Obeys.across (h : g.Obeys registry rules code) (hpart : f.PartAcross name g) :
    ∃ relation, registry.relation? code name = some relation ∧
      f.Obeys registry rules relation.target := by
  cases hpart with
  | nested hf =>
    cases h with
    | entity _ _ hrelation hnested _ _ _ _ =>
      obtain ⟨relation, hr⟩ := hrelation name f hf
      exact ⟨relation, hr, hnested name f relation hf hr⟩
  | quantified =>
    cases h with
    | quantified hr _ hf => exact ⟨_, hr, hf⟩

theorem Filter.Obeys.asks (h : g.Obeys registry rules code) (hasks : g.Asks name) :
    ∃ relation, registry.relation? code name = some relation := by
  cases hasks with
  | across hpart =>
    obtain ⟨relation, hr, -⟩ := h.across hpart
    exact ⟨relation, hr⟩
  | size =>
    cases h with
    | size hr _ _ => exact ⟨_, hr⟩

namespace JoinPlan

theorem followed_part (hpart : f.PartOf g) : followed parent f ⊆ followed parent g := by
  intro path hpath
  cases hpart with
  | all hf =>
    rw [followed, followedByItems_eq]
    exact List.mem_flatMap.2 ⟨f, hf, hpath⟩
  | any hf =>
    rw [followed, followedByItems_eq]
    exact List.mem_flatMap.2 ⟨f, hf, hpath⟩
  | not => exact hpath
  | related ht =>
    simp only [followed, followedByEntity_eq, List.mem_append, List.mem_flatMap]
    exact .inl (.inl (.inl (.inr ⟨_, ht, hpath⟩)))
  | inAll hf =>
    simp only [followed, followedByEntity_eq, List.mem_append, List.mem_flatMap]
    exact .inl (.inl (.inr ⟨f, hf, hpath⟩))
  | inAny hf =>
    simp only [followed, followedByEntity_eq, List.mem_append, List.mem_flatMap]
    exact .inl (.inr ⟨f, hf, hpath⟩)
  | negated hf =>
    simp only [followed, followedByEntity_eq, List.mem_append, List.mem_flatMap]
    exact .inr ⟨f, Option.mem_toList.2 hf, hpath⟩

theorem followed_across (hpart : f.PartAcross name g) :
    childPath parent name :: followed (some (childPath parent name)) f ⊆ followed parent g := by
  intro path hpath
  cases hpart with
  | nested hf =>
    simp only [followed, followedByEntity_eq, followedByNested_eq, List.mem_append,
      List.mem_flatMap]
    exact .inl (.inl (.inl (.inl ⟨_, hf, hpath⟩)))
  | quantified => exact hpath

theorem childPath_mem_followed (hasks : g.Asks name) :
    childPath parent name ∈ followed parent g := by
  cases hasks with
  | across hpart => exact followed_across hpart List.mem_cons_self
  | size => exact List.mem_cons_self

theorem Covers.subset {plan : JoinPlan} {ps qs : List String} (h : plan.Covers qs)
    (hsub : ps ⊆ qs) : plan.Covers ps :=
  fun p hp => h p (hsub hp)

end JoinPlan

end

/-! ## The walk of resolution -/

namespace Resolution

/-- Resolution of a filter comes to a part of it at a place, having followed a chain of relations
from the root. -/
inductive Visits (plan : JoinPlan) (f : Filter) : List String → ResolveScope → Filter → Prop
  | root : Visits plan f [] (rootScope plan) f
  | part {names : List String} {place : ResolveScope} {g h : Filter} :
      Visits plan f names place g → h.PartOf g → Visits plan f names place h
  | across {names : List String} {name : String} {place inside : ResolveScope} {j : PlannedJoin}
      {g h : Filter} : Visits plan f names place g → h.PartAcross name g →
      child plan name place = .ok (j, inside) → Visits plan f (names ++ [name]) inside h

/-- Resolution of a filter looks up the join of a relation at a place, having followed a chain of
relations from the root to the place. -/
def LooksUp (plan : JoinPlan) (f : Filter) (names : List String) (place : ResolveScope)
    (name : String) : Prop :=
  ∃ g, Visits plan f names place g ∧ g.Asks name

/-- What is known of a part of a filter that resolution comes to: planning has reached its place by
the same chain, and the part fits its entity and has all its joins. -/
structure Reached (registry : Registry) (plan : JoinPlan) (names : List String)
    (place : ResolveScope) (g : Filter) (scope : PlanScope) : Prop where
  place : place = scope.place
  reaches : plan.Reaches scope
  leadsTo : ∃ relations, JoinPlan.LeadsTo registry plan.root names relations scope
  fits : g.Fits registry scope.entity
  covers : plan.Covers (JoinPlan.followed scope.path g)

variable {registry : Registry} {plan : JoinPlan} {f g : Filter} {names : List String}
  {place : ResolveScope} {scope : PlanScope} {name : String}

/-- A relation that a part follows has its join in the plan. -/
theorem Reached.child (h : Reached registry plan names place g scope)
    (hplan : JoinPlan.Planned registry plan) (hplain : registry.PlainRelations)
    (hasks : g.Asks name) :
    ∃ j, Resolution.child plan name place = .ok (j, j.scope.place) ∧ j ∈ plan.joins ∧
      JoinPlan.Follows registry scope name j := by
  obtain ⟨relation, hrel⟩ := h.fits.asks hasks
  obtain ⟨j, hj, hpath⟩ := h.covers _ (JoinPlan.childPath_mem_followed hasks)
  have hchild : Resolution.child plan name scope.place = .ok (j, j.scope.place) := by
    unfold Resolution.child
    simp only [PlanScope.place, ← hpath, hplan.find?_eq_some hj]
    rfl
  exact ⟨j, h.place ▸ hchild, hj, hplan.follows_of_path hplain h.reaches hrel hj hpath⟩

/-- Resolution keeps to the ways of planning. -/
theorem Visits.reached (h : Visits plan f names place g) (hplan : JoinPlan.Planned registry plan)
    (hplain : registry.PlainRelations) (hfits : f.Fits registry plan.root)
    (hcovers : plan.Covers (JoinPlan.followed none f)) :
    ∃ scope, Reached registry plan names place g scope := by
  induction h with
  | root =>
    exact ⟨plan.rootScope, rfl, JoinPlan.reaches_root plan,
      ⟨[], JoinPlan.leadsTo_root registry plan⟩, hfits, hcovers⟩
  | part _ hpart ih =>
    obtain ⟨scope, hreached⟩ := ih
    exact ⟨scope, hreached.place, hreached.reaches, hreached.leadsTo, hreached.fits.part hpart,
      hreached.covers.subset (JoinPlan.followed_part hpart)⟩
  | @across names name place inside j g h _ hpart hchild ih =>
    obtain ⟨scope, hreached⟩ := ih
    obtain ⟨k, hchild', hj, hfollows⟩ := hreached.child hplan hplain (.across hpart)
    obtain ⟨rfl, rfl⟩ := Prod.mk.inj (Except.ok.inj (hchild.symm.trans hchild'))
    obtain ⟨relation, hrel, hinside⟩ := hreached.fits.across hpart
    obtain rfl : j.relation = relation := Option.some.inj (hfollows.relation.symm.trans hrel)
    obtain ⟨relations, hleads⟩ := hreached.leadsTo
    have hbelow := hreached.covers.subset (JoinPlan.followed_across hpart)
    rw [← hfollows.path] at hbelow
    exact ⟨j.scope, rfl, JoinPlan.reaches_scope hj, ⟨_, (hleads.follow hplain hfollows).1⟩, hinside,
      (JoinPlan.covers_cons.1 hbelow).2⟩

end Resolution

/-! ## Paths identify chains -/

/-- A join is what a registry declares at the end of a chain of relations from an entity: it leads
along the last relation, by its cardinality and its columns, from the entity before it to the table
of its target. -/
structure Registry.Declares (r : Registry) (root : String) (names : List String)
    (j : PlannedJoin) : Prop where
  path : j.path = ".".intercalate names
  relation : ∃ relations, r.along? root names = some (relations ++ [j.relation]) ∧
    j.source = JoinPlan.endOf root relations
  table : ∃ target, r.find? j.target = some target ∧ j.table = target.table

namespace JoinPlan

/-- The paths of a plan identify the chains of relations that resolution of a filter follows. -/
structure Identifies (plan : JoinPlan) (registry : Registry) (root : String) (f : Filter) :
    Prop where
  /-- Different chains have different paths. -/
  paths : ∀ names names' relations relations', registry.along? root names = some relations →
    registry.along? root names' = some relations' → spelled names = spelled names' → names = names'
  /-- A join that is looked up is there, hangs on the place, and is what the registry declares for
  the chain. -/
  lookups : ∀ names place name, Resolution.LooksUp plan f names place name →
    ∃ j inside, Resolution.child plan name place = .ok (j, inside) ∧ j ∈ plan.joins ∧
      j.parent = place.aliasName ∧ registry.Declares root (names ++ [name]) j
  /-- Different chains find different joins, with aliases of their own. -/
  joins : ∀ names place name names' place' name' j inside j' inside',
    Resolution.LooksUp plan f names place name → Resolution.LooksUp plan f names' place' name' →
    Resolution.child plan name place = .ok (j, inside) →
    Resolution.child plan name' place' = .ok (j', inside') →
    names ++ [name] ≠ names' ++ [name'] → j ≠ j' ∧ j.aliasName ≠ j'.aliasName

variable {registry : Registry} {plan : JoinPlan} {root : String} {f : Filter} {names : List String}
  {relations : List Relation}

theorem plain_of_along? (hplain : registry.PlainRelations) {code : String}
    (h : registry.along? code names = some relations) : ∀ n ∈ names, '.' ∉ n.toList := by
  induction names generalizing code relations with
  | nil => simp
  | cons first rest ih =>
    simp only [Registry.along?, Option.bind_eq_bind, Option.bind_eq_some_iff] at h
    obtain ⟨relation, hrel, others, hrest, -⟩ := h
    exact List.forall_mem_cons.2 ⟨hplain _ _ _ hrel, ih hrest⟩

/-- Chains of names without points are read back from the paths that they spell. -/
theorem spelled_inj {names' : List String} (hplain : ∀ n ∈ names, '.' ∉ n.toList)
    (hplain' : ∀ n ∈ names', '.' ∉ n.toList) (h : spelled names = spelled names') :
    names = names' := by
  cases names with
  | nil =>
    cases names' with
    | nil => rfl
    | cons _ _ => cases h
  | cons first rest =>
    cases names' with
    | nil => cases h
    | cons first' rest' =>
      have hsegments := congrArg segments (Option.some.inj h)
      rwa [segments_intercalate (List.cons_ne_nil _ _) hplain,
        segments_intercalate (List.cons_ne_nil _ _) hplain'] at hsegments

/-- A join that follows a relation from a place is declared for the chain that leads to the place
and on along the relation. -/
theorem LeadsTo.declares {scope : PlanScope} {name : String} {j : PlannedJoin}
    (h : LeadsTo registry root names relations scope) (hplain : registry.PlainRelations)
    (hj : Follows registry scope name j) : registry.Declares root (names ++ [name]) j := by
  obtain ⟨hchain, hpath⟩ := h.follow hplain hj
  exact ⟨hpath, ⟨relations, hchain.along, hj.source.trans h.entity⟩, hj.table⟩

/-- A join that resolution looks up is there, hangs on the place, and is declared for the chain that
led to it. -/
theorem Planned.declares_of_looksUp (h : Planned registry plan) (hplain : registry.PlainRelations)
    (hfits : f.Fits registry plan.root) (hcovers : plan.Covers (followed none f))
    {place : ResolveScope} {name : String} (hlook : Resolution.LooksUp plan f names place name) :
    ∃ j inside, Resolution.child plan name place = .ok (j, inside) ∧ j ∈ plan.joins ∧
      j.parent = place.aliasName ∧ registry.Declares plan.root (names ++ [name]) j := by
  obtain ⟨g, hvisits, hasks⟩ := hlook
  obtain ⟨scope, hreached⟩ := hvisits.reached h hplain hfits hcovers
  obtain ⟨j, hchild, hj, hfollows⟩ := hreached.child h hplain hasks
  obtain ⟨relations, hleads⟩ := hreached.leadsTo
  have hparent : j.parent = place.aliasName := by
    rw [hfollows.parent, hreached.place]
    rfl
  exact ⟨j, _, hchild, hj, hparent, hleads.declares hplain hfollows⟩

/-- Joins that are declared for different chains have different paths. -/
theorem path_ne_of_declares (hplain : registry.PlainRelations) {names' : List String}
    {name name' : String} {j j' : PlannedJoin} (h : registry.Declares root (names ++ [name]) j)
    (h' : registry.Declares root (names' ++ [name']) j')
    (hne : names ++ [name] ≠ names' ++ [name']) : j.path ≠ j'.path := by
  intro hpath
  obtain ⟨relations, halong, -⟩ := h.relation
  obtain ⟨relations', halong', -⟩ := h'.relation
  have hspelled : spelled (names ++ [name]) = spelled (names' ++ [name']) := by
    rw [spelled_concat, spelled_concat, ← h.path, ← h'.path, hpath]
  exact hne (spelled_inj (plain_of_along? hplain halong) (plain_of_along? hplain halong') hspelled)

/-- As long as no relation has a point in its name, paths identify chains: in the plan of a filter,
whatever its root, no two chains share a path, a join or an alias, and every join that resolution
looks up is the one that the registry declares for the chain that led to it. -/
theorem ofFilter_identifies (hplain : registry.PlainRelations)
    (h : ofFilter registry root f = .ok plan) : plan.Identifies registry root f := by
  obtain ⟨hplan, rfl, hcovers, hfits⟩ := ofFilter_spec hplain h
  refine ⟨?_, ?_, ?_⟩
  · intro names names' relations relations' hnames hnames' hspelled
    exact spelled_inj (plain_of_along? hplain hnames) (plain_of_along? hplain hnames') hspelled
  · intro names place name hlook
    exact hplan.declares_of_looksUp hplain hfits hcovers hlook
  · intro names place name names' place' name' j inside j' inside' hlook hlook' hchild hchild' hne
    obtain ⟨k, _, hfound, hj, -, hdeclares⟩ :=
      hplan.declares_of_looksUp hplain hfits hcovers hlook
    cases hchild.symm.trans hfound
    obtain ⟨k', _, hfound', hj', -, hdeclares'⟩ :=
      hplan.declares_of_looksUp hplain hfits hcovers hlook'
    cases hchild'.symm.trans hfound'
    have hpaths : j.path ≠ j'.path := path_ne_of_declares hplain hdeclares hdeclares' hne
    refine ⟨fun heq => hpaths (by rw [heq]), fun halias => hpaths ?_⟩
    rw [hplan.eq_of_alias hj hj' halias]

theorem ofFilter_identifies_rareDecks :
    Catalog.registry.PlainRelations ∧
      ∃ plan, ofFilter Catalog.registry "deck" Catalog.rareDecks = .ok plan ∧
        plan.Identifies Catalog.registry "deck" Catalog.rareDecks := by
  have hplain := Catalog.plainRelations_registry
  obtain ⟨plan, hplan⟩ : ∃ plan,
      ofFilter Catalog.registry "deck" Catalog.rareDecks = .ok plan := ⟨_, rfl⟩
  exact ⟨hplain, plan, hplan, ofFilter_identifies hplain hplan⟩

end JoinPlan

/-! ## Names with points -/

namespace Orders

/-- People and their bosses. -/
def person : Entity :=
  (Entity.new "person" "people").withKey ["id"]
    |>.field "id" .integer
    |>.field "name" .text
    |>.field "boss_id" .integer
    |>.withRelation "boss" ⟨"person", .one, [("boss_id", "id")]⟩

/-- Orders. One of their relations bears the path of another chain of relations as its name. -/
def order : Entity :=
  (Entity.new "order" "orders").withKey ["id"]
    |>.field "id" .integer
    |>.field "buyer_id" .integer
    |>.field "payer_id" .integer
    |>.withRelation "buyer" ⟨"person", .one, [("buyer_id", "id")]⟩
    |>.withRelation "buyer.boss" ⟨"person", .one, [("payer_id", "id")]⟩

/-- Orders and people. -/
def registry : Registry :=
  (Registry.empty.registerAll [order, person]).1

/-- The test that a person has a name. -/
def named (name : String) : Filter :=
  .entity ⟨"person", [⟨"name", .eq, .single (.text name)⟩], [], [], [], [], none⟩

/-- The orders whose buyer has Ann as a boss and that are paid by Bob. -/
def filter : Filter :=
  .entity ⟨"order", [],
    [("buyer", .entity ⟨"person", [], [("boss", named "Ann")], [], [], [], none⟩),
      ("buyer.boss", named "Bob")],
    [], [], [], none⟩

/-- The join of the buyer. -/
def buyerJoin : PlannedJoin :=
  ⟨"buyer", "t1", "t0", "order", "people", ⟨"person", .one, [("buyer_id", "id")]⟩, .outer⟩

/-- The join of the buyer's boss. -/
def bossJoin : PlannedJoin :=
  ⟨"buyer.boss", "t2", "t1", "person", "people", ⟨"person", .one, [("boss_id", "id")]⟩, .outer⟩

/-- The plan of the filter, without a join of the payer. -/
def plan : JoinPlan :=
  ⟨"order", "orders", [buyerJoin, bossJoin]⟩

/-- A point in the name of a relation passes every check of a registry, and then a path no longer
identifies its chain: the relation to the payer is given the join of the buyer's boss. -/
theorem not_identifies :
    registry.validate = .ok () ∧ JoinPlan.ofFilter registry "order" filter = .ok plan ∧
      ¬plan.Identifies registry "order" filter := by
  refine ⟨rfl, rfl, fun hidentifies => ?_⟩
  have hlooks : Resolution.LooksUp plan filter [] (Resolution.rootScope plan) "buyer.boss" :=
    ⟨filter, .root, .across (.nested (List.mem_cons_of_mem _ List.mem_cons_self))⟩
  obtain ⟨j, inside, hchild, -, -, hdeclares⟩ := hidentifies.lookups _ _ _ hlooks
  have hboss : Resolution.child plan "buyer.boss" (Resolution.rootScope plan) =
      .ok (bossJoin, ⟨"person", some "buyer.boss", "t2"⟩) := rfl
  cases hchild.symm.trans hboss
  obtain ⟨relations, halong, -⟩ := hdeclares.relation
  -- what the registry declares for the chain joins another column
  have hpayer : registry.along? "order" ([] ++ ["buyer.boss"]) =
      some [⟨"person", .one, [("payer_id", "id")]⟩] := rfl
  rw [hpayer] at halong
  cases relations with
  | nil => simp [bossJoin] at halong
  | cons first rest => simp at halong

end Orders

end FilterQuery
