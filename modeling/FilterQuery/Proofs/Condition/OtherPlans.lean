import FilterQuery.Proofs.Condition.Compiling
import FilterQuery.Proofs.Condition.Discovery
import FilterQuery.Proofs.Condition.Widening
import FilterQuery.Search.Engine

/-!
# Resolving over the plan of another filter

A filter that compiles can be resolved over the plan of any other filter of the same root. That
succeeds when the plan has a join for every path of the filter, and fails for want of one otherwise,
never for another reason (`Resolution.filter_hinges`). When it succeeds, the condition is the one
that the filter compiles to, with other aliases and perhaps with more joins in its subqueries
(`Engine.compile_carries_over`).
-/

namespace FilterQuery

namespace Resolution

open JoinPlan (Planned followed childPath)

variable {registry : Registry} {own other plan : JoinPlan} {now : Instant} {place : ResolveScope}
  {scope scope' : PlanScope} {f : Filter} {name : String}

/-! ## What resolution hinges on -/

/-- A step of resolution that succeeds when the plan has a join for each of some paths, and fails
for want of one of these joins otherwise. -/
def HingesOn {α : Type} (plan : JoinPlan) (paths : List String) : Except FilterError α → Prop
  | .ok _ => plan.Covers paths
  | .error error =>
    ∃ path ∈ paths, plan.find? path = none ∧ error = .unresolved (.unplanned path)

section

variable {paths paths' : List String}

theorem hingesOn_nil {α : Type} (a : α) :
    HingesOn plan [] (.ok a : Except FilterError α) :=
  fun _ hp => absurd hp List.not_mem_nil

theorem HingesOn.bind {α β : Type} {x : Except FilterError α} {g : α → Except FilterError β}
    (h : HingesOn plan paths x) (hg : ∀ a, x = .ok a → HingesOn plan paths' (g a)) :
    HingesOn plan (paths ++ paths') (x >>= g) := by
  cases x with
  | error error =>
    obtain ⟨path, hpath, hnone⟩ := h
    exact ⟨path, List.mem_append_left _ hpath, hnone⟩
  | ok a =>
    have hrest := hg a rfl
    show HingesOn plan (paths ++ paths') (g a)
    cases hga : g a with
    | error error =>
      rw [hga] at hrest
      obtain ⟨path, hpath, hnone⟩ := hrest
      exact ⟨path, List.mem_append_right _ hpath, hnone⟩
    | ok b =>
      rw [hga] at hrest
      exact JoinPlan.covers_append.2 ⟨h, hrest⟩

/-- A step after which nothing can go wrong. -/
theorem HingesOn.bind_ok {α β : Type} {x : Except FilterError α} {g : α → β}
    (h : HingesOn plan paths x) : HingesOn plan paths (x >>= fun a => .ok (g a)) := by
  have hbind := h.bind fun a _ => hingesOn_nil (g a)
  rwa [List.append_nil] at hbind

theorem fieldTests_hinge {ts : List FieldTest}
    (h : ∀ t ∈ ts, HingesOn plan [] (fieldTest registry now t place)) :
    HingesOn plan [] (fieldTests registry now place ts) := by
  induction ts with
  | nil => exact hingesOn_nil []
  | cons t ts ih =>
    obtain ⟨ht, hts⟩ := List.forall_mem_cons.1 h
    exact ht.bind fun c _ => (ih hts).bind_ok

theorem filters_hinge {fs : List Filter}
    (h : ∀ f ∈ fs, HingesOn plan (followed place.path f) (filter registry plan now f place)) :
    HingesOn plan (fs.flatMap (followed place.path)) (filters registry plan now fs place) := by
  induction fs with
  | nil => exact hingesOn_nil []
  | cons f fs ih =>
    obtain ⟨hf, hfs⟩ := List.forall_mem_cons.1 h
    exact hf.bind fun c _ => (ih hfs).bind_ok

theorem relatedTests_hinge {ts : List RelatedTest}
    (h : ∀ t ∈ ts, HingesOn plan (followed place.path (.related t))
      (filter registry plan now (.related t) place)) :
    HingesOn plan (ts.flatMap fun t => followed place.path (.related t))
      (relatedTests registry plan now ts place) := by
  induction ts with
  | nil => exact hingesOn_nil []
  | cons t ts ih =>
    obtain ⟨ht, hts⟩ := List.forall_mem_cons.1 h
    exact ht.bind fun c _ => (ih hts).bind_ok

theorem nestedFilters_hinge {fs : List (String × Filter)}
    (hchild : ∀ p ∈ fs, HingesOn plan [childPath place.path p.1] (child plan p.1 place))
    (h : ∀ p ∈ fs, ∀ q, child plan p.1 place = .ok q →
      HingesOn plan (followed (some (childPath place.path p.1)) p.2)
        (filter registry plan now p.2 q.2)) :
    HingesOn plan (fs.flatMap fun p =>
      childPath place.path p.1 :: followed (some (childPath place.path p.1)) p.2)
      (nestedFilters registry plan now fs place) := by
  induction fs with
  | nil => exact hingesOn_nil []
  | cons p fs ih =>
    obtain ⟨name, f⟩ := p
    obtain ⟨hfirst, hchild⟩ := List.forall_mem_cons.1 hchild
    obtain ⟨hf, hfs⟩ := List.forall_mem_cons.1 h
    have hhinge : HingesOn plan ([childPath place.path name] ++
        (followed (some (childPath place.path name)) f ++ fs.flatMap fun p =>
          childPath place.path p.1 :: followed (some (childPath place.path p.1)) p.2))
        (nestedFilters registry plan now ((name, f) :: fs) place) :=
      hfirst.bind fun q hq => (hf q hq).bind fun inner _ => (ih hchild hfs).bind_ok
    simpa using hhinge

theorem negatedFilter_hinge {f? : Option Filter}
    (h : ∀ f ∈ f?.toList, HingesOn plan (followed place.path f)
      (filter registry plan now f place)) :
    HingesOn plan (f?.toList.flatMap (followed place.path))
      (negatedFilter registry plan now f? place) := by
  cases f? with
  | none => exact hingesOn_nil []
  | some f =>
    have hf := h f (by simp)
    simp only [Option.toList_some, List.flatMap_cons, List.flatMap_nil, List.append_nil]
    exact hf.bind_ok

/-- A filter of an entity hinges on what its parts hinge on. -/
theorem entityFilter_hinge {ef : EntityFilter} (hcode : ef.code = place.entity)
    (hfields : ∀ t ∈ ef.fields, HingesOn plan [] (fieldTest registry now t place))
    (hchild : ∀ p ∈ ef.nested, HingesOn plan [childPath place.path p.1] (child plan p.1 place))
    (hnested : ∀ p ∈ ef.nested, ∀ q, child plan p.1 place = .ok q →
      HingesOn plan (followed (some (childPath place.path p.1)) p.2)
        (filter registry plan now p.2 q.2))
    (hrelated : ∀ t ∈ ef.related, HingesOn plan (followed place.path (.related t))
      (filter registry plan now (.related t) place))
    (hall : ∀ f ∈ ef.all, HingesOn plan (followed place.path f)
      (filter registry plan now f place))
    (hany : ∀ f ∈ ef.any, HingesOn plan (followed place.path f)
      (filter registry plan now f place))
    (hnegated : ∀ f ∈ ef.negated.toList, HingesOn plan (followed place.path f)
      (filter registry plan now f place)) :
    HingesOn plan (followed place.path (.entity ef))
      (filter registry plan now (.entity ef) place) := by
  rw [followed, JoinPlan.followedByEntity_eq, JoinPlan.followedByNested_eq]
  obtain ⟨code, fields, nested, related, all, any, negated⟩ := ef
  unfold filter entityFilter
  rw [if_neg (by simpa using hcode)]
  simp only [List.append_assoc]
  exact (fieldTests_hinge hfields).bind fun _ _ =>
    (nestedFilters_hinge hchild hnested).bind fun _ _ =>
      (relatedTests_hinge hrelated).bind fun _ _ => (filters_hinge hall).bind fun _ _ =>
        (filters_hinge hany).bind fun _ _ => (negatedFilter_hinge hnegated).bind_ok

end

/-- A declared relation is there exactly when the plan has a join for its path. -/
theorem child_hinges (hplan : Planned registry plan) (hplain : registry.PlainRelations)
    (hs : plan.Reaches scope) {relation : Relation}
    (hrel : registry.relation? scope.entity name = some relation) :
    HingesOn plan [childPath scope.path name] (child plan name scope.place) := by
  cases hfind : plan.find? (childPath scope.path name) with
  | none =>
    have hchild : child plan name scope.place =
        .error (.unresolved (.unplanned (childPath scope.path name))) := by
      simp only [child, PlanScope.place, hfind]
    rw [hchild]
    exact ⟨_, List.mem_singleton_self _, hfind, rfl⟩
  | some j =>
    obtain ⟨hj, hpath⟩ := JoinPlan.mem_of_find? hfind
    obtain ⟨k, -, hchild, -⟩ := child_ok hplan hplain hs hrel ⟨j, hj, hpath⟩
    rw [hchild]
    exact JoinPlan.covers_cons.2 ⟨⟨j, hj, hpath⟩, fun _ hp => absurd hp List.not_mem_nil⟩

theorem collection_hinges (hplan : Planned registry plan) (hplain : registry.PlainRelations)
    (hs : plan.Reaches scope) {relation : Relation}
    (hrel : registry.relation? scope.entity name = some relation)
    (hmany : relation.isMany = true) :
    HingesOn plan [childPath scope.path name] (collection plan name scope.place) := by
  have hhinge : HingesOn plan ([childPath scope.path name] ++ [])
      (collection plan name scope.place) := by
    refine (child_hinges hplan hplain hs hrel).bind fun q hq => ?_
    obtain ⟨j, inside⟩ := q
    obtain ⟨-, -, hrelation, -⟩ := child_spec hplan hplain hs hrel hq
    simp only [hrelation, hmany, if_true]
    exact hingesOn_nil _
  simpa using hhinge

/-- What is known below a join of one plan is known below the join that another plan of the same
root has for its path. -/
theorem hinges_below (hown : Planned registry own) (hother : Planned registry other)
    (hplain : registry.PlainRelations) (hroot : own.root = other.root) (hs : own.Reaches scope)
    (hs' : other.Reaches scope') (hpath : scope.path = scope'.path) {j : PlannedJoin}
    (hj : j ∈ own.joins) (hfollows : JoinPlan.Follows registry scope name j)
    (h : ∀ s', own.Reaches j.scope → other.Reaches s' → j.scope.path = s'.path →
      HingesOn other (followed s'.path f) (filter registry other now f s'.place))
    {q : PlannedJoin × ResolveScope} (hq : child other name scope'.place = .ok q) :
    HingesOn other (followed (some (childPath scope'.path name)) f)
      (filter registry other now f q.2) := by
  obtain ⟨k, inside⟩ := q
  obtain ⟨hk, rfl, hkj, -⟩ :=
    child_agrees hother hown hplain hroot.symm hs' hs hpath.symm hfollows hq
  have hhinge := h k.scope (JoinPlan.reaches_scope hj) (JoinPlan.reaches_scope hk)
    (congrArg some hkj.symm)
  have hkpath : k.scope.path = some (childPath scope'.path name) := by
    rw [← hpath, ← hfollows.path, ← hkj]
    rfl
  rwa [hkpath] at hhinge

/-- What resolves over one plan hinges, over another plan of the same root, on its paths alone. -/
theorem filter_hinges (hown : Planned registry own) (hother : Planned registry other)
    (hplain : registry.PlainRelations) (hroot : own.root = other.root)
    (hf : f.Fits registry scope.entity) (hraw : f.RawFree) (hs : own.Reaches scope)
    (hs' : other.Reaches scope') (hpath : scope.path = scope'.path) {c : Condition}
    (h : filter registry own now f scope.place = .ok c) :
    HingesOn other (followed scope'.path f) (filter registry other now f scope'.place) := by
  refine resolved_induct (P := fun s f _ => ∀ s', own.Reaches s → other.Reaches s' →
    s.path = s'.path →
    HingesOn other (followed s'.path f) (filter registry other now f s'.place)) hown hplain
    ?field ?all ?any ?not ?entity ?quantified ?size ?raw (hf.obeys hraw) hs rfl h scope' hs hs'
    hpath
  case field =>
    intro s t c _ _ hc s' hs hs' hpath
    obtain ⟨hentity, -⟩ := hown.scope_agrees hother hplain hroot hs hs' hpath
    have halias := hown.aliasOver_scope hother hs hs' hpath
    have htest : fieldTest registry now t s'.place =
        (fieldTest registry now t s.place).map (Condition.rename (own.aliasOver other)) :=
      fieldTest_rename hentity halias t
    rw [filter, htest, hc]
    exact hingesOn_nil _
  case all =>
    intro s fs cs hcs s' hs hs' hpath
    rw [followed, JoinPlan.followedByItems_eq, filter]
    refine (filters_hinge fun f hf => ?_).bind_ok
    obtain ⟨c, -, hc⟩ := exists_mem_right hcs hf
    exact hc s' hs hs' hpath
  case any =>
    intro s fs cs hcs s' hs hs' hpath
    rw [followed, JoinPlan.followedByItems_eq, filter]
    refine (filters_hinge fun f hf => ?_).bind_ok
    obtain ⟨c, -, hc⟩ := exists_mem_right hcs hf
    exact hc s' hs hs' hpath
  case not =>
    intro s f c hc s' hs hs' hpath
    rw [followed, filter]
    exact (hc s' hs hs' hpath).bind_ok
  case entity =>
    intro s ef tests nested related all any negated hcode h₁ h₂ h₃ h₄ h₅ h₆ s' hs hs' hpath
    obtain ⟨hentity, -⟩ := hown.scope_agrees hother hplain hroot hs hs' hpath
    refine entityFilter_hinge (hcode.trans hentity) (fun t ht => ?_) (fun p hp => ?_)
      (fun p hp q hq => ?_) (fun t ht => ?_) (fun f hf => ?_) (fun f hf => ?_) (fun f hf => ?_)
    · obtain ⟨c, -, hc⟩ := exists_mem_right h₁ ht
      exact hc s' hs hs' hpath
    · obtain ⟨c, -, j, -, hfollows, -⟩ := exists_mem_right h₂ hp
      exact child_hinges hother hplain hs' (hentity ▸ hfollows.relation)
    · obtain ⟨c, -, j, hj, hfollows, inner, hinner, -⟩ := exists_mem_right h₂ hp
      exact hinges_below hown hother hplain hroot hs hs' hpath hj hfollows hinner hq
    · obtain ⟨c, -, hc⟩ := exists_mem_right h₃ ht
      exact hc s' hs hs' hpath
    · obtain ⟨c, -, hc⟩ := exists_mem_right h₄ hf
      exact hc s' hs hs' hpath
    · obtain ⟨c, -, hc⟩ := exists_mem_right h₅ hf
      exact hc s' hs hs' hpath
    · obtain ⟨c, -, hc⟩ := exists_mem_right h₆ hf
      exact hc s' hs hs' hpath
  case quantified =>
    intro s name q f j inner hj hfollows hmany hinner s' hs hs' hpath
    obtain ⟨hentity, -⟩ := hown.scope_agrees hother hplain hroot hs hs' hpath
    unfold filter relatedTest
    refine (collection_hinges hother hplain hs' (hentity ▸ hfollows.relation) hmany).bind
      fun p hp => ?_
    have hchild := (collection_eq_ok.1 hp).1
    exact (hinges_below hown hother hplain hroot hs hs' hpath hj hfollows hinner hchild).bind_ok
  case size =>
    intro s name op n j hj hfollows hmany hn s' hs hs' hpath
    obtain ⟨hentity, -⟩ := hown.scope_agrees hother hplain hroot hs hs' hpath
    unfold filter relatedTest
    have hsized : ∀ k, sized other k op n =
        .ok (.rowCount (other.subquery k .always) (sizeComparison op) n) :=
      fun k => sized_eq_ok.2 ⟨hn, rfl⟩
    simp only [hsized]
    exact (collection_hinges hother hplain hs' (hentity ▸ hfollows.relation) hmany).bind_ok
  case raw =>
    intro s sql values c hfalse
    exact hfalse.elim

end Resolution

/-! ## Compiling, and resolving over another plan -/

namespace Engine

variable {e : Engine} {root : String} {n m : Filter} {now : Instant}
  {compiled : CompiledFilter} {plan : JoinPlan}

theorem compile_eq_ok :
    e.compile root n now = .ok compiled ↔
      compiled.root = root ∧ JoinPlan.ofFilter e.registry root n = .ok compiled.plan ∧
        n.resolve e.registry compiled.plan now = .ok compiled.condition := by
  simp only [compile, bind_eq_ok, Except.ok.injEq]
  constructor
  · rintro ⟨plan, hplan, condition, hcondition, rfl⟩
    exact ⟨rfl, hplan, hcondition⟩
  · rintro ⟨rfl, hplan, hcondition⟩
    exact ⟨_, hplan, _, hcondition, rfl⟩

/-- A filter that compiles carries over to the plan of any other filter of the same root when every
path that it follows is planned there; otherwise resolution fails for want of the join of one of its
paths, and for no other reason. The condition that it carries over is the one that it compiles to,
with the aliases that the other plan has for the same paths, but the joins of a subquery may stand
in another order and may be joined by single-valued joins that only the other plan has. -/
theorem compile_carries_over (e : Engine) (hplain : e.registry.PlainRelations) (hraw : n.RawFree)
    (hcompile : e.compile root n now = .ok compiled)
    (hplan : JoinPlan.ofFilter e.registry root m = .ok plan) :
    ((∃ c, n.resolve e.registry plan now = .ok c) ↔
      ∀ path ∈ JoinPlan.followed none n, ∃ j, plan.find? path = some j) ∧
    (∀ error, n.resolve e.registry plan now = .error error →
      ∃ path ∈ JoinPlan.followed none n, plan.find? path = none ∧
        error = .unresolved (.unplanned path)) ∧
    ∀ c, n.resolve e.registry plan now = .ok c →
      Condition.Widens (compiled.plan.AddedBy plan)
        (compiled.condition.rename (compiled.plan.aliasOver plan)) c := by
  obtain ⟨-, hownPlan, hcondition⟩ := compile_eq_ok.1 hcompile
  obtain ⟨hown, hownRoot, -, hfits⟩ := JoinPlan.ofFilter_spec hplain hownPlan
  obtain ⟨hother, hotherRoot, -, -⟩ := JoinPlan.ofFilter_spec hplain hplan
  have hroot : compiled.plan.root = plan.root := hownRoot.trans hotherRoot.symm
  have hownFits : n.Fits e.registry compiled.plan.root := hownRoot.symm ▸ hfits
  have hotherFits : n.Fits e.registry plan.root := hotherRoot.symm ▸ hfits
  have hhinge : Resolution.HingesOn plan (JoinPlan.followed none n)
      (n.resolve e.registry plan now) :=
    Resolution.filter_hinges hown hother hplain hroot hownFits hraw (JoinPlan.reaches_root _)
      (JoinPlan.reaches_root _) rfl hcondition
  have hcovers : ∀ c, n.resolve e.registry plan now = .ok c →
      plan.Covers (JoinPlan.followed none n) := by
    intro c hc
    rwa [hc] at hhinge
  refine ⟨⟨?_, ?_⟩, ?_, ?_⟩
  · rintro ⟨c, hc⟩ path hpath
    rw [← JoinPlan.mem_paths_iff]
    obtain ⟨j, hj, rfl⟩ := hcovers c hc path hpath
    exact List.mem_map_of_mem hj
  · intro hfound
    cases hresolve : n.resolve e.registry plan now with
    | ok c => exact ⟨c, rfl⟩
    | error error =>
      rw [hresolve] at hhinge
      obtain ⟨path, hpath, hnone, -⟩ := hhinge
      obtain ⟨j, hj⟩ := hfound path hpath
      rw [hnone] at hj
      cases hj
  · intro error herror
    rwa [herror] at hhinge
  · intro c hc
    -- the joins of the own plan are for paths of the filter, all of which the other plan has
    have hjoins : ∀ j ∈ compiled.plan.joins, ∃ k ∈ plan.joins, k.path = j.path := by
      intro j hj
      refine hcovers c hc j.path ?_
      rw [← List.mem_eraseDups, ← JoinPlan.ofFilter_paths hownPlan]
      exact List.mem_map_of_mem hj
    exact Resolution.filter_widens hown hother hplain hroot hjoins hotherFits hraw
      (JoinPlan.reaches_root _) (JoinPlan.reaches_root _) rfl hcondition hc

end Engine

/-- Cards that someone offers for trade. -/
def Catalog.tradedCards : Filter :=
  .related (.quantified "stats" .any (.field ⟨"collection", .eq, .single (.text "TRADE")⟩))

theorem Catalog.rawFree_tradedCards : tradedCards.RawFree :=
  .quantified (.field _)

/-- Cards by their author and by the names of the cards that their statistics are about: the plan
has the statistics after the author, and the card inside the statistics. -/
def Catalog.authoredCards : Filter :=
  .entity ⟨"card", [], [("author_user", .field ⟨"username", .eq, .single (.text "kami")⟩)],
    [.quantified "stats" .none (.entity ⟨"card_users_stats", [],
      [("card", .field ⟨"name", .isNull, .single (.bool true)⟩)], [], [], [], none⟩)],
    [], [], none⟩

theorem Engine.compile_carries_over_tradedCards :
    ∃ compiled plan c,
      Catalog.engine.compile "card" Catalog.tradedCards ⟨0, 0⟩ = .ok compiled ∧
      JoinPlan.ofFilter Catalog.registry "card" Catalog.authoredCards = .ok plan ∧
      compiled.plan.aliasOver plan "t1" = "t2" ∧
      Catalog.tradedCards.resolve Catalog.registry plan ⟨0, 0⟩ = .ok c ∧
      Condition.Widens (compiled.plan.AddedBy plan)
        (compiled.condition.rename (compiled.plan.aliasOver plan)) c := by
  obtain ⟨compiled, hcompile, plan, hplan, halias, hstats⟩ : ∃ compiled,
      Catalog.engine.compile "card" Catalog.tradedCards ⟨0, 0⟩ = .ok compiled ∧ ∃ plan,
      JoinPlan.ofFilter Catalog.registry "card" Catalog.authoredCards = .ok plan ∧
      compiled.plan.aliasOver plan "t1" = "t2" ∧ ∃ j, plan.find? "stats" = some j :=
    ⟨_, rfl, _, rfl, rfl, _, rfl⟩
  obtain ⟨hiff, -, hwidens⟩ := Engine.compile_carries_over Catalog.engine
    Catalog.plainRelations_registry Catalog.rawFree_tradedCards hcompile hplan
  obtain ⟨c, hc⟩ := hiff.2 (by simpa [Catalog.tradedCards, JoinPlan.followed,
    JoinPlan.followedByTest, JoinPlan.childPath] using hstats)
  exact ⟨compiled, plan, c, hcompile, hplan, halias, hc, hwidens c hc⟩

end FilterQuery
