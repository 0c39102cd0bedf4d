import FilterQuery.Proofs.Condition.PlainNames
import FilterQuery.Proofs.Filter.Respelling

/-!
# Searching with either spelling

That some row of a collection satisfies a filter is a filter of the relation in one spelling
(`Filter.through`) and a test on the collection in the other one (`Filter.someRow`). By themselves,
both compile to the same plan and the same condition (`Engine.compile_someRow`). Among other parts
of a filter they may not: the two stand in different slots, so that joins get other numbers and
conditions another order. There, both spellings compile or neither does, and what they compile to
selects the same rows (`Engine.spellings_agree`).
-/

namespace FilterQuery

section

variable {registry : Registry} {code name : String} {relation : Relation} {entity : Entity}
  {plan : JoinPlan} {now : Instant}

/-- The filter of an entity that holds for the rows some of whose related ones satisfy a filter. -/
def Filter.someRow (source name : String) (filter : Filter) : Filter :=
  .entity { EntityFilter.everything source with related := [.quantified name .any filter] }

/-! ## One plan -/

theorem Filter.trail_through (code name : String) (f : Filter) :
    (f.through code name).trail = .expect code (.follow name f.trail .done) :=
  rfl

theorem Filter.trail_someRow (code name : String) (f : Filter) :
    (f.someRow code name).trail = .expect code (.follow name f.trail .done) :=
  rfl

namespace JoinPlan

theorem ofFilter_someRow (registry : Registry) (root code name : String) (f : Filter) :
    ofFilter registry root (f.someRow code name) =
      ofFilter registry root (f.through code name) := by
  simp only [ofFilter, addFilter_eq_addTrail, Filter.trail_someRow, Filter.trail_through]

/-- In the plan of a filter through a relation, the name of the relation is the path of its join,
whatever points there are in names: the join was planned first. -/
theorem find?_of_ofFilter_through (hrelation : registry.relation? code name = some relation)
    {f : Filter} (h : ofFilter registry code (f.through code name) = .ok plan) :
    ∃ j, plan.find? name = some j ∧ j.relation = relation := by
  obtain ⟨entity, hentity, h⟩ := bind_eq_ok.1 h
  have hcode := Registry.code_of_find? (Registry.lookup_eq_ok.1 hentity)
  have hroot : (start entity).rootScope.entity = code := hcode
  rw [addFilter_eq_addTrail, Filter.trail_through, addTrail, if_neg (not_not_intro hroot.symm)] at h
  simp only [addTrail, bind_eq_ok] at h
  obtain ⟨⟨child, first⟩, hvisit, second, hbelow, hdone⟩ := h
  obtain rfl := Except.ok.inj hdone
  simp only [visit, hroot, Registry.lookupRelation_eq_ok.2 hrelation, bind, Except.bind] at hvisit
  obtain ⟨target, -, hfirst⟩ := bind_eq_ok.1 hvisit
  obtain ⟨j, hpath, hsame, rfl⟩ : ∃ j : PlannedJoin, j.path = name ∧ j.relation = relation ∧
      first = (start entity).push j :=
    ⟨_, rfl, rfl, (Prod.mk.inj (Except.ok.inj hfirst)).2.symm⟩
  have hfind : ((start entity).push j).find? name = some j :=
    List.find?_cons_of_pos (beq_iff_eq.2 hpath)
  exact ⟨j, (addTrail_isStageOf hbelow).2.find?_eq_some hfind, hsame⟩

end JoinPlan

/-! ## One condition -/

/-- Where the join of a relation to many rows is planned, both spellings become one condition. -/
theorem Resolution.filter_someRow {scope : ResolveScope} {j : PlannedJoin}
    (hfind : plan.find? (JoinPlan.childPath scope.path name) = some j)
    (hmany : j.relation.isMany = true) (f : Filter) :
    filter registry plan now (f.someRow code name) scope =
      filter registry plan now (f.through code name) scope := by
  let inside : ResolveScope := ⟨j.target, some (JoinPlan.childPath scope.path name), j.aliasName⟩
  have hchild : child plan name scope = .ok (j, inside) := by
    rw [child, hfind]
  have hcollection : collection plan name scope = child plan name scope := by
    rw [collection, hchild]
    exact if_pos hmany
  simp only [Filter.someRow, Filter.through, EntityFilter.everything, filter, entityFilter,
    nestedFilters, relatedTests, relatedTest, hcollection, hchild, nestedCondition, if_pos hmany,
    quantified, bind, Except.bind, fieldTests]
  split
  · rfl
  · cases filter registry plan now f inside with
    | error error => rfl
    | ok inner => rfl

/-- Both spellings compile to the same, or fail alike. -/
theorem Engine.compile_someRow (e : Engine)
    (hrelation : e.registry.relation? code name = some relation)
    (hmany : relation.isMany = true) (f : Filter) (now : Instant) :
    e.compile code (f.someRow code name) now = e.compile code (f.through code name) now := by
  rw [compile, compile, JoinPlan.ofFilter_someRow]
  cases hplan : JoinPlan.ofFilter e.registry code (f.through code name) with
  | error error => rfl
  | ok plan =>
    obtain ⟨j, hfind, rfl⟩ := JoinPlan.find?_of_ofFilter_through hrelation hplan
    have hresolve : (f.someRow code name).resolve e.registry plan now =
        (f.through code name).resolve e.registry plan now :=
      Resolution.filter_someRow hfind hmany f
    simp only [bind, Except.bind, hresolve]

/-- The two spellings by themselves are read as the two filters, of one filter of the target. -/
theorem Filter.ofJson_spelled {limits : FilterLimits} {members : List (String × Json)}
    (hentity : registry.find? code = some entity) (hword : isLogicalWord name = false)
    (hrelation : entity.relation? name = some relation)
    (hkeyword : ∀ m ∈ members, isCollectionKeyword m.1 = false) {f g : Filter}
    (hf : ofJson registry limits (some code) (.through name (.object members)) = .ok f)
    (hg : ofJson registry limits (some code) (.through name (.someRow (.object members))) = .ok g) :
    ∃ inner : Filter, f = inner.through code name ∧ g = inner.someRow code name := by
  obtain ⟨p, hp, rfl⟩ := (ofJson_eq_ok hentity).1 hf
  obtain ⟨q, hq, rfl⟩ := (ofJson_eq_ok hentity).1 hg
  rw [FilterDocument.readFilter_relation hword hrelation] at hp hq
  obtain ⟨part, hpart, rfl⟩ := map_eq_ok.1 hp
  obtain ⟨part', hpart', rfl⟩ := map_eq_ok.1 hq
  obtain ⟨inner, hnested, hrelated⟩ := FilterDocument.readRelation_spelled hkeyword hpart hpart'
  refine ⟨inner, ?_, ?_⟩
  · simp only [hnested, Registry.code_of_find? hentity]
    rfl
  · simp only [hrelated, Registry.code_of_find? hentity]
    rfl

/-! ## Equivalent filters -/

/-- Two compiled filters that select the same rows, since for each row of the root the conditions
have the same truth value, on every database in which single-valued relations lead to at most one
row. -/
def CompiledFilter.SelectsLike (registry : Registry) (c c' : CompiledFilter) : Prop :=
  ∀ {Cell : Type} (db : Database Cell), db.SingleValued registry →
    (c.environments db).map (fun env => (env JoinPlan.rootAlias, c.condition.eval db env)) =
      (c'.environments db).map (fun env => (env JoinPlan.rootAlias, c'.condition.eval db env)) ∧
    c.select db = c'.select db

namespace Filter.Equivalent

variable {f g : Filter}

/-- Filters that are equivalent as far as relations have plain names have plain names both, or
neither has. -/
theorem plainNames_iff (h : f.Equivalent registry.plain code g) (hf : f.Fits registry code)
    (hg : g.Fits registry code) : f.PlainNames ↔ g.PlainNames := by
  have hfits := h.obeys .lax fun _ _ => trivial
  rw [obeys_plain_iff, obeys_plain_iff, and_iff_right hf, and_iff_right hg] at hfits
  exact hfits

variable {e : Engine} (h : f.Equivalent e.registry.plain code g)
  (hf : f.Typed e.registry code) (hg : g.Typed e.registry code) (hnames : f.PlainNames)

include h hf hg hnames

/-- Equivalent typed filters with plain names can be compiled at the same instants. -/
theorem compile_ok_iff (hentity : e.registry.find? code = some entity) (now : Instant) :
    (∃ compiled, e.compile code f now = .ok compiled) ↔
      ∃ compiled, e.compile code g now = .ok compiled := by
  have hnames' := (h.plainNames_iff hf.fits hg.fits).1 hnames
  rw [e.compile_ok_iff_of_plainNames hentity hf hnames,
    e.compile_ok_iff_of_plainNames hentity hg hnames']
  exact h.obeys _ fun _ hmany => hmany

/-- What they compile to selects the same rows. -/
theorem selectsLike {now : Instant} {c c' : CompiledFilter}
    (hc : e.compile code f now = .ok c) (hc' : e.compile code g now = .ok c') :
    c.SelectsLike e.registry c' := by
  have hnames' := (h.plainNames_iff hf.fits hg.fits).1 hnames
  have hplain := Registry.plainRelations_plain e.registry
  rw [← e.compile_plain hnames] at hc
  rw [← e.compile_plain hnames'] at hc'
  intro Cell db hsingle
  obtain ⟨root, hroot, htruths, hrows⟩ :=
    e.plain.compile_selects hplain hsingle.plain hf.everyPiece hc
  obtain ⟨root', hroot', htruths', hrows'⟩ :=
    e.plain.compile_selects hplain hsingle.plain hg.everyPiece hc'
  cases hroot.symm.trans hroot'
  have hmeaning : ∀ row, f.meaning e.plain.registry db now code row =
      g.meaning e.plain.registry db now code row := h.meaning db now
  simp only [hmeaning] at htruths hrows
  exact ⟨htruths.trans htruths'.symm, hrows.trans hrows'.symm⟩

end Filter.Equivalent

/-! ## Documents -/

/-- Where limits leave room for two documents, both are accepted for an entity or neither. -/
def Registry.AcceptsAlike (registry : Registry) (code : String) (json json' : Json) : Prop :=
  ∀ limits : FilterLimits,
    json.depth ≤ limits.maxDepth + 1 → json.memberCount ≤ limits.maxConditions →
    json'.depth ≤ limits.maxDepth + 1 → json'.memberCount ≤ limits.maxConditions →
    ((∃ f, Filter.ofJson registry limits (some code) json = .ok f) ↔
      ∃ g, Filter.ofJson registry limits (some code) json' = .ok g)

theorem RespelledFilter.acceptsAlike {json json' : Json}
    (h : RespelledFilter registry entity json json') (hentity : registry.find? code = some entity) :
    registry.AcceptsAlike code json json' :=
  fun _ hdepth hcount hdepth' hcount' => h.accepted_iff hentity hdepth hdepth' hcount hcount'

/-- Filtering a collection directly asks for some row of it. Of a relation to many rows, a document
whose one member is a filter of the relation and the document with the keyword `any` before that
filter are accepted alike, and compile to one plan and one condition at every instant, whatever
points there are in names. In any place of a larger document, one spelling may replace the other:
the documents are accepted alike, and what they are read as means the same of every row; if the
relations that it follows have plain names, it compiles for both or for neither, certainly at a
central instant, and selects the same rows. -/
theorem Engine.spellings_agree (e : Engine) (hentity : e.registry.find? code = some entity) :
    (∀ (name : String) (relation : Relation) (members : List (String × Json)),
      isLogicalWord name = false → entity.relation? name = some relation →
      relation.isMany = true → (∀ m ∈ members, isCollectionKeyword m.1 = false) →
      e.registry.AcceptsAlike code (.through name (.object members))
          (.through name (.someRow (.object members))) ∧
        ∀ limits f g,
          Filter.ofJson e.registry limits (some code) (.through name (.object members)) = .ok f →
          Filter.ofJson e.registry limits (some code)
            (.through name (.someRow (.object members))) = .ok g →
          (∃ plan, JoinPlan.ofFilter e.registry code f = .ok plan ∧
            JoinPlan.ofFilter e.registry code g = .ok plan) ∧
          ∀ now, e.compile code f now = e.compile code g now) ∧
    ∀ json json', RespelledFilter e.registry entity json json' →
      e.registry.AcceptsAlike code json json' ∧
        ∀ limits f g, Filter.ofJson e.registry limits (some code) json = .ok f →
          Filter.ofJson e.registry limits (some code) json' = .ok g →
          (∀ {Cell : Type} (db : Database Cell) (now : Instant) (row : Row Cell),
            f.meaning e.registry db now code row = g.meaning e.registry db now code row) ∧
          (f.PlainNames ↔ g.PlainNames) ∧
          (f.PlainNames → ∀ now,
            (now.Central → ∃ compiled, e.compile code f now = .ok compiled) ∧
            ((∃ compiled, e.compile code f now = .ok compiled) ↔
              ∃ compiled, e.compile code g now = .ok compiled) ∧
            ∀ c c', e.compile code f now = .ok c → e.compile code g now = .ok c' →
              c.SelectsLike e.registry c') := by
  constructor
  · intro name relation members hword hrelation hmany hkeyword
    have hspelled : RespelledFilter e.registry entity (.through name (.object members))
        (.through name (.someRow (.object members))) :=
      .member [] [] (.spelled hword hrelation hmany hkeyword)
    have hdeclared := Registry.relation?_eq_some.2 ⟨entity, hentity, hrelation⟩
    refine ⟨hspelled.acceptsAlike hentity, fun limits f g hf hg => ?_⟩
    have hfits := ((Filter.ofJson_safe e.closed hentity limits _).of_ok hf).fits
    obtain ⟨plan, hplan⟩ := JoinPlan.ofFilter_ok e.closed hentity hfits
    obtain ⟨inner, rfl, rfl⟩ := Filter.ofJson_spelled hentity hword hrelation hkeyword hf hg
    refine ⟨⟨plan, hplan, ?_⟩, fun now => (e.compile_someRow hdeclared hmany inner now).symm⟩
    rw [JoinPlan.ofFilter_someRow, hplan]
  · intro json json' hrespelled
    refine ⟨hrespelled.acceptsAlike hentity, fun limits f g hf hg => ?_⟩
    have hftyped := (Filter.ofJson_safe e.closed hentity limits _).of_ok hf
    have hgtyped := (Filter.ofJson_safe e.closed hentity limits _).of_ok hg
    have hsame := hrespelled.equivalent hentity (Registry.within_refl e.registry) hf hg
    have hplain := hrespelled.equivalent hentity (Registry.within_plain e.registry) hf hg
    refine ⟨hsame.meaning, hplain.plainNames_iff hftyped.fits hgtyped.fits, ?_⟩
    intro hnames now
    refine ⟨fun hcentral => ?_, hplain.compile_ok_iff hftyped hgtyped hnames hentity now,
      fun c c' hc hc' => hplain.selectsLike hftyped hgtyped hnames hc hc'⟩
    rw [e.compile_ok_iff_of_plainNames hentity hftyped hnames]
    exact (hftyped.plain hnames).resolvable hcentral

end

namespace Catalog

/-- Cards that some collection holds in a locked state, with a condition on their statistics. -/
def lockedCards (stats : Json) : Json :=
  .object [("summary", .someRow (.object [("state", .object [("eq", .text "LOCKED")])])),
    ("stats", stats)]

/-- Statistics of large collections of cards that are looked for. -/
def soughtStats : Json :=
  .object [("collection", .object [("eq", .text "NEED")]), ("count", .object [("gt", .integer 9)])]

/-- Beside another test on a collection, the two spellings are planned in different orders. -/
theorem spellings_agree_cards :
    (∃ f g, Filter.ofJson registry .default (some "card") (.through "stats" soughtStats) = .ok f ∧
      Filter.ofJson registry .default (some "card") (.through "stats" (.someRow soughtStats)) =
        .ok g ∧ engine.compile "card" f ⟨0, 0⟩ = engine.compile "card" g ⟨0, 0⟩) ∧
    ∃ f g c c', Filter.ofJson registry .default (some "card") (lockedCards soughtStats) = .ok f ∧
      Filter.ofJson registry .default (some "card") (lockedCards (.someRow soughtStats)) = .ok g ∧
      engine.compile "card" f ⟨0, 0⟩ = .ok c ∧ engine.compile "card" g ⟨0, 0⟩ = .ok c' ∧
      c.plan ≠ c'.plan ∧ c.SelectsLike registry c' := by
  have hcard : registry.find? "card" = some card := rfl
  obtain ⟨hdirect, hinside⟩ := Engine.spellings_agree engine hcard
  have hkeyword : ∀ m ∈ [("collection", Json.object [("eq", .text "NEED")]),
      ("count", .object [("gt", .integer 9)])], isCollectionKeyword m.1 = false := by
    decide
  constructor
  · obtain ⟨-, hcompile⟩ := hdirect "stats" ⟨"card_users_stats", .many, [("card_id", "card_id")]⟩ _
      rfl rfl rfl hkeyword
    obtain ⟨-, hsame⟩ := hcompile .default _ _ rfl rfl
    exact ⟨_, _, rfl, rfl, hsame ⟨0, 0⟩⟩
  · have hrespelled : RespelledFilter registry card (lockedCards soughtStats)
        (lockedCards (.someRow soughtStats)) :=
      .member [_] [] (.spelled rfl rfl rfl hkeyword)
    obtain ⟨f, hf⟩ : ∃ f, Filter.ofJson registry .default (some "card")
        (lockedCards soughtStats) = .ok f := ⟨_, rfl⟩
    have hnames := (Filter.ofJson_safe validate_registry hcard .default _).of_ok hf
      |>.fits.plainNames plainRelations_registry
    obtain ⟨-, hread⟩ := hinside _ _ hrespelled
    obtain ⟨-, -, hselect⟩ := hread .default f _ hf rfl
    obtain ⟨-, -, hlike⟩ := hselect hnames ⟨0, 0⟩
    cases hf
    exact ⟨_, _, _, _, rfl, rfl, rfl, rfl, by decide, hlike _ _ rfl rfl⟩

end Catalog

end FilterQuery
