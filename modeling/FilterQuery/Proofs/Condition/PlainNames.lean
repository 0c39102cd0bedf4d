import FilterQuery.Proofs.JoinPlan.Trails
import FilterQuery.Proofs.Meaning.Compilation
import FilterQuery.Proofs.Schema.Plain
import FilterQuery.Proofs.Search.Serving

/-!
# Filters with plain names

A filter whose relations have no point in their names (`Filter.PlainNames`) cannot tell a registry
from its plain part: it obeys rules in one as in the other (`Filter.obeys_plain_iff`), and is
planned, resolved and compiled alike (`Engine.compile_plain`). What is proved of registries with
plain names alone thus holds of such filters whatever other names there are.
-/

namespace FilterQuery

variable {registry : Registry} {code name : String} {f : Filter}

/-! ## Names -/

/-- No relation on a trail has a point in its name. -/
def Trail.Plain : Trail → Prop
  | .done => True
  | .expect _ rest => rest.Plain
  | .follow name below rest => '.' ∉ name.toList ∧ below.Plain ∧ rest.Plain

theorem Trail.plain_append (t u : Trail) : (t ++ u).Plain ↔ t.Plain ∧ u.Plain := by
  induction t with
  | done => exact (iff_of_eq (true_and u.Plain)).symm
  | expect code rest ih => exact ih
  | follow name below rest _ ih =>
    rw [Trail.follow_append, Plain, Plain, ih, and_assoc, and_assoc]

/-- No relation that a filter follows has a point in its name. -/
def Filter.PlainNames (f : Filter) : Prop :=
  f.trail.Plain

namespace Filter

theorem plain_trailOfItems (fs : List Filter) :
    (trailOfItems fs).Plain ↔ ∀ f ∈ fs, f.PlainNames := by
  induction fs with
  | nil => simp [trailOfItems, Trail.Plain]
  | cons f fs ih => rw [trailOfItems, Trail.plain_append, ih, List.forall_mem_cons, PlainNames]

theorem plain_trailOfNested (ps : List (String × Filter)) :
    (trailOfNested ps).Plain ↔ ∀ p ∈ ps, '.' ∉ p.1.toList ∧ p.2.PlainNames := by
  induction ps with
  | nil => simp [trailOfNested, Trail.Plain]
  | cons p ps ih =>
    rw [trailOfNested, Trail.Plain, ih, List.forall_mem_cons, PlainNames, and_assoc]

theorem plain_trailOfTests (ts : List RelatedTest) :
    (RelatedTest.trailOfTests ts).Plain ↔ ∀ t ∈ ts, (Filter.related t).PlainNames := by
  induction ts with
  | nil => simp [RelatedTest.trailOfTests, Trail.Plain]
  | cons t ts ih =>
    rw [RelatedTest.trailOfTests, Trail.plain_append, ih, List.forall_mem_cons, PlainNames, trail]

theorem plain_trailOfOptional (f? : Option Filter) :
    (trailOfOptional f?).Plain ↔ ∀ f ∈ f?.toList, f.PlainNames := by
  cases f? with
  | none => simp [trailOfOptional, Trail.Plain]
  | some f => simp [trailOfOptional, PlainNames]

theorem plainNames_all {fs : List Filter} :
    (Filter.all fs).PlainNames ↔ ∀ f ∈ fs, f.PlainNames :=
  plain_trailOfItems fs

theorem plainNames_any {fs : List Filter} :
    (Filter.any fs).PlainNames ↔ ∀ f ∈ fs, f.PlainNames :=
  plain_trailOfItems fs

theorem plainNames_entity {ef : EntityFilter} :
    (Filter.entity ef).PlainNames ↔
      (∀ p ∈ ef.nested, '.' ∉ p.1.toList ∧ p.2.PlainNames) ∧
        (∀ t ∈ ef.related, (Filter.related t).PlainNames) ∧ (∀ f ∈ ef.all, f.PlainNames) ∧
        (∀ f ∈ ef.any, f.PlainNames) ∧ ∀ f ∈ ef.negated.toList, f.PlainNames := by
  obtain ⟨code, fields, nested, related, all, any, negated⟩ := ef
  simp only [PlainNames, trail, EntityFilter.trail, Trail.Plain, Trail.plain_append]
  rw [plain_trailOfNested, plain_trailOfTests, plain_trailOfItems, plain_trailOfItems,
    plain_trailOfOptional]
  rfl

theorem plainNames_quantified {quantifier : Quantifier} :
    (Filter.related (.quantified name quantifier f)).PlainNames ↔
      '.' ∉ name.toList ∧ f.PlainNames := by
  simp [PlainNames, trail, RelatedTest.trail, Trail.Plain]

theorem plainNames_size {op : SizeOp} {count : Nat} :
    (Filter.related (.size name op count)).PlainNames ↔ '.' ∉ name.toList := by
  simp [PlainNames, trail, RelatedTest.trail, Trail.Plain]

/-! ## Rules -/

theorem forall_and_of {α : Type} {as : List α} {P Q R : α → Prop}
    (h : ∀ a ∈ as, (P a ↔ Q a ∧ R a)) : (∀ a ∈ as, P a) ↔ (∀ a ∈ as, Q a) ∧ ∀ a ∈ as, R a := by
  rw [← forall₂_and]
  exact forall₂_congr h

/-- A filter through a relation obeys rules in the plain part of a registry if it does in the
registry and the relation has a plain name. -/
theorem exists_plain_relation {rules : Rules} (code name : String) (P : Relation → Prop)
    (ih : ∀ code, f.Obeys registry.plain rules code ↔ f.Obeys registry rules code ∧ f.PlainNames) :
    (∃ r, registry.plain.relation? code name = some r ∧ P r ∧
        f.Obeys registry.plain rules r.target) ↔
      (∃ r, registry.relation? code name = some r ∧ P r ∧ f.Obeys registry rules r.target) ∧
        '.' ∉ name.toList ∧ f.PlainNames := by
  simp only [Registry.relation?_plain_eq_some, ih]
  constructor
  · rintro ⟨r, ⟨hname, hr⟩, hP, hf, hplain⟩
    exact ⟨⟨r, hr, hP, hf⟩, hname, hplain⟩
  · rintro ⟨⟨r, hr, hP, hf⟩, hname, hplain⟩
    exact ⟨r, ⟨hname, hr⟩, hP, hf, hplain⟩

/-- In the plain part of a registry, a filter obeys rules if it does in the registry and has plain
names. -/
theorem obeys_plain_iff (rules : Rules) (f : Filter) (code : String) :
    f.Obeys registry.plain rules code ↔ f.Obeys registry rules code ∧ f.PlainNames := by
  induction f using Filter.induct generalizing code with
  | field t => simp [obeys_field, PlainNames, trail, Trail.Plain]
  | all fs ih =>
    rw [obeys_all, obeys_all, plainNames_all]
    exact forall_and_of fun f hf => ih f hf code
  | any fs ih =>
    rw [obeys_any, obeys_any, plainNames_any]
    exact forall_and_of fun f hf => ih f hf code
  | not f ih =>
    rw [obeys_not, obeys_not, ih]
    rfl
  | entity ef ihn ihr iha iho ihneg =>
    have hnested := forall_and_of fun p (hp : p ∈ ef.nested) =>
      exists_plain_relation code p.1 (fun _ => True) (ihn p.1 p.2 hp)
    simp only [true_and] at hnested
    rw [obeys_entity, obeys_entity, plainNames_entity, hnested,
      forall_and_of fun t ht => ihr t ht code, forall_and_of fun f hf => iha f hf code,
      forall_and_of fun f hf => iho f hf code,
      forall_and_of fun f hf => ihneg f (Option.mem_toList.1 hf) code]
    constructor
    · rintro ⟨hcode, hfields, ⟨hn, pn⟩, ⟨hr, pr⟩, ⟨ha, pa⟩, ⟨ho, po⟩, hneg, pneg⟩
      exact ⟨⟨hcode, hfields, hn, hr, ha, ho, hneg⟩, pn, pr, pa, po, pneg⟩
    · rintro ⟨⟨hcode, hfields, hn, hr, ha, ho, hneg⟩, pn, pr, pa, po, pneg⟩
      exact ⟨hcode, hfields, ⟨hn, pn⟩, ⟨hr, pr⟩, ⟨ha, pa⟩, ⟨ho, po⟩, hneg, pneg⟩
  | quantified name q f ih =>
    rw [obeys_quantified, obeys_quantified, plainNames_quantified]
    exact exists_plain_relation code name rules.collection ih
  | size name op n =>
    rw [obeys_size, obeys_size, plainNames_size]
    simp only [Registry.relation?_plain_eq_some]
    constructor
    · rintro ⟨r, ⟨hname, hr⟩, hmany, hn⟩
      exact ⟨⟨r, hr, hmany, hn⟩, hname⟩
    · rintro ⟨⟨r, hr, hmany, hn⟩, hname⟩
      exact ⟨r, ⟨hname, hr⟩, hmany, hn⟩
  | raw sql values => simp [obeys_raw, PlainNames, trail, Trail.Plain]

/-- Where all relations have plain names, so has every filter that fits. -/
theorem Fits.plainNames (hplain : registry.PlainRelations) (hf : f.Fits registry code) :
    f.PlainNames := by
  induction hf with
  | field _ => exact trivial
  | all _ ih => exact plainNames_all.2 ih
  | any _ ih => exact plainNames_any.2 ih
  | not _ ih => exact ih
  | entity _ _ hrel _ _ _ _ _ ihn ihr iha iho ihneg =>
    refine plainNames_entity.2 ⟨?_, ihr, iha, iho, fun f hf => ihneg f (Option.mem_toList.1 hf)⟩
    rintro ⟨name, f⟩ hf
    obtain ⟨r, hr⟩ := hrel name f hf
    exact ⟨hplain _ _ _ hr, ihn name f r hf hr⟩
  | quantified hr _ _ ih => exact plainNames_quantified.2 ⟨hplain _ _ _ hr, ih⟩
  | size hr _ _ => exact plainNames_size.2 (hplain _ _ _ hr)
  | raw _ => exact trivial

end Filter

theorem FieldTest.typed_plain {t : FieldTest} :
    FieldTest.Typed registry.plain code t ↔ FieldTest.Typed registry code t := by
  simp only [Typed, Registry.find?_plain]
  cases registry.find? code with
  | none => simp
  | some e => simp

/-- A typed filter with plain names is typed in the plain part of the registry. -/
theorem Filter.Typed.plain (hf : f.Typed registry code) (hnames : f.PlainNames) :
    f.Typed registry.plain code :=
  ((Filter.obeys_plain_iff _ f code).2 ⟨hf, hnames⟩).mono (fun _ _ ht => FieldTest.typed_plain.2 ht)
    (fun _ hmany => hmany) (fun _ hn => hn) fun _ _ hraw => hraw

/-! ## Planning -/

namespace JoinPlan

variable {scope : PlanScope} {plan : JoinPlan}

theorem visit_plain (hname : '.' ∉ name.toList) (scope : PlanScope) (plan : JoinPlan) :
    visit registry.plain name scope plan = visit registry name scope plan := by
  have hrelation : registry.plain.lookupRelation scope.entity name =
      registry.lookupRelation scope.entity name := by
    simp only [Registry.lookupRelation, Registry.lookup, Registry.find?_plain]
    cases registry.find? scope.entity with
    | none => rfl
    | some e =>
      simp only [Option.map_some, bind, Except.bind, Entity.relation?_plain, if_neg hname]
  rw [visit, visit, hrelation]
  cases registry.lookupRelation scope.entity name with
  | error error => rfl
  | ok relation =>
    simp only [bind, Except.bind, Registry.lookup, Registry.find?_plain]
    split
    · rfl
    · cases registry.find? relation.target with
      | none => rfl
      | some target => rfl

theorem addTrail_plain {t : Trail} (ht : t.Plain) (scope : PlanScope) (plan : JoinPlan) :
    addTrail registry.plain t scope plan = addTrail registry t scope plan := by
  induction t generalizing scope plan with
  | done => rfl
  | expect code rest ih =>
    rw [addTrail, addTrail, ih ht]
  | follow name below rest ihbelow ihrest =>
    obtain ⟨hname, hbelow, hrest⟩ := ht
    simp only [addTrail, visit_plain hname, ihbelow hbelow, ihrest hrest]

theorem ofFilter_plain (hnames : f.PlainNames) (root : String) :
    ofFilter registry.plain root f = ofFilter registry root f := by
  simp only [ofFilter, addFilter_eq_addTrail, addTrail_plain hnames, Registry.lookup,
    Registry.find?_plain]
  cases registry.find? root with
  | none => rfl
  | some entity => rfl

end JoinPlan

/-! ## Resolving -/

namespace Resolution

variable {other : Registry}

theorem fieldTests_congr (h : fieldOf registry = fieldOf other) (now : Instant)
    (scope : ResolveScope) (ts : List FieldTest) :
    fieldTests registry now scope ts = fieldTests other now scope ts := by
  induction ts with
  | nil => rfl
  | cons t ts ih => simp only [fieldTests, fieldTest, h, ih]

mutual

/-- Resolution asks a registry for nothing but its fields. -/
theorem filter_congr (h : fieldOf registry = fieldOf other) (plan : JoinPlan) (now : Instant) :
    ∀ (f : Filter) (scope : ResolveScope),
      filter registry plan now f scope = filter other plan now f scope
  | .field test, scope => by rw [filter, filter, fieldTest, fieldTest, h]
  | .all items, scope => by rw [filter, filter, filters_congr h plan now items]
  | .any items, scope => by rw [filter, filter, filters_congr h plan now items]
  | .not item, scope => by rw [filter, filter, filter_congr h plan now item]
  | .entity f, scope => by rw [filter, filter, entityFilter_congr h plan now f]
  | .related test, scope => by rw [filter, filter, relatedTest_congr h plan now test]
  | .raw _ _, _ => rfl

theorem entityFilter_congr (h : fieldOf registry = fieldOf other) (plan : JoinPlan)
    (now : Instant) : ∀ (f : EntityFilter) (scope : ResolveScope),
      entityFilter registry plan now f scope = entityFilter other plan now f scope
  | ⟨code, fields, nested, related, all, any, negated⟩, scope => by
    rw [entityFilter, entityFilter, fieldTests_congr h now scope fields,
      nestedFilters_congr h plan now nested, relatedTests_congr h plan now related,
      filters_congr h plan now all, filters_congr h plan now any,
      negatedFilter_congr h plan now negated]

theorem relatedTest_congr (h : fieldOf registry = fieldOf other) (plan : JoinPlan)
    (now : Instant) : ∀ (t : RelatedTest) (scope : ResolveScope),
      relatedTest registry plan now t scope = relatedTest other plan now t scope
  | .quantified name q f, scope => by
    simp only [relatedTest, filter_congr h plan now f]
  | .size _ _ _, _ => rfl

theorem filters_congr (h : fieldOf registry = fieldOf other) (plan : JoinPlan) (now : Instant) :
    ∀ (fs : List Filter) (scope : ResolveScope),
      filters registry plan now fs scope = filters other plan now fs scope
  | [], _ => rfl
  | f :: fs, scope => by
    simp only [filters, filter_congr h plan now f, filters_congr h plan now fs]

theorem nestedFilters_congr (h : fieldOf registry = fieldOf other) (plan : JoinPlan)
    (now : Instant) : ∀ (fs : List (String × Filter)) (scope : ResolveScope),
      nestedFilters registry plan now fs scope = nestedFilters other plan now fs scope
  | [], _ => rfl
  | (name, f) :: fs, scope => by
    simp only [nestedFilters, filter_congr h plan now f, nestedFilters_congr h plan now fs]

theorem relatedTests_congr (h : fieldOf registry = fieldOf other) (plan : JoinPlan)
    (now : Instant) : ∀ (ts : List RelatedTest) (scope : ResolveScope),
      relatedTests registry plan now ts scope = relatedTests other plan now ts scope
  | [], _ => rfl
  | t :: ts, scope => by
    simp only [relatedTests, relatedTest_congr h plan now t, relatedTests_congr h plan now ts]

theorem negatedFilter_congr (h : fieldOf registry = fieldOf other) (plan : JoinPlan)
    (now : Instant) : ∀ (f? : Option Filter) (scope : ResolveScope),
      negatedFilter registry plan now f? scope = negatedFilter other plan now f? scope
  | none, _ => rfl
  | some f, scope => by
    simp only [negatedFilter, filter_congr h plan now f]

end

theorem fieldOf_plain : fieldOf registry.plain = fieldOf registry := by
  funext code name
  rw [fieldOf, fieldOf, Registry.find?_plain]
  cases registry.find? code with
  | none => rfl
  | some e => simp only [Option.map_some, Entity.field?_plain]

end Resolution

/-! ## Engines -/

/-- An engine for the plain part of the registry. -/
def Engine.plain (e : Engine) : Engine :=
  { e with registry := e.registry.plain, closed := Registry.validate_plain e.closed }

/-- A filter with plain names compiles alike for the plain part of the registry. -/
theorem Engine.compile_plain (e : Engine) (hnames : f.PlainNames) (root : String) (now : Instant) :
    e.plain.compile root f now = e.compile root f now := by
  have hplan : JoinPlan.ofFilter e.plain.registry root f = JoinPlan.ofFilter e.registry root f :=
    JoinPlan.ofFilter_plain hnames root
  have hresolve : ∀ plan : JoinPlan, f.resolve e.plain.registry plan now =
      f.resolve e.registry plan now :=
    fun plan => Resolution.filter_congr Resolution.fieldOf_plain plan now f _
  rw [compile, compile, hplan]
  simp only [hresolve]

/-- A typed filter with plain names can be compiled if its tests on fields can, whatever other names
there are. -/
theorem Engine.compile_ok_iff_of_plainNames (e : Engine) {root : String} {entity : Entity}
    (hroot : e.registry.find? root = some entity) (hf : f.Typed e.registry root)
    (hnames : f.PlainNames) {now : Instant} :
    (∃ compiled, e.compile root f now = .ok compiled) ↔
      f.Obeys e.registry.plain (.resolvable e.registry.plain now) root := by
  have hroot' : e.plain.registry.find? root = some entity.plain := by
    rw [plain, Registry.find?_plain, hroot]
    rfl
  rw [← e.compile_plain hnames]
  exact e.plain.compile_ok_iff hroot' (Registry.plainRelations_plain e.registry) (hf.plain hnames)

/-! ## Databases -/

section

variable {Cell : Type} {db : Database Cell}

namespace Database

theorem rowsOf_plain (db : Database Cell) (code : String) :
    db.rowsOf registry.plain code = db.rowsOf registry code := by
  rw [rowsOf, rowsOf, Registry.find?_plain]
  cases registry.find? code with
  | none => rfl
  | some e => rfl

/-- Relations that lead to at most one row do so in the plain part of the registry. -/
theorem SingleValued.plain (h : db.SingleValued registry) : db.SingleValued registry.plain := by
  intro code name relation hrelation hone row hrow
  rw [rowsOf_plain] at hrow
  rw [relatedRows, rowsOf_plain]
  exact h code name relation (Registry.within_plain registry _ _ _ hrelation) hone row hrow

end Database

end

end FilterQuery
