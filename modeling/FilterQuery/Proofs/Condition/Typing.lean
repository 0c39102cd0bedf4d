import FilterQuery.Proofs.Condition.Lookups
import FilterQuery.Proofs.Condition.Resolving
import FilterQuery.Proofs.JoinPlan.Levels
import FilterQuery.Proofs.Kinds
import FilterQuery.Proofs.Meaning.FieldTests
import FilterQuery.Proofs.Schema.Catalog

/-!
# Types of conditions

A condition is well typed when every test in it can be traced to a test of the filter on a field,
when its column is the one in which the entity of its alias stores this field, and when its values
belong to the kind of the field. Patterns are matched with texts only, order is asked for only
where there is one, a list of values has a member, and a number of rows is one of 64 bits and
counts the rows of a collection.

A filter need not come from a document, so nothing is known of the operators and operands in it.
It is resolution that refuses what does not fit (`Resolution.operandTest_wellTyped`), and whatever
it makes of a filter without pieces of SQL is well typed (`Engine.compile_wellTyped`).
-/

namespace FilterQuery

/-! ## Tests of filters -/

/-- A filter has a test on a field, at any depth. -/
inductive Filter.HasTest (t : FieldTest) : Filter → Prop
  | field : HasTest t (.field t)
  | inEntity {ef : EntityFilter} : t ∈ ef.fields → HasTest t (.entity ef)
  | part {f g : Filter} : f.PartOf g → HasTest t f → HasTest t g
  | across {name : String} {f g : Filter} : f.PartAcross name g → HasTest t f → HasTest t g

theorem Filter.eq_of_hasTest_field {t u : FieldTest} (h : (Filter.field t).HasTest u) : u = t := by
  cases h with
  | field => rfl
  | part hpart _ => cases hpart
  | across hpart _ => cases hpart

/-- The pattern of a test, and whether it is escaped: the operand as it is given, or the pattern of
the texts that hold the operand literally, which is the one that is escaped. -/
inductive FieldTest.HasPattern (t : FieldTest) : String → Bool → Prop
  | given {s : String} : t.op = .like ∨ t.op = .ilike ∨ t.op = .notLike →
      t.operand = .single (.text s) → HasPattern t s false
  | anywhere {s : String} : t.op = .contains ∨ t.op = .icontains ∨ t.op = .notContains →
      t.operand = .single (.text s) → HasPattern t (LikePattern.literalText .anywhere s) true
  | atStart {s : String} : t.op = .startsWith → t.operand = .single (.text s) →
      HasPattern t (LikePattern.literalText .atStart s) true
  | atEnd {s : String} : t.op = .endsWith → t.operand = .single (.text s) →
      HasPattern t (LikePattern.literalText .atEnd s) true

/-! ## Kinds and comparisons -/

/-- Whether the values of a kind have an order. -/
def ValueKind.IsOrdered (kind : ValueKind) : Prop :=
  kind = .integer ∨ kind = .float ∨ kind = .datetime

/-- Whether a comparison asks for the order of values. -/
def Comparison.AsksOrder (op : Comparison) : Prop :=
  op ≠ .eq ∧ op ≠ .ne

namespace Operator

theorem eq_datetime_of_supports {op : Operator} {kind : ValueKind} (hop : op.isRelativeDate = true)
    (h : op.supports kind = true) : kind = .datetime := by
  cases kind with
  | datetime => rfl
  | _ => cases op <;> cases hop <;> cases h

theorem eq_text_of_supports {op : Operator} {kind : ValueKind} (hop : op.isPattern = true)
    (h : op.supports kind = true) : kind = .text := by
  cases kind with
  | text => rfl
  | _ => cases op <;> cases hop <;> cases h

theorem isOrdered_of_supports_between {kind : ValueKind} (h : between.supports kind = true) :
    kind.IsOrdered := by
  cases kind with
  | integer => exact Or.inl rfl
  | float => exact Or.inr (Or.inl rfl)
  | datetime => exact Or.inr (Or.inr rfl)
  | _ => cases h

theorem isOrdered_of_supports {op : Operator} {kind : ValueKind} {comparison : Comparison}
    (hop : Resolution.comparison? op = some comparison) (horder : comparison.AsksOrder)
    (h : op.supports kind = true) : kind.IsOrdered := by
  cases kind with
  | integer => exact Or.inl rfl
  | float => exact Or.inr (Or.inl rfl)
  | datetime => exact Or.inr (Or.inr rfl)
  | _ =>
    -- what is left to texts and names are the two tests of equality
    cases op <;> cases h <;> cases hop
    all_goals simp [Comparison.AsksOrder] at horder

end Operator

/-! ## Well-typed conditions -/

/-- A column is the one in which the entity that its alias stands for stores a field. -/
def ColumnRef.Stores (registry : Registry) (plan : JoinPlan) (c : ColumnRef) (name : String)
    (kind : ValueKind) : Prop :=
  ∃ code e, plan.entityOf? c.aliasName = some code ∧ registry.find? code = some e ∧
    e.field? name = some ⟨c.column, kind⟩

/-- One of some tests is a test on a column: its field is stored there, and the kind of the field
has its operator. -/
structure FieldTest.On (registry : Registry) (plan : JoinPlan) (tests : FieldTest → Prop)
    (column : ColumnRef) (kind : ValueKind) (t : FieldTest) : Prop where
  given : tests t
  stores : column.Stores registry plan t.field kind
  supports : t.op.supports kind = true

/-- One of some tests is a test on a column, and has a further property together with the kind of
its field. -/
def ColumnRef.TestedBy (registry : Registry) (plan : JoinPlan) (tests : FieldTest → Prop)
    (c : ColumnRef) (p : FieldTest → ValueKind → Prop) : Prop :=
  ∃ t kind, t.On registry plan tests c kind ∧ p t kind

/-- A subquery ranges over the rows that a relation to many rows leads to from an alias. -/
def Subquery.OfCollection (registry : Registry) (plan : JoinPlan) (s : Subquery) : Prop :=
  ∃ parent code name relation target, plan.entityOf? parent = some code ∧
    registry.relation? code name = some relation ∧ relation.isMany = true ∧
    plan.entityOf? s.aliasName = some relation.target ∧
    registry.find? relation.target = some target ∧ s.table = target.table ∧
    s.correlation = columnsMatch relation.columns parent s.aliasName

/-- A condition in which everything is of the type that its place asks for, as far as it stems from
tests with a property. Nothing is known of a piece of SQL, so it is never well typed. -/
inductive Condition.WellTyped (registry : Registry) (plan : JoinPlan) (tests : FieldTest → Prop) :
    Condition → Prop
  | always : WellTyped registry plan tests .always
  | never : WellTyped registry plan tests .never
  | compare {column : ColumnRef} {op : Comparison} {value : Parameter} :
      column.TestedBy registry plan tests
        (fun _ kind => kind.Admits value ∧ (op.AsksOrder → kind.IsOrdered)) →
      WellTyped registry plan tests (.compare column op value)
  | sameColumns (left right : ColumnRef) : WellTyped registry plan tests (.sameColumns left right)
  | between {column : ColumnRef} {low high : Parameter} :
      column.TestedBy registry plan tests
        (fun _ kind => kind.Admits low ∧ kind.Admits high ∧ kind.IsOrdered) →
      WellTyped registry plan tests (.between column low high)
  | like {column : ColumnRef} {pattern : String} {ignoreCase escaped negated : Bool} :
      column.TestedBy registry plan tests
        (fun t kind => kind = .text ∧ t.HasPattern pattern escaped) →
      WellTyped registry plan tests (.like column pattern ignoreCase escaped negated)
  | isIn {column : ColumnRef} {values : List Parameter} {negated : Bool} : values ≠ [] →
      column.TestedBy registry plan tests (fun _ kind => ∀ v ∈ values, kind.Admits v) →
      WellTyped registry plan tests (.isIn column values negated)
  | isNull {column : ColumnRef} {negated : Bool} :
      column.TestedBy registry plan tests (fun _ _ => True) →
      WellTyped registry plan tests (.isNull column negated)
  | all {items : List Condition} : (∀ c ∈ items, WellTyped registry plan tests c) →
      WellTyped registry plan tests (.all items)
  | any {items : List Condition} : (∀ c ∈ items, WellTyped registry plan tests c) →
      WellTyped registry plan tests (.any items)
  | not {item : Condition} : WellTyped registry plan tests item →
      WellTyped registry plan tests (.not item)
  | notTrue {item : Condition} : WellTyped registry plan tests item →
      WellTyped registry plan tests (.notTrue item)
  | hasRow {subquery : Subquery} {negated : Bool} : subquery.OfCollection registry plan →
      (∀ j ∈ subquery.joins, WellTyped registry plan tests j.on) →
      WellTyped registry plan tests subquery.correlation →
      WellTyped registry plan tests subquery.filter →
      WellTyped registry plan tests (.hasRow subquery negated)
  | rowCount {subquery : Subquery} {op : Comparison} {count : Int} :
      subquery.OfCollection registry plan → 0 ≤ count → count ≤ maxInt64 →
      (∀ j ∈ subquery.joins, WellTyped registry plan tests j.on) →
      WellTyped registry plan tests subquery.correlation →
      WellTyped registry plan tests subquery.filter →
      WellTyped registry plan tests (.rowCount subquery op count)

namespace Condition

variable {registry : Registry} {plan : JoinPlan} {tests : FieldTest → Prop}

theorem wellTyped_allOf {cs : List Condition} (h : ∀ c ∈ cs, c.WellTyped registry plan tests) :
    (allOf cs).WellTyped registry plan tests := by
  match cs with
  | [] => exact .always
  | [c] => exact h c List.mem_cons_self
  | c :: d :: cs => exact .all h

theorem wellTyped_anyOf {cs : List Condition} (h : ∀ c ∈ cs, c.WellTyped registry plan tests) :
    (anyOf cs).WellTyped registry plan tests := by
  match cs with
  | [] => exact .never
  | [c] => exact h c List.mem_cons_self
  | c :: d :: cs => exact .any h

theorem wellTyped_columnsMatch (columns : List (String × String)) (source target : String) :
    (columnsMatch columns source target).WellTyped registry plan tests := by
  refine wellTyped_allOf fun c hc => ?_
  obtain ⟨p, -, rfl⟩ := List.mem_map.1 hc
  exact .sameColumns _ _

end Condition

/-! ## What tests become -/

namespace Resolution

section

variable {registry : Registry} {plan : JoinPlan} {tests : FieldTest → Prop} {now : Instant}
  {t : FieldTest} {kind : ValueKind} {column : ColumnRef} {c : Condition}

theorem window_wellTyped (ht : t.On registry plan tests column kind)
    (hop : t.op.isRelativeDate = true) (op : Comparison) (time : Instant) :
    (Condition.compare column op (.timestamp time)).WellTyped registry plan tests := by
  obtain rfl := Operator.eq_datetime_of_supports hop ht.supports
  exact .compare ⟨t, _, ht, .datetime time, fun _ => Or.inr (Or.inr rfl)⟩

theorem windowCondition_wellTyped (ht : t.On registry plan tests column kind)
    (hop : t.op.isRelativeDate = true) (start stop : Instant) :
    (Window.condition column start stop).WellTyped registry plan tests :=
  .all (List.forall_mem_cons.2 ⟨window_wellTyped ht hop _ _,
    List.forall_mem_singleton.2 (window_wellTyped ht hop _ _)⟩)

theorem ofOperator_wellTyped (ht : t.On registry plan tests column kind)
    (hop : t.op.isRelativeDate = true) (h : Window.ofOperator t.op now column = .ok c) :
    c.WellTyped registry plan tests := by
  rw [Window.ofOperator] at h
  split at h
  · obtain rfl := Except.ok.inj h
    exact windowCondition_wellTyped ht hop _ _
  · cases h
  · cases h

/-- A pattern is that of its test, and is escaped when it is made from a literal text. -/
theorem patternTest_hasPattern {text : String} (hoperand : t.operand = .single (.text text))
    (hop : t.op.isPattern = true) (h : patternTest t column text = .ok c) :
    ∃ pattern ignoreCase escaped negated, t.HasPattern pattern escaped ∧
      c = .like column pattern ignoreCase escaped negated := by
  obtain ⟨field, op, operand⟩ := t
  have hgiven : op = .like ∨ op = .ilike ∨ op = .notLike →
      FieldTest.HasPattern ⟨field, op, operand⟩ text false := fun hop => .given hop hoperand
  have hanywhere : op = .contains ∨ op = .icontains ∨ op = .notContains →
      FieldTest.HasPattern ⟨field, op, operand⟩ (LikePattern.literalText .anywhere text) true :=
    fun hop => .anywhere hop hoperand
  cases op <;> cases hop <;> obtain rfl := Except.ok.inj h
  case like => exact ⟨_, _, _, _, hgiven (by simp), rfl⟩
  case ilike => exact ⟨_, _, _, _, hgiven (by simp), rfl⟩
  case notLike => exact ⟨_, _, _, _, hgiven (by simp), rfl⟩
  case contains => exact ⟨_, _, _, _, hanywhere (by simp), rfl⟩
  case icontains => exact ⟨_, _, _, _, hanywhere (by simp), rfl⟩
  case notContains => exact ⟨_, _, _, _, hanywhere (by simp), rfl⟩
  case startsWith => exact ⟨_, _, _, _, .atStart rfl hoperand, rfl⟩
  case endsWith => exact ⟨_, _, _, _, .atEnd rfl hoperand, rfl⟩

theorem singleTest_wellTyped (ht : t.On registry plan tests column kind) {value : Value}
    (hoperand : t.operand = .single value) (h : singleTest now t kind column value = .ok c) :
    c.WellTyped registry plan tests := by
  unfold singleTest at h
  split at h
  · obtain rfl := Except.ok.inj h
    exact .isNull ⟨t, kind, ht, trivial⟩
  · rename_i days hop
    have hrelative : t.op.isRelativeDate = true := by rw [hop]; rfl
    rw [Window.lastDays] at h
    split at h
    · obtain rfl := Except.ok.inj h
      exact windowCondition_wellTyped ht hrelative _ _
    · cases h
  · rename_i days hop
    have hrelative : t.op.isRelativeDate = true := by rw [hop]; rfl
    rw [Window.olderThan] at h
    split at h
    · obtain rfl := Except.ok.inj h
      exact window_wellTyped ht hrelative _ _
    · cases h
  · split at h
    · have hop : t.op.isPattern = true := by assumption
      obtain ⟨pattern, ignoreCase, escaped, negated, hpattern, rfl⟩ :=
        patternTest_hasPattern hoperand hop h
      exact .like ⟨t, kind, ht, Operator.eq_text_of_supports hop ht.supports, hpattern⟩
    · split at h
      · cases h
      · rename_i comparison hcomparison
        obtain ⟨p, hp, rfl⟩ := map_eq_ok.1 h
        exact .compare ⟨t, kind, ht,
          ValueKind.admits_coerce (parameter_eq_ok.1 hp),
          fun horder => Operator.isOrdered_of_supports hcomparison horder ht.supports⟩

theorem admits_of_parameters {values : List Value} {ps : List Parameter}
    (h : parameters t kind values = .ok ps) : ∀ p ∈ ps, kind.Admits p := by
  intro p hp
  have hmem : some p ∈ values.map kind.coerce := by
    rw [parameters_eq_ok.1 h]
    exact List.mem_map_of_mem hp
  obtain ⟨v, -, hv⟩ := List.mem_map.1 hmem
  exact ValueKind.admits_coerce hv

theorem listTest_wellTyped (ht : t.On registry plan tests column kind) {values : List Value}
    (h : listTest t kind column values = .ok c) : c.WellTyped registry plan tests := by
  rw [listTest] at h
  split at h
  · obtain ⟨ps, hps, h⟩ := bind_eq_ok.1 h
    simp only at h
    split at h
    · obtain rfl := Except.ok.inj h
      split
      · exact .always
      · exact .never
    · rename_i hne
      obtain rfl := Except.ok.inj h
      exact .isIn (by simpa using hne) ⟨t, kind, ht, admits_of_parameters hps⟩
  · cases h

/-- Whatever operator and operand a test has, resolution makes a well-typed condition of it or
refuses it. -/
theorem operandTest_wellTyped (ht : t.On registry plan tests column kind)
    (h : operandTest now t kind column = .ok c) : c.WellTyped registry plan tests := by
  rw [operandTest] at h
  split at h
  · split at h
    · exact ofOperator_wellTyped ht (by assumption) h
    · cases h
  · exact singleTest_wellTyped ht (by assumption) h
  · split at h
    · rename_i hop
      simp only [bind_eq_ok, parameter_eq_ok] at h
      obtain ⟨low, hlow, high, hhigh, h⟩ := h
      obtain rfl := Except.ok.inj h
      exact .between ⟨t, kind, ht, ValueKind.admits_coerce hlow, ValueKind.admits_coerce hhigh,
        Operator.isOrdered_of_supports_between (hop ▸ ht.supports)⟩
    · cases h
  · exact listTest_wellTyped ht h

end

/-! ## What filters become -/

open JoinPlan (Planned Follows)

variable {registry : Registry} {plan : JoinPlan} {scope : PlanScope} {j : PlannedJoin}
  {name : String} {tests : FieldTest → Prop}

theorem place_stores (hplan : Planned registry plan) (hs : plan.Reaches scope) {e : Entity}
    {field : Field} {fieldName : String} (he : registry.find? scope.entity = some e)
    (hfield : e.field? fieldName = some field) :
    ColumnRef.Stores registry plan ⟨scope.aliasName, field.column⟩ fieldName field.kind :=
  ⟨scope.entity, e, hplan.entityOf?_scope hs, he, hfield⟩

/-- A collection that is followed from a place is one that its subquery ranges over. -/
theorem subquery_ofCollection (hplan : Planned registry plan) (hs : plan.Reaches scope)
    (hj : j ∈ plan.joins) (hfollows : Follows registry scope name j)
    (hmany : j.relation.isMany = true) (c : Condition) :
    (plan.subquery j c).OfCollection registry plan := by
  obtain ⟨target, htarget, htable⟩ := hfollows.table
  refine ⟨j.parent, scope.entity, name, j.relation, target, ?_, hfollows.relation, hmany,
    hplan.entityOf?_alias hj, htarget, htable, rfl⟩
  rw [hfollows.parent]
  exact hplan.entityOf?_scope hs

theorem subquery_joins_wellTyped (j : PlannedJoin) (c : Condition) :
    ∀ k ∈ (plan.subquery j c).joins, k.on.WellTyped registry plan tests := by
  intro k hk
  obtain ⟨i, -, rfl⟩ := List.mem_map.1 hk
  exact Condition.wellTyped_columnsMatch _ _ _

theorem hasRow_wellTyped (hplan : Planned registry plan) (hs : plan.Reaches scope)
    (hj : j ∈ plan.joins) (hfollows : Follows registry scope name j)
    (hmany : j.relation.isMany = true) {c : Condition} (hc : c.WellTyped registry plan tests)
    (negated : Bool) :
    (Condition.hasRow (plan.subquery j c) negated).WellTyped registry plan tests :=
  .hasRow (subquery_ofCollection hplan hs hj hfollows hmany c) (subquery_joins_wellTyped j c)
    (Condition.wellTyped_columnsMatch _ _ _) hc

/-- The conditions that the parts of a filter become are well typed together. -/
theorem entityParts_wellTyped {fields nested related all any negated : List Condition}
    (h : ∀ c ∈ fields ++ nested ++ related ++ all ++ any ++ negated,
      c.WellTyped registry plan tests) :
    ∀ c ∈ entityParts fields nested related all any negated, c.WellTyped registry plan tests := by
  intro c hc
  simp only [List.mem_append] at h
  simp only [entityParts, List.mem_append, List.mem_map] at hc
  rcases hc with (hc | hc) | ⟨d, hd, rfl⟩
  · exact h c (Or.inl (Or.inl hc))
  · split at hc
    · cases hc
    · obtain rfl := List.mem_singleton.1 hc
      exact Condition.wellTyped_anyOf fun d hd => h d (Or.inl (Or.inr hd))
  · exact .not (h d (Or.inr hd))

/-- A filter without pieces of SQL resolves to a condition that is well typed by its tests. -/
theorem filter_wellTyped (hplain : registry.PlainRelations) (hplan : Planned registry plan)
    {now : Instant} {f : Filter} {c : Condition} (hfits : f.Fits registry scope.entity)
    (hraw : f.RawFree) (hs : plan.Reaches scope)
    (h : filter registry plan now f scope.place = .ok c) :
    c.WellTyped registry plan f.HasTest := by
  -- the tests of a part are among those of the whole, so the induction is over any tests that
  -- include those of the part
  refine resolved_induct (P := fun s f c => ∀ tests : FieldTest → Prop,
    (∀ t, f.HasTest t → tests t) → plan.Reaches s → c.WellTyped registry plan tests) hplan hplain
    ?field ?all ?any ?not ?entity ?quantified ?size ?raw (hfits.obeys hraw) hs rfl h
    f.HasTest (fun _ ht => ht) hs
  case field =>
    intro s t c hs _ hc tests htests _
    obtain ⟨e, field, he, hfield, hsupports, hc⟩ := fieldTest_eq_ok.1 hc
    exact operandTest_wellTyped
      ⟨htests t .field, place_stores hplan hs he hfield, hsupports⟩ hc
  case all =>
    intro s fs cs hcs tests htests hs
    refine Condition.wellTyped_allOf (forall_mem_right hcs fun f hf c hc => ?_)
    exact hc tests (fun t ht => htests t (.part (.all hf) ht)) hs
  case any =>
    intro s fs cs hcs tests htests hs
    refine Condition.wellTyped_anyOf (forall_mem_right hcs fun f hf c hc => ?_)
    exact hc tests (fun t ht => htests t (.part (.any hf) ht)) hs
  case not =>
    intro s f c hc tests htests hs
    exact .not (hc tests (fun t ht => htests t (.part .not ht)) hs)
  case entity =>
    intro s ef fields nested related all any negated _ h₁ h₂ h₃ h₄ h₅ h₆ tests htests hs
    have hpart : ∀ f : Filter, f.PartOf (.entity ef) → ∀ t, f.HasTest t → tests t :=
      fun f hf t ht => htests t (.part hf ht)
    refine Condition.wellTyped_allOf (entityParts_wellTyped ?_)
    simp only [List.forall_mem_append]
    refine ⟨⟨⟨⟨⟨?_, ?_⟩, ?_⟩, ?_⟩, ?_⟩, ?_⟩
    · refine forall_mem_right h₁ fun t ht c hc => hc tests (fun u hu => ?_) hs
      obtain rfl := Filter.eq_of_hasTest_field hu
      exact htests u (.inEntity ht)
    · refine forall_mem_right h₂ ?_
      rintro p hp c ⟨j, hj, hfollows, inner, hinner, rfl⟩
      have hwell := hinner tests (fun t ht => htests t (.across (.nested hp) ht))
        (JoinPlan.reaches_scope hj)
      rw [nestedCondition]
      split
      · rename_i hmany
        exact hasRow_wellTyped hplan hs hj hfollows hmany hwell _
      · exact hwell
    · exact forall_mem_right h₃ fun t ht c hc => hc tests (hpart _ (.related ht)) hs
    · exact forall_mem_right h₄ fun f hf c hc => hc tests (hpart f (.inAll hf)) hs
    · exact forall_mem_right h₅ fun f hf c hc => hc tests (hpart f (.inAny hf)) hs
    · exact forall_mem_right h₆ fun f hf c hc =>
        hc tests (hpart f (.negated (Option.mem_toList.1 hf))) hs
  case quantified =>
    intro s name q f j inner hj hfollows hmany hinner tests htests hs
    have hwell := hinner tests (fun t ht => htests t (.across .quantified ht))
      (JoinPlan.reaches_scope hj)
    cases q with
    | any => exact hasRow_wellTyped hplan hs hj hfollows hmany hwell _
    | all => exact hasRow_wellTyped hplan hs hj hfollows hmany (.notTrue hwell) _
    | none => exact hasRow_wellTyped hplan hs hj hfollows hmany hwell _
  case size =>
    intro s name op n j hj hfollows hmany hn tests _ hs
    exact .rowCount (subquery_ofCollection hplan hs hj hfollows hmany _)
      (Int.natCast_nonneg n) hn (subquery_joins_wellTyped j _)
      (Condition.wellTyped_columnsMatch _ _ _) .always
  case raw =>
    intro s sql values c hfalse
    exact hfalse.elim

end Resolution

/-- What a filter without pieces of SQL compiles to is well typed. Every test in the condition stems
from a test of the filter on a field that the entity behind the alias stores in this column, and
its values belong to the kind of the field; only texts are matched with patterns, escaped when they
are made from a literal text and only then; order is asked for only of numbers and points in time;
and every number of rows is one of 64 bits and counts the rows of a collection. -/
theorem Engine.compile_wellTyped (e : Engine) (hplain : e.registry.PlainRelations) {root : String}
    {f : Filter} (hraw : f.RawFree) {now : Instant} {compiled : CompiledFilter}
    (h : e.compile root f now = .ok compiled) :
    compiled.condition.WellTyped e.registry compiled.plan f.HasTest := by
  simp only [compile, bind_eq_ok] at h
  obtain ⟨plan, hofFilter, condition, hresolve, h⟩ := h
  obtain rfl := Except.ok.inj h
  obtain ⟨hplan, rfl, -, hfits⟩ := JoinPlan.ofFilter_spec hplain hofFilter
  exact Resolution.filter_wellTyped hplain hplan hfits hraw (JoinPlan.reaches_root plan) hresolve

theorem Engine.compile_wellTyped_rareDecks :
    ∃ compiled, Catalog.engine.compile "deck" Catalog.rareDecks ⟨0, 0⟩ = .ok compiled ∧
      compiled.condition.WellTyped Catalog.registry compiled.plan Catalog.rareDecks.HasTest := by
  obtain ⟨compiled, h⟩ := Catalog.compile_rareDecks ⟨0, 0⟩
  exact ⟨compiled, h, Engine.compile_wellTyped Catalog.engine Catalog.plainRelations_registry
    Catalog.rawFree_rareDecks h⟩

end FilterQuery
