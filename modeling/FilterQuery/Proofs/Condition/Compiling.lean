import FilterQuery.Proofs.Calendar.Windows
import FilterQuery.Proofs.Condition.Renaming
import FilterQuery.Proofs.Filter.Typed

/-!
# Typed filters compile

What reading a document checks is all that planning and resolving ask for again. A typed test
becomes a condition at every central instant (`Resolution.fieldTest_ok`). At any instant, it is the
tests on fields alone that decide whether a typed filter becomes one over a plan that has its paths
(`Resolution.filter_ok_of_resolvable`, `Resolution.resolvable_of_filter`).
-/

namespace FilterQuery

/-! ## Operators by shape -/

namespace Operator

variable {op : Operator}

theorem isRelativeDate_of_shape (h : op.shape = .nothing) : op.isRelativeDate = true := by
  cases op <;> first | rfl | cases h

theorem eq_between_of_shape (h : op.shape = .pair) : op = .between := by
  cases op <;> first | rfl | cases h

theorem isIn_or_notIn_of_shape (h : op.shape = .list) : op = .isIn ∨ op = .notIn := by
  cases op <;> first | exact .inl rfl | exact .inr rfl | cases h

end Operator

/-- The rules that decide whether a typed filter becomes a condition at an instant: its tests on
fields become conditions, at every place of their entity. -/
def Filter.Rules.resolvable (registry : Registry) (now : Instant) : Filter.Rules :=
  { Filter.Rules.typed registry with
    field := fun code t => ∀ place : ResolveScope, place.entity = code →
      ∃ c, Resolution.fieldTest registry now t place = .ok c }

namespace Resolution

/-- The operators with one operand that ask neither for null nor for days nor for a pattern are
comparisons. -/
theorem comparison?_of_shape {op : Operator} (h : op.shape = .single) (hnull : op ≠ .isNull)
    (hdays : ¬(op = .lastNDays ∨ op = .olderThanDays)) (hpattern : ¬op.isPattern = true) :
    ∃ comparison, comparison? op = some comparison := by
  cases op with
  | eq | ne | gt | gte | lt | lte | before | after => exact ⟨_, rfl⟩
  | isNull => exact absurd rfl hnull
  | lastNDays => exact absurd (.inl rfl) hdays
  | olderThanDays => exact absurd (.inr rfl) hdays
  | like | ilike | notLike | contains | icontains | notContains | startsWith | endsWith =>
    exact absurd rfl hpattern
  | between | isIn | notIn | today | yesterday | thisWeek | lastWeek | thisMonth | lastMonth
  | thisYear | lastYear => cases h

variable {registry : Registry} {plan : JoinPlan} {now : Instant} {t : FieldTest}
  {kind : ValueKind} {column : ColumnRef}

/-! ## Operands -/

theorem parameter_ok {v : Value} (h : Operand.suits kind v = true) :
    ∃ p, parameter t kind v = .ok p := by
  obtain ⟨p, hp⟩ := Option.isSome_iff_exists.1 h
  exact ⟨p, by rw [parameter, hp]⟩

theorem parameters_ok {vs : List Value} (h : ∀ v ∈ vs, Operand.suits kind v = true) :
    ∃ ps, parameters t kind vs = .ok ps := by
  induction vs with
  | nil => exact ⟨[], rfl⟩
  | cons v vs ih =>
    obtain ⟨hv, hvs⟩ := List.forall_mem_cons.1 h
    obtain ⟨p, hp⟩ := parameter_ok (t := t) hv
    obtain ⟨ps, hps⟩ := ih hvs
    exact ⟨p :: ps, bind_eq_ok.2 ⟨p, hp, bind_eq_ok.2 ⟨ps, hps, rfl⟩⟩⟩

theorem patternTest_ok (t : FieldTest) (column : ColumnRef) (text : String) :
    ∃ c, patternTest t column text = .ok c := by
  rw [patternTest]
  split
  · exact ⟨_, rfl⟩
  · exact ⟨_, rfl⟩

/-- A window of an allowed number of days exists at a central instant. -/
theorem dayCount_ok (hnow : now.Central) {v : Value} (h : Operand.isDayCount v = true) :
    ∃ days moved, v = .integer days ∧ now.subDays? days = some moved := by
  unfold Operand.isDayCount at h
  split at h
  · rename_i days
    simp only [Bool.and_eq_true, decide_eq_true_eq] at h
    obtain ⟨moved, hmoved⟩ := Instant.subDays?_central hnow h.1 h.2
    exact ⟨days, moved, rfl, hmoved⟩
  · cases h

theorem singleTest_pattern (h : t.op.isPattern = true) (text : String) :
    singleTest now t kind column (.text text) = patternTest t column text := by
  obtain ⟨name, op, operand⟩ := t
  cases op <;> first | rfl | cases h

theorem singleTest_comparison {comparison : Comparison}
    (h : comparison? t.op = some comparison) (v : Value) :
    singleTest now t kind column v = (parameter t kind v).map (.compare column comparison) := by
  obtain ⟨name, op, operand⟩ := t
  cases op <;> first | cases h; rfl | cases h

theorem singleTest_ok (hnow : now.Central) {v : Value}
    (h : (Operand.verdict t.op kind (.single v)).1 = true) :
    ∃ c, singleTest now t kind column v = .ok c := by
  simp only [Operand.verdict] at h
  split at h
  · rename_i hop
    cases v with
    | bool b => exact ⟨.isNull column (!b), by simp only [singleTest, hop]⟩
    | null | integer _ | float _ | text _ | list _ => cases h
  · rename_i hnull
    split at h
    · rename_i hop
      obtain ⟨days, moved, rfl, hmoved⟩ := dayCount_ok hnow h
      rcases (by simpa using hop : t.op = .lastNDays ∨ t.op = .olderThanDays) with hop | hop
      · exact ⟨Window.condition column moved now,
          by simp only [singleTest, hop, Window.lastDays, hmoved]⟩
      · exact ⟨.compare column .lt (.timestamp moved),
          by simp only [singleTest, hop, Window.olderThan, hmoved]⟩
    · rename_i hdays
      split at h
      · rename_i hpattern
        cases v with
        | text s =>
          rw [singleTest_pattern hpattern]
          exact patternTest_ok t column s
        | null | bool _ | integer _ | float _ | list _ => cases h
      · rename_i hpattern
        obtain ⟨hshape, hsuits⟩ := Bool.and_eq_true_iff.1 h
        obtain ⟨comparison, hcomparison⟩ := comparison?_of_shape (eq_of_beq hshape) hnull
          (by simpa using hdays) hpattern
        obtain ⟨p, hp⟩ := parameter_ok (t := t) hsuits
        rw [singleTest_comparison hcomparison]
        exact ⟨_, map_eq_ok.2 ⟨p, hp, rfl⟩⟩

theorem listTest_ok {vs : List Value} (h : (Operand.verdict t.op kind (.list vs)).1 = true) :
    ∃ c, listTest t kind column vs = .ok c := by
  simp only [Operand.verdict, Bool.and_eq_true, beq_iff_eq, List.all_eq_true] at h
  obtain ⟨hshape, hall⟩ := h
  have hop := Operator.isIn_or_notIn_of_shape hshape
  obtain ⟨ps, hps⟩ := parameters_ok (t := t) hall
  rw [listTest, if_pos (by simpa using hop), hps]
  simp only [bind, Except.bind]
  split
  · exact ⟨_, rfl⟩
  · exact ⟨_, rfl⟩

/-- At a central instant, a test whose operand was found to suit becomes a condition. -/
theorem operandTest_ok (hnow : now.Central) (column : ColumnRef)
    (h : t.operand.check t.field t.op kind = .ok ()) :
    ∃ c, operandTest now t kind column = .ok c := by
  rw [FilterDocument.check_eq_ok] at h
  rw [operandTest]
  split
  · rename_i hoperand
    simp only [hoperand, Operand.verdict, beq_iff_eq] at h
    have hrelative := Operator.isRelativeDate_of_shape h
    obtain ⟨start, stop, hwindow⟩ := Window.calendar?_central hnow h
    exact ⟨_, by rw [if_pos hrelative, Window.ofOperator, hwindow]⟩
  · rename_i v hoperand
    exact singleTest_ok hnow (hoperand ▸ h)
  · rename_i low high hoperand
    simp only [hoperand, Operand.verdict, Bool.and_eq_true, beq_iff_eq] at h
    obtain ⟨⟨hshape, hlow⟩, hhigh⟩ := h
    have hop := Operator.eq_between_of_shape hshape
    obtain ⟨p, hp⟩ := parameter_ok (t := t) hlow
    obtain ⟨q, hq⟩ := parameter_ok (t := t) hhigh
    rw [if_pos hop]
    exact ⟨_, bind_eq_ok.2 ⟨p, hp, bind_eq_ok.2 ⟨q, hq, rfl⟩⟩⟩
  · rename_i vs hoperand
    exact listTest_ok (hoperand ▸ h)

theorem fieldTest_ok (hnow : now.Central) (place : ResolveScope)
    (h : t.Typed registry place.entity) : ∃ c, fieldTest registry now t place = .ok c := by
  obtain ⟨e, field, he, hfield, hsupports, hcheck⟩ := h
  obtain ⟨c, hc⟩ := operandTest_ok hnow ⟨place.aliasName, field.column⟩ hcheck
  exact ⟨c, fieldTest_eq_ok.2 ⟨e, field, he, hfield, hsupports, hc⟩⟩

end Resolution

/-! ## Filters -/

/-- At a central instant, every test of a typed filter becomes a condition. -/
theorem Filter.Typed.resolvable {registry : Registry} {now : Instant} {code : String} {f : Filter}
    (hf : f.Typed registry code) (hnow : now.Central) :
    f.Obeys registry (.resolvable registry now) code :=
  hf.mono (fun _ _ ht place hplace => Resolution.fieldTest_ok hnow place (hplace ▸ ht))
    (fun _ hmany => hmany) (fun _ hn => hn) fun _ _ hraw => hraw

namespace Resolution

open List (Forall₂)

theorem exists_forall₂ {α β : Type} {R : α → β → Prop} (as : List α)
    (h : ∀ a ∈ as, ∃ b, R a b) : ∃ bs, Forall₂ R as bs := by
  induction as with
  | nil => exact ⟨[], .nil⟩
  | cons a as ih =>
    obtain ⟨⟨b, hb⟩, has⟩ := List.forall_mem_cons.1 h
    obtain ⟨bs, hbs⟩ := ih has
    exact ⟨b :: bs, .cons hb hbs⟩

variable {registry : Registry} {plan : JoinPlan} {now : Instant} {scope : PlanScope}
  {code name : String} {relation : Relation}

/-- A relation whose path the plan has resolves to a join that follows it. -/
theorem child_ok (hplan : JoinPlan.Planned registry plan) (hplain : registry.PlainRelations)
    (hs : plan.Reaches scope) (hrel : registry.relation? scope.entity name = some relation)
    (hjoin : ∃ j ∈ plan.joins, j.path = JoinPlan.childPath scope.path name) :
    ∃ j ∈ plan.joins, child plan name scope.place = .ok (j, j.scope.place) ∧
      j.relation = relation ∧ j.path = JoinPlan.childPath scope.path name := by
  obtain ⟨j, hj, hpath⟩ := hjoin
  have hfind := hplan.find?_eq_some hj
  rw [hpath] at hfind
  have hchild : child plan name scope.place =
      .ok (j, ⟨j.target, some (JoinPlan.childPath scope.path name), j.aliasName⟩) := by
    simp only [child, PlanScope.place, hfind]
  obtain ⟨-, -, hrelation, hinside⟩ := child_spec hplan hplain hs hrel hchild
  exact ⟨j, hj, by rw [hchild, hinside], hrelation, hpath⟩

theorem collection_ok (hplan : JoinPlan.Planned registry plan) (hplain : registry.PlainRelations)
    (hs : plan.Reaches scope) (hrel : registry.relation? scope.entity name = some relation)
    (hmany : relation.isMany = true)
    (hjoin : ∃ j ∈ plan.joins, j.path = JoinPlan.childPath scope.path name) :
    ∃ j ∈ plan.joins, collection plan name scope.place = .ok (j, j.scope.place) ∧
      j.relation = relation ∧ j.path = JoinPlan.childPath scope.path name := by
  obtain ⟨j, hj, hchild, hrelation, hpath⟩ := child_ok hplan hplain hs hrel hjoin
  exact ⟨j, hj, collection_eq_ok.2 ⟨hchild, hrelation ▸ hmany⟩, hrelation, hpath⟩

/-- A filter resolves at every place of an entity that the plan has reached and below which it has
the paths of the filter. -/
def Resolves (registry : Registry) (plan : JoinPlan) (now : Instant) (code : String) (f : Filter) :
    Prop :=
  ∀ scope, plan.Reaches scope → scope.entity = code →
    plan.Covers (JoinPlan.followed scope.path f) →
    ∃ c, filter registry plan now f scope.place = .ok c

/-- Filters of related entities resolve when they do at the targets of their relations. -/
theorem nestedFilters_ok (hplan : JoinPlan.Planned registry plan)
    (hplain : registry.PlainRelations) (hs : plan.Reaches scope) {fs : List (String × Filter)}
    (hrel : ∀ name f, (name, f) ∈ fs → ∃ r, registry.relation? scope.entity name = some r)
    (ih : ∀ name f r, (name, f) ∈ fs → registry.relation? scope.entity name = some r →
      Resolves registry plan now r.target f)
    (hcovers : plan.Covers (JoinPlan.followedByNested scope.path fs)) :
    ∃ cs, nestedFilters registry plan now fs scope.place = .ok cs := by
  simp only [JoinPlan.followedByNested_eq, JoinPlan.covers_flatMap, JoinPlan.covers_cons] at hcovers
  have hitem : ∀ p ∈ fs, ∃ c, ∃ j inside inner,
      child plan p.1 scope.place = .ok (j, inside) ∧
        filter registry plan now p.2 inside = .ok inner ∧ nestedCondition plan j inner = c := by
    rintro ⟨name, f⟩ hf
    obtain ⟨hjoin, hbelow⟩ := hcovers (name, f) hf
    obtain ⟨r, hr⟩ := hrel name f hf
    obtain ⟨j, hj, hchild, hrelation, hpath⟩ := child_ok hplan hplain hs hr hjoin
    obtain ⟨inner, hinner⟩ := ih name f r hf hr j.scope (JoinPlan.reaches_scope hj)
      (congrArg Relation.target hrelation) (by rwa [PlannedJoin.scope, hpath])
    exact ⟨_, j, _, inner, hchild, hinner, rfl⟩
  obtain ⟨cs, hcs⟩ := exists_forall₂ fs hitem
  exact ⟨cs, nestedFilters_eq_ok.2 hcs⟩

/-- A filter whose tests become conditions becomes a condition over every plan that has a join for
each path of the filter. -/
theorem filter_ok_of_resolvable (hplan : JoinPlan.Planned registry plan)
    (hplain : registry.PlainRelations) {f : Filter}
    (hf : f.Obeys registry (.resolvable registry now) code) :
    Resolves registry plan now code f := by
  induction hf with
  | field ht =>
    rintro scope hs rfl -
    exact ht scope.place rfl
  | all _ ih =>
    intro scope hs hcode hcovers
    rw [JoinPlan.followed, JoinPlan.followedByItems_eq, JoinPlan.covers_flatMap] at hcovers
    obtain ⟨cs, hcs⟩ := exists_forall₂ _ fun f hf => ih f hf scope hs hcode (hcovers f hf)
    exact ⟨_, bind_eq_ok.2 ⟨cs, filters_eq_ok.2 hcs, rfl⟩⟩
  | any _ ih =>
    intro scope hs hcode hcovers
    rw [JoinPlan.followed, JoinPlan.followedByItems_eq, JoinPlan.covers_flatMap] at hcovers
    obtain ⟨cs, hcs⟩ := exists_forall₂ _ fun f hf => ih f hf scope hs hcode (hcovers f hf)
    exact ⟨_, bind_eq_ok.2 ⟨cs, filters_eq_ok.2 hcs, rfl⟩⟩
  | not _ ih =>
    intro scope hs hcode hcovers
    rw [JoinPlan.followed] at hcovers
    obtain ⟨c, hc⟩ := ih scope hs hcode hcovers
    exact ⟨_, bind_eq_ok.2 ⟨c, hc, rfl⟩⟩
  | @entity code ef hef hfields hrel _ _ _ _ _ ihn ihr iha iho ihneg =>
    rintro scope hs rfl hcovers
    rw [JoinPlan.followed, JoinPlan.followedByEntity_eq] at hcovers
    simp only [JoinPlan.covers_append, JoinPlan.covers_flatMap] at hcovers
    obtain ⟨⟨⟨⟨hn, hr⟩, ha⟩, ho⟩, hneg⟩ := hcovers
    obtain ⟨fields, h₁⟩ := exists_forall₂ ef.fields fun t ht =>
      hfields t ht scope.place rfl
    obtain ⟨nested, h₂⟩ := nestedFilters_ok hplan hplain hs hrel ihn hn
    obtain ⟨related, h₃⟩ := exists_forall₂ ef.related fun t ht => ihr t ht scope hs rfl (hr t ht)
    obtain ⟨all, h₄⟩ := exists_forall₂ ef.all fun f hf => iha f hf scope hs rfl (ha f hf)
    obtain ⟨any, h₅⟩ := exists_forall₂ ef.any fun f hf => iho f hf scope hs rfl (ho f hf)
    obtain ⟨negated, h₆⟩ := exists_forall₂ ef.negated.toList fun f hf =>
      ihneg f (Option.mem_toList.1 hf) scope hs rfl (hneg f hf)
    exact ⟨_, entityFilter_eq_ok.2 ⟨hef, fields, nested, related, all, any, negated, h₁,
      nestedFilters_eq_ok.1 h₂, h₃, h₄, h₅, h₆, rfl⟩⟩
  | quantified hr hmany _ ih =>
    rintro scope hs rfl hcovers
    rw [JoinPlan.followed, JoinPlan.followedByTest, JoinPlan.covers_cons] at hcovers
    obtain ⟨hjoin, hbelow⟩ := hcovers
    obtain ⟨j, hj, hchild, hrelation, hpath⟩ := collection_ok hplan hplain hs hr hmany hjoin
    obtain ⟨inner, hinner⟩ := ih j.scope (JoinPlan.reaches_scope hj)
      (congrArg Relation.target hrelation) (by rwa [PlannedJoin.scope, hpath])
    exact ⟨_, bind_eq_ok.2 ⟨_, hchild, bind_eq_ok.2 ⟨inner, hinner, rfl⟩⟩⟩
  | size hr hmany hn =>
    rintro scope hs rfl hcovers
    rw [JoinPlan.followed, JoinPlan.followedByTest, JoinPlan.covers_cons] at hcovers
    obtain ⟨j, hj, hchild, -, -⟩ := collection_ok hplan hplain hs hr hmany hcovers.1
    exact ⟨_, bind_eq_ok.2 ⟨_, hchild, sized_eq_ok.2 ⟨hn, rfl⟩⟩⟩
  | raw h => exact h.elim

/-- Where a typed filter becomes a condition, each of its tests on fields does. -/
theorem resolvable_of_filter (hplan : JoinPlan.Planned registry plan)
    (hplain : registry.PlainRelations) {f : Filter} (hf : f.Typed registry code)
    (hs : plan.Reaches scope) (hcode : scope.entity = code) {c : Condition}
    (h : filter registry plan now f scope.place = .ok c) :
    f.Obeys registry (.resolvable registry now) code := by
  subst hcode
  refine resolved_induct (P := fun s f _ => f.Obeys registry (.resolvable registry now) s.entity)
    hplan hplain ?field ?all ?any ?not ?entity ?quantified ?size ?raw hf hs rfl h
  case field =>
    intro s t c _ _ hc
    refine .field fun place hplace => ?_
    have hrename : fieldTest registry now t place =
        (fieldTest registry now t s.place).map (Condition.rename fun _ => place.aliasName) :=
      fieldTest_rename hplace.symm rfl t
    rw [hc] at hrename
    exact ⟨_, hrename⟩
  case all => exact fun s fs cs hcs => .all (forall_mem_left hcs fun f c hf => hf)
  case any => exact fun s fs cs hcs => .any (forall_mem_left hcs fun f c hf => hf)
  case not => exact fun s f c hc => .not hc
  case entity =>
    intro s ef tests nested related all any negated hef h₁ h₂ h₃ h₄ h₅ h₆
    refine Filter.obeys_entity.2 ⟨hef, forall_mem_left h₁ ?_, forall_mem_left h₂ ?_,
      forall_mem_left h₃ fun t c ht => ht, forall_mem_left h₄ fun f c hf => hf,
      forall_mem_left h₅ fun f c hf => hf, forall_mem_left h₆ fun f c hf => hf⟩
    · rintro t c ⟨ht⟩
      exact ht
    · rintro p c ⟨j, -, hfollows, inner, hinner, -⟩
      exact ⟨j.relation, hfollows.relation, hinner⟩
  case quantified =>
    intro s name q f j inner _ hfollows hmany hinner
    exact .quantified hfollows.relation hmany hinner
  case size =>
    intro s name op n j _ hfollows hmany hn
    exact .size hfollows.relation hmany hn
  case raw => exact fun s sql values c hfalse _ => hfalse.elim

end Resolution

end FilterQuery
