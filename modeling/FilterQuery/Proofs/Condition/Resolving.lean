import FilterQuery.Condition.Resolution
import FilterQuery.Proofs.JoinPlan.Growth
import FilterQuery.Proofs.Lists

/-!
# Taking resolution apart

What a successful resolution was made of. A list of filters resolves to a list of conditions item by
item (`filters_eq_ok` and its kin), and a relation resolves to the join that follows it in the plan
(`child_spec`). `resolved_induct` puts these together: to know something about the conditions that
filters become, it is enough to know how it passes from the parts of a filter to the filter.
-/

namespace FilterQuery

/-- The place that resolution has reached when planning has reached a place. -/
def PlanScope.place (scope : PlanScope) : ResolveScope :=
  ⟨scope.entity, scope.path, scope.aliasName⟩

namespace Resolution

open List (Forall₂)

variable {registry : Registry} {plan : JoinPlan} {now : Instant} {place : ResolveScope}
  {scope : PlanScope} {j : PlannedJoin} {name : String}

/-! ## Lists -/

theorem fieldTests_eq_ok {ts : List FieldTest} {cs : List Condition} :
    fieldTests registry now place ts = .ok cs ↔
      Forall₂ (fun t c => fieldTest registry now t place = .ok c) ts cs := by
  induction ts generalizing cs with
  | nil => simp [fieldTests, eq_comm]
  | cons t ts ih =>
    simp only [fieldTests, bind_eq_ok, ih, List.forall₂_cons_left_iff, Except.ok.injEq]
    constructor
    · rintro ⟨c, hc, cs', hcs, rfl⟩
      exact ⟨c, cs', hc, hcs, rfl⟩
    · rintro ⟨c, cs', hc, hcs, rfl⟩
      exact ⟨c, hc, cs', hcs, rfl⟩

theorem filters_eq_ok {fs : List Filter} {cs : List Condition} :
    filters registry plan now fs place = .ok cs ↔
      Forall₂ (fun f c => filter registry plan now f place = .ok c) fs cs := by
  induction fs generalizing cs with
  | nil => simp [filters, eq_comm]
  | cons f fs ih =>
    simp only [filters, bind_eq_ok, ih, List.forall₂_cons_left_iff, Except.ok.injEq]
    constructor
    · rintro ⟨c, hc, cs', hcs, rfl⟩
      exact ⟨c, cs', hc, hcs, rfl⟩
    · rintro ⟨c, cs', hc, hcs, rfl⟩
      exact ⟨c, hc, cs', hcs, rfl⟩

theorem relatedTests_eq_ok {ts : List RelatedTest} {cs : List Condition} :
    relatedTests registry plan now ts place = .ok cs ↔
      Forall₂ (fun t c => filter registry plan now (.related t) place = .ok c) ts cs := by
  induction ts generalizing cs with
  | nil => simp [relatedTests, eq_comm]
  | cons t ts ih =>
    simp only [relatedTests, bind_eq_ok, ih, List.forall₂_cons_left_iff, Except.ok.injEq, filter]
    constructor
    · rintro ⟨c, hc, cs', hcs, rfl⟩
      exact ⟨c, cs', hc, hcs, rfl⟩
    · rintro ⟨c, cs', hc, hcs, rfl⟩
      exact ⟨c, hc, cs', hcs, rfl⟩

theorem nestedFilters_eq_ok {fs : List (String × Filter)} {cs : List Condition} :
    nestedFilters registry plan now fs place = .ok cs ↔
      Forall₂ (fun p c => ∃ j inside inner, child plan p.1 place = .ok (j, inside) ∧
        filter registry plan now p.2 inside = .ok inner ∧ nestedCondition plan j inner = c)
        fs cs := by
  induction fs generalizing cs with
  | nil => simp [nestedFilters, eq_comm]
  | cons p fs ih =>
    obtain ⟨name, f⟩ := p
    simp only [nestedFilters, bind_eq_ok, ih, List.forall₂_cons_left_iff, Except.ok.injEq]
    constructor
    · rintro ⟨⟨j, inside⟩, hchild, inner, hinner, cs', hcs, rfl⟩
      exact ⟨_, cs', ⟨j, inside, inner, hchild, hinner, rfl⟩, hcs, rfl⟩
    · rintro ⟨c, cs', ⟨j, inside, inner, hchild, hinner, rfl⟩, hcs, rfl⟩
      exact ⟨(j, inside), hchild, inner, hinner, cs', hcs, rfl⟩

theorem negatedFilter_eq_ok {f? : Option Filter} {cs : List Condition} :
    negatedFilter registry plan now f? place = .ok cs ↔
      ∃ inner, Forall₂ (fun f c => filter registry plan now f place = .ok c) f?.toList inner ∧
        cs = inner.map Condition.not := by
  cases f? with
  | none => simp [negatedFilter, eq_comm]
  | some f =>
    simp only [negatedFilter, bind_eq_ok, Except.ok.injEq, Option.toList_some,
      List.forall₂_cons_left_iff, List.forall₂_nil_left_iff]
    constructor
    · rintro ⟨c, hc, rfl⟩
      exact ⟨[c], ⟨c, [], hc, rfl, rfl⟩, rfl⟩
    · rintro ⟨_, ⟨c, _, hc, rfl, rfl⟩, rfl⟩
      exact ⟨c, hc, rfl⟩

/-! ## Relations -/

/-- Below a place that the plan has reached, a declared relation resolves to the join that follows
it, and to the place that this join leads to. -/
theorem child_spec (hplan : JoinPlan.Planned registry plan) (hplain : registry.PlainRelations)
    (hs : plan.Reaches scope) {relation : Relation}
    (hrel : registry.relation? scope.entity name = some relation) {inside : ResolveScope}
    (h : child plan name scope.place = .ok (j, inside)) :
    j ∈ plan.joins ∧ JoinPlan.Follows registry scope name j ∧ j.relation = relation ∧
      inside = j.scope.place := by
  simp only [child] at h
  split at h
  · cases h
  · rename_i k hfind
    obtain ⟨rfl, rfl⟩ := Prod.mk.inj (Except.ok.inj h)
    obtain ⟨hk, hpath⟩ := JoinPlan.mem_of_find? hfind
    have hfollows := hplan.follows_of_path hplain hs hrel hk hpath
    refine ⟨hk, hfollows, Option.some.inj (hfollows.relation.symm.trans hrel), ?_⟩
    rw [PlannedJoin.scope, PlanScope.place, hpath]
    rfl

theorem collection_eq_ok {inside : ResolveScope} :
    collection plan name place = .ok (j, inside) ↔
      child plan name place = .ok (j, inside) ∧ j.relation.isMany = true := by
  simp only [collection, bind_eq_ok]
  constructor
  · rintro ⟨⟨k, s⟩, hchild, h⟩
    split at h
    · obtain ⟨rfl, rfl⟩ := Prod.mk.inj (Except.ok.inj h)
      exact ⟨hchild, by assumption⟩
    · cases h
  · rintro ⟨hchild, hmany⟩
    exact ⟨(j, inside), hchild, if_pos hmany⟩

theorem sized_eq_ok {op : SizeOp} {n : Nat} {c : Condition} :
    sized plan j op n = .ok c ↔
      (n : Int) ≤ maxInt64 ∧ c = .rowCount (plan.subquery j .always) (sizeComparison op) n := by
  rw [sized]
  split
  · rename_i hn
    simp [hn, eq_comm]
  · rename_i hn
    simp [hn]

/-! ## Fields -/

theorem fieldTest_eq_ok {t : FieldTest} {c : Condition} :
    fieldTest registry now t place = .ok c ↔
      ∃ e field, registry.find? place.entity = some e ∧ e.field? t.field = some field ∧
        t.op.supports field.kind = true ∧
        operandTest now t field.kind ⟨place.aliasName, field.column⟩ = .ok c := by
  simp only [fieldTest, bind_eq_ok, fieldOf]
  constructor
  · rintro ⟨field, hfield, h⟩
    split at hfield
    · cases hfield
    · rename_i e he
      split at hfield
      · cases hfield
      · rename_i found hfound
        obtain rfl := Except.ok.inj hfield
        split at h
        · cases h
        · rename_i hsupports
          exact ⟨e, found, he, hfound, by simpa using hsupports, h⟩
  · rintro ⟨e, field, he, hfound, hsupports, h⟩
    refine ⟨field, by rw [he]; simp only; rw [hfound], ?_⟩
    rw [if_neg (by simp [hsupports])]
    exact h

/-- The conditions that test a single column. -/
inductive OnColumn (column : ColumnRef) : Condition → Prop
  | always : OnColumn column .always
  | never : OnColumn column .never
  | compare (op value) : OnColumn column (.compare column op value)
  | between (low high) : OnColumn column (.between column low high)
  | like (pattern ignoreCase escaped negated) :
      OnColumn column (.like column pattern ignoreCase escaped negated)
  | isIn (values negated) : OnColumn column (.isIn column values negated)
  | isNull (negated) : OnColumn column (.isNull column negated)
  | both {c d} : OnColumn column c → OnColumn column d → OnColumn column (.all [c, d])

theorem onColumn_window (column : ColumnRef) (start stop : Instant) :
    OnColumn column (Window.condition column start stop) :=
  .both (.compare _ _) (.compare _ _)

theorem ofOperator_onColumn {op : Operator} {column : ColumnRef} {c : Condition}
    (h : Window.ofOperator op now column = .ok c) : OnColumn column c := by
  rw [Window.ofOperator] at h
  split at h
  · obtain rfl := Except.ok.inj h
    exact onColumn_window column _ _
  · cases h
  · cases h

theorem patternTest_onColumn {t : FieldTest} {column : ColumnRef} {text : String} {c : Condition}
    (h : patternTest t column text = .ok c) : OnColumn column c := by
  rw [patternTest] at h
  split at h
  · obtain rfl := Except.ok.inj h
    exact .like _ _ _ _
  · obtain rfl := Except.ok.inj h
    exact .like _ _ _ _

theorem singleTest_onColumn {t : FieldTest} {kind : ValueKind} {column : ColumnRef} {value : Value}
    {c : Condition} (h : singleTest now t kind column value = .ok c) : OnColumn column c := by
  unfold singleTest at h
  split at h
  · obtain rfl := Except.ok.inj h
    exact .isNull _
  · rw [Window.lastDays] at h
    split at h
    · obtain rfl := Except.ok.inj h
      exact onColumn_window column _ _
    · cases h
  · rw [Window.olderThan] at h
    split at h
    · obtain rfl := Except.ok.inj h
      exact .compare _ _
    · cases h
  · split at h
    · exact patternTest_onColumn h
    · split at h
      · cases h
      · obtain ⟨p, -, rfl⟩ := map_eq_ok.1 h
        exact .compare _ _

theorem listTest_onColumn {t : FieldTest} {kind : ValueKind} {column : ColumnRef}
    {values : List Value} {c : Condition} (h : listTest t kind column values = .ok c) :
    OnColumn column c := by
  rw [listTest] at h
  split at h
  · obtain ⟨ps, -, h⟩ := bind_eq_ok.1 h
    simp only at h
    split at h
    · obtain rfl := Except.ok.inj h
      split
      · exact .always
      · exact .never
    · obtain rfl := Except.ok.inj h
      exact .isIn _ _
  · cases h

/-- A test on a field becomes a condition on the column of the field and on nothing else. -/
theorem operandTest_onColumn {t : FieldTest} {kind : ValueKind} {column : ColumnRef}
    {c : Condition} (h : operandTest now t kind column = .ok c) : OnColumn column c := by
  rw [operandTest] at h
  split at h
  · split at h
    · exact ofOperator_onColumn h
    · cases h
  · exact singleTest_onColumn h
  · split at h
    · simp only [bind_eq_ok] at h
      obtain ⟨low, -, high, -, h⟩ := h
      obtain rfl := Except.ok.inj h
      exact .between _ _
    · cases h
  · exact listTest_onColumn h

/-! ## Induction -/

/-- What the parts of a filter of an entity become: the condition of the filter is their
conjunction. -/
def entityParts (tests nested related all any negated : List Condition) : List Condition :=
  tests ++ nested ++ related ++ all ++ (if any.isEmpty then [] else [Condition.anyOf any]) ++
    negated.map .not

theorem entityFilter_eq_ok {ef : EntityFilter} {c : Condition} :
    filter registry plan now (.entity ef) place = .ok c ↔
      ef.code = place.entity ∧ ∃ tests nested related all any negated,
        Forall₂ (fun t c => fieldTest registry now t place = .ok c) ef.fields tests ∧
        Forall₂ (fun p c => ∃ j inside inner, child plan p.1 place = .ok (j, inside) ∧
          filter registry plan now p.2 inside = .ok inner ∧ nestedCondition plan j inner = c)
          ef.nested nested ∧
        Forall₂ (fun t c => filter registry plan now (.related t) place = .ok c)
          ef.related related ∧
        Forall₂ (fun f c => filter registry plan now f place = .ok c) ef.all all ∧
        Forall₂ (fun f c => filter registry plan now f place = .ok c) ef.any any ∧
        Forall₂ (fun f c => filter registry plan now f place = .ok c) ef.negated.toList negated ∧
        c = .allOf (entityParts tests nested related all any negated) := by
  obtain ⟨code, tests, nested, related, all, any, negated⟩ := ef
  simp only [filter, entityFilter]
  split
  · rename_i hcode
    simp [hcode]
  · rename_i hcode
    simp only [bind_eq_ok, fieldTests_eq_ok, nestedFilters_eq_ok, relatedTests_eq_ok,
      filters_eq_ok, negatedFilter_eq_ok, Except.ok.injEq]
    constructor
    · rintro ⟨c₁, h₁, c₂, h₂, c₃, h₃, c₄, h₄, c₅, h₅, _, ⟨c₆, h₆, rfl⟩, rfl⟩
      exact ⟨by simpa using hcode, c₁, c₂, c₃, c₄, c₅, c₆, h₁, h₂, h₃, h₄, h₅, h₆, rfl⟩
    · rintro ⟨-, c₁, c₂, c₃, c₄, c₅, c₆, h₁, h₂, h₃, h₄, h₅, h₆, rfl⟩
      exact ⟨c₁, h₁, c₂, h₂, c₃, h₃, c₄, h₄, c₅, h₅, _, ⟨c₆, h₆, rfl⟩, rfl⟩

/-- Induction over resolved filters, which obey rules: a property of the place, the filter and its
condition is one of all filters when it passes from the parts of a filter to the filter. -/
theorem resolved_induct {rules : Filter.Rules} {P : PlanScope → Filter → Condition → Prop}
    (hplan : JoinPlan.Planned registry plan) (hplain : registry.PlainRelations)
    (field : ∀ s t c, plan.Reaches s → rules.field s.entity t →
      fieldTest registry now t s.place = .ok c → P s (.field t) c)
    (all : ∀ s fs cs, Forall₂ (P s) fs cs → P s (.all fs) (.allOf cs))
    (any : ∀ s fs cs, Forall₂ (P s) fs cs → P s (.any fs) (.anyOf cs))
    (not : ∀ s f c, P s f c → P s (.not f) (.not c))
    (entity : ∀ s (ef : EntityFilter) tests nested related all any negated,
      ef.code = s.entity → Forall₂ (fun t => P s (.field t)) ef.fields tests →
      Forall₂ (fun p c => ∃ j ∈ plan.joins, JoinPlan.Follows registry s p.1 j ∧
        ∃ inner, P j.scope p.2 inner ∧ nestedCondition plan j inner = c) ef.nested nested →
      Forall₂ (fun t => P s (.related t)) ef.related related →
      Forall₂ (P s) ef.all all → Forall₂ (P s) ef.any any →
      Forall₂ (P s) ef.negated.toList negated →
      P s (.entity ef) (.allOf (entityParts tests nested related all any negated)))
    (quantifiedTest : ∀ s name q f j inner, j ∈ plan.joins → JoinPlan.Follows registry s name j →
      j.relation.isMany = true → P j.scope f inner →
      P s (.related (.quantified name q f)) (quantified plan j q inner))
    (size : ∀ s name op (n : Nat) j, j ∈ plan.joins → JoinPlan.Follows registry s name j →
      j.relation.isMany = true → (n : Int) ≤ maxInt64 →
      P s (.related (.size name op n)) (.rowCount (plan.subquery j .always) (sizeComparison op) n))
    (raw : ∀ s sql values c, rules.raw sql values → rawTest sql values s.place = .ok c →
      P s (.raw sql values) c)
    {code : String} {f : Filter} (hf : f.Obeys registry rules code) {c : Condition}
    (hs : plan.Reaches scope) (hcode : scope.entity = code)
    (h : filter registry plan now f scope.place = .ok c) : P scope f c := by
  induction hf generalizing scope c with
  | @field code t ht => exact field scope t c hs (hcode ▸ ht) h
  | @all code fs _ ih =>
    obtain ⟨cs, hcs, h⟩ := bind_eq_ok.1 h
    obtain rfl := Except.ok.inj h
    refine all scope fs cs ?_
    exact forall₂_of_mem (filters_eq_ok.1 hcs) fun f hf c hc => ih f hf hs hcode hc
  | @any code fs _ ih =>
    obtain ⟨cs, hcs, h⟩ := bind_eq_ok.1 h
    obtain rfl := Except.ok.inj h
    refine any scope fs cs ?_
    exact forall₂_of_mem (filters_eq_ok.1 hcs) fun f hf c hc => ih f hf hs hcode hc
  | @not code f _ ih =>
    obtain ⟨c', hc, h⟩ := bind_eq_ok.1 h
    obtain rfl := Except.ok.inj h
    exact not scope f c' (ih hs hcode hc)
  | @entity code ef _ hfields hrel _ _ _ _ _ ihn ihr iha iho ihneg =>
    obtain ⟨hef, tests, nested, related, all, any, negated, h₁, h₂, h₃, h₄, h₅, h₆, rfl⟩ :=
      entityFilter_eq_ok.1 h
    refine entity scope ef tests nested related all any negated hef ?_ ?_ ?_ ?_ ?_ ?_
    · exact forall₂_of_mem h₁ fun t ht c hc => field scope t c hs (hcode ▸ hfields t ht) hc
    · refine forall₂_of_mem h₂ ?_
      rintro ⟨name, f⟩ hf c ⟨j, inside, inner, hchild, hinner, hc⟩
      obtain ⟨r, hr⟩ := hrel name f hf
      obtain ⟨hj, hfollows, hjr, rfl⟩ := child_spec hplan hplain hs (hcode ▸ hr) hchild
      refine ⟨j, hj, hfollows, inner, ?_, hc⟩
      exact ihn name f r hf hr (JoinPlan.reaches_scope hj) (by rw [← hjr]; rfl) hinner
    · exact forall₂_of_mem h₃ fun t ht c hc => ihr t ht hs hcode hc
    · exact forall₂_of_mem h₄ fun f hf c hc => iha f hf hs hcode hc
    · exact forall₂_of_mem h₅ fun f hf c hc => iho f hf hs hcode hc
    · exact forall₂_of_mem h₆ fun f hf c hc => ihneg f (Option.mem_toList.1 hf) hs hcode hc
  | @quantified code name q f r hr _ _ ih =>
    simp only [filter, relatedTest, bind_eq_ok] at h
    obtain ⟨⟨j, inside⟩, hcollection, inner, hinner, h⟩ := h
    obtain rfl := Except.ok.inj h
    obtain ⟨hchild, hmany⟩ := collection_eq_ok.1 hcollection
    obtain ⟨hj, hfollows, hjr, rfl⟩ := child_spec hplan hplain hs (hcode ▸ hr) hchild
    refine quantifiedTest scope name q f j inner hj hfollows hmany ?_
    exact ih (JoinPlan.reaches_scope hj) (by rw [← hjr]; rfl) hinner
  | @size code name op n r hr _ _ =>
    simp only [filter, relatedTest, bind_eq_ok, sized_eq_ok] at h
    obtain ⟨⟨j, inside⟩, hcollection, hn, rfl⟩ := h
    obtain ⟨hchild, hmany⟩ := collection_eq_ok.1 hcollection
    obtain ⟨hj, hfollows, -, -⟩ := child_spec hplan hplain hs (hcode ▸ hr) hchild
    exact size scope name op n j hj hfollows hmany hn
  | @raw code sql values hraw => exact raw scope sql values c hraw h

end Resolution

end FilterQuery
