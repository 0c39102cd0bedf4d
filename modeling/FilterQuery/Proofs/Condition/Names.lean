import FilterQuery.Proofs.Condition.Markers
import FilterQuery.Proofs.Condition.Resolving
import FilterQuery.Proofs.JoinPlan.Names

/-!
# Names in resolved conditions

Over a registry with clean names a filter becomes a clean condition, whatever its relations are
called, exactly when its pieces of SQL are what they should be (`Resolution.filter_clean_iff`).
These are the only texts that come from outside: what is asked of them is a parameter. That their
markers match their values is what resolution itself makes sure of (`Resolution.rawTest_clean`);
whether a digit stands right after one of them is left to the filter
(`Resolution.rawTest_stands_iff`).
-/

namespace FilterQuery

open List (Forall₂)

variable {piece : String → List Parameter → Prop}

/-! ## Parts of conditions -/

namespace Condition

theorem allClean_iff {cs : List Condition} :
    AllClean piece cs ↔ ∀ c ∈ cs, c.Clean piece := by
  induction cs with
  | nil => simp [AllClean]
  | cons c cs ih => rw [AllClean, ih, List.forall_mem_cons]

theorem clean_allOf_iff {cs : List Condition} :
    (allOf cs).Clean piece ↔ ∀ c ∈ cs, c.Clean piece := by
  unfold allOf
  split
  · exact iff_of_true trivial (by simp)
  · exact List.forall_mem_singleton.symm
  · exact allClean_iff

theorem clean_anyOf_iff {cs : List Condition} :
    (anyOf cs).Clean piece ↔ ∀ c ∈ cs, c.Clean piece := by
  unfold anyOf
  split
  · exact iff_of_true trivial (by simp)
  · exact List.forall_mem_singleton.symm
  · exact allClean_iff

end Condition

namespace PlannedJoin

variable {j : PlannedJoin}

theorem Clean.condition (h : j.Clean) : j.condition.Clean piece := by
  refine Condition.clean_allOf_iff.2 fun c hc => ?_
  obtain ⟨⟨a, b⟩, hp, rfl⟩ := List.mem_map.1 hc
  obtain ⟨ha, hb⟩ := h.columns _ hp
  exact ⟨⟨h.parent, ha⟩, h.aliasName.unmarked, hb⟩

theorem allClean_joins {js : List PlannedJoin} (h : ∀ j ∈ js, j.Clean) :
    Join.AllClean piece (js.map PlannedJoin.join) := by
  induction js with
  | nil => exact trivial
  | cons j js ih =>
    obtain ⟨hj, hjs⟩ := List.forall_mem_cons.1 h
    exact ⟨hj.table, hj.aliasName.unmarked, hj.condition, ih hjs⟩

end PlannedJoin

namespace JoinPlan

variable {plan : JoinPlan}

theorem Clean.outerJoins (h : plan.Clean) :
    Join.AllClean piece (plan.outerJoins.map PlannedJoin.join) :=
  PlannedJoin.allClean_joins fun j hj => h.joins j (List.mem_filter.1 hj).1

theorem Clean.subquery_iff (h : plan.Clean) {j : PlannedJoin} (hj : j.Clean) {inner : Condition} :
    (plan.subquery j inner).Clean piece ↔ inner.Clean piece := by
  refine ⟨fun hquery => hquery.2.2.2.2, fun hinner => ?_⟩
  refine ⟨hj.table, hj.aliasName.unmarked, ?_, hj.condition, hinner⟩
  exact PlannedJoin.allClean_joins fun k hk => h.joins k (List.mem_filter.1 hk).1

end JoinPlan

/-! ## Resolution -/

namespace Resolution

variable {registry : Registry} {plan : JoinPlan} {now : Instant} {place inside : ResolveScope}
  {j : PlannedJoin} {name : String} {c : Condition}

theorem OnColumn.clean {column : ColumnRef} (hcolumn : column.Clean) (h : OnColumn column c) :
    c.Clean piece := by
  induction h with
  | always => exact trivial
  | never => exact trivial
  | compare => exact hcolumn
  | between => exact hcolumn
  | like => exact hcolumn
  | isIn => exact hcolumn
  | isNull => exact hcolumn
  | both _ _ ihc ihd => exact ⟨ihc, ihd, trivial⟩

theorem fieldTest_clean (hnames : registry.CleanNames) (hplace : Unmarked place.aliasName)
    {t : FieldTest} (h : fieldTest registry now t place = .ok c) : c.Clean piece := by
  obtain ⟨e, field, he, hfield, -, hc⟩ := fieldTest_eq_ok.1 h
  have hcolumn := (hnames _ _ he).column _ (Entity.declaresColumn_field hfield)
  exact OnColumn.clean ⟨hplace, hcolumn⟩ (operandTest_onColumn hc)

/-- A relation resolves to a join of the plan. -/
theorem child_clean (hplan : plan.Clean) (h : child plan name place = .ok (j, inside)) :
    j.Clean ∧ CleanAlias inside.aliasName := by
  simp only [child] at h
  split at h
  · cases h
  · rename_i k hfind
    obtain ⟨rfl, rfl⟩ := Prod.mk.inj (Except.ok.inj h)
    have hclean := hplan.joins k (List.mem_of_find?_eq_some hfind)
    exact ⟨hclean, hclean.aliasName⟩

theorem quantified_clean_iff (hplan : plan.Clean) (hj : j.Clean) {inner : Condition}
    (q : Quantifier) : (quantified plan j q inner).Clean piece ↔ inner.Clean piece := by
  cases q with
  | any => exact hplan.subquery_iff hj
  | all =>
    have hfails : (plan.subquery j (.notTrue inner)).Clean piece ↔
        (Condition.notTrue inner).Clean piece := hplan.subquery_iff hj
    exact hfails
  | none => exact hplan.subquery_iff hj

theorem nestedCondition_clean_iff (hplan : plan.Clean) (hj : j.Clean) {inner : Condition} :
    (nestedCondition plan j inner).Clean piece ↔ inner.Clean piece := by
  rw [nestedCondition]
  split
  · exact hplan.subquery_iff hj
  · exact Iff.rfl

theorem entityParts_clean_iff {tests nested related all any negated : List Condition} :
    (∀ c ∈ entityParts tests nested related all any negated, c.Clean piece) ↔
      (∀ c ∈ tests, c.Clean piece) ∧ (∀ c ∈ nested, c.Clean piece) ∧
        (∀ c ∈ related, c.Clean piece) ∧ (∀ c ∈ all, c.Clean piece) ∧
        (∀ c ∈ any, c.Clean piece) ∧ ∀ c ∈ negated, c.Clean piece := by
  have hany : (∀ c ∈ (if any.isEmpty then [] else [Condition.anyOf any]), c.Clean piece) ↔
      ∀ c ∈ any, c.Clean piece := by
    cases any with
    | nil => simp
    | cons a as => exact List.forall_mem_singleton.trans Condition.clean_anyOf_iff
  have hnegated : (∀ c ∈ negated.map Condition.not, c.Clean piece) ↔
      ∀ c ∈ negated, c.Clean piece := List.forall_mem_map
  simp only [entityParts, List.forall_mem_append, hany, hnegated, and_assoc]

/-- When what a piece of SQL resolves to has one property exactly when the piece itself has another,
a filter becomes a clean condition exactly when all its pieces have the latter. -/
theorem filter_clean_iff (hnames : registry.CleanNames) (hplan : plan.Clean)
    {p q : String → List Parameter → Prop}
    (hraw : ∀ sql values place c, p sql values → CleanAlias place.aliasName →
      rawTest sql values place = .ok c → (c.Clean piece ↔ q sql values))
    {f : Filter} (hf : f.EveryPiece p) (hplace : CleanAlias place.aliasName)
    (h : filter registry plan now f place = .ok c) : c.Clean piece ↔ f.EveryPiece q := by
  induction hf generalizing place c with
  | field t => exact iff_of_true (fieldTest_clean hnames hplace.unmarked h) (.field t)
  | all _ ih =>
    obtain ⟨cs, hcs, h⟩ := bind_eq_ok.1 h
    obtain rfl := Except.ok.inj h
    rw [Condition.clean_allOf_iff, Filter.everyPiece_all]
    exact (forall_mem_iff (filters_eq_ok.1 hcs) fun f hf c hc => (ih f hf hplace hc).symm).symm
  | any _ ih =>
    obtain ⟨cs, hcs, h⟩ := bind_eq_ok.1 h
    obtain rfl := Except.ok.inj h
    rw [Condition.clean_anyOf_iff, Filter.everyPiece_any]
    exact (forall_mem_iff (filters_eq_ok.1 hcs) fun f hf c hc => (ih f hf hplace hc).symm).symm
  | not _ ih =>
    obtain ⟨inner, hinner, h⟩ := bind_eq_ok.1 h
    obtain rfl := Except.ok.inj h
    have hiff : inner.Clean piece ↔ _ := ih hplace hinner
    rw [Filter.everyPiece_not]
    exact hiff
  | @entity ef _ _ _ _ _ ihn ihr iha iho ihneg =>
    obtain ⟨-, tests, nested, related, all, any, negated, h₁, h₂, h₃, h₄, h₅, h₆, rfl⟩ :=
      entityFilter_eq_ok.1 h
    have htests : ∀ c ∈ tests, c.Clean piece :=
      forall_mem_right h₁ fun t _ c hc => fieldTest_clean hnames hplace.unmarked hc
    have hnested : (∀ part ∈ ef.nested, part.2.EveryPiece q) ↔ ∀ c ∈ nested, c.Clean piece := by
      refine forall_mem_iff h₂ ?_
      rintro ⟨name, f⟩ hf c ⟨j, inside, inner, hchild, hinner, rfl⟩
      obtain ⟨hj, hinside⟩ := child_clean hplan hchild
      rw [nestedCondition_clean_iff hplan hj]
      exact (ihn name f hf hinside hinner).symm
    rw [Condition.clean_allOf_iff, entityParts_clean_iff, Filter.everyPiece_entity, hnested,
      forall_mem_iff h₃ fun t ht c hc => (ihr t ht hplace hc).symm,
      forall_mem_iff h₄ fun f hf c hc => (iha f hf hplace hc).symm,
      forall_mem_iff h₅ fun f hf c hc => (iho f hf hplace hc).symm,
      forall_mem_iff h₆ fun f hf c hc => (ihneg f (Option.mem_toList.1 hf) hplace hc).symm]
    exact and_iff_right htests
  | quantified _ ih =>
    obtain ⟨⟨j, inside⟩, hcollection, h⟩ := bind_eq_ok.1 h
    obtain ⟨inner, hinner, h⟩ := bind_eq_ok.1 h
    obtain rfl := Except.ok.inj h
    obtain ⟨hj, hinside⟩ := child_clean hplan (collection_eq_ok.1 hcollection).1
    rw [quantified_clean_iff hplan hj, Filter.everyPiece_quantified]
    exact ih hinside hinner
  | size name op n =>
    obtain ⟨⟨j, inside⟩, hcollection, h⟩ := bind_eq_ok.1 h
    obtain ⟨-, rfl⟩ := sized_eq_ok.1 h
    obtain ⟨hj, -⟩ := child_clean hplan (collection_eq_ok.1 hcollection).1
    exact iff_of_true ((hplan.subquery_iff hj).2 trivial) (.size name op n)
  | raw hp =>
    rw [Filter.everyPiece_raw]
    exact hraw _ _ _ _ hp hplace h

/-! ## Pieces of SQL -/

theorem mem_replaceWord {word replacement cs : List Char} {skip : Nat} {ch : Char}
    (h : ch ∈ replaceWord word replacement skip cs) : ch ∈ replacement ∨ ch ∈ cs := by
  fun_induction replaceWord word replacement skip cs with
  | case1 => simp at h
  | case2 skip c cs ih => exact (ih h).imp_right (List.mem_cons_of_mem c)
  | case3 c cs _ ih =>
    rcases List.mem_append.1 h with h | h
    · exact .inl h
    · exact (ih h).imp_right (List.mem_cons_of_mem c)
  | case4 c cs _ ih =>
    rcases List.mem_cons.1 h with rfl | h
    · exact .inr List.mem_cons_self
    · exact (ih h).imp_right (List.mem_cons_of_mem c)

/-- Where the word for an alias begins, no number goes on, and no marker stands in the word. -/
theorem of_startsWith_aliasWord {ch : Char} {cs : List Char}
    (h : aliasWord.isPrefixOf (ch :: cs) = true) :
    ch = '\x7b' ∧ '?' ∉ cs.take (aliasWord.length - 1) := by
  obtain ⟨rest, hrest⟩ := List.isPrefixOf_iff_prefix.1 h
  obtain ⟨rfl, rfl⟩ := List.cons.inj hrest
  refine ⟨rfl, ?_⟩
  simp [aliasWord]

section Replacement

variable {replacement cs : List Char} (hne : replacement ≠ [])
  (hends : replacement.head?.all (fun c => !c.isDigit) = true)

include hne hends

theorem head?_replaceWord :
    (replaceWord aliasWord replacement 0 cs).head?.all (fun c => !c.isDigit) = true ↔
      cs.head?.all (fun c => !c.isDigit) = true := by
  cases cs with
  | nil => rfl
  | cons ch cs =>
    rw [replaceWord]
    split
    · rename_i hstarts
      rw [List.head?_append_of_ne_nil _ hne, (of_startsWith_aliasWord hstarts).1]
      exact iff_of_true hends rfl
    · rfl

/-- Putting in an alias moves no digit right after a marker, and none away from there. The rest of
an occurrence of the word, over which the replacement passes, holds no marker. -/
theorem markersEnd_replaceWord {skip : Nat} (hmarker : '?' ∉ replacement)
    (hskip : '?' ∉ cs.take skip) :
    MarkersEnd (replaceWord aliasWord replacement skip cs) ↔ MarkersEnd cs := by
  fun_induction replaceWord aliasWord replacement skip cs with
  | case1 => rfl
  | case2 skip ch cs ih =>
    rw [List.take_succ_cons, List.mem_cons, not_or] at hskip
    rw [ih hskip.2, markersEnd_cons_of_ne (Ne.symm hskip.1)]
  | case3 ch cs hstarts ih =>
    -- what stands in the place of the word begins as the word does: with neither marker nor digit
    obtain ⟨rfl, hword⟩ := of_startsWith_aliasWord hstarts
    rw [markersEnd_append hmarker, ih hword, markersEnd_cons_of_ne (by decide)]
  | case4 ch cs _ ih =>
    rw [MarkersEnd, MarkersEnd, ih (by simp), head?_replaceWord hne hends]

end Replacement

/-- What resolution makes of a piece of SQL: the alias of the place is put in, and there are as many
markers as values. -/
theorem rawTest_eq_ok {sql : String} {values : List Parameter}
    (h : rawTest sql values place = .ok c) : ∃ text,
      text = String.ofList (replaceWord aliasWord place.aliasName.toList 0 sql.toList) ∧
      LikePattern.countMarkers text = values.length ∧ c = .raw text values := by
  simp only [rawTest] at h
  split at h
  · rename_i hcount
    exact ⟨_, rfl, hcount, (Except.ok.inj h).symm⟩
  · cases h

/-- The markers of a piece of SQL that is resolved match its values. -/
theorem rawTest_clean {sql : String} {values : List Parameter} (hsql : '$' ∉ sql.toList)
    (hplace : CleanAlias place.aliasName) (h : rawTest sql values place = .ok c) :
    c.Clean MarkersMatch := by
  obtain ⟨text, rfl, hcount, rfl⟩ := rawTest_eq_ok h
  refine ⟨fun hmem => ?_, hcount⟩
  rw [String.toList_ofList] at hmem
  exact (mem_replaceWord hmem).elim hplace.unmarked.2 hsql

/-- A marker of a piece of SQL that is resolved has a digit right after it exactly when it had one
before. -/
theorem rawTest_stands_iff {sql : String} {values : List Parameter}
    (hplace : CleanAlias place.aliasName) (h : rawTest sql values place = .ok c) :
    c.Clean MarkersStand ↔ MarkersStand sql values := by
  obtain ⟨text, rfl, -, rfl⟩ := rawTest_eq_ok h
  have hne : place.aliasName.toList ≠ [] := by simpa using hplace.nonempty
  have hreplaced : MarkersEnd (replaceWord aliasWord place.aliasName.toList 0 sql.toList) ↔
      MarkersEnd sql.toList :=
    markersEnd_replaceWord hne hplace.ends hplace.unmarked.1 (by simp)
  rwa [← String.toList_ofList (l := replaceWord _ _ _ _)] at hreplaced

end Resolution

end FilterQuery
