import FilterQuery.Proofs.JoinPlan.Trails
import FilterQuery.Proofs.Statement.Markers

/-!
# Names in plans

What following a relation keeps, planning a whole filter keeps (`addFilter_preserves`). So when
no name of a registry holds a character that begins a marker (`Registry.CleanNames`), neither does
a name in a plan (`ofFilter_clean`); the aliases never do, and none goes on a number that stands
before it. Nothing is assumed of the names of the relations.
-/

namespace FilterQuery

/-! ## Clean names -/

/-- An entity whose table and columns hold no beginning of a marker. -/
structure Entity.CleanNames (e : Entity) : Prop where
  table : Unmarked e.table
  column : ∀ column, e.declaresColumn column = true → Unmarked column

/-- A registry whose tables and columns hold no beginning of a marker. -/
def Registry.CleanNames (r : Registry) : Prop :=
  ∀ code e, r.find? code = some e → e.CleanNames

theorem Registry.cleanNames_of_mem {r : Registry}
    (h : ∀ e ∈ r.toList, Unmarked e.table ∧ (∀ column ∈ e.primaryKey, Unmarked column) ∧
      ∀ p ∈ e.fields, Unmarked p.2.column) : r.CleanNames := by
  intro code e he
  obtain ⟨htable, hkey, hfields⟩ := h e (mem_toList_of_find? he)
  refine ⟨htable, fun column hcolumn => ?_⟩
  rw [Entity.declaresColumn, Bool.or_eq_true, List.contains_iff_mem, List.any_eq_true] at hcolumn
  rcases hcolumn with hcolumn | ⟨p, hp, hcolumn⟩
  · exact hkey column hcolumn
  · exact eq_of_beq hcolumn ▸ hfields p hp

/-- An alias that holds no beginning of a marker and does not go on a number before it. -/
structure CleanAlias (aliasName : String) : Prop where
  unmarked : Unmarked aliasName
  nonempty : aliasName ≠ ""
  ends : EndsNumber aliasName

/-- A join whose names hold no beginning of a marker. -/
structure PlannedJoin.Clean (j : PlannedJoin) : Prop where
  table : Unmarked j.table
  aliasName : CleanAlias j.aliasName
  parent : Unmarked j.parent
  columns : ∀ p ∈ j.relation.columns, Unmarked p.1 ∧ Unmarked p.2

namespace JoinPlan

/-- A plan whose names hold no beginning of a marker. -/
structure Clean (plan : JoinPlan) : Prop where
  table : Unmarked plan.table
  joins : ∀ j ∈ plan.joins, j.Clean

theorem cleanAlias_numberedAlias (n : Nat) : CleanAlias (numberedAlias n) where
  unmarked := Unmarked.append (by decide) (unmarked_toString n)
  nonempty := by simp [numberedAlias]
  ends := EndsNumber.append (by decide) (by decide) _

theorem cleanAlias_rootAlias : CleanAlias rootAlias where
  unmarked := by decide
  nonempty := by decide
  ends := by decide

/-! ## What planning preserves -/

section Preserving

variable {registry : Registry} {S : PlanScope → Prop} {I : JoinPlan → Prop} {scope : PlanScope}
  {plan plan' : JoinPlan}

/-- Planning a filter from places of a kind keeps a property of plans. -/
def Preserves (registry : Registry) (S : PlanScope → Prop) (I : JoinPlan → Prop) (f : Filter) :
    Prop :=
  ∀ scope plan plan', S scope → I plan → addFilter registry f scope plan = .ok plan' → I plan'

variable (hvisit : ∀ name scope plan child plan', S scope → I plan →
  visit registry name scope plan = .ok (child, plan') → S child ∧ I plan')

include hvisit

/-- What following any relation keeps of a place and of the plan, walking a trail keeps of the
plan. -/
theorem addTrail_preserves {t : Trail} (hs : S scope) (hplan : I plan)
    (h : addTrail registry t scope plan = .ok plan') : I plan' := by
  induction t generalizing scope plan plan' with
  | done => exact Except.ok.inj h ▸ hplan
  | expect code rest ih =>
    unfold addTrail at h
    split at h
    · cases h
    · exact ih hs hplan h
  | follow name below rest ihbelow ihrest =>
    simp only [addTrail, bind_eq_ok] at h
    obtain ⟨⟨child, first⟩, hfirst, second, hsecond, hrest⟩ := h
    obtain ⟨hchild, hplan₁⟩ := hvisit _ _ _ _ _ hs hplan hfirst
    have hplan₂ := ihbelow hchild hplan₁ hsecond
    exact ihrest hs hplan₂ hrest

/-- What following any relation keeps, planning any filter keeps. -/
theorem addFilter_preserves (f : Filter) : Preserves registry S I f := by
  intro scope plan plan' hs hplan h
  rw [addFilter_eq_addTrail] at h
  exact addTrail_preserves hvisit hs hplan h

end Preserving

/-! ## Clean plans -/

variable {registry : Registry} (hclosed : registry.validate = .ok ()) (hnames : registry.CleanNames)

include hclosed hnames

/-- Following a relation adds clean names only. -/
theorem visit_clean {name : String} {scope child : PlanScope} {plan plan' : JoinPlan}
    (halias : CleanAlias scope.aliasName) (hplan : plan.Clean)
    (h : visit registry name scope plan = .ok (child, plan')) :
    CleanAlias child.aliasName ∧ plan'.Clean := by
  simp only [visit, bind_eq_ok, Registry.lookupRelation_eq_ok] at h
  obtain ⟨relation, hrel, h⟩ := h
  split at h
  · rename_i j hfind
    obtain ⟨rfl, rfl⟩ := Prod.mk.inj (Except.ok.inj h)
    exact ⟨(hplan.joins j (List.mem_of_find?_eq_some hfind)).aliasName, hplan⟩
  · obtain ⟨target, htarget, h⟩ := bind_eq_ok.1 h
    obtain ⟨rfl, rfl⟩ := Prod.mk.inj (Except.ok.inj h)
    have hnew : CleanAlias plan.nextAlias := by
      rw [nextAlias_eq]
      exact cleanAlias_numberedAlias _
    refine ⟨hnew, hplan.table, List.forall_mem_append.2 ⟨hplan.joins, ?_⟩⟩
    rw [List.forall_mem_singleton]
    obtain ⟨source, other, hsource, hother, -, hcolumns⟩ := Registry.closed_relation hclosed hrel
    refine ⟨(hnames _ _ (Registry.lookup_eq_ok.1 htarget)).table, hnew, halias.unmarked,
      fun p hp => ?_⟩
    obtain ⟨hleft, hright⟩ := hcolumns p hp
    exact ⟨(hnames _ _ hsource).column _ hleft, (hnames _ _ hother).column _ hright⟩

/-- The plan of a filter has clean names. -/
theorem ofFilter_clean {root : String} {f : Filter} {plan : JoinPlan}
    (h : ofFilter registry root f = .ok plan) : plan.Clean := by
  obtain ⟨entity, hentity, h⟩ := bind_eq_ok.1 h
  have hstart : (start entity).Clean :=
    ⟨(hnames _ _ (Registry.lookup_eq_ok.1 hentity)).table, by simp [start]⟩
  have hpreserves := addFilter_preserves (S := fun scope => CleanAlias scope.aliasName)
    (I := Clean)
    (fun _ _ _ _ _ hs hplan hvisit => visit_clean hclosed hnames hs hplan hvisit) f
  exact hpreserves _ _ _ cleanAlias_rootAlias hstart h

end JoinPlan

end FilterQuery
