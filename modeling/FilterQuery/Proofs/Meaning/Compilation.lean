import FilterQuery.Proofs.JoinPlan.Levels
import FilterQuery.Proofs.Meaning.FieldTests
import FilterQuery.Proofs.Schema.Catalog

/-!
# Compilation preserves meaning

What a filter compiles to selects the rows for which the filter is meant to hold. Single-valued
joins do not multiply environments: they give each environment the related rows
(`Planned.extend_joins`, `follow`). On the way down a filter, `Faithful` relates the environment to
the place: the alias of the place has a row of its entity or the row of nulls, and the joins of the
level have their related rows. A collection is entered by giving its alias each related row in turn
(`Planned.rows_subquery`), and in a faithful environment the condition says what the filter means
(`eval_filter`).
-/

namespace FilterQuery

variable {Cell : Type} {db : Database Cell} {env : Env Cell} {registry : Registry} {now : Instant}
  {plan : JoinPlan} {scope : PlanScope} {j : PlannedJoin} {name : String} {known : List String}

/-! ## Rows -/

namespace Database

/-- A row of an entity, or the row of nulls that stands for a missing one. -/
def IsRowOf (registry : Registry) (db : Database Cell) (code : String) (row : Row Cell) : Prop :=
  row = Row.null ∨ row ∈ db.rowsOf registry code

theorem relates_null {relation : Relation} (hcolumns : relation.columns ≠ []) (other : Row Cell) :
    db.relates relation Row.null other = false := by
  obtain ⟨p, ps, hp⟩ := List.exists_cons_of_ne_nil hcolumns
  rw [relates, hp, List.map_cons, Truth.all_cons, decide_eq_false_iff_not, Truth.and_eq_holds]
  rintro ⟨hfirst, -⟩
  cases hfirst

/-- Nothing is related to the row of nulls. -/
theorem relatedRows_null {relation : Relation} (hcolumns : relation.columns ≠ []) :
    db.relatedRows registry relation Row.null = [] := by
  rw [relatedRows, List.filter_eq_nil_iff]
  intro other _
  rw [relates_null hcolumns]
  exact Bool.false_ne_true

/-- A relation that leads to at most one row has one related row, or none and the row of nulls in
its place. -/
theorem padded_relatedRows (hclosed : registry.validate = .ok ()) {code : String}
    {relation : Relation} (hrel : registry.relation? code name = some relation)
    (hone : ∀ row ∈ db.rowsOf registry code, (db.relatedRows registry relation row).length ≤ 1)
    {row : Row Cell} (hrow : db.IsRowOf registry code row) :
    padded Row.null (db.relatedRows registry relation row) =
      [db.relatedRow registry relation row] := by
  rcases hrow with rfl | hrow
  · obtain ⟨_, _, _, _, hcolumns, _⟩ := Registry.closed_relation hclosed hrel
    rw [relatedRow, relatedRows_null hcolumns]
    rfl
  · have hlength := hone row hrow
    rw [relatedRow]
    match db.relatedRows registry relation row, hlength with
    | [], _ => rfl
    | [other], _ => rfl

theorem isRowOf_relatedRow (relation : Relation) (row : Row Cell) :
    db.IsRowOf registry relation.target (db.relatedRow registry relation row) := by
  rw [relatedRow]
  cases hrows : db.relatedRows registry relation row with
  | nil => exact Or.inl rfl
  | cons other others =>
    refine Or.inr (List.mem_of_mem_filter (p := db.relates relation row) ?_)
    rw [← relatedRows, hrows]
    exact List.mem_cons_self

end Database

/-! ## Joins -/

namespace JoinPlan

/-- The environment in which, one after another, the alias of each join gets the related row. -/
def follow (registry : Registry) (db : Database Cell) : List PlannedJoin → Env Cell → Env Cell
  | [], env => env
  | j :: js, env =>
    follow registry db js (env.set j.aliasName (db.relatedRow registry j.relation (env j.parent)))

/-- Each known alias has a row of the entity that it stands for. -/
def Typed (registry : Registry) (db : Database Cell) (plan : JoinPlan) (known : List String)
    (env : Env Cell) : Prop :=
  ∀ a ∈ known, ∀ code, plan.entityOf? a = some code → db.IsRowOf registry code (env a)

theorem not_mem_of_chained {js : List PlannedJoin} (h : Chained known js) {a : String}
    (ha : a ∈ known) : a ∉ js.map (·.aliasName) := by
  induction js generalizing known with
  | nil => simp
  | cons k ks ih =>
    obtain ⟨-, hnew, hks⟩ := h
    rw [List.map_cons, List.mem_cons, not_or]
    refine ⟨?_, ih hks (List.mem_cons_of_mem _ ha)⟩
    rintro rfl
    exact hnew ha

theorem follow_of_not_mem {js : List PlannedJoin} {a : String} (h : a ∉ js.map (·.aliasName)) :
    follow registry db js env a = env a := by
  induction js generalizing env with
  | nil => rfl
  | cons k ks ih =>
    rw [List.map_cons, List.mem_cons, not_or] at h
    rw [follow, ih h.2, Env.set_of_ne _ _ h.1]

/-- Once chained joins are followed, each of their aliases has the row related to that of its
parent. -/
theorem follow_alias {js : List PlannedJoin} (h : Chained known js) {k : PlannedJoin}
    (hk : k ∈ js) : follow registry db js env k.aliasName =
      db.relatedRow registry k.relation (follow registry db js env k.parent) := by
  induction js generalizing known env with
  | nil => cases hk
  | cons i js ih =>
    obtain ⟨hparent, hnew, hjs⟩ := h
    rcases List.mem_cons.1 hk with rfl | hk
    · have hne : k.parent ≠ k.aliasName := fun heq => hnew (heq ▸ hparent)
      rw [follow, follow_of_not_mem (not_mem_of_chained hjs List.mem_cons_self), Env.set_self,
        follow_of_not_mem (not_mem_of_chained hjs (List.mem_cons_of_mem _ hparent)),
        Env.set_of_ne _ _ hne]
    · exact ih hjs hk

/-- The condition of a join holds of related rows. -/
theorem decide_condition : decide (j.condition.eval db env = .holds) =
    db.relates j.relation (env j.parent) (env j.aliasName) := by
  rw [PlannedJoin.condition, Condition.eval_columnsMatch, Database.relates]

theorem Planned.rowsOf_target (h : Planned registry plan) (hj : j ∈ plan.joins) :
    db.rowsOf registry j.relation.target = db.table j.table := by
  obtain ⟨s, n, -, hfollows⟩ := h.follows hj
  obtain ⟨target, htarget, htable⟩ := hfollows.table
  rw [Database.rowsOf, htarget, htable]

/-- The matches of a join are the related rows. -/
theorem Planned.matches_join (h : Planned registry plan) (hj : j ∈ plan.joins)
    (hne : j.parent ≠ j.aliasName) :
    (((db.table j.table).map (env.set j.aliasName)).filter fun env =>
        decide (j.condition.eval db env = .holds)) =
      (db.relatedRows registry j.relation (env j.parent)).map (env.set j.aliasName) := by
  rw [List.filter_map, Database.relatedRows, h.rowsOf_target hj]
  congr 1
  refine List.filter_congr fun row _ => ?_
  rw [Function.comp_apply, decide_condition, Env.set_self, Env.set_of_ne _ _ hne]

theorem padded_map {α β : Type} (f : α → β) (a : α) (as : List α) :
    padded (f a) (as.map f) = (padded a as).map f := by
  cases as <;> rfl

/-- The relation of a join leads from each row of its source to at most one. -/
def LeadsToOne (registry : Registry) (db : Database Cell) (j : PlannedJoin) : Prop :=
  ∀ row ∈ db.rowsOf registry j.source, (db.relatedRows registry j.relation row).length ≤ 1

theorem Planned.leadsToOne (h : Planned registry plan) (hsingle : db.SingleValued registry)
    (hj : j ∈ plan.joins) (hone : j.relation.isMany = false) : LeadsToOne registry db j := by
  obtain ⟨s, n, -, hfollows⟩ := h.follows hj
  rw [LeadsToOne, hfollows.source]
  exact hsingle _ _ _ hfollows.relation hone

/-- Left joins along relations that lead to at most one row keep each environment, and give it the
related rows. -/
theorem Planned.extend_joins (h : Planned registry plan) (hclosed : registry.validate = .ok ())
    {js : List PlannedJoin} (hjs : ∀ k ∈ js, k ∈ plan.joins ∧ LeadsToOne registry db k)
    (hchained : Chained known js) {envs : List (Env Cell)}
    (henvs : ∀ env ∈ envs, plan.Typed registry db known env) :
    Join.extend db (js.map PlannedJoin.join) envs = envs.map (follow registry db js) := by
  induction js generalizing known envs with
  | nil => simp [Join.extend, follow]
  | cons k ks ih =>
    obtain ⟨hparent, hnew, hks⟩ := hchained
    obtain ⟨hk, hone⟩ := hjs k List.mem_cons_self
    have hne : k.parent ≠ k.aliasName := fun heq => hnew (heq ▸ hparent)
    obtain ⟨s, n, hs, hfollows⟩ := h.follows hk
    have hstep : (envs.flatMap fun env => padded (env.set k.aliasName Row.null) <|
        ((db.table k.table).map (env.set k.aliasName)).filter fun env =>
          decide (k.condition.eval db env = .holds)) = envs.map fun env =>
        env.set k.aliasName (db.relatedRow registry k.relation (env k.parent)) := by
      rw [List.map_eq_flatMap]
      refine List.flatMap_congr fun env henv => ?_
      have hrow : db.IsRowOf registry s.entity (env k.parent) := by
        refine henvs env henv k.parent hparent s.entity ?_
        rw [hfollows.parent]
        exact h.entityOf?_scope hs
      rw [h.matches_join hk hne, padded_map,
        Database.padded_relatedRows hclosed hfollows.relation (hfollows.source ▸ hone) hrow]
      rfl
    rw [List.map_cons, PlannedJoin.join, Join.extend, hstep,
      ih (fun i hi => hjs i (List.mem_cons_of_mem _ hi)) hks, List.map_map]
    · rfl
    · intro env' henv' a ha code hcode
      obtain ⟨env, henv, rfl⟩ := List.mem_map.1 henv'
      rcases List.mem_cons.1 ha with rfl | ha
      · rw [h.entityOf?_alias hk] at hcode
        obtain rfl := Option.some.inj hcode
        rw [Env.set_self]
        exact Database.isRowOf_relatedRow _ _
      · have hother : a ≠ k.aliasName := fun heq => hnew (heq ▸ ha)
        rw [Env.set_of_ne _ _ hother]
        exact henvs env henv a ha code hcode

/-! ## Places -/

/-- The joins of the level of a place have their related rows. -/
def Faithful (registry : Registry) (db : Database Cell) (plan : JoinPlan) (scope : PlanScope)
    (env : Env Cell) : Prop :=
  ∀ k ∈ plan.levelJoins scope.anchor,
    env k.aliasName = db.relatedRow registry k.relation (env k.parent)

/-- The alias of a place is none of those that the subquery of a collection below it brings. -/
theorem Planned.alias_outside (h : Planned registry plan) (hs : plan.Reaches scope)
    (hfollows : Follows registry scope name j) {k : PlannedJoin} (hk : k ∈ plan.joins)
    (hplace : k.placement = .inside j.path) : scope.aliasName ≠ k.aliasName := by
  rcases hs with rfl | ⟨i, hi, rfl⟩
  · exact (h.alias_ne_root hk).symm
  · intro halias
    obtain rfl := h.eq_of_alias hi hk halias
    have hupper := h.depth_anchor_le hk
    have hbelow := depth_lt_childPath (some i.path) name
    have hpath : j.path = childPath (some i.path) name := hfollows.path
    rw [hplace, Placement.anchor?, hpath] at hupper
    omega

theorem Planned.not_mem_innerJoins (h : Planned registry plan) (hs : plan.Reaches scope)
    (hfollows : Follows registry scope name j) :
    scope.aliasName ∉ (plan.innerJoins j.path).map (·.aliasName) := by
  intro hmem
  obtain ⟨k, hk, halias⟩ := List.mem_map.1 hmem
  have hlevel : k ∈ plan.levelJoins (some j.path) := hk
  obtain ⟨hk, -, hplace⟩ := h.mem_levelJoins.1 hlevel
  exact h.alias_outside hs hfollows hk hplace halias.symm

/-- The environment in which the subquery of a collection is read for a row. -/
def enter (registry : Registry) (db : Database Cell) (plan : JoinPlan) (j : PlannedJoin)
    (env : Env Cell) (row : Row Cell) : Env Cell :=
  follow registry db (plan.innerJoins j.path) (env.set j.aliasName row)

theorem Planned.enter_alias (h : Planned registry plan) (hj : j ∈ plan.joins)
    (hmany : j.relation.isMany = true) (row : Row Cell) :
    enter registry db plan j env row j.aliasName = row := by
  rw [enter, follow_of_not_mem, Env.set_self]
  exact not_mem_of_chained (h.chained_inner hj hmany) (List.mem_singleton_self _)

theorem Planned.enter_outside (h : Planned registry plan) (hs : plan.Reaches scope)
    (hj : j ∈ plan.joins) (hfollows : Follows registry scope name j)
    (hmany : j.relation.isMany = true) (row : Row Cell) :
    enter registry db plan j env row scope.aliasName = env scope.aliasName := by
  rw [enter, follow_of_not_mem (h.not_mem_innerJoins hs hfollows), Env.set_of_ne]
  exact h.alias_outside hs hfollows hj (h.placement_of_many hj hmany)

theorem Planned.faithful_enter (h : Planned registry plan) (hj : j ∈ plan.joins)
    (hmany : j.relation.isMany = true) (row : Row Cell) :
    Faithful registry db plan j.scope (enter registry db plan j env row) := by
  rw [Faithful, h.anchor_of_many hj hmany]
  exact fun k hk => follow_alias (h.chained_inner hj hmany) hk

/-- The joins inside the subquery of a collection lead to at most one row. -/
def SingleInside (registry : Registry) (db : Database Cell) (plan : JoinPlan) (j : PlannedJoin) :
    Prop :=
  ∀ k ∈ plan.innerJoins j.path, LeadsToOne registry db k

theorem Planned.singleInside (h : Planned registry plan) (hsingle : db.SingleValued registry)
    (j : PlannedJoin) : SingleInside registry db plan j := by
  intro k hk
  have hlevel : k ∈ plan.levelJoins (some j.path) := hk
  obtain ⟨hk, hone, -⟩ := h.mem_levelJoins.1 hlevel
  exact h.leadsToOne hsingle hk hone

/-- The rows of the subquery of a collection are the related rows that satisfy its filter, when the
joins inside lead to at most one row. -/
theorem Planned.rows_subquery (h : Planned registry plan) (hclosed : registry.validate = .ok ())
    (hsingle : SingleInside registry db plan j) (hs : plan.Reaches scope) (hj : j ∈ plan.joins)
    (hfollows : Follows registry scope name j) (hmany : j.relation.isMany = true) {c : Condition}
    (test : Row Cell → Truth)
    (hc : ∀ env, Faithful registry db plan j.scope env → c.eval db env = test (env j.aliasName))
    (env : Env Cell) :
    (Subquery.rows db (plan.subquery j c) env).map (fun env => env j.aliasName) =
      (db.relatedRows registry j.relation (env scope.aliasName)).filter fun row =>
        decide (test row = .holds) := by
  have hextend : Join.extend db ((plan.innerJoins j.path).map PlannedJoin.join)
      ((db.table j.table).map (env.set j.aliasName)) =
        (db.table j.table).map (enter registry db plan j env) := by
    rw [h.extend_joins hclosed ?_ (h.chained_inner hj hmany), List.map_map]
    · rfl
    · intro env' henv' a ha code hcode
      obtain ⟨row, hrow, rfl⟩ := List.mem_map.1 henv'
      obtain rfl := List.mem_singleton.1 ha
      rw [h.entityOf?_alias hj] at hcode
      obtain rfl := Option.some.inj hcode
      rw [Env.set_self]
      exact Or.inr ((h.rowsOf_target hj).symm ▸ hrow)
    · intro k hk
      have hlevel : k ∈ plan.levelJoins (some j.path) := hk
      exact ⟨(h.mem_levelJoins.1 hlevel).1, hsingle k hk⟩
  have hselect : ∀ row, decide (((j.condition.eval db (enter registry db plan j env row)).and
      (c.eval db (enter registry db plan j env row))) = .holds) =
        (decide (test row = .holds) && db.relates j.relation (env scope.aliasName) row) := by
    intro row
    rw [decide_eq_decide.2 Truth.and_eq_holds, Bool.decide_and, decide_condition,
      hc _ (h.faithful_enter hj hmany row), h.enter_alias hj hmany, hfollows.parent,
      h.enter_outside hs hj hfollows hmany, Bool.and_comm]
  rw [subquery, Subquery.rows, hextend, List.filter_map, List.map_map, Database.relatedRows,
    h.rowsOf_target hj, List.filter_filter]
  have hback : (fun env => env j.aliasName) ∘ enter registry db plan j env = id := by
    funext row
    exact h.enter_alias hj hmany row
  rw [hback, List.map_id]
  exact List.filter_congr fun row _ => hselect row

end JoinPlan

/-! ## Filters -/

theorem SizeOp.test_eq (op : SizeOp) (m n : Nat) :
    (Resolution.sizeComparison op).test m n = op.test m n := by
  rw [Bool.eq_iff_iff]
  cases op <;>
    simp only [Resolution.sizeComparison, Comparison.test, SizeOp.test, decide_eq_true_eq,
      beq_iff_eq] <;>
    omega

namespace Resolution

open JoinPlan (Planned Follows Faithful SingleInside)
open List (Forall₂)

/-- Conditions that say what filters mean, one by one, have the same truth values. -/
theorem map_eval_eq {α : Type} {meaning : α → Truth} {as : List α} {cs : List Condition}
    (h : Forall₂ (fun a c => c.eval db env = meaning a) as cs) :
    (cs.map fun c => c.eval db env) = as.map meaning := by
  induction h with
  | nil => rfl
  | cons hac _ ih => rw [List.map_cons, List.map_cons, hac, ih]

theorem not_isEmpty_filter {α : Type} (p : α → Bool) (as : List α) :
    (!(as.filter p).isEmpty) = as.any p := by
  induction as with
  | nil => rfl
  | cons a as ih =>
    rw [List.filter_cons, List.any_cons, ← ih]
    cases p a <;> simp

/-- A test on a collection asks whether a related row satisfies its filter. -/
theorem eval_hasRow (hplan : Planned registry plan) (hclosed : registry.validate = .ok ())
    (hsingle : db.SingleValued registry) (hs : plan.Reaches scope) (hj : j ∈ plan.joins)
    (hfollows : Follows registry scope name j) (hmany : j.relation.isMany = true) {c : Condition}
    (test : Row Cell → Truth)
    (hc : ∀ env, Faithful registry db plan j.scope env → c.eval db env = test (env j.aliasName))
    (env : Env Cell) (negated : Bool) :
    (Condition.hasRow (plan.subquery j c) negated).eval db env =
      (Truth.ofBool ((db.relatedRows registry j.relation (env scope.aliasName)).any fun row =>
        decide (test row = .holds))).negatedIf negated := by
  have hrows := hplan.rows_subquery hclosed (hplan.singleInside hsingle j) hs hj hfollows hmany test
    hc env
  have hempty := congrArg List.isEmpty hrows
  rw [List.isEmpty_map] at hempty
  rw [Condition.eval, hempty, not_isEmpty_filter]

/-- A quantified test means that its quantifier is true of the related rows. -/
theorem eval_quantified (hplan : Planned registry plan) (hclosed : registry.validate = .ok ())
    (hsingle : db.SingleValued registry) (hs : plan.Reaches scope) (hj : j ∈ plan.joins)
    (hfollows : Follows registry scope name j) (hmany : j.relation.isMany = true)
    (quantifier : Quantifier) {c : Condition} (test : Row Cell → Truth)
    (hc : ∀ env, Faithful registry db plan j.scope env → c.eval db env = test (env j.aliasName))
    (env : Env Cell) :
    (quantified plan j quantifier c).eval db env = .ofBool (quantifier.test
      (db.relatedRows registry j.relation (env scope.aliasName)) test) := by
  cases quantifier with
  | any => exact eval_hasRow hplan hclosed hsingle hs hj hfollows hmany test hc env false
  | none =>
    rw [quantified, eval_hasRow hplan hclosed hsingle hs hj hfollows hmany test hc, Truth.negatedIf,
      if_pos rfl, Truth.not_ofBool]
    rfl
  | all =>
    have hnot : ∀ env, Faithful registry db plan j.scope env → (Condition.notTrue c).eval db env =
        .ofBool (decide (test (env j.aliasName) ≠ .holds)) := by
      intro env henv
      rw [Condition.eval, hc env henv]
    have htest : ∀ row, decide (Truth.ofBool (decide (test row ≠ .holds)) = .holds) =
        !decide (test row = .holds) := by
      intro row
      cases test row <;> rfl
    rw [quantified, eval_hasRow hplan hclosed hsingle hs hj hfollows hmany
      (fun row => .ofBool (decide (test row ≠ .holds))) hnot, Truth.negatedIf, if_pos rfl,
      Truth.not_ofBool, Quantifier.test, List.all_eq_not_any_not]
    simp only [htest]

/-- The number of rows of the subquery of a collection is the number of related rows, when the
joins inside lead to at most one row. -/
theorem eval_rowCount (hplan : Planned registry plan) (hclosed : registry.validate = .ok ())
    (hsingle : SingleInside registry db plan j) (hs : plan.Reaches scope) (hj : j ∈ plan.joins)
    (hfollows : Follows registry scope name j) (hmany : j.relation.isMany = true) (op : SizeOp)
    (n : Nat) (env : Env Cell) :
    (Condition.rowCount (plan.subquery j .always) (sizeComparison op) n).eval db env =
      .ofBool (op.test (db.relatedRows registry j.relation (env scope.aliasName)).length n) := by
  have hrows := hplan.rows_subquery (c := .always) hclosed hsingle hs hj hfollows hmany
    (fun _ => .holds) (fun _ _ => rfl) env
  have hlength := congrArg List.length hrows
  have hevery : ((db.relatedRows registry j.relation (env scope.aliasName)).filter fun _ =>
      decide (Truth.holds = Truth.holds)) = _ := List.filter_eq_self.2 fun _ _ => rfl
  rw [List.length_map, hevery] at hlength
  rw [Condition.eval, hlength, SizeOp.test_eq]

/-- A filter of a relation means what the relation says of the row. -/
theorem eval_nestedCondition (hplan : Planned registry plan) (hclosed : registry.validate = .ok ())
    (hsingle : db.SingleValued registry) (hs : plan.Reaches scope) (hj : j ∈ plan.joins)
    (hfollows : Follows registry scope name j) {c : Condition} (meaning : String → Row Cell → Truth)
    (hc : ∀ env, Faithful registry db plan j.scope env →
      c.eval db env = meaning j.target (env j.aliasName))
    {env : Env Cell} (henv : Faithful registry db plan scope env) :
    (nestedCondition plan j c).eval db env =
      db.related registry scope.entity name (env scope.aliasName) meaning := by
  rw [nestedCondition, Database.related, hfollows.relation]
  simp only
  split
  · rename_i hmany
    exact eval_hasRow hplan hclosed hsingle hs hj hfollows hmany (meaning j.target) hc env false
  · rename_i hone
    obtain ⟨hlevel, hanchor⟩ := hplan.nested_level hj hfollows (by simpa using hone)
    have hfaithful : Faithful registry db plan j.scope env := by
      rw [Faithful, hanchor]
      exact henv
    rw [hc env hfaithful, henv j hlevel, hfollows.parent]
    rfl

theorem eval_entityParts {tests nested related all any negated : List Condition} :
    ((entityParts tests nested related all any negated).map fun c => c.eval db env) =
      (tests.map fun c => c.eval db env) ++ (nested.map fun c => c.eval db env) ++
        (related.map fun c => c.eval db env) ++ (all.map fun c => c.eval db env) ++
        (if any.isEmpty then [] else [.any (any.map fun c => c.eval db env)]) ++
        (negated.map fun c => (c.eval db env).not) := by
  simp only [entityParts, List.map_append, List.map_map]
  congr 2
  split
  · rfl
  · rw [List.map_singleton, Condition.eval_anyOf]

/-- A filter without pieces of SQL resolves to a condition that says of the row of its place what
the filter means, in every environment that is faithful to the place. -/
theorem eval_filter (hclosed : registry.validate = .ok ()) (hplain : registry.PlainRelations)
    (hplan : Planned registry plan) (hsingle : db.SingleValued registry) {f : Filter}
    {c : Condition} (hfits : f.Fits registry scope.entity) (hraw : f.RawFree)
    (hs : plan.Reaches scope) (h : filter registry plan now f scope.place = .ok c)
    (henv : Faithful registry db plan scope env) :
    c.eval db env = f.meaning registry db now scope.entity (env scope.aliasName) := by
  refine resolved_induct (P := fun s f c => ∀ env, plan.Reaches s →
    Faithful registry db plan s env →
      c.eval db env = f.meaning registry db now s.entity (env s.aliasName)) hplan hplain
    ?field ?all ?any ?not ?entity ?quantified ?size ?raw (hfits.obeys hraw) hs rfl h env hs henv
  case field =>
    intro s t c _ _ hc env _ _
    exact eval_fieldTest hc
  case all =>
    intro s fs cs hcs env hs henv
    rw [Condition.eval_allOf, Filter.meaning, Filter.meanings_eq_map]
    exact congrArg _ (map_eval_eq (hcs.imp fun f c hc => hc env hs henv))
  case any =>
    intro s fs cs hcs env hs henv
    rw [Condition.eval_anyOf, Filter.meaning, Filter.meanings_eq_map]
    exact congrArg _ (map_eval_eq (hcs.imp fun f c hc => hc env hs henv))
  case not =>
    intro s f c hc env hs henv
    rw [Condition.eval, Filter.meaning, hc env hs henv]
  case entity =>
    intro s ef tests nested related all any negated _ h₁ h₂ h₃ h₄ h₅ h₆ env hs henv
    obtain ⟨code, fields, nestedFilters, relatedTests, items, choices, refused⟩ := ef
    have hfields := map_eval_eq (h₁.imp fun t c hc => hc env hs henv)
    have hnested := map_eval_eq (h₂.imp fun p c hc => by
      obtain ⟨j, hj, hfollows, inner, hinner, rfl⟩ := hc
      exact eval_nestedCondition hplan hclosed hsingle hs hj hfollows
        (fun target other => p.2.meaning registry db now target other)
        (fun env henv => hinner env (JoinPlan.reaches_scope hj) henv) henv)
    have hrelated := map_eval_eq (h₃.imp fun t c hc => hc env hs henv)
    have hitems := map_eval_eq (h₄.imp fun f c hc => hc env hs henv)
    have hchoices := map_eval_eq (h₅.imp fun f c hc => hc env hs henv)
    have hrefused := congrArg (List.map Truth.not)
      (map_eval_eq (h₆.imp fun f c hc => hc env hs henv))
    have hempty : any.isEmpty = choices.isEmpty := by
      cases h₅ <;> rfl
    rw [List.map_map, List.map_map] at hrefused
    rw [Condition.eval_allOf, eval_entityParts, Filter.meaning, EntityFilter.meaning,
      Filter.nestedMeanings_eq_map, RelatedTest.meanings_eq_map, Filter.meanings_eq_map,
      Filter.meanings_eq_map, Filter.negatedMeaning_eq_map, hfields, hnested, hrelated, hitems,
      hchoices, hempty]
    exact congrArg (fun ts => Truth.all (_ ++ ts)) hrefused
  case quantified =>
    intro s name q f j inner hj hfollows hmany hinner env hs _
    rw [Filter.meaning, RelatedTest.meaning, hfollows.relation]
    exact eval_quantified hplan hclosed hsingle hs hj hfollows hmany q _
      (fun env henv => hinner env (JoinPlan.reaches_scope hj) henv) env
  case size =>
    intro s name op n j hj hfollows hmany _ env hs _
    rw [Filter.meaning, RelatedTest.meaning, hfollows.relation]
    exact eval_rowCount hplan hclosed (hplan.singleInside hsingle j) hs hj hfollows hmany op n env
  case raw =>
    intro s sql values c hfalse
    exact hfalse.elim

end Resolution

/-- The environments of the outer query are faithful to the root, one for each row of the root. -/
theorem CompiledFilter.environments_eq (compiled : CompiledFilter)
    (hplan : JoinPlan.Planned registry compiled.plan) (hclosed : registry.validate = .ok ())
    (hsingle : db.SingleValued registry) :
    ∃ environment : Row Cell → Env Cell,
      compiled.environments db = (db.rowsOf registry compiled.plan.root).map environment ∧
      ∀ row, environment row JoinPlan.rootAlias = row ∧
        JoinPlan.Faithful registry db compiled.plan compiled.plan.rootScope (environment row) := by
  obtain ⟨entity, hentity, htable⟩ := hplan.root
  have hchained := hplan.chained_outer
  refine ⟨fun row => JoinPlan.follow registry db compiled.plan.outerJoins
    (Env.set (fun _ => Row.null) JoinPlan.rootAlias row), ?_, ?_⟩
  · rw [environments, hplan.extend_joins hclosed ?_ hchained, List.map_map, Database.rowsOf,
      hentity, htable]
    · rfl
    · intro env henv a ha code hcode
      obtain ⟨row, hrow, rfl⟩ := List.mem_map.1 henv
      obtain rfl := List.mem_singleton.1 ha
      rw [JoinPlan.entityOf?_rootAlias] at hcode
      obtain rfl := Option.some.inj hcode
      rw [Env.set_self]
      rw [htable] at hrow
      exact Or.inr (by rwa [Database.rowsOf, hentity])
    · intro k hk
      have hlevel : k ∈ compiled.plan.levelJoins none := hk
      obtain ⟨hk, hone, -⟩ := hplan.mem_levelJoins.1 hlevel
      exact ⟨hk, hplan.leadsToOne hsingle hk hone⟩
  · intro row
    refine ⟨?_, fun k hk => JoinPlan.follow_alias hchained hk⟩
    show JoinPlan.follow _ _ _ _ _ = row
    rw [JoinPlan.follow_of_not_mem, Env.set_self]
    exact JoinPlan.not_mem_of_chained hchained (List.mem_singleton_self _)

/-- Compilation preserves meaning. On a database in which single-valued relations lead to at most
one row, the outer query of a compiled filter has one environment for each row of the root, in
which the condition has the truth value that the filter is meant to have on the row; so the rows
that are selected are those for which the filter is meant to hold. -/
theorem Engine.compile_selects (e : Engine) (hplain : e.registry.PlainRelations)
    (hsingle : db.SingleValued e.registry) {root : String} {f : Filter} (hraw : f.RawFree)
    {compiled : CompiledFilter} (h : e.compile root f now = .ok compiled) :
    ∃ entity, e.registry.find? root = some entity ∧
      (compiled.environments db).map
          (fun env => (env JoinPlan.rootAlias, compiled.condition.eval db env)) =
        (db.table entity.table).map
          (fun row => (row, f.meaning e.registry db now root row)) ∧
      compiled.select db = (db.table entity.table).filter fun row =>
        decide (f.meaning e.registry db now root row = .holds) := by
  simp only [compile, bind_eq_ok] at h
  obtain ⟨plan, hofFilter, condition, hresolve, h⟩ := h
  obtain rfl := Except.ok.inj h
  obtain ⟨hplan, rfl, -, hfits⟩ := JoinPlan.ofFilter_spec hplain hofFilter
  obtain ⟨entity, hentity, -⟩ := hplan.root
  obtain ⟨environment, henvs, hfaithful⟩ :=
    CompiledFilter.environments_eq ⟨plan.root, plan, condition⟩ hplan e.closed hsingle
  have hrows : db.rowsOf e.registry plan.root = db.table entity.table := by
    rw [Database.rowsOf, hentity]
  have hmeaning : ∀ row, condition.eval db (environment row) =
      f.meaning e.registry db now plan.root row := by
    intro row
    obtain ⟨hrow, henv⟩ := hfaithful row
    have heval := Resolution.eval_filter e.closed hplain hplan hsingle hfits hraw
      (JoinPlan.reaches_root plan) hresolve henv
    rw [heval]
    exact congrArg _ hrow
  have hroot : ∀ row, environment row JoinPlan.rootAlias = row := fun row => (hfaithful row).1
  refine ⟨entity, hentity, ?_, ?_⟩
  · rw [henvs, hrows, List.map_map]
    refine List.map_congr_left fun row _ => ?_
    exact Prod.ext (hroot row) (hmeaning row)
  · rw [CompiledFilter.select, henvs, hrows, List.filter_map, List.map_map]
    have hback : (fun env => env JoinPlan.rootAlias) ∘ environment = id := funext hroot
    rw [hback, List.map_id]
    refine List.filter_congr fun row _ => ?_
    exact congrArg (fun t => decide (t = Truth.holds)) (hmeaning row)

/-- A database of texts in which every table has one and the same row. -/
def Database.ofRow (row : Row String) : Database String where
  table _ := [row]
  compare op cell value := .ofBool (op == .eq && value == .text cell)
  between _ _ _ := .unknown
  like cell pattern _ _ := .ofBool (pattern == "%" ++ cell ++ "%")
  same a b := .ofBool (a == b)
  piece _ _ _ := .unknown

theorem Database.singleValued_ofRow (row : Row String) :
    (Database.ofRow row).SingleValued registry := by
  intro code name relation _ _ other _
  refine Nat.le_trans (List.length_filter_le _ _) ?_
  rw [rowsOf]
  split
  · exact Nat.le_refl 1
  · exact Nat.zero_le 1

/-- A row of rank S with an `a` in every other column. -/
def Catalog.sampleRow : Row String :=
  fun column => some (if column = "rank" then "S" else "a")

theorem Engine.compile_selects_rareDecks :
    ∃ compiled, Catalog.engine.compile "deck" Catalog.rareDecks ⟨0, 0⟩ = .ok compiled ∧
      compiled.select (Database.ofRow Catalog.sampleRow) = [Catalog.sampleRow] := by
  obtain ⟨compiled, h⟩ := Catalog.compile_rareDecks ⟨0, 0⟩
  obtain ⟨entity, hentity, -, hselect⟩ := Engine.compile_selects Catalog.engine
    Catalog.plainRelations_registry (Database.singleValued_ofRow Catalog.sampleRow)
    Catalog.rawFree_rareDecks h
  obtain rfl : Catalog.deck = entity := Option.some.inj hentity
  exact ⟨compiled, h, hselect.trans rfl⟩

end FilterQuery
