import FilterQuery.Proofs.Condition.Lookups
import FilterQuery.Proofs.Meaning.Compilation

/-!
# Counting collections

A test on the size of a collection counts the rows of a subquery, and the subquery of a collection
has the joins that any condition on the collection needs. A left join loses no row, and it repeats a
row that it matches more than once; so a related row is counted once for each way of joining it
(`JoinPlan.copies`, `Planned.rows_subquery_always`). The size is that of the collection where the
joins inside lead to at most one row, which is so when there are none (`Engine.compile_counts`).
Otherwise another condition on the same collection changes what a size test says
(`Catalog.size_miscounted`).
-/

namespace FilterQuery

/-! ## Conditions inside conditions -/

/-- A condition is another one or stands somewhere inside it. -/
inductive Condition.OccursIn (c : Condition) : Condition → Prop
  | self : OccursIn c c
  | all {ds : List Condition} {d : Condition} : d ∈ ds → OccursIn c d → OccursIn c (.all ds)
  | any {ds : List Condition} {d : Condition} : d ∈ ds → OccursIn c d → OccursIn c (.any ds)
  | not {d : Condition} : OccursIn c d → OccursIn c (.not d)
  | notTrue {d : Condition} : OccursIn c d → OccursIn c (.notTrue d)
  | hasRow {subquery : Subquery} {negated : Bool} :
      OccursIn c subquery.filter → OccursIn c (.hasRow subquery negated)

namespace Condition

variable {c d e : Condition} {cs : List Condition}

theorem OccursIn.trans (h : c.OccursIn d) (h' : d.OccursIn e) : c.OccursIn e := by
  induction h' with
  | self => exact h
  | all hmem _ ih => exact .all hmem ih
  | any hmem _ ih => exact .any hmem ih
  | not _ ih => exact .not ih
  | notTrue _ ih => exact .notTrue ih
  | hasRow _ ih => exact .hasRow ih

theorem occursIn_allOf (h : c ∈ cs) : c.OccursIn (allOf cs) := by
  match cs with
  | [d] =>
    rw [List.mem_singleton.1 h]
    exact .self
  | d :: e :: cs => exact .all h .self

theorem occursIn_anyOf (h : c ∈ cs) : c.OccursIn (anyOf cs) := by
  match cs with
  | [d] =>
    rw [List.mem_singleton.1 h]
    exact .self
  | d :: e :: cs => exact .any h .self

end Condition

namespace Resolution

variable {registry : Registry} {plan : JoinPlan} {now : Instant} {place inside : ResolveScope}
  {j : PlannedJoin} {f g : Filter} {d : Condition} {name : String} {names : List String}

/-- A part of a filter resolves where the filter does, to a part of its condition. -/
theorem filter_part (hpart : f.PartOf g) (h : filter registry plan now g place = .ok d) :
    ∃ c, filter registry plan now f place = .ok c ∧ c.OccursIn d := by
  cases hpart with
  | all hf =>
    obtain ⟨cs, hcs, h⟩ := bind_eq_ok.1 h
    obtain rfl := Except.ok.inj h
    obtain ⟨c, hc, hresolved⟩ := exists_mem_right (filters_eq_ok.1 hcs) hf
    exact ⟨c, hresolved, Condition.occursIn_allOf hc⟩
  | any hf =>
    obtain ⟨cs, hcs, h⟩ := bind_eq_ok.1 h
    obtain rfl := Except.ok.inj h
    obtain ⟨c, hc, hresolved⟩ := exists_mem_right (filters_eq_ok.1 hcs) hf
    exact ⟨c, hresolved, Condition.occursIn_anyOf hc⟩
  | not =>
    obtain ⟨c, hc, h⟩ := bind_eq_ok.1 h
    obtain rfl := Except.ok.inj h
    exact ⟨c, hc, .not .self⟩
  | related ht =>
    obtain ⟨-, _, _, related, _, _, _, -, -, hrelated, -, -, -, rfl⟩ := entityFilter_eq_ok.1 h
    obtain ⟨c, hc, hresolved⟩ := exists_mem_right hrelated ht
    exact ⟨c, hresolved, Condition.occursIn_allOf (by simp [entityParts, hc])⟩
  | inAll hf =>
    obtain ⟨-, _, _, _, all, _, _, -, -, -, hall, -, -, rfl⟩ := entityFilter_eq_ok.1 h
    obtain ⟨c, hc, hresolved⟩ := exists_mem_right hall hf
    exact ⟨c, hresolved, Condition.occursIn_allOf (by simp [entityParts, hc])⟩
  | inAny hf =>
    obtain ⟨-, _, _, _, _, any, _, -, -, -, -, hany, -, rfl⟩ := entityFilter_eq_ok.1 h
    obtain ⟨c, hc, hresolved⟩ := exists_mem_right hany hf
    have hsome : any ≠ [] := List.ne_nil_of_mem hc
    refine ⟨c, hresolved, (Condition.occursIn_anyOf hc).trans (Condition.occursIn_allOf ?_)⟩
    simp [entityParts, hsome]
  | negated hf =>
    obtain ⟨-, _, _, _, _, _, negated, -, -, -, -, -, hnegated, rfl⟩ := entityFilter_eq_ok.1 h
    obtain ⟨c, hc, hresolved⟩ := exists_mem_right hnegated (Option.mem_toList.2 hf)
    refine ⟨c, hresolved, .trans (.not .self) (Condition.occursIn_allOf ?_)⟩
    simp [entityParts, hc]

/-- What is asked of a relation resolves at the place that the relation leads to, to a part of the
condition. -/
theorem filter_across (hpart : f.PartAcross name g)
    (hchild : child plan name place = .ok (j, inside))
    (h : filter registry plan now g place = .ok d) :
    ∃ c, filter registry plan now f inside = .ok c ∧ c.OccursIn d := by
  cases hpart with
  | nested hf =>
    obtain ⟨-, tests, nested, related, all, any, negated, -, hnested, -, -, -, -, rfl⟩ :=
      entityFilter_eq_ok.1 h
    obtain ⟨c, hc, k, inside', inner, hchild', hinner, rfl⟩ := exists_mem_right hnested hf
    cases hchild.symm.trans hchild'
    have hmem : nestedCondition plan j inner ∈
        entityParts tests nested related all any negated := by
      simp [entityParts, hc]
    refine ⟨inner, hinner, .trans ?_ (Condition.occursIn_allOf hmem)⟩
    unfold nestedCondition
    split
    · exact .hasRow .self
    · exact .self
  | @quantified q =>
    simp only [filter, relatedTest, bind_eq_ok] at h
    obtain ⟨⟨k, inside'⟩, hcollection, inner, hinner, h⟩ := h
    obtain rfl := Except.ok.inj h
    cases hchild.symm.trans (collection_eq_ok.1 hcollection).1
    refine ⟨inner, hinner, ?_⟩
    cases q with
    | any => exact .hasRow .self
    | all => exact .hasRow (.notTrue .self)
    | none => exact .hasRow .self

/-- Every part of a filter that resolution comes to becomes a part of the condition. -/
theorem Visits.resolved {condition : Condition} (hvisits : Visits plan f names place g)
    (h : filter registry plan now f (rootScope plan) = .ok condition) :
    ∃ c, filter registry plan now g place = .ok c ∧ c.OccursIn condition := by
  induction hvisits with
  | root => exact ⟨condition, h, .self⟩
  | part _ hpart ih =>
    obtain ⟨d, hd, hinside⟩ := ih
    obtain ⟨c, hc, hpart⟩ := filter_part hpart hd
    exact ⟨c, hc, hpart.trans hinside⟩
  | across _ hpart hchild ih =>
    obtain ⟨d, hd, hinside⟩ := ih
    obtain ⟨c, hc, hpart⟩ := filter_across hpart hchild hd
    exact ⟨c, hc, hpart.trans hinside⟩

end Resolution

/-! ## Left joins -/

variable {Cell : Type} {db : Database Cell} {env : Env Cell} {registry : Registry} {now : Instant}
  {plan : JoinPlan} {scope : PlanScope} {j : PlannedJoin} {name : String}

namespace Join

theorem extend_append (js : List Join) (envs envs' : List (Env Cell)) :
    extend db js (envs ++ envs') = extend db js envs ++ extend db js envs' := by
  induction js generalizing envs envs' with
  | nil => rfl
  | cons k ks ih =>
    obtain ⟨table, aliasName, on⟩ := k
    simp only [extend, List.flatMap_append, ih]

/-- Each environment is extended on its own. -/
theorem extend_eq_flatMap (js : List Join) (envs : List (Env Cell)) :
    extend db js envs = envs.flatMap fun env => extend db js [env] := by
  induction envs with
  | nil =>
    induction js with
    | nil => rfl
    | cons k ks ih =>
      obtain ⟨table, aliasName, on⟩ := k
      simpa [extend] using ih
  | cons env envs ih =>
    rw [List.flatMap_cons, ← ih, ← extend_append]
    rfl

theorem padded_ne_nil {α : Type} (a : α) (as : List α) : padded a as ≠ [] := by
  cases as with
  | nil => exact List.cons_ne_nil _ _
  | cons b bs => exact List.cons_ne_nil _ _

/-- A left join loses no environment. -/
theorem extend_singleton_ne_nil (js : List Join) (env : Env Cell) : extend db js [env] ≠ [] := by
  induction js generalizing env with
  | nil => exact List.cons_ne_nil _ _
  | cons k ks ih =>
    obtain ⟨table, aliasName, on⟩ := k
    obtain ⟨first, rest, hpadded⟩ := List.exists_cons_of_ne_nil
      (padded_ne_nil (env.set aliasName Row.null) (((db.table table).map (env.set aliasName)).filter
        fun env => decide (on.eval db env = .holds)))
    simp only [extend, List.flatMap_cons, List.flatMap_nil, List.append_nil, hpadded]
    rw [extend_eq_flatMap, List.flatMap_cons]
    exact List.append_ne_nil_of_left_ne_nil (ih first) _

/-- Left joins change the rows of their own aliases only. -/
theorem eq_of_mem_extend {js : List Join} {envs : List (Env Cell)} {env' : Env Cell}
    (h : env' ∈ extend db js envs) :
    ∃ env ∈ envs, ∀ a, a ∉ js.map Join.aliasName → env' a = env a := by
  induction js generalizing envs with
  | nil => exact ⟨env', h, fun _ _ => rfl⟩
  | cons k ks ih =>
    obtain ⟨table, aliasName, on⟩ := k
    simp only [extend] at h
    obtain ⟨between, hbetween, hsame⟩ := ih h
    obtain ⟨env, henv, hmem⟩ := List.mem_flatMap.1 hbetween
    obtain ⟨row, rfl⟩ : ∃ row, between = env.set aliasName row := by
      unfold padded at hmem
      split at hmem
      · exact ⟨_, List.mem_singleton.1 hmem⟩
      · obtain ⟨row, -, hrow⟩ := List.mem_map.1 (List.mem_of_mem_filter hmem)
        exact ⟨row, hrow.symm⟩
    refine ⟨env, henv, fun a ha => ?_⟩
    simp only [List.map_cons, List.mem_cons, not_or] at ha
    rw [hsame a ha.2, Env.set_of_ne _ _ ha.1]

end Join

/-! ## Rows that are counted -/

/-- A test that does not tell the results for one item apart selects the items. -/
theorem filter_flatMap_of_eq {α β : Type} {f : α → List β} {p : β → Bool} {q : α → Bool}
    {as : List α} (h : ∀ a ∈ as, ∀ b ∈ f a, p b = q a) :
    (as.flatMap f).filter p = (as.filter q).flatMap f := by
  induction as with
  | nil => rfl
  | cons a as ih =>
    obtain ⟨ha, has⟩ := List.forall_mem_cons.1 h
    rw [List.flatMap_cons, List.filter_append, ih has]
    cases hq : q a with
    | true =>
      have hall : (f a).filter p = f a := List.filter_eq_self.2 fun b hb => (ha b hb).trans hq
      simp [hq, hall]
    | false =>
      have hnone : (f a).filter p = [] :=
        List.filter_eq_nil_iff.2 fun b hb => by simp [ha b hb, hq]
      simp [hq, hnone]

/-- Items that each give a result give no fewer results than there are items. -/
theorem length_le_length_flatMap {α β : Type} {f : α → List β} (h : ∀ a, f a ≠ []) (as : List α) :
    as.length ≤ (as.flatMap f).length := by
  induction as with
  | nil => exact Nat.le_refl 0
  | cons a as ih =>
    have hpos := List.length_pos_iff.2 (h a)
    rw [List.flatMap_cons, List.length_append, List.length_cons]
    omega

namespace JoinPlan

/-- The environments in which a row of a collection is counted: one for each way in which the joins
inside its subquery extend it. -/
def copies (db : Database Cell) (plan : JoinPlan) (j : PlannedJoin) (env : Env Cell)
    (row : Row Cell) : List (Env Cell) :=
  Join.extend db ((plan.innerJoins j.path).map PlannedJoin.join) [env.set j.aliasName row]

theorem copies_ne_nil (plan : JoinPlan) (j : PlannedJoin) (env : Env Cell) (row : Row Cell) :
    copies db plan j env row ≠ [] :=
  Join.extend_singleton_ne_nil _ _

/-- How many rows are counted: the related rows, each with its copies. -/
def counted (registry : Registry) (db : Database Cell) (plan : JoinPlan) (j : PlannedJoin)
    (env : Env Cell) (row : Row Cell) : Nat :=
  ((db.relatedRows registry j.relation row).flatMap (copies db plan j env)).length

/-- The rows of the subquery of a collection are the related rows, each as often as the joins inside
repeat it. -/
theorem Planned.rows_subquery_always (h : Planned registry plan) (hs : plan.Reaches scope)
    (hj : j ∈ plan.joins) (hfollows : Follows registry scope name j)
    (hmany : j.relation.isMany = true) (env : Env Cell) :
    Subquery.rows db (plan.subquery j .always) env =
      (db.relatedRows registry j.relation (env scope.aliasName)).flatMap
        (copies db plan j env) := by
  have hinner : ((plan.innerJoins j.path).map PlannedJoin.join).map Join.aliasName =
      (plan.innerJoins j.path).map (·.aliasName) := by
    rw [List.map_map]
    rfl
  have hselect : ∀ row ∈ db.table j.table, ∀ env' ∈ copies db plan j env row,
      decide ((j.condition.eval db env').and (Condition.always.eval db env') = .holds) =
        db.relates j.relation (env scope.aliasName) row := by
    intro row _ env' henv'
    obtain ⟨_, hstart, hsame⟩ := Join.eq_of_mem_extend henv'
    obtain rfl := List.mem_singleton.1 hstart
    rw [hinner] at hsame
    have halias : env' j.aliasName = row := by
      rw [hsame, Env.set_self]
      exact not_mem_of_chained (h.chained_inner hj hmany) (List.mem_singleton_self _)
    have hparent : env' j.parent = env scope.aliasName := by
      rw [hfollows.parent, hsame _ (h.not_mem_innerJoins hs hfollows), Env.set_of_ne]
      exact h.alias_outside hs hfollows hj (h.placement_of_many hj hmany)
    rw [Condition.eval, Truth.and_holds, decide_condition, halias, hparent]
  rw [subquery, Subquery.rows, Join.extend_eq_flatMap, List.flatMap_map, Database.relatedRows,
    h.rowsOf_target hj]
  exact filter_flatMap_of_eq hselect

/-- No related row goes uncounted. -/
theorem length_le_counted (plan : JoinPlan) (j : PlannedJoin) (env : Env Cell) (row : Row Cell) :
    (db.relatedRows registry j.relation row).length ≤ counted registry db plan j env row :=
  length_le_length_flatMap (copies_ne_nil plan j env) _

theorem counted_pos (plan : JoinPlan) (j : PlannedJoin) (env : Env Cell) (row : Row Cell) :
    0 < counted registry db plan j env row ↔
      0 < (db.relatedRows registry j.relation row).length := by
  refine ⟨fun h => ?_, fun h => Nat.lt_of_lt_of_le h (length_le_counted plan j env row)⟩
  rw [List.length_pos_iff]
  intro hnone
  rw [counted, hnone] at h
  exact Nat.lt_irrefl 0 h

end JoinPlan

/-! ## Size tests -/

/-- Comparing with zero tells only whether there is something. -/
theorem SizeOp.test_zero (op : SizeOp) {m n : Nat} (h : 0 < m ↔ 0 < n) :
    op.test m 0 = op.test n 0 := by
  rw [Bool.eq_iff_iff]
  cases op <;> simp only [test, decide_eq_true_eq, beq_iff_eq] <;> omega

/-- A size test compares the number of rows that are counted. -/
theorem Resolution.eval_rowCount_counted (hplan : JoinPlan.Planned registry plan)
    (hs : plan.Reaches scope) (hj : j ∈ plan.joins)
    (hfollows : JoinPlan.Follows registry scope name j) (hmany : j.relation.isMany = true)
    (op : SizeOp) (n : Nat) (env : Env Cell) :
    (Condition.rowCount (plan.subquery j .always) (sizeComparison op) n).eval db env =
      .ofBool (op.test (JoinPlan.counted registry db plan j env (env scope.aliasName)) n) := by
  rw [Condition.eval, hplan.rows_subquery_always hs hj hfollows hmany, SizeOp.test_eq]
  rfl

/-- A condition compares with a number how many rows a relation leads to from the row of an
alias. -/
def Condition.CountsRows (c : Condition) (registry : Registry) (db : Database Cell)
    (relation : Relation) (aliasName : String) (op : SizeOp) (n : Nat) : Prop :=
  ∀ env, c.eval db env =
    .ofBool (op.test (db.relatedRows registry relation (env aliasName)).length n)

open JoinPlan (SingleInside counted) in
/-- What a size test counts. Wherever resolution comes to one, it becomes a part of the condition
that compares a number of rows. In every database this is at least the number of related rows, and
it is greater by the rows that the joins inside the collection repeat. So the test holds when it is
meant to if it compares with zero, or if the joins inside lead to at most one row. -/
theorem Engine.compile_counts (e : Engine) (hplain : e.registry.PlainRelations) {root : String}
    {f : Filter} {compiled : CompiledFilter} (h : e.compile root f now = .ok compiled)
    {names : List String} {place : ResolveScope} {op : SizeOp} {n : Nat}
    (hvisits : Resolution.Visits compiled.plan f names place (.related (.size name op n))) :
    ∃ j ∈ compiled.plan.joins, ∃ c, e.registry.relation? place.entity name = some j.relation ∧
      Resolution.filter e.registry compiled.plan now (.related (.size name op n)) place = .ok c ∧
      c.OccursIn compiled.condition ∧
      ∀ {Cell : Type} (db : Database Cell),
        (∀ env, c.eval db env =
            .ofBool (op.test (counted e.registry db compiled.plan j env (env place.aliasName)) n) ∧
          (db.relatedRows e.registry j.relation (env place.aliasName)).length ≤
            counted e.registry db compiled.plan j env (env place.aliasName)) ∧
        (n = 0 ∨ SingleInside e.registry db compiled.plan j →
          c.CountsRows e.registry db j.relation place.aliasName op n) := by
  simp only [compile, bind_eq_ok] at h
  obtain ⟨plan, hofFilter, condition, hresolve, h⟩ := h
  obtain rfl := Except.ok.inj h
  obtain ⟨hplan, rfl, hcovers, hfits⟩ := JoinPlan.ofFilter_spec hplain hofFilter
  obtain ⟨scope, hreached⟩ := hvisits.reached hplan hplain hfits hcovers
  obtain ⟨j, hchild, hj, hfollows⟩ := hreached.child hplan hplain .size
  obtain ⟨c, hc, hinside⟩ := hvisits.resolved hresolve
  have hresolved := hc
  simp only [Resolution.filter, Resolution.relatedTest, bind_eq_ok, Resolution.sized_eq_ok] at hc
  obtain ⟨⟨k, inside⟩, hcollection, -, rfl⟩ := hc
  obtain ⟨hchild', hmany⟩ := Resolution.collection_eq_ok.1 hcollection
  cases hchild.symm.trans hchild'
  obtain rfl := hreached.place
  have hs := hreached.reaches
  refine ⟨j, hj, _, hfollows.relation, hresolved, hinside, fun db => ?_⟩
  refine ⟨fun env => ⟨Resolution.eval_rowCount_counted hplan hs hj hfollows hmany op n env,
    JoinPlan.length_le_counted plan j env _⟩, ?_⟩
  rintro (rfl | hsingle) env
  · rw [Resolution.eval_rowCount_counted hplan hs hj hfollows hmany,
      SizeOp.test_zero op (JoinPlan.counted_pos plan j env _)]
    rfl
  · exact Resolution.eval_rowCount hplan e.closed hsingle hs hj hfollows hmany op n env

namespace Catalog

/-- The test that a card has one row of summary. -/
def summarized : Filter :=
  .related (.size "summary" .eq 1)

/-- The test that a row of summary of a card is of a card with an `a` in the name. -/
def named : Filter :=
  .related (.quantified "summary" .any (.entity ⟨"summary_card_users", [],
    [("card", .entity ⟨"card", [⟨"name", .contains, .single (.text "a")⟩], [], [], [], [], none⟩)],
    [], [], [], none⟩))

end Catalog

theorem Engine.compile_counts_summarized :
    ∃ compiled, Catalog.engine.compile "card" (.all [Catalog.summarized, Catalog.named]) ⟨0, 0⟩ =
        .ok compiled ∧
      ∃ j ∈ compiled.plan.joins, ∃ c : Condition, c.OccursIn compiled.condition ∧
        c.CountsRows Catalog.registry (Database.ofRow Catalog.sampleRow) j.relation "t0" .eq 1 := by
  have hplain := Catalog.plainRelations_registry
  obtain ⟨compiled, h⟩ : ∃ compiled, Catalog.engine.compile "card"
      (.all [Catalog.summarized, Catalog.named]) ⟨0, 0⟩ = .ok compiled := ⟨_, rfl⟩
  have hvisits : Resolution.Visits compiled.plan (.all [Catalog.summarized, Catalog.named]) []
      (Resolution.rootScope compiled.plan) Catalog.summarized :=
    .part .root (.all List.mem_cons_self)
  obtain ⟨j, hj, c, -, -, hinside, hcounts⟩ :=
    Engine.compile_counts Catalog.engine hplain h hvisits
  have hsingle : JoinPlan.SingleInside Catalog.registry (Database.ofRow Catalog.sampleRow)
      compiled.plan j := by
    obtain ⟨plan, hplan, hcondition⟩ := bind_eq_ok.1 h
    obtain ⟨condition, -, hcompiled⟩ := bind_eq_ok.1 hcondition
    obtain rfl := Except.ok.inj hcompiled
    exact (JoinPlan.ofFilter_spec hplain hplan).1.singleInside (Database.singleValued_ofRow _) j
  exact ⟨compiled, h, j, hj, c, hinside, (hcounts _).2 (.inr hsingle)⟩

namespace Catalog

/-- A row of a card, or of its summary, with a `7` for its card. -/
def twin : Row String :=
  fun column => some (if column = "card_id" then "7" else "a")

/-- A database with one row of summary and two cards that it matches. -/
def twins : Database String where
  __ := Database.ofRow twin
  table name := if name = "animestars_cards" then [twin, twin] else [twin]

/-- The cards with one row of summary are no longer found when the joined card of that row is
tested as well, though each test alone holds of them: the row is then counted twice. -/
theorem size_miscounted :
    ∃ alone other both, engine.compile "card" (.all [summarized]) ⟨0, 0⟩ = .ok alone ∧
      engine.compile "card" (.all [named]) ⟨0, 0⟩ = .ok other ∧
      engine.compile "card" (.all [summarized, named]) ⟨0, 0⟩ = .ok both ∧
      alone.select twins = [twin, twin] ∧ other.select twins = [twin, twin] ∧
      both.select twins = [] ∧
      ∃ c relation, Catalog.registry.relation? "card" "summary" = some relation ∧
        Resolution.filter Catalog.registry both.plan ⟨0, 0⟩ summarized
          (Resolution.rootScope both.plan) = .ok c ∧
        ¬c.CountsRows Catalog.registry twins relation JoinPlan.rootAlias .eq 1 := by
  refine ⟨_, _, _, rfl, rfl, rfl, rfl, rfl, rfl, _, _, rfl, rfl, fun hcounts => ?_⟩
  have heval := hcounts fun _ => twin
  revert heval
  decide

end Catalog

end FilterQuery
