import FilterQuery.Proofs.Condition.Resolving

/-!
# Renaming and widening

Two plans give the rows of one path different aliases, and the plan with more joins brings more of
them into the subqueries of its collections. `Condition.rename` is the first difference and
`Condition.Widens` the second one. Tests on fields know of neither plan: the condition of a test on
a renamed column is the renamed condition (`Resolution.operandTest_rename`).
-/

namespace FilterQuery

open List (Forall₂)

/-! ## Renaming -/

/-- A column of another alias. -/
def ColumnRef.rename (ρ : String → String) (c : ColumnRef) : ColumnRef :=
  ⟨ρ c.aliasName, c.column⟩

mutual

/-- A condition with other aliases. A piece of SQL stays as it is. -/
def Condition.rename (ρ : String → String) : Condition → Condition
  | .always => .always
  | .never => .never
  | .compare column op value => .compare (column.rename ρ) op value
  | .sameColumns left right => .sameColumns (left.rename ρ) (right.rename ρ)
  | .between column low high => .between (column.rename ρ) low high
  | .like column pattern ignoreCase escaped negated =>
    .like (column.rename ρ) pattern ignoreCase escaped negated
  | .isIn column values negated => .isIn (column.rename ρ) values negated
  | .isNull column negated => .isNull (column.rename ρ) negated
  | .all items => .all (Condition.renames ρ items)
  | .any items => .any (Condition.renames ρ items)
  | .not item => .not (item.rename ρ)
  | .notTrue item => .notTrue (item.rename ρ)
  | .hasRow subquery negated => .hasRow (subquery.rename ρ) negated
  | .rowCount subquery op count => .rowCount (subquery.rename ρ) op count
  | .raw sql values => .raw sql values

/-- Conditions with other aliases. -/
def Condition.renames (ρ : String → String) : List Condition → List Condition
  | [] => []
  | c :: cs => c.rename ρ :: Condition.renames ρ cs

/-- A subquery with other aliases. -/
def Subquery.rename (ρ : String → String) : Subquery → Subquery
  | ⟨table, aliasName, joins, correlation, filter⟩ =>
    ⟨table, ρ aliasName, Join.renames ρ joins, correlation.rename ρ, filter.rename ρ⟩

/-- A join with other aliases. -/
def Join.rename (ρ : String → String) : Join → Join
  | ⟨table, aliasName, on⟩ => ⟨table, ρ aliasName, on.rename ρ⟩

/-- Joins with other aliases. -/
def Join.renames (ρ : String → String) : List Join → List Join
  | [] => []
  | j :: js => j.rename ρ :: Join.renames ρ js

end

theorem Join.renames_eq_map (ρ : String → String) (js : List Join) :
    renames ρ js = js.map (rename ρ) := by
  induction js with
  | nil => rfl
  | cons j js ih => rw [renames, ih, List.map_cons]

namespace Condition

variable (ρ : String → String)

theorem renames_eq_map (cs : List Condition) : renames ρ cs = cs.map (rename ρ) := by
  induction cs with
  | nil => rfl
  | cons c cs ih => rw [renames, ih, List.map_cons]

theorem rename_allOf (cs : List Condition) :
    (allOf cs).rename ρ = allOf (cs.map (rename ρ)) := by
  match cs with
  | [] => rfl
  | [c] => rfl
  | c :: d :: cs => simp [allOf, rename, renames_eq_map]

theorem rename_anyOf (cs : List Condition) :
    (anyOf cs).rename ρ = anyOf (cs.map (rename ρ)) := by
  match cs with
  | [] => rfl
  | [c] => rfl
  | c :: d :: cs => simp [anyOf, rename, renames_eq_map]

theorem rename_columnsMatch (columns : List (String × String)) (source target : String) :
    (columnsMatch columns source target).rename ρ = columnsMatch columns (ρ source) (ρ target) := by
  rw [columnsMatch, rename_allOf, List.map_map]
  rfl

end Condition

/-! ## Tests on fields -/

namespace Resolution

open Condition (rename)

variable (ρ : String → String) (now : Instant) (test : FieldTest) (kind : ValueKind)
  (column : ColumnRef)

theorem ofOperator_rename (op : Operator) :
    Window.ofOperator op now (column.rename ρ) =
      (Window.ofOperator op now column).map (rename ρ) := by
  unfold Window.ofOperator
  split <;> rfl

theorem patternTest_rename (text : String) :
    patternTest test (column.rename ρ) text = (patternTest test column text).map (rename ρ) := by
  unfold patternTest
  split <;> rfl

theorem singleTest_rename (value : Value) :
    singleTest now test kind (column.rename ρ) value =
      (singleTest now test kind column value).map (rename ρ) := by
  unfold singleTest
  split
  · rfl
  · unfold Window.lastDays
    split <;> rfl
  · unfold Window.olderThan
    split <;> rfl
  · split
    · exact patternTest_rename ρ test column _
    · split
      · rfl
      · rw [map_map]
        rfl

theorem listTest_rename (values : List Value) :
    listTest test kind (column.rename ρ) values =
      (listTest test kind column values).map (rename ρ) := by
  unfold listTest
  split
  · cases parameters test kind values with
    | error error => rfl
    | ok ps =>
      simp only [bind, Except.bind]
      cases ps.isEmpty <;> cases test.op == Operator.notIn <;> rfl
  · rfl

/-- The condition of a test on a column of another alias is the condition with the other alias. -/
theorem operandTest_rename :
    operandTest now test kind (column.rename ρ) =
      (operandTest now test kind column).map (rename ρ) := by
  unfold operandTest
  split
  · split
    · exact ofOperator_rename ρ now column test.op
    · rfl
  · exact singleTest_rename ρ now test kind column _
  · rename_i low high hoperand
    split
    · cases parameter test kind low with
      | error error => rfl
      | ok p =>
        cases parameter test kind high with
        | error error => rfl
        | ok q => rfl
    · rfl
  · exact listTest_rename ρ test kind column _

variable {ρ} {now} {registry : Registry} {place place' : ResolveScope}

/-- A test on a field is the same condition at every place of its entity, but for the alias. -/
theorem fieldTest_rename (hentity : place.entity = place'.entity)
    (halias : ρ place.aliasName = place'.aliasName) (t : FieldTest) :
    fieldTest registry now t place' = (fieldTest registry now t place).map (rename ρ) := by
  unfold fieldTest
  rw [← hentity]
  cases fieldOf registry place.entity t.field with
  | error error => rfl
  | ok field =>
    simp only [bind, Except.bind]
    split
    · rfl
    · rw [← operandTest_rename, ColumnRef.rename, halias]

end Resolution

/-! ## Widening -/

mutual

/-- A condition becomes another one when the joins of its subqueries are put in another order and
further joins are added to them. Which joins may be added to a subquery is told by its alias. -/
inductive Condition.Widens (extra : String → Join → Prop) : Condition → Condition → Prop
  | same (c : Condition) : Condition.Widens extra c c
  | all {cs ds : List Condition} : Condition.AllWiden extra cs ds →
      Condition.Widens extra (.all cs) (.all ds)
  | any {cs ds : List Condition} : Condition.AllWiden extra cs ds →
      Condition.Widens extra (.any cs) (.any ds)
  | not {c d : Condition} : Condition.Widens extra c d → Condition.Widens extra (.not c) (.not d)
  | notTrue {c d : Condition} : Condition.Widens extra c d →
      Condition.Widens extra (.notTrue c) (.notTrue d)
  | hasRow {q r : Subquery} {negated : Bool} : Subquery.Widens extra q r →
      Condition.Widens extra (.hasRow q negated) (.hasRow r negated)
  | rowCount {q r : Subquery} {op : Comparison} {count : Int} : Subquery.Widens extra q r →
      Condition.Widens extra (.rowCount q op count) (.rowCount r op count)

/-- Conditions become others, one by one. -/
inductive Condition.AllWiden (extra : String → Join → Prop) :
    List Condition → List Condition → Prop
  | nil : Condition.AllWiden extra [] []
  | cons {c d : Condition} {cs ds : List Condition} : Condition.Widens extra c d →
      Condition.AllWiden extra cs ds → Condition.AllWiden extra (c :: cs) (d :: ds)

/-- A subquery becomes another one: the joins may change their order and others may be added. -/
inductive Subquery.Widens (extra : String → Join → Prop) : Subquery → Subquery → Prop
  | mk {table aliasName : String} {joins joins' : List Join} (more : List Join)
      {correlation filter filter' : Condition} (reordered : joins'.Perm (joins ++ more))
      (added : ∀ j ∈ more, extra aliasName j) (inside : Condition.Widens extra filter filter') :
      Subquery.Widens extra ⟨table, aliasName, joins, correlation, filter⟩
        ⟨table, aliasName, joins', correlation, filter'⟩

end

namespace Condition

variable {extra : String → Join → Prop} {cs ds cs' ds' : List Condition}

theorem allWiden_iff : AllWiden extra cs ds ↔ Forall₂ (Widens extra) cs ds := by
  constructor
  · intro h
    induction cs generalizing ds with
    | nil =>
      cases h
      exact .nil
    | cons c cs ih =>
      cases h with
      | cons hc hcs => exact .cons hc (ih hcs)
  · intro h
    induction h with
    | nil => exact .nil
    | cons hc _ ih => exact .cons hc ih

theorem Widens.allOf (h : Forall₂ (Widens extra) cs ds) :
    Widens extra (Condition.allOf cs) (Condition.allOf ds) := by
  cases h with
  | nil => exact .same _
  | cons hc hcs =>
    cases hcs with
    | nil => exact hc
    | cons hc' hcs => exact .all (allWiden_iff.2 (.cons hc (.cons hc' hcs)))

theorem Widens.anyOf (h : Forall₂ (Widens extra) cs ds) :
    Widens extra (Condition.anyOf cs) (Condition.anyOf ds) := by
  cases h with
  | nil => exact .same _
  | cons hc hcs =>
    cases hcs with
    | nil => exact hc
    | cons hc' hcs => exact .any (allWiden_iff.2 (.cons hc (.cons hc' hcs)))

end Condition

end FilterQuery
