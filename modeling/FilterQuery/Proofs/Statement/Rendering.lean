import FilterQuery.Condition.Rendering
import FilterQuery.Proofs.Statement.Markers

/-!
# Rendering step by step

A condition can be written in one pass that hands out a text for each value when it comes to it:
`Condition.renderM` leaves open what is done with a value. With `Dialect.bind` the pass collects
the values and answers with their markers; with a pure answer it writes the values out where they
are used. Both make what the fragment of the condition makes (`Condition.renderM_eq`), and so the
markers of a condition stand where its values are used, in the order in which they are collected
(`Condition.Clean.rendersWith`).
-/

namespace FilterQuery

/-! ## One pass -/

section Pass

variable {m : Type → Type} [Monad m] (d : Dialect) (emit : Parameter → m String)

/-- Writes the values of a list, one after another. -/
def emitAll : List Parameter → m (List String)
  | [] => pure []
  | v :: vs => do
    let text ← emit v
    let texts ← emitAll vs
    pure (text :: texts)

/-- Writes a piece of SQL with a value for each of its markers, as long as there are values. -/
def emitRaw : List Char → List Parameter → m String
  | [], _ => pure ""
  | '?' :: cs, v :: vs => do
    let text ← emit v
    let rest ← emitRaw cs vs
    pure (text ++ rest)
  | c :: cs, vs => do
    let rest ← emitRaw cs vs
    pure (String.singleton c ++ rest)

/-- Several texts as one: an identity when there is none, a lone one as it is, and otherwise all of
them in parentheses. -/
def groupedText (separator identity : String) : List String → String
  | [] => identity
  | [s] => s
  | ss => "(" ++ separator.intercalate ss ++ ")"

mutual

/-- Writes a condition, and each of its values when it comes to it. -/
def Condition.renderM : Condition → m String
  | .always => pure alwaysText
  | .never => pure neverText
  | .compare column op value => do
    let marker ← emit value
    pure (column.text ++ " " ++ op.symbol ++ " " ++ marker)
  | .sameColumns left right => pure (left.text ++ " = " ++ right.text)
  | .between column low high => do
    let low ← emit low
    let high ← emit high
    pure (column.text ++ " BETWEEN " ++ low ++ " AND " ++ high)
  | .like column pattern ignoreCase escaped negated => do
    let marker ← emit (.text pattern)
    pure (d.like column.text marker ignoreCase negated ++ if escaped then " ESCAPE '\\'" else "")
  | .isIn column values negated =>
    if values.isEmpty then pure (if negated then alwaysText else neverText)
    else do
      let markers ← emitAll emit values
      pure (column.text ++ " " ++ Dialect.negation negated ++ "IN (" ++
        ", ".intercalate markers ++ ")")
  | .isNull column negated => pure (column.text ++ " IS " ++ Dialect.negation negated ++ "NULL")
  | .all items => do
    let texts ← Condition.renderAllM items
    pure (groupedText " AND " alwaysText texts)
  | .any items => do
    let texts ← Condition.renderAllM items
    pure (groupedText " OR " neverText texts)
  | .not item => do
    let text ← Condition.renderM item
    pure ("NOT (" ++ text ++ ")")
  | .notTrue item => do
    let text ← Condition.renderM item
    pure ("(" ++ text ++ ") IS NOT TRUE")
  | .hasRow subquery negated => do
    let text ← Subquery.renderM "1" subquery
    pure (Dialect.negation negated ++ "EXISTS (" ++ text ++ ")")
  | .rowCount subquery op count => do
    let text ← Subquery.renderM "COUNT(*)" subquery
    let marker ← emit (.integer count)
    pure ("(" ++ text ++ ") " ++ op.symbol ++ " " ++ marker)
  | .raw sql values => do
    let text ← emitRaw emit sql.toList values
    pure ("(" ++ text ++ ")")

/-- Writes conditions, one after another. -/
def Condition.renderAllM : List Condition → m (List String)
  | [] => pure []
  | c :: cs => do
    let text ← Condition.renderM c
    let texts ← Condition.renderAllM cs
    pure (text :: texts)

/-- Writes a subquery that selects an expression. -/
def Subquery.renderM (selected : String) : Subquery → m String
  | ⟨table, aliasName, joins, correlation, filter⟩ => do
    let joins ← Join.renderM joins
    let correlation ← Condition.renderM correlation
    let sql := "SELECT " ++ selected ++ " FROM " ++ table ++ " " ++ aliasName ++ joins
    if filter.isAlways then pure (sql ++ " WHERE " ++ correlation)
    else do
      let filter ← Condition.renderM filter
      pure (sql ++ " WHERE " ++ correlation ++ " AND " ++ filter)

/-- Writes joins, each after a blank. -/
def Join.renderM : List Join → m String
  | [] => pure ""
  | ⟨table, aliasName, on⟩ :: js => do
    let on ← Condition.renderM on
    let rest ← Join.renderM js
    pure (" LEFT JOIN " ++ table ++ " " ++ aliasName ++ " ON " ++ on ++ rest)

end

end Pass

/-! ## The fragment of a condition -/

section Written

variable {m : Type → Type} [Monad m] {d : Dialect} {emit : Parameter → m String}

namespace Fragment

/-- Writes a fragment, and each of its values when it comes to it. -/
def writtenM (emit : Parameter → m String) : Fragment → m String
  | [] => pure ""
  | .text s :: ps => do
    let rest ← writtenM emit ps
    pure (s ++ rest)
  | .value v :: ps => do
    let text ← emit v
    let rest ← writtenM emit ps
    pure (text ++ rest)

@[simp] theorem writtenM_nil : writtenM emit [] = pure "" := rfl

theorem writtenM_text_cons (s : String) (a : Fragment) :
    writtenM emit (.text s :: a) = (do let t ← writtenM emit a; pure (s ++ t)) :=
  rfl

variable [LawfulMonad m]

@[simp] theorem writtenM_ofText (s : String) : writtenM emit (ofText s) = pure s := by
  simp [ofText, writtenM]

@[simp] theorem writtenM_ofValue (v : Parameter) : writtenM emit (ofValue v) = emit v := by
  simp [ofValue, writtenM]

theorem writtenM_append (a b : Fragment) :
    writtenM emit (a ++ b) =
      (do let s ← writtenM emit a; let t ← writtenM emit b; pure (s ++ t)) := by
  induction a with
  | nil => simp only [List.nil_append, writtenM, pure_bind, String.empty_append, bind_pure]
  | cons p ps ih =>
    cases p <;>
      simp only [List.cons_append, writtenM, ih, bind_assoc, pure_bind, String.append_assoc]

theorem writtenM_separated (separator : String) (f : Fragment) (fs : List Fragment) :
    writtenM emit (separated separator (f :: fs)) =
      (do
        let s ← writtenM emit f
        let ss ← fs.mapM (writtenM emit)
        pure (separator.intercalate (s :: ss))) := by
  induction fs generalizing f with
  | nil => simp [separated]
  | cons g fs ih =>
    rw [separated, writtenM_append, writtenM_text_cons, ih]
    · simp [String.append_assoc]
    · simp

theorem writtenM_grouped (separator identity : String) (fs : List Fragment) :
    writtenM emit (grouped separator identity fs) =
      (do let ss ← fs.mapM (writtenM emit); pure (groupedText separator identity ss)) := by
  match fs with
  | [] => simp [grouped, groupedText]
  | [f] => simp [grouped, groupedText]
  | f :: g :: fs =>
    have hclose : ([.text ")"] : Fragment) = ofText ")" := rfl
    rw [grouped, List.cons_append, writtenM_text_cons, writtenM_append, writtenM_separated, hclose]
    · simp [groupedText, String.append_assoc]
    · simp
    · simp

theorem writtenM_values (values : List Parameter) :
    (values.map ofValue).mapM (writtenM emit) = emitAll emit values := by
  induction values with
  | nil => simp [emitAll]
  | cons v vs ih => simp [emitAll, ih]

theorem writtenM_rawFragment (cs : List Char) (values : List Parameter) :
    writtenM emit (rawFragment cs values) = emitRaw emit cs values := by
  fun_induction rawFragment cs values with
  | case1 => rfl
  | case2 cs v vs ih => simp [writtenM, emitRaw, ih]
  | case3 c cs vs h ih =>
    rw [emitRaw, writtenM_text_cons, ih]
    exact h

theorem writtenM_escapeClause (escaped : Bool) :
    writtenM emit (escapeClause escaped) = pure (if escaped then " ESCAPE '\\'" else "") := by
  cases escaped with
  | true => exact writtenM_ofText _
  | false => rfl

end Fragment

variable [LawfulMonad m]

open Fragment

theorem isIn_eq (d : Dialect) (column : ColumnRef) (values : List Parameter) (negated : Bool) :
    (Condition.isIn column values negated).renderM d emit =
      writtenM emit ((Condition.isIn column values negated).fragment d) := by
  cases values with
  | nil => simp [Condition.renderM, Condition.fragment, inFragment]
  | cons v vs =>
    simp only [Condition.renderM, Condition.fragment, inFragment, List.isEmpty_cons,
      writtenM_append, writtenM_ofText, List.map_cons, writtenM_separated, writtenM_ofValue,
      writtenM_values, emitAll, bind_assoc, pure_bind, Bool.false_eq_true, if_false]

mutual

/-- One pass over a condition writes its fragment. -/
theorem Condition.renderM_eq (d : Dialect) : ∀ c : Condition,
    c.renderM d emit = writtenM emit (c.fragment d)
  | .always => by simp [Condition.renderM, Condition.fragment]
  | .never => by simp [Condition.renderM, Condition.fragment]
  | .compare column op value => by
    simp only [Condition.renderM, Condition.fragment, writtenM_append, writtenM_ofText,
      writtenM_ofValue, pure_bind]
  | .sameColumns left right => by simp [Condition.renderM, Condition.fragment]
  | .between column low high => by
    simp only [Condition.renderM, Condition.fragment, writtenM_append, writtenM_ofText,
      writtenM_ofValue, bind_assoc, pure_bind]
  | .like column pattern ignoreCase escaped negated => by
    simp only [Condition.renderM, Condition.fragment, writtenM_append, writtenM_ofText,
      writtenM_ofValue, writtenM_escapeClause, bind_assoc, pure_bind, Dialect.like]
  | .isIn column values negated => isIn_eq d column values negated
  | .isNull column negated => by simp [Condition.renderM, Condition.fragment]
  | .all items => by
    rw [Condition.renderM, Condition.fragment, writtenM_grouped, Condition.renderAllM_eq d items]
  | .any items => by
    rw [Condition.renderM, Condition.fragment, writtenM_grouped, Condition.renderAllM_eq d items]
  | .not item => by
    simp only [Condition.renderM, Condition.fragment, Condition.renderM_eq d item, writtenM_append,
      writtenM_ofText, bind_assoc, pure_bind]
  | .notTrue item => by
    simp only [Condition.renderM, Condition.fragment, Condition.renderM_eq d item, writtenM_append,
      writtenM_ofText, bind_assoc, pure_bind]
  | .hasRow subquery negated => by
    simp only [Condition.renderM, Condition.fragment, Subquery.renderM_eq d "1" subquery,
      writtenM_append, writtenM_ofText, bind_assoc, pure_bind]
  | .rowCount subquery op count => by
    simp only [Condition.renderM, Condition.fragment, Subquery.renderM_eq d "COUNT(*)" subquery,
      writtenM_append, writtenM_ofText, writtenM_ofValue, bind_assoc, pure_bind,
      String.append_assoc]
  | .raw sql values => by
    simp only [Condition.renderM, Condition.fragment, writtenM_append, writtenM_ofText,
      writtenM_rawFragment, bind_assoc, pure_bind]

theorem Condition.renderAllM_eq (d : Dialect) : ∀ cs : List Condition,
    Condition.renderAllM d emit cs = (Condition.fragments d cs).mapM (writtenM emit)
  | [] => by simp [Condition.renderAllM, Condition.fragments]
  | c :: cs => by
    rw [Condition.renderAllM, Condition.fragments, List.mapM_cons, Condition.renderM_eq d c,
      Condition.renderAllM_eq d cs]

theorem Subquery.renderM_eq (d : Dialect) (selected : String) : ∀ q : Subquery,
    q.renderM d emit selected = writtenM emit (q.fragment d selected)
  | ⟨table, aliasName, joins, correlation, filter⟩ => by
    simp only [Subquery.renderM, Subquery.fragment, Join.renderM_eq d joins,
      Condition.renderM_eq d correlation, Condition.renderM_eq d filter]
    split <;> simp only [writtenM_append, writtenM_ofText, bind_assoc, pure_bind, writtenM_nil,
      String.append_empty, String.append_assoc]

theorem Join.renderM_eq (d : Dialect) : ∀ js : List Join,
    Join.renderM d emit js = writtenM emit (Join.fragments d js)
  | [] => by simp [Join.renderM, Join.fragments]
  | ⟨table, aliasName, on⟩ :: js => by
    simp only [Join.renderM, Join.fragments, Condition.renderM_eq d on, Join.renderM_eq d js,
      writtenM_append, writtenM_ofText, bind_assoc, pure_bind]

end

end Written

/-! ## Two uses of the pass -/

/-- Appends a value to those that are there, and answers with its marker. -/
def Dialect.bind (d : Dialect) (v : Parameter) : StateM (List Parameter) String := do
  modify (· ++ [v])
  let values ← get
  pure (d.marker values.length)

theorem Fragment.writtenM_bind (d : Dialect) (f : Fragment) (initial : List Parameter) :
    (writtenM d.bind f).run initial = (sql d initial.length f, initial ++ f.parameters) := by
  induction f generalizing initial with
  | nil =>
    simp only [writtenM, sql, parameters, List.append_nil, StateT.run_pure]
    rfl
  | cons p ps ih =>
    cases p with
    | text s =>
      simp only [writtenM, sql, parameters, StateT.run_bind, ih]
      rfl
    | value v =>
      simp only [writtenM, sql, parameters, StateT.run_bind, ih, Dialect.bind, pure_bind,
        StateT.run_pure, StateT.run_modify, StateT.run_get, List.length_append,
        List.length_singleton, List.append_assoc, List.singleton_append]
      rfl

theorem Fragment.writtenM_pure (write : Parameter → String) (f : Fragment) :
    (writtenM (fun v => (pure (write v) : Id String)) f).run = written write f := by
  induction f with
  | nil => rfl
  | cons p ps ih => cases p <;> simp [writtenM, written, ih]

/-! ## Values in every dialect -/

namespace Fragment

@[simp] theorem parameters_ofText (s : String) : parameters (ofText s) = [] := rfl

@[simp] theorem parameters_ofValue (v : Parameter) : parameters (ofValue v) = [v] := rfl

theorem parameters_separated (separator : String) (fs : List Fragment) :
    parameters (separated separator fs) = fs.flatMap parameters := by
  match fs with
  | [] => rfl
  | [f] => simp [separated]
  | f :: g :: fs =>
    rw [separated, parameters_append, parameters, parameters_separated separator (g :: fs),
      List.flatMap_cons]
    · rfl
    · simp

theorem parameters_grouped (separator identity : String) (fs : List Fragment) :
    parameters (grouped separator identity fs) = fs.flatMap parameters := by
  match fs with
  | [] => rfl
  | [f] => simp [grouped]
  | f :: g :: fs =>
    rw [grouped, List.cons_append, parameters, parameters_append, parameters_separated]
    · simp [parameters]
    · simp
    · simp

end Fragment

open Fragment (parameters parameters_append parameters_grouped)

mutual

/-- The values of a condition do not depend on the dialect. -/
theorem Condition.parameters_fragment (d d' : Dialect) : ∀ c : Condition,
    (c.fragment d).parameters = (c.fragment d').parameters
  | .always => rfl
  | .never => rfl
  | .compare _ _ _ => rfl
  | .sameColumns _ _ => rfl
  | .between _ _ _ => rfl
  | .like _ _ _ _ _ => by simp [Condition.fragment]
  | .isIn _ _ _ => rfl
  | .isNull _ _ => rfl
  | .all items => by
    rw [Condition.fragment, Condition.fragment, parameters_grouped, parameters_grouped,
      Condition.parameters_fragments d d' items]
  | .any items => by
    rw [Condition.fragment, Condition.fragment, parameters_grouped, parameters_grouped,
      Condition.parameters_fragments d d' items]
  | .not item => by simp [Condition.fragment, Condition.parameters_fragment d d' item]
  | .notTrue item => by simp [Condition.fragment, Condition.parameters_fragment d d' item]
  | .hasRow subquery _ => by
    simp [Condition.fragment, Subquery.parameters_fragment d d' "1" subquery]
  | .rowCount subquery _ _ => by
    simp [Condition.fragment, Subquery.parameters_fragment d d' "COUNT(*)" subquery]
  | .raw _ _ => rfl

theorem Condition.parameters_fragments (d d' : Dialect) : ∀ cs : List Condition,
    (Condition.fragments d cs).flatMap parameters = (Condition.fragments d' cs).flatMap parameters
  | [] => rfl
  | c :: cs => by
    rw [Condition.fragments, Condition.fragments, List.flatMap_cons, List.flatMap_cons,
      Condition.parameters_fragment d d' c, Condition.parameters_fragments d d' cs]

theorem Subquery.parameters_fragment (d d' : Dialect) (selected : String) : ∀ q : Subquery,
    (q.fragment d selected).parameters = (q.fragment d' selected).parameters
  | ⟨_, _, joins, correlation, filter⟩ => by
    simp only [Subquery.fragment, parameters_append, Join.parameters_fragments d d' joins,
      Condition.parameters_fragment d d' correlation]
    split
    · rfl
    · simp only [parameters_append, Condition.parameters_fragment d d' filter]

theorem Join.parameters_fragments (d d' : Dialect) : ∀ js : List Join,
    (Join.fragments d js).parameters = (Join.fragments d' js).parameters
  | [] => rfl
  | ⟨_, _, on⟩ :: js => by
    simp only [Join.fragments, parameters_append, Condition.parameters_fragment d d' on,
      Join.parameters_fragments d d' js]

end

end FilterQuery
