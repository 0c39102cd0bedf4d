import FilterQuery.Condition.Rendering
import FilterQuery.Proofs.Statement.Rendering

/-!
# Blank conditions

A condition is blanked by putting null, an empty pattern or zero in the place of each of its
values. What is left decides the SQL of the condition. This is said of fragments first, whose pieces
of text a value never touches: fragments with the same blank have the same SQL and as many values
(`Fragment.sql_eq_of_blank_eq`). Conditions with the same blank have such fragments
(`Condition.blank_fragment_eq`).
-/

namespace FilterQuery

/-! ## Fragments -/

namespace Fragment

/-- A fragment with null in the place of each value. -/
def blank : Fragment → Fragment
  | [] => []
  | .text s :: ps => .text s :: blank ps
  | .value _ :: ps => .value .null :: blank ps

@[simp] theorem blank_ofText (s : String) : blank (ofText s) = ofText s := rfl

@[simp] theorem blank_ofValue (v : Parameter) : blank (ofValue v) = ofValue .null := rfl

@[simp] theorem blank_append (a b : Fragment) : blank (a ++ b) = blank a ++ blank b := by
  induction a with
  | nil => rfl
  | cons p ps ih => cases p <;> simp [blank, ih]

/-- The SQL of a fragment does not depend on its values. -/
theorem sql_blank (d : Dialect) (start : Nat) (f : Fragment) :
    sql d start (blank f) = sql d start f := by
  induction f generalizing start with
  | nil => rfl
  | cons p ps ih => cases p <;> simp [blank, sql, ih]

theorem length_parameters_blank (f : Fragment) :
    (blank f).parameters.length = f.parameters.length := by
  induction f with
  | nil => rfl
  | cons p ps ih => cases p <;> simp [blank, parameters, ih]

theorem blank_separated (separator : String) (fs : List Fragment) :
    blank (separated separator fs) = separated separator (fs.map blank) := by
  match fs with
  | [] => rfl
  | [f] => rfl
  | f :: g :: fs =>
    have hrest := blank_separated separator (g :: fs)
    rw [separated, blank_append, blank, hrest]
    · rfl
    · simp

theorem blank_grouped (separator identity : String) (fs : List Fragment) :
    blank (grouped separator identity fs) = grouped separator identity (fs.map blank) := by
  match fs with
  | [] => rfl
  | [f] => rfl
  | f :: g :: fs =>
    rw [grouped, List.cons_append, blank, blank_append, blank_separated]
    · rfl
    · simp
    · simp

/-- Fragments that differ only in their values have the same SQL and as many values. -/
theorem sql_eq_of_blank_eq {f g : Fragment} (h : blank f = blank g) (d : Dialect) (start : Nat) :
    sql d start f = sql d start g ∧ f.parameters.length = g.parameters.length := by
  constructor
  · rw [← sql_blank, h, sql_blank]
  · rw [← length_parameters_blank, h, length_parameters_blank]

end Fragment

/-! ## Conditions -/

mutual

/-- A condition without its values. -/
def Condition.blank : Condition → Condition
  | .always => .always
  | .never => .never
  | .compare column op _ => .compare column op .null
  | .sameColumns left right => .sameColumns left right
  | .between column _ _ => .between column .null .null
  | .like column _ ignoreCase escaped negated => .like column "" ignoreCase escaped negated
  | .isIn column values negated => .isIn column (values.map fun _ => .null) negated
  | .isNull column negated => .isNull column negated
  | .all items => .all (Condition.blanks items)
  | .any items => .any (Condition.blanks items)
  | .not item => .not item.blank
  | .notTrue item => .notTrue item.blank
  | .hasRow subquery negated => .hasRow subquery.blank negated
  | .rowCount subquery op _ => .rowCount subquery.blank op 0
  | .raw sql values => .raw sql (values.map fun _ => .null)

/-- Conditions without their values. -/
def Condition.blanks : List Condition → List Condition
  | [] => []
  | c :: cs => c.blank :: Condition.blanks cs

/-- A subquery without the values in its conditions. -/
def Subquery.blank : Subquery → Subquery
  | ⟨table, aliasName, joins, correlation, filter⟩ =>
    ⟨table, aliasName, Join.blanks joins, correlation.blank, filter.blank⟩

/-- Joins without the values in their conditions. -/
def Join.blanks : List Join → List Join
  | [] => []
  | ⟨table, aliasName, on⟩ :: js => ⟨table, aliasName, on.blank⟩ :: Join.blanks js

end

namespace Condition

theorem blanks_eq_map (cs : List Condition) : blanks cs = cs.map blank := by
  induction cs with
  | nil => rfl
  | cons c cs ih => rw [blanks, ih, List.map_cons]

theorem isAlways_blank (c : Condition) : c.blank.isAlways = c.isAlways := by
  cases c <;> simp [blank, isAlways]

theorem blank_allOf (cs : List Condition) : (allOf cs).blank = allOf (cs.map blank) := by
  match cs with
  | [] => rfl
  | [c] => rfl
  | c :: d :: cs => simp [allOf, blank, blanks_eq_map]

theorem blank_anyOf (cs : List Condition) : (anyOf cs).blank = anyOf (cs.map blank) := by
  match cs with
  | [] => rfl
  | [c] => rfl
  | c :: d :: cs => simp [anyOf, blank, blanks_eq_map]

end Condition

/-! ## The fragment of a blank condition -/

open Fragment (blank_append blank_grouped)

theorem blank_rawFragment (cs : List Char) (values : List Parameter) :
    (rawFragment cs (values.map fun _ => .null)).blank = (rawFragment cs values).blank := by
  fun_induction rawFragment cs values with
  | case1 => simp [rawFragment]
  | case2 cs v vs ih => simp only [List.map_cons, rawFragment, Fragment.blank, ih]
  | case3 c cs vs hplain ih =>
    rw [rawFragment, Fragment.blank, Fragment.blank, ih]
    intro v vs' hvs hc
    cases vs with
    | nil => cases hvs
    | cons w ws => exact hplain w ws rfl hc

theorem blank_escapeClause (escaped : Bool) :
    (escapeClause escaped).blank = escapeClause escaped := by
  cases escaped <;> rfl

theorem blank_inFragment (column : ColumnRef) (values : List Parameter) (negated : Bool) :
    (inFragment column (values.map fun _ => .null) negated).blank =
      (inFragment column values negated).blank := by
  cases values with
  | nil => rfl
  | cons v vs =>
    simp only [inFragment, List.map_cons, List.map_map, blank_append, Fragment.blank_separated,
      Fragment.blank_ofText]
    rfl

mutual

/-- Blanking a condition changes nothing but the values of its fragment. -/
theorem Condition.blank_fragment (d : Dialect) : ∀ c : Condition,
    (c.blank.fragment d).blank = (c.fragment d).blank
  | .always => rfl
  | .never => rfl
  | .compare _ _ _ => rfl
  | .sameColumns _ _ => rfl
  | .between _ _ _ => rfl
  | .like column pattern ignoreCase escaped negated => by
    simp [Condition.blank, Condition.fragment, blank_escapeClause]
  | .isIn column values negated => by
    simp only [Condition.blank, Condition.fragment, blank_inFragment]
  | .isNull _ _ => rfl
  | .all items => by
    simp only [Condition.blank, Condition.fragment, blank_grouped,
      Condition.blank_fragments d items]
  | .any items => by
    simp only [Condition.blank, Condition.fragment, blank_grouped,
      Condition.blank_fragments d items]
  | .not item => by
    simp only [Condition.blank, Condition.fragment, blank_append, Condition.blank_fragment d item]
  | .notTrue item => by
    simp only [Condition.blank, Condition.fragment, blank_append, Condition.blank_fragment d item]
  | .hasRow subquery negated => by
    simp only [Condition.blank, Condition.fragment, blank_append,
      Subquery.blank_fragment d "1" subquery]
  | .rowCount subquery op count => by
    simp only [Condition.blank, Condition.fragment, blank_append, Fragment.blank_ofValue,
      Subquery.blank_fragment d "COUNT(*)" subquery]
  | .raw sql values => by
    simp only [Condition.blank, Condition.fragment, blank_append, blank_rawFragment]

theorem Condition.blank_fragments (d : Dialect) : ∀ cs : List Condition,
    (Condition.fragments d (Condition.blanks cs)).map Fragment.blank =
      (Condition.fragments d cs).map Fragment.blank
  | [] => rfl
  | c :: cs => by
    rw [Condition.blanks, Condition.fragments, Condition.fragments, List.map_cons, List.map_cons,
      Condition.blank_fragment d c, Condition.blank_fragments d cs]

theorem Subquery.blank_fragment (d : Dialect) (selected : String) : ∀ q : Subquery,
    (q.blank.fragment d selected).blank = (q.fragment d selected).blank
  | ⟨table, aliasName, joins, correlation, filter⟩ => by
    simp only [Subquery.blank, Subquery.fragment, Condition.isAlways_blank, blank_append,
      Join.blank_fragments d joins, Condition.blank_fragment d correlation]
    split
    · rfl
    · simp only [blank_append, Condition.blank_fragment d filter]

theorem Join.blank_fragments (d : Dialect) : ∀ js : List Join,
    (Join.fragments d (Join.blanks js)).blank = (Join.fragments d js).blank
  | [] => rfl
  | ⟨table, aliasName, on⟩ :: js => by
    simp only [Join.blanks, Join.fragments, blank_append, Condition.blank_fragment d on,
      Join.blank_fragments d js]

end

/-- Conditions that differ only in their values differ only in the values of their fragments. -/
theorem Condition.blank_fragment_eq {c c' : Condition} (h : c.blank = c'.blank) (d : Dialect) :
    (c.fragment d).blank = (c'.fragment d).blank := by
  rw [← Condition.blank_fragment, h, Condition.blank_fragment]

end FilterQuery
