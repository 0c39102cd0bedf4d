/-!
# Three truth values

The logic of Kleene in which conditions on rows are read: a test of a value that is not there is
unknown, and connectives answer as far as what is known settles the matter. A condition selects a
row when it holds, so that unknown counts with false in the end, but not below a negation.
-/

namespace FilterQuery

/-- A truth value of Kleene's logic. -/
inductive Truth where
  /-- True. -/
  | holds
  /-- False. -/
  | fails
  /-- Neither is known. -/
  | unknown
deriving DecidableEq, Repr

namespace Truth

/-- The truth value of a Boolean. -/
def ofBool (b : Bool) : Truth :=
  if b then holds else fails

/-- The conjunction. -/
def and : Truth → Truth → Truth
  | fails, _ => fails
  | _, fails => fails
  | holds, holds => holds
  | _, _ => unknown

/-- The disjunction. -/
def or : Truth → Truth → Truth
  | holds, _ => holds
  | _, holds => holds
  | fails, fails => fails
  | _, _ => unknown

/-- The negation. -/
def not : Truth → Truth
  | holds => fails
  | fails => holds
  | unknown => unknown

/-- The negation or the value itself. -/
def negatedIf (negated : Bool) (t : Truth) : Truth :=
  if negated then t.not else t

/-- The conjunction of any number of truth values. -/
def all (ts : List Truth) : Truth :=
  ts.foldr and holds

/-- The disjunction of any number of truth values. -/
def any (ts : List Truth) : Truth :=
  ts.foldr or fails

/-- A test of a value that may be missing: it is unknown then. -/
def ofTest {α : Type} (value : Option α) (test : α → Truth) : Truth :=
  match value with
  | some a => test a
  | none => unknown

@[simp] theorem and_holds (t : Truth) : t.and holds = t := by
  cases t <;> rfl

@[simp] theorem holds_and (t : Truth) : holds.and t = t := by
  cases t <;> rfl

@[simp] theorem or_fails (t : Truth) : t.or fails = t := by
  cases t <;> rfl

theorem and_comm (s t : Truth) : s.and t = t.and s := by
  cases s <;> cases t <;> rfl

theorem and_assoc (s t u : Truth) : (s.and t).and u = s.and (t.and u) := by
  cases s <;> cases t <;> cases u <;> rfl

instance : Std.Commutative and := ⟨and_comm⟩

instance : Std.Associative and := ⟨and_assoc⟩

theorem and_eq_holds {s t : Truth} : s.and t = holds ↔ s = holds ∧ t = holds := by
  cases s <;> cases t <;> simp [and]

@[simp] theorem all_nil : all [] = holds := rfl

@[simp] theorem all_cons (t : Truth) (ts : List Truth) : all (t :: ts) = t.and (all ts) := rfl

theorem all_append (ss ts : List Truth) : all (ss ++ ts) = (all ss).and (all ts) := by
  induction ss with
  | nil => rw [List.nil_append, all_nil, holds_and]
  | cons s ss ih => rw [List.cons_append, all_cons, ih, all_cons, and_assoc]

/-- A conjunction may be taken piece by piece. -/
theorem all_flatten {α : Type} (test : α → Truth) (pieces : List (List α)) :
    all (pieces.flatten.map test) = all (pieces.map fun piece => all (piece.map test)) := by
  induction pieces with
  | nil => rfl
  | cons piece pieces ih =>
    rw [List.flatten_cons, List.map_append, all_append, ih, List.map_cons, all_cons]

/-- The order of a conjunction does not matter. -/
theorem all_perm {ss ts : List Truth} (h : ss.Perm ts) : all ss = all ts := by
  induction h with
  | nil => rfl
  | cons t _ ih => rw [all_cons, all_cons, ih]
  | swap s t us => rw [all_cons, all_cons, all_cons, all_cons, ← and_assoc, and_comm t s, and_assoc]
  | trans _ _ ih ih' => exact ih.trans ih'

@[simp] theorem any_nil : any [] = fails := rfl

@[simp] theorem any_cons (t : Truth) (ts : List Truth) : any (t :: ts) = t.or (any ts) := rfl

theorem not_ofBool (b : Bool) : (ofBool b).not = ofBool !b := by
  cases b <;> rfl

theorem and_ofBool (a b : Bool) : (ofBool a).and (ofBool b) = ofBool (a && b) := by
  cases a <;> cases b <;> rfl

end Truth

end FilterQuery
