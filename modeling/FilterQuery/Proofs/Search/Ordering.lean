import FilterQuery.Proofs.Meaning.Database
import FilterQuery.Proofs.Schema.Registration
import FilterQuery.Proofs.Search.Independence

/-!
# The order of the rows of a page

The order of a search is written for one dialect or the other: where nulls stand is said by a
`CASE` in one and by `NULLS LAST` in the other, and where it is not said, the dialects have defaults
that differ. `SortTerm` is a term of an `ORDER BY` clause and `SortTerm.compareAll` says how a
dialect compares two rows by a list of terms. On rows whose keys are not null, both clauses compare
rows by the same columns (`compareAll_orderTerms`): those of the requested fields with nulls last,
and then what is missing of the primary key. Since a key is part of these columns, different rows
never compare equal.
-/

namespace FilterQuery

variable {Cell : Type}

/-! ## Clauses -/

/-- The place of nulls in an order. -/
inductive NullPlace where
  /-- Before every value. -/
  | first
  /-- After every value. -/
  | last
deriving DecidableEq, Repr

/-- A term of an `ORDER BY` clause. -/
inductive SortTerm where
  /-- One number for nulls in a column of the root and another for values. -/
  | nullRank (column : String) (null value : Nat)
  /-- A column of the root in a direction; the place of nulls need not be said. -/
  | column (column : String) (direction : Direction) (nulls : Option NullPlace)
deriving DecidableEq, Repr

/-- The words for the place of nulls. -/
def NullPlace.sql : Option NullPlace → String
  | none => ""
  | some .first => " NULLS FIRST"
  | some .last => " NULLS LAST"

/-- A term as it is written. -/
def SortTerm.sql : SortTerm → String
  | .nullRank c null value =>
    "CASE WHEN " ++ Engine.rootColumn c ++ " IS NULL THEN " ++ toString null ++ " ELSE " ++
      toString value ++ " END"
  | .column c direction nulls =>
    Engine.rootColumn c ++ " " ++ Dialect.direction (direction == .desc) ++ NullPlace.sql nulls

@[simp] theorem SortTerm.sql_nullRank (c : String) (null value : Nat) :
    (SortTerm.nullRank c null value).sql =
      "CASE WHEN " ++ Engine.rootColumn c ++ " IS NULL THEN " ++ toString null ++ " ELSE " ++
        toString value ++ " END" :=
  rfl

@[simp] theorem SortTerm.sql_column (c : String) (direction : Direction)
    (nulls : Option NullPlace) :
    (SortTerm.column c direction nulls).sql =
      Engine.rootColumn c ++ " " ++ Dialect.direction (direction == .desc) ++ NullPlace.sql nulls :=
  rfl

/-- The place that a dialect gives to nulls unless it is said: nulls are less than every value in
SQLite and greater than every value in PostgreSQL. -/
def Dialect.nullPlace : Dialect → Direction → NullPlace
  | .sqlite, .asc => .first
  | .sqlite, .desc => .last
  | .postgres, .asc => .last
  | .postgres, .desc => .first

/-! ## Comparing rows -/

section Comparing

variable [Ord Cell]

/-- The comparison of two values, either of which may be null, in a direction. -/
def compareCells (nulls : NullPlace) (direction : Direction) : Option Cell → Option Cell → Ordering
  | none, none => .eq
  | none, some _ => if nulls = .first then .lt else .gt
  | some _, none => if nulls = .first then .gt else .lt
  | some a, some b => if direction = .asc then compare a b else compare b a

namespace SortTerm

/-- How a dialect compares two rows by a term. -/
def compare (d : Dialect) : SortTerm → Row Cell → Row Cell → Ordering
  | .nullRank c null value, a, b =>
    let rank (cell : Option Cell) : Nat := if cell.isNone then null else value
    Ord.compare (rank (a c)) (rank (b c))
  | .column c direction nulls, a, b =>
    compareCells (nulls.getD (d.nullPlace direction)) direction (a c) (b c)

/-- How a dialect compares two rows by the terms of a clause: by the first in which they differ. -/
def compareAll (d : Dialect) : List SortTerm → Row Cell → Row Cell → Ordering
  | [], _, _ => .eq
  | t :: ts, a, b => (t.compare d a b).then (compareAll d ts a b)

end SortTerm

/-- The comparison of two rows by columns, each in its direction and with nulls last. -/
def compareColumns : List (String × Direction) → Row Cell → Row Cell → Ordering
  | [], _, _ => .eq
  | (column, direction) :: columns, a, b =>
    (compareCells .last direction (a column) (b column)).then (compareColumns columns a b)

end Comparing

/-- The rows of a table are identified by columns that are never null. -/
structure Keyed (key : List String) (table : List (Row Cell)) : Prop where
  notNull : ∀ row ∈ table, ∀ column ∈ key, row column ≠ none
  unique : ∀ row ∈ table, ∀ other ∈ table, (∀ column ∈ key, row column = other column) →
    row = other

/-! ## The clause of a search -/

/-- The terms for a column with nulls last. -/
def requestedTerms (d : Dialect) (column : String) (direction : Direction) : List SortTerm :=
  match d with
  | .sqlite => [.nullRank column 1 0, .column column direction none]
  | .postgres => [.column column direction (some .last)]

/-- The columns of a primary key that are not among the requested ones. -/
def missingKey (columns : List (String × Direction)) (key : List String) : List String :=
  key.filter fun column => !(columns.map Prod.fst).contains column

/-- The terms of the order of a search. -/
def orderTerms (d : Dialect) (columns : List (String × Direction)) (key : List String) :
    List SortTerm :=
  (columns.flatMap fun c => requestedTerms d c.1 c.2) ++
    (missingKey columns key).map fun column => .column column .asc none

/-- The columns by which a search orders: the requested ones, then what is missing of the key. -/
def pageColumns (columns : List (String × Direction)) (key : List String) :
    List (String × Direction) :=
  columns ++ (missingKey columns key).map fun column => (column, .asc)

/-- Every column of the key is among them. -/
theorem mem_pageColumns {columns : List (String × Direction)} {key : List String} {column : String}
    (h : column ∈ key) : column ∈ (pageColumns columns key).map Prod.fst := by
  rw [pageColumns, List.map_append, List.mem_append]
  by_cases hrequested : column ∈ columns.map Prod.fst
  · exact Or.inl hrequested
  · refine Or.inr (List.mem_map.2 ⟨(column, .asc), List.mem_map.2 ⟨column, ?_, rfl⟩, rfl⟩)
    rw [missingKey, List.mem_filter]
    exact ⟨h, by simpa using hrequested⟩

/-- The item of a column is written as its terms are. -/
theorem orderItem_eq (d : Dialect) (column : String) (direction : Direction) :
    d.orderItem (Engine.rootColumn column) (direction == .desc) true =
      ", ".intercalate ((requestedTerms d column direction).map SortTerm.sql) := by
  cases d with
  | sqlite =>
    have hend : " END, " = " END" ++ ", " := by decide
    have hone : toString 1 = "1" := by decide
    have hzero : toString 0 = "0" := by decide
    show "CASE WHEN " ++ Engine.rootColumn column ++ " IS NULL THEN " ++ "1" ++ " ELSE " ++ "0" ++
      " END, " ++ Engine.rootColumn column ++ " " ++ Dialect.direction (direction == .desc) = _
    rw [requestedTerms, List.map_cons, List.map_singleton, String.intercalate_cons_cons,
      String.intercalate_singleton, SortTerm.sql_nullRank, SortTerm.sql_column, NullPlace.sql, hend,
      hone, hzero]
    simp only [String.append_assoc, String.append_empty]
  | postgres =>
    rw [requestedTerms, List.map_singleton, String.intercalate_singleton, SortTerm.sql_column]
    rfl

theorem intercalate_append (separator : String) {ss ts : List String} (hs : ss ≠ [])
    (ht : ts ≠ []) : separator.intercalate (ss ++ ts) =
      separator.intercalate ss ++ separator ++ separator.intercalate ts := by
  induction ss with
  | nil => exact absurd rfl hs
  | cons s ss ih =>
    cases ss with
    | nil =>
      obtain ⟨t, ts, rfl⟩ := List.exists_cons_of_ne_nil ht
      rw [List.singleton_append, String.intercalate_cons_cons, String.intercalate_singleton]
    | cons s' ss =>
      rw [List.cons_append, List.cons_append, String.intercalate_cons_cons, ← List.cons_append,
        ih (List.cons_ne_nil _ _), String.intercalate_cons_cons]
      simp only [String.append_assoc]

/-- Items that are lists of terms themselves are written as all their terms. -/
theorem intercalate_flatten (separator : String) {parts : List (List String)}
    (hparts : ∀ part ∈ parts, part ≠ []) :
    separator.intercalate (parts.map separator.intercalate) =
      separator.intercalate parts.flatten := by
  induction parts with
  | nil => rfl
  | cons part parts ih =>
    obtain ⟨hpart, hrest⟩ := List.forall_mem_cons.1 hparts
    cases parts with
    | nil => simp
    | cons next parts =>
      have hflat : (next :: parts).flatten ≠ [] :=
        List.append_ne_nil_of_left_ne_nil (hrest next List.mem_cons_self) _
      rw [List.flatten_cons, intercalate_append _ hpart hflat, ← ih hrest, List.map_cons,
        List.map_cons, String.intercalate_cons_cons]

/-- A column of the key is written as its term is. -/
theorem keyItem_eq (column : String) :
    Engine.rootColumn column ++ " ASC" = (SortTerm.column column .asc none).sql := by
  have hasc : " ASC" = " " ++ "ASC" := by decide
  show _ = Engine.rootColumn column ++ " " ++ "ASC" ++ ""
  rw [String.append_empty, String.append_assoc, hasc]

/-- The order of a search is written as its terms are. -/
theorem intercalate_orderItems (d : Dialect) (columns : List (String × Direction))
    (key : List String) :
    ", ".intercalate (Engine.orderItems d columns key) =
      ", ".intercalate ((orderTerms d columns key).map SortTerm.sql) := by
  have hrequested : ∀ c : String × Direction, (requestedTerms d c.1 c.2).map SortTerm.sql ≠ [] := by
    intro c
    cases d <;> simp [requestedTerms]
  have hitems : Engine.orderItems d columns key =
      (columns.map (fun c => (requestedTerms d c.1 c.2).map SortTerm.sql) ++
        (missingKey columns key).map fun column =>
          [(SortTerm.column column .asc none).sql]).map ", ".intercalate := by
    simp only [Engine.orderItems, missingKey, List.map_append, List.map_map, Function.comp_def,
      orderItem_eq, keyItem_eq, String.intercalate_singleton]
  have hterms : (orderTerms d columns key).map SortTerm.sql =
      (columns.map (fun c => (requestedTerms d c.1 c.2).map SortTerm.sql) ++
        (missingKey columns key).map fun column =>
          [(SortTerm.column column .asc none).sql]).flatten := by
    rw [orderTerms, List.map_append, List.map_flatMap, List.flatten_append, List.map_map,
      ← List.flatMap_def, ← List.flatMap_def, List.map_eq_flatMap]
    rfl
  rw [hitems, hterms]
  refine intercalate_flatten _ fun part hpart => ?_
  rcases List.mem_append.1 hpart with hpart | hpart
  · obtain ⟨c, _, rfl⟩ := List.mem_map.1 hpart
    exact hrequested c
  · obtain ⟨column, _, rfl⟩ := List.mem_map.1 hpart
    exact List.cons_ne_nil _ _

/-! ## Rows compared by a clause -/

section Comparing

variable [Ord Cell]

theorem SortTerm.compareAll_append (d : Dialect) (s t : List SortTerm) (a b : Row Cell) :
    compareAll d (s ++ t) a b = (compareAll d s a b).then (compareAll d t a b) := by
  induction s with
  | nil => rfl
  | cons term s ih => rw [List.cons_append, compareAll, compareAll, ih, Ordering.then_assoc]

theorem compareColumns_append (s t : List (String × Direction)) (a b : Row Cell) :
    compareColumns (s ++ t) a b = (compareColumns s a b).then (compareColumns t a b) := by
  induction s with
  | nil => rfl
  | cons c s ih => rw [List.cons_append, compareColumns, compareColumns, ih, Ordering.then_assoc]

/-- In both dialects the terms of a column order by it with nulls last. -/
theorem compareAll_requestedTerms (d : Dialect) (column : String) (direction : Direction)
    (a b : Row Cell) : SortTerm.compareAll d (requestedTerms d column direction) a b =
      compareCells .last direction (a column) (b column) := by
  cases d with
  | postgres => exact Ordering.then_eq
  | sqlite =>
    -- the rank decides unless both or none of the values are null
    show (Ord.compare _ _).then ((compareCells _ direction (a column) (b column)).then .eq) = _
    cases a column <;> cases b column
    · rfl
    · rfl
    · rfl
    · exact Ordering.then_eq

theorem compareAll_flatMap (d : Dialect) (columns : List (String × Direction)) (a b : Row Cell) :
    SortTerm.compareAll d (columns.flatMap fun c => requestedTerms d c.1 c.2) a b =
      compareColumns columns a b := by
  induction columns with
  | nil => rfl
  | cons c columns ih =>
    rw [List.flatMap_cons, SortTerm.compareAll_append, compareAll_requestedTerms, ih]
    rfl

/-- Where no value is null, both dialects order by a column in the same way. -/
theorem compareAll_key (d : Dialect) (key : List String) {a b : Row Cell}
    (ha : ∀ c ∈ key, a c ≠ none) (hb : ∀ c ∈ key, b c ≠ none) :
    SortTerm.compareAll d (key.map fun c => .column c .asc none) a b =
      compareColumns (key.map fun c => (c, .asc)) a b := by
  induction key with
  | nil => rfl
  | cons c key ih =>
    obtain ⟨x, hx⟩ := Option.ne_none_iff_exists'.1 (ha c List.mem_cons_self)
    obtain ⟨y, hy⟩ := Option.ne_none_iff_exists'.1 (hb c List.mem_cons_self)
    rw [List.map_cons, List.map_cons, SortTerm.compareAll, compareColumns, SortTerm.compare,
      ih (fun k hk => ha k (List.mem_cons_of_mem _ hk)) fun k hk =>
        hb k (List.mem_cons_of_mem _ hk), hx, hy]
    rfl

/-- It is otherwise with nulls: what SQLite puts first, PostgreSQL puts last. -/
theorem compare_key_null (column : String) {a b : Row Cell} (ha : a column = none)
    (hb : b column ≠ none) :
    (SortTerm.column column .asc none).compare .sqlite a b = .lt ∧
      (SortTerm.column column .asc none).compare .postgres a b = .gt := by
  obtain ⟨x, hx⟩ := Option.ne_none_iff_exists'.1 hb
  rw [SortTerm.compare, SortTerm.compare, ha, hx]
  exact ⟨rfl, rfl⟩

/-- Both dialects order rows whose keys are not null by the requested columns with nulls last, and
then by what is missing of the key. -/
theorem compareAll_orderTerms (d : Dialect) (columns : List (String × Direction))
    {key : List String} {a b : Row Cell} (ha : ∀ c ∈ key, a c ≠ none)
    (hb : ∀ c ∈ key, b c ≠ none) :
    SortTerm.compareAll d (orderTerms d columns key) a b =
      compareColumns (pageColumns columns key) a b := by
  have hmissing : ∀ c ∈ missingKey columns key, c ∈ key := fun c hc => (List.mem_filter.1 hc).1
  rw [orderTerms, pageColumns, SortTerm.compareAll_append, compareColumns_append,
    compareAll_flatMap, compareAll_key d _ (fun c hc => ha c (hmissing c hc))
      fun c hc => hb c (hmissing c hc)]

theorem compareCells_eq_eq [Std.LawfulEqOrd Cell] {nulls : NullPlace} {direction : Direction}
    {x y : Option Cell} : compareCells nulls direction x y = .eq ↔ x = y := by
  cases x with
  | none => cases y <;> cases nulls <;> simp [compareCells]
  | some x =>
    cases y with
    | none => cases nulls <;> simp [compareCells]
    | some y =>
      rw [compareCells, Option.some.injEq]
      split
      · exact Std.LawfulEqOrd.compare_eq_iff_eq
      · exact Std.LawfulEqOrd.compare_eq_iff_eq.trans eq_comm

/-- Rows that compare equal have the same values in the columns. -/
theorem compareColumns_eq_eq [Std.LawfulEqOrd Cell] {columns : List (String × Direction)}
    {a b : Row Cell} :
    compareColumns columns a b = .eq ↔ ∀ c ∈ columns.map Prod.fst, a c = b c := by
  induction columns with
  | nil => simp [compareColumns]
  | cons c columns ih =>
    rw [compareColumns, Ordering.then_eq_eq, compareCells_eq_eq, ih, List.map_cons,
      List.forall_mem_cons]

/-- Rows of one table that compare equal by the columns of a page are the same row. -/
theorem Keyed.eq_of_compareColumns [Std.LawfulEqOrd Cell] {columns : List (String × Direction)}
    {key : List String} {table : List (Row Cell)} (h : Keyed key table) {a b : Row Cell}
    (ha : a ∈ table) (hb : b ∈ table)
    (heq : compareColumns (pageColumns columns key) a b = .eq) : a = b :=
  h.unique a ha b hb fun _ hcolumn => compareColumns_eq_eq.1 heq _ (mem_pageColumns hcolumn)

variable [Std.TransOrd Cell]

instance (nulls : NullPlace) (direction : Direction) :
    Std.TransCmp (compareCells nulls direction : Option Cell → Option Cell → Ordering) where
  eq_swap {x y} := by
    cases x <;> cases y <;> cases nulls <;> cases direction <;>
      simp [compareCells, ← Std.OrientedOrd.eq_swap]
  isLE_trans {x y z} := by
    cases x <;> cases y <;> cases z <;> cases nulls <;> cases direction <;>
      simp only [compareCells, if_true, if_false, reduceCtorEq, Ordering.isLE_lt, Ordering.isLE_gt,
        Ordering.isLE_eq, implies_true, false_implies, Bool.false_eq_true, imp_self] <;>
      first
        | exact Std.TransCmp.isLE_trans
        | exact fun hxy hyz => Std.TransCmp.isLE_trans hyz hxy

instance (columns : List (String × Direction)) :
    Std.TransCmp (compareColumns columns : Row Cell → Row Cell → Ordering) := by
  induction columns with
  | nil => exact { eq_swap := rfl, isLE_trans := fun h _ => h }
  | cons c columns ih =>
    have hfirst : Std.TransCmp fun (a b : Row Cell) =>
        compareCells .last c.2 (a c.1) (b c.1) :=
      { eq_swap := Std.OrientedCmp.eq_swap, isLE_trans := Std.TransCmp.isLE_trans }
    exact inferInstanceAs (Std.TransCmp (compareLex _ (compareColumns columns)))

/-- There is one way only to arrange rows of one table by the columns of a page. -/
theorem Keyed.eq_of_sorted [Std.LawfulEqOrd Cell] {columns : List (String × Direction)}
    {key : List String} {table rows rows' : List (Row Cell)} (h : Keyed key table)
    (hrows : rows ⊆ table) (hperm : rows.Perm rows')
    (hsorted : rows.Pairwise fun a b => compareColumns (pageColumns columns key) a b ≠ .gt)
    (hsorted' : rows'.Pairwise fun a b => compareColumns (pageColumns columns key) a b ≠ .gt) :
    rows = rows' := by
  refine hperm.eq_of_pairwise ?_ hsorted hsorted'
  intro a b ha hb hab hba
  have hswap : compareColumns (pageColumns columns key) a b =
      (compareColumns (pageColumns columns key) b a).swap := Std.OrientedCmp.eq_swap
  cases heq : compareColumns (pageColumns columns key) b a with
  | eq => exact (h.eq_of_compareColumns (hrows (hperm.mem_iff.2 hb)) (hrows ha) heq).symm
  | gt => exact absurd heq hba
  | lt =>
    rw [heq] at hswap
    exact absurd hswap hab

end Comparing

/-! ## Searches -/

namespace Engine

variable {e : Engine} {root : String} {query : PageQuery} {now : Instant} {r : SearchRequest}

/-- The columns of the orderings of a query are those of its fields. -/
theorem orderColumns_eq_ok {registry : Registry} {entity : Entity} {orderings : List OrderBy}
    {columns : List (String × Direction)} (hentity : registry.find? root = some entity)
    (h : orderColumns registry root orderings = .ok columns) :
    List.Forall₂ (fun o c => ∃ field, entity.field? o.field = some field ∧
      c = (field.column, o.direction)) orderings columns := by
  induction orderings generalizing columns with
  | nil =>
    obtain rfl := Except.ok.inj h
    exact .nil
  | cons o os ih =>
    simp only [orderColumns, bind_eq_ok] at h
    obtain ⟨field, hfield, rest, hrest, h⟩ := h
    obtain rfl := Except.ok.inj h
    refine .cons ⟨field, ?_, rfl⟩ (ih hrest)
    rw [Registry.lookupField_of_find? hentity] at hfield
    cases hfound : entity.field? o.field with
    | none => simp [hfound] at hfield
    | some f => simpa [hfound] using hfield

/-- A search that is prepared for one dialect can be prepared for any other, in the order of the
same columns. -/
theorem prepare_dialect (h : e.prepare root query now = .ok r) :
    ∃ entity columns, e.registry.lookup root = .ok entity ∧
      orderColumns e.registry root query.orderBy = .ok columns ∧
      ∀ d, ∃ request, Engine.prepare { e with dialect := d } root query now = .ok request ∧
        request.order = orderItems d columns entity.primaryKey := by
  obtain ⟨_, hcheck, h⟩ := bind_eq_ok.1 h
  by_cases hper : e.maxPerPage < query.perPage
  · rw [if_pos hper] at h
    cases h
  · rw [if_neg hper] at h
    simp only [bind_eq_ok] at h
    obtain ⟨entity, hentity, filter, hfilter, compiled, hcompiled, columns, hcolumns, _⟩ := h
    refine ⟨entity, columns, hentity, hcolumns, fun d => ?_⟩
    let request : SearchRequest :=
      ⟨root, d, compiled.fromFragment d, compiled.whereFragment d,
        entity.primaryKey.map rootColumn, compiled.plan.mayRepeat,
        orderItems d columns entity.primaryKey, query.page, query.perPage, compiled.plan.aliases⟩
    refine ⟨request, bind_eq_ok.2 ⟨_, hcheck, ?_⟩, rfl⟩
    rw [if_neg hper]
    exact bind_eq_ok.2 ⟨entity, hentity, bind_eq_ok.2 ⟨filter, hfilter, bind_eq_ok.2
      ⟨compiled, hcompiled, bind_eq_ok.2 ⟨columns, hcolumns, rfl⟩⟩⟩⟩

/-- **The order of the rows of a page is total, and the same in both dialects.** A search that is
prepared for one dialect is prepared for the other. In each, the order is written with the terms of
the requested columns, in their order and directions and with nulls last, and then with the columns
of the primary key in which no requested field is stored; every column of the key is among them.
In a table whose key is unique and never null, this is a linear order of the rows, which does not
depend on the dialect, so that both dialects arrange any rows of the table in one way only. -/
theorem prepare_linear_order (h : e.prepare root query now = .ok r) :
    ∃ entity columns, e.registry.lookup root = .ok entity ∧
      List.Forall₂ (fun o c => ∃ field, entity.field? o.field = some field ∧
        c = (field.column, o.direction)) query.orderBy columns ∧
      (∀ d, ∃ request, Engine.prepare { e with dialect := d } root query now = .ok request ∧
        ", ".intercalate request.order =
          ", ".intercalate ((orderTerms d columns entity.primaryKey).map SortTerm.sql)) ∧
      (∀ column ∈ entity.primaryKey,
        column ∈ (pageColumns columns entity.primaryKey).map Prod.fst) ∧
      ∀ (Cell : Type) [Ord Cell] [Std.TransOrd Cell] [Std.LawfulEqOrd Cell]
        (table : List (Row Cell)), Keyed entity.primaryKey table →
        (∀ d, ∀ a ∈ table, ∀ b ∈ table,
          SortTerm.compareAll d (orderTerms d columns entity.primaryKey) a b =
            compareColumns (pageColumns columns entity.primaryKey) a b) ∧
        Std.TransCmp (compareColumns (pageColumns columns entity.primaryKey) :
          Row Cell → Row Cell → Ordering) ∧
        (∀ a ∈ table, ∀ b ∈ table,
          compareColumns (pageColumns columns entity.primaryKey) a b = .eq → a = b) ∧
        ∀ rows rows' : List (Row Cell), rows ⊆ table → rows.Perm rows' →
          rows.Pairwise (fun a b =>
            SortTerm.compareAll .sqlite (orderTerms .sqlite columns entity.primaryKey) a b ≠ .gt) →
          rows'.Pairwise (fun a b =>
            SortTerm.compareAll .postgres (orderTerms .postgres columns entity.primaryKey) a b ≠
              .gt) → rows = rows' := by
  obtain ⟨entity, columns, hentity, hcolumns, hprepare⟩ := prepare_dialect h
  refine ⟨entity, columns, hentity,
    orderColumns_eq_ok (Registry.lookup_eq_ok.1 hentity) hcolumns, ?_,
    fun column => mem_pageColumns, ?_⟩
  · intro d
    obtain ⟨request, hrequest, horder⟩ := hprepare d
    exact ⟨request, hrequest, by rw [horder, intercalate_orderItems]⟩
  · intro Cell _ _ _ table hkeyed
    have hcompare : ∀ d, ∀ a ∈ table, ∀ b ∈ table,
        SortTerm.compareAll d (orderTerms d columns entity.primaryKey) a b =
          compareColumns (pageColumns columns entity.primaryKey) a b :=
      fun d a ha b hb =>
        compareAll_orderTerms d columns (hkeyed.notNull a ha) (hkeyed.notNull b hb)
    refine ⟨hcompare, inferInstance, fun a ha b hb => hkeyed.eq_of_compareColumns ha hb, ?_⟩
    intro rows rows' hrows hperm hsorted hsorted'
    have hrows' : rows' ⊆ table := fun a ha => hrows (hperm.mem_iff.2 ha)
    have hpairwise : rows.Pairwise fun a b =>
        compareColumns (pageColumns columns entity.primaryKey) a b ≠ .gt :=
      hsorted.imp_of_mem fun ha hb hab => hcompare .sqlite _ (hrows ha) _ (hrows hb) ▸ hab
    have hpairwise' : rows'.Pairwise fun a b =>
        compareColumns (pageColumns columns entity.primaryKey) a b ≠ .gt :=
      hsorted'.imp_of_mem fun ha hb hab => hcompare .postgres _ (hrows' ha) _ (hrows' hb) ▸ hab
    exact hkeyed.eq_of_sorted hrows hperm hpairwise hpairwise'

end Engine

/-- A row of a table of which only the key is known. -/
def Row.numbered (n : Nat) : Row Nat :=
  fun column => if column = "id" then some n else none

/-- Cards without names are ordered by their keys in both dialects, whether names are asked for in
one direction or in both. -/
theorem Engine.prepare_linear_order_cards :
    ∃ r, Catalog.engine.prepare "card" { PageQuery.default with
        orderBy := [⟨"name", .asc⟩, ⟨"name", .desc⟩] } ⟨0, 0⟩ = .ok r ∧
      Keyed ["id"] [Row.numbered 1, Row.numbered 2] ∧
      ∃ columns, ∀ d, SortTerm.compareAll d (orderTerms d columns ["id"]) (Row.numbered 1)
        (Row.numbered 2) = compareColumns (pageColumns columns ["id"]) (Row.numbered 1)
          (Row.numbered 2) := by
  obtain ⟨r, h⟩ : ∃ r, Catalog.engine.prepare "card" { PageQuery.default with
    orderBy := [⟨"name", .asc⟩, ⟨"name", .desc⟩] } ⟨0, 0⟩ = .ok r := ⟨_, rfl⟩
  have hkeyed : Keyed ["id"] [Row.numbered 1, Row.numbered 2] :=
    ⟨by simp [Row.numbered], by simp [Row.numbered]⟩
  obtain ⟨entity, columns, hentity, -, -, -, horder⟩ := Engine.prepare_linear_order h
  have hcard : Catalog.engine.registry.lookup "card" = .ok Catalog.card := rfl
  obtain rfl : Catalog.card = entity := Except.ok.inj (hcard.symm.trans hentity)
  refine ⟨r, h, hkeyed, columns, fun d => ?_⟩
  exact (horder Nat _ hkeyed).1 d _ (by simp) _ (by simp)

end FilterQuery
