import FilterQuery.Proofs.Meaning.Collections
import FilterQuery.Proofs.Search.Independence
import Mathlib.Data.List.Pairwise

/-!
# The two statements of a search

A search counts with one statement and selects a page with another, and the number of pages comes
from the first. Both are written around one selection of rows, but they remove repetitions in
different ways: the count asks for the different keys of the root, whatever the joins; the page asks
for different rows only when there are outer joins.

`CountStatement.answer` and `PageStatement.rows` say what the statements ask of a database, beside
their texts. As long as the primary key identifies the rows of the root, the two agree
(`Engine.prepare_statements_agree`): the page, were it not cut, would have each row of the root once
for which some rows of the joins make the condition hold, and these are as many as are counted.
-/

namespace FilterQuery

variable {Cell : Type}

/-! ## Repetitions -/

section Lists

variable {α β : Type} {R : β → β → Prop} [DecidableRel R] {f : α → β} {n : α → Nat}

/-- Of copies of an item that is taken for none of the rest, one is kept. -/
theorem pwFilter_replicate_append {b : β} {rest : List β} (hself : ¬R b b)
    (hrest : ∀ c ∈ rest, R b c) (k : Nat) :
    (List.replicate (k + 1) b ++ rest).pwFilter R = b :: rest.pwFilter R := by
  induction k with
  | zero =>
    exact List.pwFilter_cons_of_pos fun c hc => hrest c (List.pwFilter_subset _ hc)
  | succ k ih =>
    rw [List.replicate_succ, List.cons_append, List.pwFilter_cons_of_neg, ih]
    intro hall
    rw [ih] at hall
    exact hself (hall b List.mem_cons_self)

/-- Of copies of items none of which is taken for another, one is kept of each item that has any. -/
theorem pwFilter_flatMap_replicate {as : List α} (hself : ∀ b, ¬R b b)
    (h : as.Pairwise fun a a' => R (f a) (f a')) :
    (as.flatMap fun a => List.replicate (n a) (f a)).pwFilter R =
      (as.filter fun a => 0 < n a).map f := by
  induction as with
  | nil => rfl
  | cons a as ih =>
    obtain ⟨hfirst, hrest⟩ := List.pairwise_cons.1 h
    rw [List.flatMap_cons]
    cases hn : n a with
    | zero => simpa [hn] using ih hrest
    | succ k =>
      have hothers : ∀ c ∈ as.flatMap fun a => List.replicate (n a) (f a), R (f a) c := by
        intro c hc
        obtain ⟨a', ha', hc⟩ := List.mem_flatMap.1 hc
        exact List.eq_of_mem_replicate hc ▸ hfirst a' ha'
      rw [pwFilter_replicate_append (hself _) hothers, ih hrest]
      simp [hn]

omit [DecidableRel R] in
/-- Where no item has more than one copy, the copies are the items that have one. -/
theorem flatMap_replicate_of_le_one {as : List α} (h : ∀ a ∈ as, n a ≤ 1) :
    as.flatMap (fun a => List.replicate (n a) (f a)) = (as.filter fun a => 0 < n a).map f := by
  induction as with
  | nil => rfl
  | cons a as ih =>
    obtain ⟨hfirst, hrest⟩ := List.forall_mem_cons.1 h
    rw [List.flatMap_cons, ih hrest]
    obtain hn | hn : n a = 0 ∨ n a = 1 := by omega
    · simp [hn]
    · simp [hn]

end Lists

namespace Database

section

variable [DecidableEq Cell]

/-- Whether two values count as one where repetitions are removed: both are missing, or neither is
and they are identical or equal. -/
def merges (db : Database Cell) : Option Cell → Option Cell → Bool
  | none, none => true
  | some a, some b => a = b || db.same a b = .holds
  | _, _ => false

/-- Whether two rows of a result count as one: each pair of their values does. -/
def mergesRows (db : Database Cell) : List (Option Cell) → List (Option Cell) → Bool
  | [], [] => true
  | a :: as, b :: bs => db.merges a b && db.mergesRows as bs
  | _, _ => false

/-- The rows of a result without repetitions: of rows that count as one, one is kept. -/
def distinct (db : Database Cell) (rows : List (List (Option Cell))) : List (List (Option Cell)) :=
  rows.pwFilter fun r s => db.mergesRows r s = false

theorem merges_self (db : Database Cell) (a : Option Cell) : db.merges a a = true := by
  cases a <;> simp [merges]

theorem mergesRows_self (db : Database Cell) (r : List (Option Cell)) :
    db.mergesRows r r = true := by
  induction r with
  | nil => rfl
  | cons a as ih => rw [mergesRows, merges_self, ih, Bool.and_self]

/-- Rows that differ in the value of one of the selected columns do not count as one. -/
theorem mergesRows_map_eq_false {db : Database Cell} {r s : Row Cell} {columns : List String}
    {c : String} (hc : c ∈ columns) (h : db.merges (r c) (s c) = false) :
    db.mergesRows (columns.map r) (columns.map s) = false := by
  induction columns with
  | nil => cases hc
  | cons d ds ih =>
    rw [List.map_cons, List.map_cons, mergesRows, Bool.and_eq_false_iff]
    rcases List.mem_cons.1 hc with rfl | hc
    · exact Or.inl h
    · exact Or.inr (ih hc)

end

/-- Some columns identify the rows of a table: none of their values is missing, and any two rows
differ in one of them. -/
structure IdentifiedBy (db : Database Cell) (table : String) (key : List String) : Prop where
  present : ∀ row ∈ db.table table, ∀ c ∈ key, row c ≠ none
  unique : (db.table table).Pairwise fun r s =>
    ∃ c ∈ key, ∀ a ∈ r c, ∀ b ∈ s c, a ≠ b ∧ db.same a b ≠ .holds

/-- Selected with the columns that identify them among others, rows do not count as one. -/
theorem IdentifiedBy.pairwise [DecidableEq Cell] {db : Database Cell} {table : String}
    {key columns : List String} (h : db.IdentifiedBy table key)
    (hcolumns : ∀ c ∈ key, c ∈ columns) :
    (db.table table).Pairwise fun r s =>
      db.mergesRows (columns.map r) (columns.map s) = false := by
  refine h.unique.imp_of_mem fun {r s} hr hs hdiffer => ?_
  obtain ⟨c, hc, hdiffer⟩ := hdiffer
  obtain ⟨a, ha⟩ := Option.ne_none_iff_exists'.1 (h.present r hr c hc)
  obtain ⟨b, hb⟩ := Option.ne_none_iff_exists'.1 (h.present s hs c hc)
  obtain ⟨hne, hsame⟩ := hdiffer a ha b hb
  refine mergesRows_map_eq_false (hcolumns c hc) ?_
  rw [ha, hb]
  simp [merges, hne, hsame]

end Database

/-! ## Rows of the root -/

namespace CompiledFilter

/-- The ways of joining rows of the outer joins to a row of the root. -/
def combinations (c : CompiledFilter) (db : Database Cell) (row : Row Cell) : List (Env Cell) :=
  Join.extend db (c.plan.outerJoins.map PlannedJoin.join)
    [Env.set (fun _ => Row.null) JoinPlan.rootAlias row]

/-- The combinations for which the condition holds. -/
def matching (c : CompiledFilter) (db : Database Cell) (row : Row Cell) : List (Env Cell) :=
  (c.combinations db row).filter fun env => decide (c.condition.eval db env = .holds)

/-- Some combination of rows of the outer joins makes the condition hold for a row of the root. -/
def HoldsFor (c : CompiledFilter) (db : Database Cell) (row : Row Cell) : Prop :=
  ∃ env ∈ c.combinations db row, c.condition.eval db env = .holds

instance (c : CompiledFilter) (db : Database Cell) (row : Row Cell) :
    Decidable (c.HoldsFor db row) :=
  inferInstanceAs (Decidable (∃ env ∈ c.combinations db row, c.condition.eval db env = .holds))

/-- The rows of the root for which the condition holds, each as often as its table has it. -/
def chosen (c : CompiledFilter) (db : Database Cell) : List (Row Cell) :=
  (db.table c.plan.table).filter fun row => c.HoldsFor db row

theorem length_matching_pos {c : CompiledFilter} {db : Database Cell} {row : Row Cell} :
    0 < (c.matching db row).length ↔ c.HoldsFor db row := by
  simp only [List.length_pos_iff_exists_mem, matching, List.mem_filter, decide_eq_true_eq]
  exact Iff.rfl

theorem chosen_eq (c : CompiledFilter) (db : Database Cell) :
    c.chosen db = (db.table c.plan.table).filter fun row => 0 < (c.matching db row).length := by
  simp only [chosen, length_matching_pos]

/-- A row of the root is selected once for each combination that matches. -/
theorem map_select {β : Type} {c : CompiledFilter}
    (hroot : ∀ j ∈ c.plan.joins, j.aliasName ≠ JoinPlan.rootAlias) (db : Database Cell)
    (g : Row Cell → β) :
    (c.select db).map g = (db.table c.plan.table).flatMap fun row =>
      List.replicate (c.matching db row).length (g row) := by
  rw [select, environments, Join.extend_eq_flatMap, List.flatMap_map, List.filter_flatMap,
    List.map_flatMap, List.map_flatMap]
  refine List.flatMap_congr fun row _ => ?_
  rw [List.map_map]
  refine List.map_eq_replicate_iff.2 fun env henv => ?_
  obtain ⟨_, hstart, hsame⟩ := Join.eq_of_mem_extend (List.mem_of_mem_filter henv)
  obtain rfl := List.mem_singleton.1 hstart
  -- no join replaces the row of the root
  have hkept : env JoinPlan.rootAlias = row := by
    rw [hsame, Env.set_self]
    simp only [List.map_map, List.mem_map, not_exists, not_and]
    exact fun j hj => hroot j (List.mem_filter.1 hj).1
  exact congrArg g hkept

end CompiledFilter

/-! ## Statements -/

/-- A statement that counts the different values of a key among the rows of a selection. -/
structure CountStatement where
  /-- The columns of the key. -/
  key : List ColumnRef
  /-- The rows. -/
  selection : CompiledFilter

namespace CountStatement

/-- The statement as SQL. -/
def fragment (s : CountStatement) (d : Dialect) : Fragment :=
  SearchRequest.statementFragment
    ("SELECT COUNT(*) FROM (SELECT DISTINCT " ++ ", ".intercalate (s.key.map ColumnRef.text) ++
      " FROM ")
    ") AS filtered" (s.selection.fromFragment d) (s.selection.whereFragment d)

/-- What a database answers. -/
def answer [DecidableEq Cell] (s : CountStatement) (db : Database Cell) : Nat :=
  let selected := (s.selection.environments db).filter fun env =>
    decide (s.selection.condition.eval db env = .holds)
  (db.distinct (selected.map fun env => s.key.map fun c => c.value env)).length

end CountStatement

/-- A statement that selects all columns of the root, in an order and up to a limit. -/
structure PageStatement where
  /-- Whether repetitions are removed. -/
  distinct : Bool
  /-- The rows. -/
  selection : CompiledFilter
  /-- The items of the order. -/
  order : List String
  /-- The greatest number of rows. -/
  limit : Nat
  /-- The number of rows that are skipped. -/
  offset : Nat

namespace PageStatement

/-- The statement as SQL. -/
def fragment (s : PageStatement) (d : Dialect) : Fragment :=
  SearchRequest.statementFragment
    ("SELECT " ++ (if s.distinct then "DISTINCT " else "") ++ JoinPlan.rootAlias ++ ".* FROM ")
    (" ORDER BY " ++ ", ".intercalate s.order ++ " " ++ d.limitOffset s.limit s.offset)
    (s.selection.fromFragment d) (s.selection.whereFragment d)

/-- The rows that are put in order and of which a page is cut, when the table of the root has some
columns. -/
def rows [DecidableEq Cell] (s : PageStatement) (db : Database Cell) (columns : List String) :
    List (List (Option Cell)) :=
  let selected := (s.selection.select db).map fun row => columns.map row
  if s.distinct then db.distinct selected else selected

/-- A result that the statement may have without its limit: its rows in some order. -/
def Unlimited [DecidableEq Cell] (s : PageStatement) (db : Database Cell) (columns : List String)
    (result : List (List (Option Cell))) : Prop :=
  result.Perm (s.rows db columns)

end PageStatement

section

variable [DecidableEq Cell] {c : CompiledFilter} {db : Database Cell} {key columns : List String}

/-- The rows of a page are the chosen rows of the root, where repetitions are removed or there is no
join to make them. -/
theorem PageStatement.rows_eq {s : PageStatement}
    (hroot : ∀ j ∈ s.selection.plan.joins, j.aliasName ≠ JoinPlan.rootAlias)
    (hdistinct : s.distinct = s.selection.plan.mayRepeat)
    (hkey : db.IdentifiedBy s.selection.plan.table key) (hcolumns : ∀ c ∈ key, c ∈ columns) :
    s.rows db columns = (s.selection.chosen db).map fun row => columns.map row := by
  rw [rows, CompiledFilter.map_select hroot, CompiledFilter.chosen_eq]
  split
  · exact pwFilter_flatMap_replicate (fun b => by simp [Database.mergesRows_self])
      (hkey.pairwise hcolumns)
  · rename_i hnot
    have hnone : s.selection.plan.outerJoins = [] := by
      simpa [hdistinct, JoinPlan.mayRepeat] using hnot
    refine flatMap_replicate_of_le_one fun row _ => ?_
    refine Nat.le_trans (List.length_filter_le _ _) ?_
    rw [CompiledFilter.combinations, hnone]
    exact Nat.le_refl 1

/-- As many keys are counted as there are chosen rows of the root. -/
theorem CountStatement.answer_eq
    (hroot : ∀ j ∈ c.plan.joins, j.aliasName ≠ JoinPlan.rootAlias)
    (hkey : db.IdentifiedBy c.plan.table key) :
    CountStatement.answer ⟨key.map fun column => ⟨JoinPlan.rootAlias, column⟩, c⟩ db =
      (c.chosen db).length := by
  have hselected : ((c.environments db).filter fun env =>
      decide (c.condition.eval db env = .holds)).map (fun env =>
        (key.map fun column => ColumnRef.mk JoinPlan.rootAlias column).map fun c => c.value env) =
      (c.select db).map fun row => key.map row := by
    rw [CompiledFilter.select, List.map_map]
    refine List.map_congr_left fun env _ => ?_
    rw [List.map_map]
    rfl
  rw [answer, hselected, CompiledFilter.map_select hroot, Database.distinct,
    pwFilter_flatMap_replicate (fun b => by simp [Database.mergesRows_self])
      (hkey.pairwise fun c hc => hc), List.length_map, CompiledFilter.chosen_eq]

end

/-! ## Prepared searches -/

namespace JoinPlan

variable {registry : Registry} {plan : JoinPlan} {root : String} {f : Filter}

theorem numberedAlias_succ_ne_rootAlias (n : Nat) : numberedAlias (n + 1) ≠ rootAlias := by
  rw [rootAlias_eq]
  exact fun h => Nat.succ_ne_zero n (numberedAlias_inj h)

/-- The plan of a filter is one for the table of its root, and no join takes the alias of the root,
whatever the names of the relations. -/
theorem ofFilter_root (h : ofFilter registry root f = .ok plan) :
    (∃ entity, registry.find? root = some entity ∧ plan.table = entity.table) ∧
      ∀ j ∈ plan.joins, j.aliasName ≠ rootAlias := by
  obtain ⟨entity, hentity, h⟩ := bind_eq_ok.1 h
  have hpreserves : Preserves registry (fun _ => True)
      (fun plan => plan.table = entity.table ∧ ∀ j ∈ plan.joins, j.aliasName ≠ rootAlias) f := by
    refine addFilter_preserves ?_ f
    intro name scope plan child plan' _ hplan h
    simp only [visit, bind_eq_ok] at h
    obtain ⟨relation, -, h⟩ := h
    split at h
    · obtain ⟨rfl, rfl⟩ := Prod.mk.inj (Except.ok.inj h)
      exact ⟨trivial, hplan⟩
    · obtain ⟨target, -, h⟩ := bind_eq_ok.1 h
      obtain ⟨rfl, rfl⟩ := Prod.mk.inj (Except.ok.inj h)
      refine ⟨trivial, hplan.1, List.forall_mem_append.2 ⟨hplan.2, ?_⟩⟩
      rw [List.forall_mem_singleton]
      simp only [nextAlias_eq]
      exact numberedAlias_succ_ne_rootAlias _
  obtain ⟨htable, hjoins⟩ := hpreserves _ _ _ trivial ⟨rfl, by simp [start]⟩ h
  exact ⟨⟨entity, Registry.lookup_eq_ok.1 hentity, htable⟩, hjoins⟩

end JoinPlan

/-- The statement that counts the rows of an entity which a filter selects. -/
def CountStatement.ofKey (entity : Entity) (c : CompiledFilter) : CountStatement :=
  ⟨entity.primaryKey.map fun column => ⟨JoinPlan.rootAlias, column⟩, c⟩

/-- The statement that selects the page of a request. -/
def PageStatement.ofRequest (r : SearchRequest) (c : CompiledFilter) : PageStatement :=
  ⟨r.distinct, c, r.order, r.perPage, r.offset⟩

/-- The statements of a request for the rows of an entity agree: they are a count and a page of one
selection, with the parameters of the request, and where the primary key identifies the rows of the
entity, the page without its limit has as many rows as are counted, no two of which are the same,
and they are those for which the condition holds. Repetitions are removed from the page wherever
the joins could make any. -/
structure SearchRequest.StatementsAgree (r : SearchRequest) (entity : Entity) (c : CompiledFilter) :
    Prop where
  countSql : r.countSql =
    Fragment.sql r.dialect 0 ((CountStatement.ofKey entity c).fragment r.dialect)
  countParameters : ((CountStatement.ofKey entity c).fragment r.dialect).parameters = r.parameters
  pageSql : r.pageSql =
    Fragment.sql r.dialect 0 ((PageStatement.ofRequest r c).fragment r.dialect)
  pageParameters : ((PageStatement.ofRequest r c).fragment r.dialect).parameters = r.parameters
  agree : ∀ (Cell : Type) [DecidableEq Cell] (db : Database Cell) (columns : List String)
    (result : List (List (Option Cell))), db.IdentifiedBy entity.table entity.primaryKey →
    (∀ key ∈ entity.primaryKey, key ∈ columns) →
    (PageStatement.ofRequest r c).Unlimited db columns result →
    (CountStatement.ofKey entity c).answer db = result.length ∧ result.Nodup ∧
      result.Perm (((db.table entity.table).filter fun row => c.HoldsFor db row).map
        fun row => columns.map row)
  distinct : ∀ (Cell : Type) (db : Database Cell),
    (c.environments db).map (fun env => env JoinPlan.rootAlias) ≠ db.table entity.table →
    r.distinct = true

/-- The selected columns of different rows of the root differ. -/
theorem CompiledFilter.nodup_chosen [DecidableEq Cell] {c : CompiledFilter} {db : Database Cell}
    {key columns : List String} (hkey : db.IdentifiedBy c.plan.table key)
    (hcolumns : ∀ c ∈ key, c ∈ columns) :
    ((c.chosen db).map fun row => columns.map row).Nodup := by
  rw [List.Nodup, List.pairwise_map]
  refine ((hkey.pairwise hcolumns).sublist List.filter_sublist).imp ?_
  intro r s hdiffer heq
  rw [heq, Database.mergesRows_self] at hdiffer
  cases hdiffer

/-- Without outer joins every row of the root stands in one environment. -/
theorem CompiledFilter.map_environments {c : CompiledFilter} (h : c.plan.mayRepeat = false)
    (db : Database Cell) :
    (c.environments db).map (fun env => env JoinPlan.rootAlias) = db.table c.plan.table := by
  have hnone : c.plan.outerJoins = [] := by simpa [JoinPlan.mayRepeat] using h
  rw [environments, hnone, List.map_nil, Join.extend, List.map_map]
  exact List.map_id' _

section

variable {r : SearchRequest} {entity : Entity} {c : CompiledFilter}

theorem CountStatement.sql_ofKey (hfrom : r.fromFragment = c.fromFragment r.dialect)
    (hwhere : r.whereFragment = c.whereFragment r.dialect)
    (hkey : r.primaryKey = entity.primaryKey.map Engine.rootColumn) :
    r.countSql =
      Fragment.sql r.dialect 0 ((CountStatement.ofKey entity c).fragment r.dialect) := by
  have hcolumns : (CountStatement.ofKey entity c).key.map ColumnRef.text = r.primaryKey := by
    rw [hkey, CountStatement.ofKey, List.map_map]
    rfl
  have hselection : (CountStatement.ofKey entity c).selection = c := rfl
  rw [SearchRequest.countSql_eq, CountStatement.fragment, SearchRequest.sql_statementFragment,
    hcolumns, hselection, ← hfrom, ← hwhere]
  rfl

theorem PageStatement.sql_ofRequest (hfrom : r.fromFragment = c.fromFragment r.dialect)
    (hwhere : r.whereFragment = c.whereFragment r.dialect) :
    r.pageSql =
      Fragment.sql r.dialect 0 ((PageStatement.ofRequest r c).fragment r.dialect) := by
  have hselection : (PageStatement.ofRequest r c).selection = c := rfl
  rw [SearchRequest.pageSql_eq, PageStatement.fragment, SearchRequest.sql_statementFragment,
    hselection, ← hfrom, ← hwhere]
  rfl

theorem SearchRequest.statementsAgree (htable : c.plan.table = entity.table)
    (hroot : ∀ j ∈ c.plan.joins, j.aliasName ≠ JoinPlan.rootAlias)
    (hfrom : r.fromFragment = c.fromFragment r.dialect)
    (hwhere : r.whereFragment = c.whereFragment r.dialect)
    (hkey : r.primaryKey = entity.primaryKey.map Engine.rootColumn)
    (hdistinct : r.distinct = c.plan.mayRepeat) : r.StatementsAgree entity c where
  countSql := CountStatement.sql_ofKey hfrom hwhere hkey
  countParameters := by
    rw [CountStatement.fragment, parameters_statementFragment, parameters, hfrom, hwhere]
    rfl
  pageSql := PageStatement.sql_ofRequest hfrom hwhere
  pageParameters := by
    rw [PageStatement.fragment, parameters_statementFragment, parameters, hfrom, hwhere]
    rfl
  agree := by
    intro Cell _ db columns result hidentified hcolumns hresult
    rw [← htable] at hidentified ⊢
    have hrows : (PageStatement.ofRequest r c).rows db columns =
        (c.chosen db).map fun row => columns.map row :=
      PageStatement.rows_eq hroot hdistinct hidentified hcolumns
    rw [PageStatement.Unlimited, hrows] at hresult
    refine ⟨?_, ?_, hresult⟩
    · rw [hresult.length_eq, List.length_map]
      exact CountStatement.answer_eq hroot hidentified
    · exact hresult.nodup_iff.2 (CompiledFilter.nodup_chosen hidentified hcolumns)
  distinct := by
    intro Cell db hrepeats
    by_contra hnot
    rw [← htable] at hrepeats
    refine hrepeats (CompiledFilter.map_environments ?_ db)
    rw [← hdistinct]
    simpa using hnot

end

namespace Catalog

/-- A query for the cards of the users with an `a` in their names. -/
def byUserQuery : PageQuery :=
  { PageQuery.default with
    filter := some (.filter (.entity ⟨"card", [],
      [("author_user", .field ⟨"username", .contains, .single (.text "a")⟩)], [], [], [], none⟩)) }

/-- A card with a key and an author. -/
def cardRow (id author : String) : Row String :=
  fun column => some (if column = "id" then id else if column = "author" then author else "a")

/-- Two cards, the first of which is by either of two users of one name. -/
def namesakes : Database String where
  __ := Database.ofRow sampleRow
  table name :=
    if name = "animestars_cards" then [cardRow "1" "a", cardRow "2" "b"]
    else [sampleRow, sampleRow]

theorem identifiedBy_namesakes : namesakes.IdentifiedBy "animestars_cards" ["id"] where
  present := by
    intro row hrow c hc
    obtain rfl := List.mem_singleton.1 hc
    rcases List.mem_cons.1 hrow with rfl | hrow
    · decide
    · obtain rfl := List.mem_singleton.1 hrow
      decide
  unique := by
    refine List.pairwise_pair.2 ⟨"id", List.mem_singleton_self _, fun a ha b hb => ?_⟩
    obtain rfl : "1" = a := Option.some.inj ha
    obtain rfl : "2" = b := Option.some.inj hb
    decide

end Catalog

end FilterQuery
