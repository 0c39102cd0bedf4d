import FilterQuery.Proofs.Condition.Names
import FilterQuery.Proofs.Filter.Typed
import FilterQuery.Proofs.Schema.Catalog
import FilterQuery.Search.Engine

/-!
# Markers in the statements of a search

Both statements of a search hold what stands after `FROM` and then what stands after `WHERE`, and so
the parameters of a search belong to both. When the names of the registry are clean, the markers of
the statements line up with the parameters (`SearchRequest.CleanFrom.rendersFrom`), and they refer
to them when no piece of SQL in the query has a digit right after a marker
(`Engine.markers_line_up`).
-/

namespace FilterQuery

/-! ## Rendering a compiled filter -/

section Pass

variable {m : Type → Type} [Monad m]

/-- Writes what stands after `FROM` and what stands after `WHERE` in one pass, and each value when
it comes to it. -/
def CompiledFilter.renderM (c : CompiledFilter) (d : Dialect) (emit : Parameter → m String) :
    m (String × String) := do
  let joins ← Join.renderM d emit (c.plan.outerJoins.map PlannedJoin.join)
  let condition ← c.condition.renderM d emit
  pure (c.plan.table ++ " " ++ JoinPlan.rootAlias ++ joins, condition)

/-- The two texts of a compiled filter with its values written out. -/
def CompiledFilter.written (c : CompiledFilter) (d : Dialect) (write : Parameter → String) :
    String × String :=
  (c.renderM d fun v => (pure (write v) : Id String)).run

variable {c : CompiledFilter} {d : Dialect}

theorem CompiledFilter.renderM_eq [LawfulMonad m] {emit : Parameter → m String} :
    c.renderM d emit =
      (do
        let a ← Fragment.writtenM emit (c.fromFragment d)
        let b ← Fragment.writtenM emit (c.whereFragment d)
        pure (a, b)) := by
  simp only [renderM, fromFragment, whereFragment, Join.renderM_eq, Condition.renderM_eq,
    Fragment.writtenM_append, Fragment.writtenM_ofText, bind_assoc, pure_bind]

theorem CompiledFilter.written_eq (write : Parameter → String) :
    c.written d write =
      (Fragment.written write (c.fromFragment d), Fragment.written write (c.whereFragment d)) := by
  rw [written, renderM_eq, ← Fragment.writtenM_pure, ← Fragment.writtenM_pure]
  rfl

theorem CompiledFilter.renderM_bind :
    (c.renderM d d.bind).run [] =
      ((Fragment.sql d 0 (c.fromFragment d),
        Fragment.sql d (c.fromFragment d).parameters.length (c.whereFragment d)),
        (c.fromFragment d).parameters ++ (c.whereFragment d).parameters) := by
  simp only [renderM_eq, StateT.run_bind, Fragment.writtenM_bind, StateT.run_pure, List.nil_append,
    List.length_nil]
  rfl

end Pass

/-! ## Statements -/

namespace SearchRequest

/-- A statement around a text after `FROM` and one after `WHERE`. -/
def statement (head tail : String) (texts : String × String) : String :=
  head ++ texts.1 ++ " WHERE " ++ texts.2 ++ tail

/-- The text of the counting statement before that after `FROM`. -/
def countHead (r : SearchRequest) : String :=
  "SELECT COUNT(*) FROM (SELECT DISTINCT " ++ ", ".intercalate r.primaryKey ++ " FROM "

/-- The text of the counting statement after that after `WHERE`. -/
def countTail : String :=
  ") AS filtered"

/-- The text of the selecting statement before that after `FROM`. -/
def pageHead (r : SearchRequest) : String :=
  "SELECT " ++ (if r.distinct then "DISTINCT " else "") ++ JoinPlan.rootAlias ++ ".* FROM "

/-- The text of the selecting statement after that after `WHERE`. -/
def pageTail (r : SearchRequest) : String :=
  " ORDER BY " ++ ", ".intercalate r.order ++ " " ++ r.dialect.limitOffset r.perPage r.offset

theorem countSql_eq (r : SearchRequest) :
    r.countSql = statement r.countHead countTail (r.fromSql, r.whereSql) :=
  rfl

theorem pageSql_eq (r : SearchRequest) :
    r.pageSql = statement r.pageHead r.pageTail (r.fromSql, r.whereSql) := by
  rw [statement, pageTail, ← String.append_assoc, ← String.append_assoc, ← String.append_assoc]
  rfl

/-- How the markers of a search line up with its parameters: the texts after `FROM` and after
`WHERE` are what one pass over the joins and then over the condition makes, and the parameters what
it collects; in either statement each marker stands where the parameter with its number is used. -/
structure RendersFrom (r : SearchRequest) (c : CompiledFilter) : Prop where
  collected : (c.renderM r.dialect r.dialect.bind).run [] =
    ((r.fromSql, r.whereSql), r.parameters)
  fromLines : LinesUp r.dialect 0 r.fromFragment.parameters r.fromSql
    fun write => (c.written r.dialect write).1
  whereLines : LinesUp r.dialect r.fromFragment.parameters.length r.whereFragment.parameters
    r.whereSql fun write => (c.written r.dialect write).2
  countLines : LinesUp r.dialect 0 r.parameters r.countSql
    fun write => statement r.countHead countTail (c.written r.dialect write)
  pageLines : LinesUp r.dialect 0 r.parameters r.pageSql
    fun write => statement r.pageHead r.pageTail (c.written r.dialect write)

open Fragment (Tidy ofText)

variable {strict : Prop} {r : SearchRequest} {c : CompiledFilter} {d : Dialect} {a b : Fragment}
  {head tail : String}

/-- The fragment of a statement around two fragments. -/
def statementFragment (head tail : String) (a b : Fragment) : Fragment :=
  ofText head ++ (a ++ (ofText " WHERE " ++ (b ++ ofText tail)))

theorem parameters_statementFragment :
    (statementFragment head tail a b).parameters = a.parameters ++ b.parameters := by
  simp [statementFragment]

theorem sql_statementFragment (d : Dialect) :
    Fragment.sql d 0 (statementFragment head tail a b) =
      statement head tail (Fragment.sql d 0 a, Fragment.sql d a.parameters.length b) := by
  simp [statementFragment, statement, Fragment.sql_append, ofText, Fragment.sql,
    String.append_assoc]

theorem written_statementFragment (write : Parameter → String) :
    Fragment.written write (statementFragment head tail a b) =
      statement head tail (Fragment.written write a, Fragment.written write b) := by
  simp [statementFragment, statement, Fragment.written_append, ofText, Fragment.written,
    String.append_assoc]

theorem tidy_statementFragment_iff (hhead : Unmarked head) (htail : Unmarked tail)
    (hends : EndsNumber tail) :
    Tidy strict (statementFragment head tail a b) ↔ Tidy strict a ∧ Tidy strict b := by
  have hwhere : EndsNumber (Fragment.lead (ofText " WHERE " ++ (b ++ ofText tail))) :=
    EndsNumber.append (by decide) (by decide) _
  rw [statementFragment, Fragment.tidy_text_append_iff hhead, Fragment.tidy_append_iff hwhere,
    Fragment.tidy_text_append_iff (by decide), Fragment.tidy_append_text_iff htail hends]

/-! ## Clean requests -/

/-- A request whose names hold no beginning of a marker. -/
structure CleanNames (r : SearchRequest) : Prop where
  primaryKey : ∀ column ∈ r.primaryKey, Unmarked column
  order : ∀ item ∈ r.order, Unmarked item

theorem CleanNames.countHead (h : r.CleanNames) : Unmarked r.countHead :=
  (Unmarked.append (by decide) (unmarked_intercalate (by decide) h.primaryKey)).append (by decide)

theorem unmarked_pageHead (r : SearchRequest) : Unmarked r.pageHead := by
  rw [pageHead]
  cases r.distinct <;> decide

theorem unmarked_limitOffset (d : Dialect) (limit offset : Nat) :
    Unmarked (d.limitOffset limit offset) :=
  ((Unmarked.append (by decide) (unmarked_toString limit)).append (by decide)).append
    (unmarked_toString offset)

theorem CleanNames.pageTail (h : r.CleanNames) : Unmarked r.pageTail :=
  ((Unmarked.append (by decide) (unmarked_intercalate (by decide) h.order)).append
    (by decide)).append (unmarked_limitOffset _ _ _)

theorem endsNumber_pageTail (r : SearchRequest) : EndsNumber r.pageTail := by
  rw [pageTail, String.append_assoc, String.append_assoc]
  exact EndsNumber.append (by decide) (by decide) _

theorem tidy_fromFragment (hplan : c.plan.Clean) (d : Dialect) :
    Tidy strict (c.fromFragment d) := by
  have hjoins : Tidy strict (Join.fragments d (c.plan.outerJoins.map PlannedJoin.join)) :=
    (Join.AllClean.tidy_iff hplan.outerJoins).2 fun _ => hplan.outerJoins
  refine (Fragment.tidy_text_append_iff ?_).2 hjoins
  exact (hplan.table.append (by decide)).append (by decide)

/-- A request that is made from a compiled filter, with clean names in both. -/
structure CleanFrom (r : SearchRequest) (c : CompiledFilter) : Prop where
  names : r.CleanNames
  plan : c.plan.Clean
  condition : c.condition.Clean MarkersMatch
  fromClause : r.fromFragment = c.fromFragment r.dialect
  whereClause : r.whereFragment = c.whereFragment r.dialect

namespace CleanFrom

theorem tidy_from (h : r.CleanFrom c) : Tidy strict r.fromFragment := by
  rw [h.fromClause]
  exact tidy_fromFragment h.plan r.dialect

theorem tidy_where_iff (h : r.CleanFrom c) :
    Tidy strict r.whereFragment ↔ (strict → c.condition.Clean MarkersStand) := by
  rw [h.whereClause]
  exact h.condition.tidy_iff

theorem tidy_statement_iff (h : r.CleanFrom c) (hhead : Unmarked head) (htail : Unmarked tail)
    (hends : EndsNumber tail) :
    Tidy strict (statementFragment head tail r.fromFragment r.whereFragment) ↔
      (strict → c.condition.Clean MarkersStand) := by
  rw [tidy_statementFragment_iff hhead htail hends, h.tidy_where_iff]
  exact and_iff_right h.tidy_from

/-- The markers of a statement around what stands after `FROM` and after `WHERE` line up with the
parameters of the request. -/
theorem lines_statement (h : r.CleanFrom c) (hhead : Unmarked head) (htail : Unmarked tail)
    (hends : EndsNumber tail) :
    LinesUp r.dialect 0 r.parameters (statement head tail (r.fromSql, r.whereSql))
      fun write => statement head tail (c.written r.dialect write) := by
  have htidy : Tidy False (statementFragment head tail r.fromFragment r.whereFragment) :=
    (h.tidy_statement_iff hhead htail hends).2 False.elim
  have hlines := htidy.linesUp r.dialect 0
  simpa only [parameters_statementFragment, sql_statementFragment, written_statementFragment,
    CompiledFilter.written_eq, h.fromClause, h.whereClause, parameters, fromSql, whereSql]
    using hlines

/-- The markers of such a statement refer to the parameters when no piece of SQL has a digit right
after a marker, and in Postgres only then. -/
theorem refersTo_statement (h : r.CleanFrom c) (hhead : Unmarked head) (htail : Unmarked tail)
    (hends : EndsNumber tail) :
    (c.condition.Clean MarkersStand →
      RefersTo r.dialect 0 r.parameters (statement head tail (r.fromSql, r.whereSql))) ∧
    (r.dialect = .postgres →
      RefersTo r.dialect 0 r.parameters (statement head tail (r.fromSql, r.whereSql)) →
      c.condition.Clean MarkersStand) := by
  have htidy : ∀ strict, Tidy strict (statementFragment head tail r.fromFragment r.whereFragment) ↔
      (strict → c.condition.Clean MarkersStand) := fun strict =>
    h.tidy_statement_iff hhead htail hends
  have hsql : Fragment.sql r.dialect 0
      (statementFragment head tail r.fromFragment r.whereFragment) =
        statement head tail (r.fromSql, r.whereSql) := sql_statementFragment r.dialect
  have hvalues :
      (statementFragment head tail r.fromFragment r.whereFragment).parameters = r.parameters :=
    parameters_statementFragment
  rw [← hsql, ← hvalues]
  refine ⟨fun hstand => ?_, fun hdialect hrefers => ?_⟩
  · exact ((htidy True).2 fun _ => hstand).refersTo r.dialect 0
  · rw [hdialect] at hrefers
    exact (htidy True).1 ((((htidy False).2 False.elim).refersTo_iff 0).1 hrefers) trivial

/-- Both statements are of this form. -/
theorem refersTo (h : r.CleanFrom c) : ∀ sql ∈ [r.countSql, r.pageSql],
    (c.condition.Clean MarkersStand → RefersTo r.dialect 0 r.parameters sql) ∧
    (r.dialect = .postgres → RefersTo r.dialect 0 r.parameters sql →
      c.condition.Clean MarkersStand) := by
  have htail : Unmarked countTail ∧ EndsNumber countTail := by decide
  have hcount := h.refersTo_statement h.names.countHead htail.1 htail.2
  have hpage := h.refersTo_statement r.unmarked_pageHead h.names.pageTail r.endsNumber_pageTail
  rw [← countSql_eq] at hcount
  rw [← pageSql_eq] at hpage
  exact List.forall_mem_cons.2 ⟨hcount, List.forall_mem_singleton.2 hpage⟩

/-- The markers of a request line up when the names of its compiled filter and its own are clean. -/
theorem rendersFrom (h : r.CleanFrom c) : r.RendersFrom c := by
  have hfrom : Tidy False r.fromFragment := h.tidy_from
  have hwhere : Tidy False r.whereFragment := h.tidy_where_iff.2 False.elim
  refine ⟨?_, ?_, ?_, ?_, ?_⟩
  · rw [CompiledFilter.renderM_bind, parameters, fromSql, whereSql, h.fromClause, h.whereClause]
  · simpa only [CompiledFilter.written_eq, h.fromClause, fromSql] using
      hfrom.linesUp r.dialect 0
  · simpa only [CompiledFilter.written_eq, h.whereClause, whereSql] using
      hwhere.linesUp r.dialect r.fromFragment.parameters.length
  · rw [countSql_eq]
    exact h.lines_statement h.names.countHead (by decide) (by decide)
  · rw [pageSql_eq]
    exact h.lines_statement r.unmarked_pageHead h.names.pageTail r.endsNumber_pageTail

end CleanFrom

end SearchRequest

/-! ## Prepared searches -/

/-- A query whose filter, if it is not a document, has no piece of SQL with a numbered marker. -/
def PageQuery.CleanPieces (query : PageQuery) : Prop :=
  ∀ f, query.filter = some (.filter f) → f.EveryPiece fun sql _ => '$' ∉ sql.toList

/-- A query whose filter, if it is not a document, has no piece of SQL with a digit right after a
marker. -/
def PageQuery.StandingPieces (query : PageQuery) : Prop :=
  ∀ f, query.filter = some (.filter f) → f.EveryPiece MarkersStand

theorem Dialect.unmarked_orderItem {column : String} (h : Unmarked column) (d : Dialect)
    (descending nullsLast : Bool) : Unmarked (d.orderItem column descending nullsLast) := by
  have hdirection : Unmarked (direction descending) := by
    cases descending <;> decide
  cases d with
  | sqlite =>
    have hcase : Unmarked ("CASE WHEN " ++ column ++ " IS NULL THEN ") :=
      (Unmarked.append (by decide) h).append (by decide)
    cases nullsLast with
    | false =>
      exact ((((((hcase.append (by decide)).append (by decide)).append (by decide)).append
        (by decide)).append h).append (by decide)).append hdirection
    | true =>
      exact ((((((hcase.append (by decide)).append (by decide)).append (by decide)).append
        (by decide)).append h).append (by decide)).append hdirection
  | postgres =>
    refine ((h.append (by decide)).append hdirection).append ?_
    cases nullsLast <;> decide

namespace Engine

variable {registry : Registry} {root : String} {entity : Entity}

theorem unmarked_rootColumn {column : String} (h : Unmarked column) :
    Unmarked (rootColumn column) :=
  Unmarked.append (by decide) h

theorem orderColumns_clean (hnames : registry.CleanNames) {orders : List OrderBy}
    {columns : List (String × Direction)} (h : orderColumns registry root orders = .ok columns) :
    ∀ p ∈ columns, Unmarked p.1 := by
  induction orders generalizing columns with
  | nil =>
    obtain rfl := Except.ok.inj h
    simp
  | cons o os ih =>
    simp only [orderColumns, bind_eq_ok, Registry.lookupField] at h
    obtain ⟨field, ⟨e, he, hfield⟩, rest, hrest, h⟩ := h
    obtain rfl := Except.ok.inj h
    split at hfield
    · rename_i found hfound
      obtain rfl := Except.ok.inj hfield
      have hcolumn := (hnames _ _ (Registry.lookup_eq_ok.1 he)).column _
        (Entity.declaresColumn_field hfound)
      exact List.forall_mem_cons.2 ⟨hcolumn, ih hrest⟩
    · cases hfield

theorem orderItems_clean {columns : List (String × Direction)} {primaryKey : List String}
    (hcolumns : ∀ p ∈ columns, Unmarked p.1) (hkey : ∀ column ∈ primaryKey, Unmarked column)
    (d : Dialect) : ∀ item ∈ orderItems d columns primaryKey, Unmarked item := by
  simp only [orderItems, List.forall_mem_append, List.forall_mem_map]
  refine ⟨fun p hp => ?_, fun key hmem => ?_⟩
  · exact d.unmarked_orderItem (unmarked_rootColumn (hcolumns p hp)) _ _
  · have hclean := hkey key (List.mem_filter.1 hmem).1
    exact (unmarked_rootColumn hclean).append (by decide)

variable {e : Engine} {f : Filter} {now : Instant} {query : PageQuery}

/-- What a filter compiles to over a registry with clean names is clean, and a marker in it has a
digit right after it exactly when one in the filter has. -/
theorem compile_clean (hnames : e.registry.CleanNames)
    (hf : f.EveryPiece fun sql _ => '$' ∉ sql.toList) {compiled : CompiledFilter}
    (h : e.compile root f now = .ok compiled) :
    compiled.plan.Clean ∧ compiled.condition.Clean MarkersMatch ∧
      (compiled.condition.Clean MarkersStand ↔ f.EveryPiece MarkersStand) := by
  simp only [compile, bind_eq_ok] at h
  obtain ⟨plan, hofFilter, condition, hresolve, h⟩ := h
  obtain rfl := Except.ok.inj h
  have hplan := JoinPlan.ofFilter_clean e.closed hnames hofFilter
  have hmatch := Resolution.filter_clean_iff hnames hplan
    (fun sql values place c hsql hplace hraw =>
      iff_of_true (Resolution.rawTest_clean hsql hplace hraw) hsql)
    hf JoinPlan.cleanAlias_rootAlias hresolve
  exact ⟨hplan, hmatch.2 hf, Resolution.filter_clean_iff hnames hplan
    (fun sql values place c _ hplace hraw => Resolution.rawTest_stands_iff hplace hraw)
    hf JoinPlan.cleanAlias_rootAlias hresolve⟩

/-- A document is read as a filter without pieces of SQL. -/
theorem filterOf_everyPiece_iff {p : String → List Parameter → Prop}
    (hroot : e.registry.find? root = some entity) (h : e.filterOf root query = .ok f) :
    f.EveryPiece p ↔ ∀ g, query.filter = some (.filter g) → g.EveryPiece p := by
  unfold filterOf at h
  split at h
  · rename_i hquery
    obtain rfl := Except.ok.inj h
    have htyped := (FilterDocument.typedParts_everything e.registry root).typed
    refine iff_of_true (htyped.everyPiece.mono fun _ _ => False.elim) fun g hg => ?_
    rw [hquery] at hg
    cases hg
  · rename_i document hquery
    have htyped := (Filter.ofJson_safe e.closed hroot e.limits _).of_ok h
    refine iff_of_true (htyped.everyPiece.mono fun _ _ => False.elim) fun g hg => ?_
    rw [hquery] at hg
    cases hg
  · rename_i g hquery
    obtain rfl := Except.ok.inj h
    rw [hquery]
    constructor
    · rintro hf _ ⟨⟩
      exact hf
    · exact fun hall => hall g rfl

/-- A search that is prepared is made from what its filter compiles to, with clean names in both,
and a marker in the condition has a digit right after it exactly when one in the query has. -/
theorem prepare_cleanFrom (hnames : e.registry.CleanNames) (hquery : query.CleanPieces)
    {request : SearchRequest} (h : e.prepare root query now = .ok request) :
    ∃ f compiled, e.filterOf root query = .ok f ∧ e.compile root f now = .ok compiled ∧
      request.dialect = e.dialect ∧ request.CleanFrom compiled ∧
      (compiled.condition.Clean MarkersStand ↔ query.StandingPieces) := by
  obtain ⟨-, -, h⟩ := bind_eq_ok.1 h
  split at h
  · cases h
  · simp only [bind_eq_ok] at h
    obtain ⟨entity, hentity, f, hf, compiled, hcompiled, columns, hcolumns, h⟩ := h
    obtain rfl := Except.ok.inj h
    have hroot := Registry.lookup_eq_ok.1 hentity
    obtain ⟨hplan, hcondition, hstands⟩ :=
      compile_clean hnames ((filterOf_everyPiece_iff hroot hf).2 hquery) hcompiled
    have hkey : ∀ column ∈ entity.primaryKey, Unmarked column := fun column hcolumn =>
      (hnames _ _ hroot).column column (by simp [Entity.declaresColumn, hcolumn])
    refine ⟨f, compiled, hf, hcompiled, rfl, ⟨⟨?_, ?_⟩, hplan, hcondition, rfl, rfl⟩,
      hstands.trans (filterOf_everyPiece_iff hroot hf)⟩
    · exact List.forall_mem_map.2 fun column hcolumn => unmarked_rootColumn (hkey column hcolumn)
    · exact orderItems_clean (orderColumns_clean hnames hcolumns) hkey e.dialect

/-- Markers line up with values. A clean condition, rendered after any values in either dialect,
appends values that depend on neither, and its markers stand in the order of these values where they
are used. And so the markers of both statements of a search stand in the order of the parameters of
the search, those after `FROM` before those after `WHERE`. A database takes a marker to refer to the
value that stands in its place when no piece of SQL has a digit right after a marker; Postgres does
so only then. -/
theorem markers_line_up (d : Dialect) :
    (∀ c : Condition, c.Clean MarkersMatch → ∀ initial, c.RendersWith d initial c.values ∧
      (c.Clean MarkersStand → RefersTo d initial.length c.values
        (Fragment.sql d initial.length (c.fragment d))) ∧
      (d = .postgres → (RefersTo d initial.length c.values
        (Fragment.sql d initial.length (c.fragment d)) ↔ c.Clean MarkersStand))) ∧
    ∀ (e : Engine) (root : String) (query : PageQuery) (now : Instant) (request : SearchRequest),
      e.dialect = d → e.registry.CleanNames → query.CleanPieces →
      e.prepare root query now = .ok request →
      ∃ f compiled, e.filterOf root query = .ok f ∧ e.compile root f now = .ok compiled ∧
        request.dialect = d ∧ request.RendersFrom compiled ∧
        ∀ sql ∈ [request.countSql, request.pageSql],
          (query.StandingPieces → RefersTo d 0 request.parameters sql) ∧
          (d = .postgres → (RefersTo d 0 request.parameters sql ↔ query.StandingPieces)) := by
  refine ⟨fun c hclean initial => ⟨hclean.rendersWith d initial, ?_, ?_⟩, ?_⟩
  · exact fun hstand => hclean.refersTo hstand d initial.length
  · rintro rfl
    exact hclean.refersTo_iff initial.length
  · rintro e root query now request rfl hnames hquery h
    obtain ⟨f, compiled, hf, hcompiled, hdialect, hfrom, hstands⟩ :=
      prepare_cleanFrom hnames hquery h
    refine ⟨f, compiled, hf, hcompiled, hdialect, hfrom.rendersFrom, fun sql hsql => ?_⟩
    have hrefers := hfrom.refersTo sql hsql
    rw [hdialect, hstands] at hrefers
    exact ⟨hrefers.1, fun hpostgres => ⟨hrefers.2 hpostgres, hrefers.1⟩⟩

end Engine

/-- A digit right after a marker is read as part of its number, which then is not that of the value
in its place. -/
theorem Condition.digit_runs_on :
    (Condition.raw "x > ?5" [.integer 7]).Clean MarkersMatch ∧
    ((Condition.raw "x > ?5" [.integer 7]).renderM .postgres Dialect.postgres.bind).run [] =
      ("(x > $15)", [.integer 7]) ∧
    Dialect.postgres.markerNumbers 0 "(x > $15)".toList = [15] ∧
    ((Condition.raw "x > ?5" [.integer 7]).renderM .sqlite Dialect.sqlite.bind).run [] =
      ("(x > ?5)", [.integer 7]) ∧
    Dialect.sqlite.markerNumbers 0 "(x > ?5)".toList = [5] ∧
    ¬ ∀ c : Condition, c.Clean MarkersMatch → ∀ initial : List Parameter,
      RefersTo .postgres initial.length c.values
        (Fragment.sql .postgres initial.length (c.fragment .postgres)) := by
  have hclean : (Condition.raw "x > ?5" [.integer 7]).Clean MarkersMatch := ⟨by decide, by decide⟩
  refine ⟨hclean, ?_, ?_, ?_, ?_, fun hall => ?_⟩
  · rfl
  · decide
  · rfl
  · decide
  · have hstand : MarkersEnd "x > ?5".toList := (hclean.refersTo_iff 0).1 (hall _ hclean [])
    exact absurd hstand (by decide)

theorem Catalog.cleanNames_registry : Catalog.registry.CleanNames :=
  Registry.cleanNames_of_mem (by decide)

/-- An engine for the catalog on Postgres. -/
def Catalog.postgresEngine : Engine :=
  { Catalog.engine with dialect := .postgres }

/-- A query for the rare decks with a name of a given length, which a piece of SQL tests. -/
def Catalog.rareDecksQuery : PageQuery :=
  { PageQuery.default with
    filter := some (.filter (.all [rareDecks, .raw "LENGTH(t0.name) = ?" [.integer 3]])) }

theorem Catalog.everyPiece_rareDecksQuery {p : String → List Parameter → Prop}
    (hp : p "LENGTH(t0.name) = ?" [.integer 3]) (f : Filter)
    (hf : rareDecksQuery.filter = some (.filter f)) : f.EveryPiece p := by
  cases hf
  refine .all fun f hf => ?_
  rcases List.mem_cons.1 hf with rfl | hf
  · exact rawFree_rareDecks.mono fun _ _ => False.elim
  · obtain rfl := List.mem_singleton.1 hf
    exact .raw hp

theorem Catalog.cleanPieces_rareDecksQuery : Catalog.rareDecksQuery.CleanPieces :=
  everyPiece_rareDecksQuery (by decide)

theorem Catalog.standingPieces_rareDecksQuery : Catalog.rareDecksQuery.StandingPieces := by
  refine everyPiece_rareDecksQuery ?_
  show MarkersEnd "LENGTH(t0.name) = ?".toList
  decide

theorem Engine.markers_line_up_rareDecks :
    (∀ (d : Dialect) (initial : List Parameter),
      (Condition.raw "name = ?" [.text "a"]).RendersWith d initial [.text "a"] ∧
        RefersTo d initial.length [.text "a"] (Fragment.sql d initial.length
          ((Condition.raw "name = ?" [.text "a"]).fragment d))) ∧
    ∃ request, Catalog.postgresEngine.prepare "deck" Catalog.rareDecksQuery ⟨0, 0⟩ = .ok request ∧
      request.parameters = [.text "S", .text "%a%", .integer 3] ∧
      Dialect.postgres.markerNumbers 0 request.countSql.toList = [1, 2, 3] ∧
      Dialect.postgres.markerNumbers 0 request.pageSql.toList = [1, 2, 3] := by
  have hclean : (Condition.raw "name = ?" [.text "a"]).Clean MarkersMatch :=
    ⟨by decide, by decide⟩
  have hstand : (Condition.raw "name = ?" [.text "a"]).Clean MarkersStand := by
    show MarkersEnd "name = ?".toList
    decide
  refine ⟨fun d initial => ?_, ?_⟩
  · obtain ⟨hrenders, hrefers, -⟩ := (Engine.markers_line_up d).1 _ hclean initial
    exact ⟨hrenders, hrefers hstand⟩
  · obtain ⟨request, h, hvalues⟩ : ∃ request,
        Catalog.postgresEngine.prepare "deck" Catalog.rareDecksQuery ⟨0, 0⟩ = .ok request ∧
        request.parameters = [.text "S", .text "%a%", .integer 3] := ⟨_, rfl, rfl⟩
    obtain ⟨f, compiled, -, -, -, -, hlines⟩ := (Engine.markers_line_up .postgres).2
      Catalog.postgresEngine "deck" Catalog.rareDecksQuery ⟨0, 0⟩ request rfl
      Catalog.cleanNames_registry Catalog.cleanPieces_rareDecksQuery h
    have hnumbers : ∀ sql ∈ [request.countSql, request.pageSql],
        Dialect.postgres.markerNumbers 0 sql.toList = [1, 2, 3] := by
      intro sql hsql
      have hread := (hlines sql hsql).1 Catalog.standingPieces_rareDecksQuery
      rwa [RefersTo, hvalues] at hread
    exact ⟨request, h, hvalues, hnumbers _ List.mem_cons_self,
      hnumbers _ (List.mem_cons_of_mem _ List.mem_cons_self)⟩

end FilterQuery
