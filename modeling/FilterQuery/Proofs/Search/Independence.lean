import FilterQuery.Proofs.Condition.Alike
import FilterQuery.Proofs.Search.Markers

/-!
# Searches do not write values

Two searches that differ only in the values of their filters and in their times run the same
statements (`Engine.prepare_alike`): a value reaches a parameter and nothing else, and each
parameter is made from a source of its own in the filter.
-/

namespace FilterQuery

/-! ## Compiled filters -/

/-- Filters of one skeleton compile to one plan and to conditions that are alike. -/
theorem Engine.compile_alike {e : Engine} {root : String} {f g : Filter} {now now' : Instant}
    {c c' : CompiledFilter} (hskeleton : f.skeleton = g.skeleton)
    (h : e.compile root f now = .ok c) (h' : e.compile root g now' = .ok c') :
    c.plan = c'.plan ∧
      ∀ d, c.condition.Alike d (f.sources now) (g.sources now') c'.condition := by
  simp only [compile, bind_eq_ok] at h h'
  obtain ⟨plan, hplan, condition, hcondition, h⟩ := h
  obtain ⟨plan', hplan', condition', hcondition', h'⟩ := h'
  obtain rfl := Except.ok.inj h
  obtain rfl := Except.ok.inj h'
  rw [← JoinPlan.ofFilter_skeleton hskeleton] at hplan'
  obtain rfl : plan = plan' := Except.ok.inj (hplan.symm.trans hplan')
  exact ⟨rfl, fun d => Resolution.filter_alike f g _ _ _ hskeleton hcondition hcondition'⟩

namespace CompiledFilter

/-- The joins of a statement have no values. -/
theorem parameters_fromFragment (c : CompiledFilter) (d : Dialect) :
    (c.fromFragment d).parameters = [] := by
  rw [fromFragment, Fragment.parameters_append, Fragment.parameters_ofText, parameters_joins,
    List.append_nil]

end CompiledFilter

/-! ## Statements -/

/-- Two searches with the same text. -/
structure SearchRequest.SameText (r r' : SearchRequest) : Prop where
  fromSql : r.fromSql = r'.fromSql
  whereSql : r.whereSql = r'.whereSql
  order : r.order = r'.order
  aliases : r.aliases = r'.aliases
  countSql : r.countSql = r'.countSql
  pageSql : r.pageSql = r'.pageSql

/-- The text of a search does not depend on the values of its condition. -/
theorem SearchRequest.sameText_of_blank_eq {r : SearchRequest} {b : Fragment}
    (h : r.whereFragment.blank = b.blank) : r.SameText { r with whereFragment := b } := by
  have hwhere : r.whereSql = SearchRequest.whereSql { r with whereFragment := b } :=
    (Fragment.sql_eq_of_blank_eq h r.dialect r.fromFragment.parameters.length).1
  refine ⟨rfl, hwhere, rfl, rfl, ?_, ?_⟩
  · exact congrArg (fun text => statement r.countHead countTail (r.fromSql, text)) hwhere
  · rw [pageSql_eq, pageSql_eq]
    exact congrArg (fun text => statement r.pageHead r.pageTail (r.fromSql, text)) hwhere

namespace Engine

variable {e : Engine} {root : String} {query : PageQuery} {now now' : Instant}
  {input input' : Option FilterInput} {f g : Filter} {r r' : SearchRequest}

/-- What a search is prepared from. -/
theorem prepare_eq_ok (h : e.prepare root query now = .ok r) :
    ∃ entity filter compiled columns, e.registry.lookup root = .ok entity ∧
      e.filterOf root query = .ok filter ∧ e.compile root filter now = .ok compiled ∧
      orderColumns e.registry root query.orderBy = .ok columns ∧
      r = {
        root := root
        dialect := e.dialect
        fromFragment := compiled.fromFragment e.dialect
        whereFragment := compiled.whereFragment e.dialect
        primaryKey := entity.primaryKey.map rootColumn
        distinct := compiled.plan.mayRepeat
        order := orderItems e.dialect columns entity.primaryKey
        page := query.page
        perPage := query.perPage
        aliases := compiled.plan.aliases } := by
  obtain ⟨-, -, h⟩ := bind_eq_ok.1 h
  split at h
  · cases h
  · simp only [bind_eq_ok] at h
    obtain ⟨entity, hentity, filter, hfilter, compiled, hcompiled, columns, hcolumns, h⟩ := h
    exact ⟨entity, filter, compiled, columns, hentity, hfilter, hcompiled, hcolumns,
      (Except.ok.inj h).symm⟩

/-- Values do not reach the statements. Two searches for the same page in the same order, whose
filters have one skeleton, have the same text. They have a parameter for each source in their
filters, and parameters that are made from the same source are the same. -/
theorem prepare_alike (hf : e.filterOf root { query with filter := input } = .ok f)
    (hg : e.filterOf root { query with filter := input' } = .ok g)
    (hskeleton : f.skeleton = g.skeleton)
    (h : e.prepare root { query with filter := input } now = .ok r)
    (h' : e.prepare root { query with filter := input' } now' = .ok r') :
    r.SameText r' ∧ r.parameters.length = (f.sources now).length ∧
      r'.parameters.length = r.parameters.length ∧
      ∀ k : Nat, (f.sources now)[k]? = (g.sources now')[k]? →
        r.parameters[k]? = r'.parameters[k]? := by
  obtain ⟨entity, filter, c, columns, hentity, hfilter, hc, hcolumns, rfl⟩ := prepare_eq_ok h
  obtain ⟨entity', filter', c', columns', hentity', hfilter', hc', hcolumns', rfl⟩ :=
    prepare_eq_ok h'
  obtain rfl : f = filter := Except.ok.inj (hf.symm.trans hfilter)
  obtain rfl : g = filter' := Except.ok.inj (hg.symm.trans hfilter')
  obtain rfl : entity = entity' := Except.ok.inj (hentity.symm.trans hentity')
  obtain rfl : columns = columns' := Except.ok.inj (hcolumns.symm.trans hcolumns')
  obtain ⟨hplan, halike⟩ := compile_alike hskeleton hc hc'
  have hbound := (halike e.dialect).bound
  have hfrom : c.fromFragment e.dialect = c'.fromFragment e.dialect := by
    rw [CompiledFilter.fromFragment, hplan, CompiledFilter.fromFragment]
  rw [← hfrom, ← hplan]
  refine ⟨SearchRequest.sameText_of_blank_eq (Condition.blank_fragment_eq
    (halike e.dialect).blank e.dialect), ?_⟩
  obtain ⟨hlength, hlength', hsources⟩ := hbound.lengths
  simp only [SearchRequest.parameters, CompiledFilter.parameters_fromFragment, List.nil_append,
    CompiledFilter.whereFragment]
  refine ⟨hlength, ?_, hbound.getElem?_eq⟩
  rw [hlength', hlength, hsources]

end Engine

/-- The cards of the last days that have a text in their name and so many statistics. -/
def Catalog.recentCards (name : String) (days : Int) (count : Nat) : Filter :=
  .all [.field ⟨"name", .contains, .single (.text name)⟩,
    .field ⟨"created_at", .lastNDays, .single (.integer days)⟩,
    .related (.size "stats" .gte count)]

/-- The text of a search for recent cards depends neither on the name, the days and the size that
are asked for nor on the time, and its last parameter is the size. -/
theorem Engine.prepare_alike_recentCards :
    ∃ r r',
      Catalog.engine.prepare "card" { PageQuery.default with
        filter := some (.filter (Catalog.recentCards "a" 3 5)) } ⟨0, 0⟩ = .ok r ∧
      Catalog.engine.prepare "card" { PageQuery.default with
        filter := some (.filter (Catalog.recentCards "' OR 1=1" 30 5)) } ⟨86400, 0⟩ = .ok r' ∧
      r.pageSql = r'.pageSql ∧ r.parameters[3]? = r'.parameters[3]? := by
  obtain ⟨r, h⟩ : ∃ r, Catalog.engine.prepare "card" { PageQuery.default with
    filter := some (.filter (Catalog.recentCards "a" 3 5)) } ⟨0, 0⟩ = .ok r := ⟨_, rfl⟩
  obtain ⟨r', h'⟩ : ∃ r', Catalog.engine.prepare "card" { PageQuery.default with
    filter := some (.filter (Catalog.recentCards "' OR 1=1" 30 5)) } ⟨86400, 0⟩ = .ok r' :=
    ⟨_, rfl⟩
  obtain ⟨htext, -, -, hsame⟩ := Engine.prepare_alike
    (f := Catalog.recentCards "a" 3 5) (g := Catalog.recentCards "' OR 1=1" 30 5) rfl rfl rfl h h'
  exact ⟨r, r', h, h', htext.pageSql, hsame 3 rfl⟩

end FilterQuery
