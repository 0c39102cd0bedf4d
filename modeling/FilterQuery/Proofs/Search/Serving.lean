import FilterQuery.Proofs.Condition.Compiling
import FilterQuery.Proofs.Schema.Catalog

/-!
# Serving requests

What a request can make an engine answer. A document that is read as a filter of a registered entity
compiles (`Engine.compile_of_typed`), and preparing a search with a document fails only by a fault
of the request (`Engine.prepare_safe`).
-/

namespace FilterQuery

variable {registry : Registry} {root : String} {entity : Entity}

/-! ## Queries -/

/-- A query that brings its filter as a document, or none. -/
def PageQuery.Untyped (query : PageQuery) : Prop :=
  ∀ f, query.filter ≠ some (.filter f)

theorem PageQuery.check_safe (query : PageQuery) : Safely (fun _ => True) query.check := by
  simp only [PageQuery.check]
  split
  · exact trivial
  · split
    · exact rfl
    · split
      · exact rfl
      · exact rfl

theorem Engine.orderColumns_safe (hroot : registry.find? root = some entity)
    (orders : List OrderBy) : Safely (fun _ => True) (orderColumns registry root orders) := by
  induction orders with
  | nil => exact trivial
  | cons o os ih =>
    have hfield : Safely (fun _ => True) (registry.lookupField root o.field) := by
      rw [Registry.lookupField, Registry.lookup_eq_ok.2 hroot]
      simp only [bind, Except.bind]
      split
      · exact trivial
      · exact rfl
    exact hfield.bind fun _ _ => ih.bind fun _ _ => trivial

namespace Engine

/-! ## Compiling -/

variable (e : Engine) (hroot : e.registry.find? root = some entity)

include hroot

theorem filterOf_safe {query : PageQuery} (hquery : query.Untyped) :
    Safely (fun f => f.Typed e.registry root) (e.filterOf root query) := by
  rw [filterOf]
  split
  · exact (FilterDocument.typedParts_everything e.registry root).typed
  · exact Filter.ofJson_safe e.closed hroot e.limits _
  · rename_i f hf
    exact absurd hf (hquery f)

variable (hplain : e.registry.PlainRelations) {now : Instant}

include hplain

/-- A typed filter of a registered entity can be compiled at an instant if its tests on fields
can. -/
theorem compile_ok_iff {f : Filter} (hf : f.Typed e.registry root) :
    (∃ compiled, e.compile root f now = .ok compiled) ↔
      f.Obeys e.registry (.resolvable e.registry now) root := by
  obtain ⟨plan, hofFilter⟩ := JoinPlan.ofFilter_ok e.closed hroot hf.fits
  obtain ⟨hplan, hcode, hcovers, -⟩ := JoinPlan.ofFilter_spec hplain hofFilter
  constructor
  · rintro ⟨compiled, h⟩
    simp only [compile, bind_eq_ok] at h
    obtain ⟨_, hother, c, hc, -⟩ := h
    cases hofFilter.symm.trans hother
    exact Resolution.resolvable_of_filter hplan hplain hf (JoinPlan.reaches_root plan) hcode hc
  · intro hresolvable
    obtain ⟨condition, hcondition⟩ : ∃ c, f.resolve e.registry plan now = .ok c :=
      Resolution.filter_ok_of_resolvable hplan hplain hresolvable _ (JoinPlan.reaches_root plan)
        hcode hcovers
    exact ⟨_, bind_eq_ok.2 ⟨plan, hofFilter, bind_eq_ok.2 ⟨condition, hcondition, rfl⟩⟩⟩

variable (hnow : now.Central)

include hnow

/-- At a central instant, a typed filter of a registered entity can be planned and compiled. -/
theorem compile_of_typed {f : Filter} (hf : f.Typed e.registry root) :
    (∃ plan, JoinPlan.ofFilter e.registry root f = .ok plan) ∧
      ∃ compiled, e.compile root f now = .ok compiled :=
  ⟨JoinPlan.ofFilter_ok e.closed hroot hf.fits,
    (e.compile_ok_iff hroot hplain hf).2 (hf.resolvable hnow)⟩

/-! ## Preparing -/

/-- At a central instant, a search of a registered entity that is asked for with a document can
only fail by a fault of the request. -/
theorem prepare_safe {query : PageQuery} (hquery : query.Untyped) :
    Safely (fun _ => True) (e.prepare root query now) := by
  rw [prepare]
  refine (PageQuery.check_safe query).bind fun _ _ => ?_
  split
  · exact rfl
  · rw [Registry.lookup_eq_ok.2 hroot]
    refine (e.filterOf_safe hroot hquery).bind fun f hf => ?_
    obtain ⟨-, compiled, hcompiled⟩ := e.compile_of_typed hroot hplain hnow hf
    rw [hcompiled]
    exact (orderColumns_safe hroot query.orderBy).bind fun _ _ => trivial

/-- A document that is accepted as a filter of a registered entity can always be planned and
compiled, whatever the limits; and a search that is asked for with a document is prepared, or else
the request is at fault. -/
theorem serves_documents :
    (∀ limits json f, Filter.ofJson e.registry limits (some root) json = .ok f →
      (∃ plan, JoinPlan.ofFilter e.registry root f = .ok plan) ∧
        ∃ compiled, e.compile root f now = .ok compiled) ∧
    ∀ query : PageQuery, query.Untyped →
      (∃ request, e.prepare root query now = .ok request) ∨
        ∃ error, e.prepare root query now = .error error ∧ error.isClientError = true := by
  constructor
  · intro limits json f hf
    have htyped := (Filter.ofJson_safe e.closed hroot limits json).of_ok hf
    exact e.compile_of_typed hroot hplain hnow htyped
  · intro query hquery
    have hsafe := e.prepare_safe hroot hplain hnow hquery
    cases hprepare : e.prepare root query now with
    | ok request => exact .inl ⟨request, rfl⟩
    | error error =>
      rw [hprepare] at hsafe
      exact .inr ⟨error, rfl, hsafe⟩

end Engine

/-- A document for the cards of rank S. -/
def Catalog.rankDocument : Json :=
  .object [("rank", .object [("eq", .text "S")])]

theorem Engine.serves_documents_rank :
    ∃ f compiled, Filter.ofJson Catalog.registry .default (some "card") Catalog.rankDocument =
        .ok f ∧
      Catalog.engine.compile "card" f ⟨0, 0⟩ = .ok compiled := by
  have hcentral : Instant.Central ⟨0, 0⟩ := by
    constructor <;> decide
  obtain ⟨f, hf⟩ : ∃ f, Filter.ofJson Catalog.registry .default (some "card")
      Catalog.rankDocument = .ok f := ⟨_, rfl⟩
  have hcard : Catalog.registry.find? "card" = some Catalog.card := rfl
  have hserves := Engine.serves_documents Catalog.engine hcard Catalog.plainRelations_registry
    hcentral
  obtain ⟨-, compiled, hcompiled⟩ := hserves.1 .default Catalog.rankDocument f hf
  exact ⟨f, compiled, hf, hcompiled⟩

end FilterQuery
