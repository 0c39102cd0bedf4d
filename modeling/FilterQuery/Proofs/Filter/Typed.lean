import FilterQuery.Filter.Detection
import FilterQuery.Proofs.Filter.Rules
import FilterQuery.Proofs.Schema.Closed

/-!
# Typed filters

Reading a document checks a filter against the registry: `Filter.Rules.typed` are the rules that it
enforces. Every reader is safe in the sense of `Safely`: what it reads is typed, and when it fails,
the document is at fault (`FilterDocument.readFilter_safe`, `Filter.ofJson_safe`). The readers are
taken one by one, each for any reader of the filters inside; the levels of nesting tie them
together.
-/

namespace FilterQuery

/-- A test that a field of an entity may have: the entity has the field, the kind of the field has
the operator, and the operand suits both. -/
def FieldTest.Typed (registry : Registry) (code : String) (t : FieldTest) : Prop :=
  ∃ e field, registry.find? code = some e ∧ e.field? t.field = some field ∧
    t.op.supports field.kind = true ∧ t.operand.check t.field t.op field.kind = .ok ()

/-- The rules that reading a document enforces. -/
def Filter.Rules.typed (registry : Registry) : Filter.Rules where
  field := FieldTest.Typed registry
  collection relation := relation.isMany = true
  count n := (n : Int) ≤ maxInt64
  raw _ _ := False

/-- A filter as documents can hold it. -/
abbrev Filter.Typed (registry : Registry) (code : String) (f : Filter) : Prop :=
  f.Obeys registry (.typed registry) code

variable {registry : Registry} {limits : FilterLimits} {code name : String}

namespace FilterDocument

/-- A reader of filters of an entity reads typed filters. -/
def ReadsTyped (registry : Registry) (code : String) (read : PartReader Filter) : Prop :=
  ∀ json count, Safely (fun p => p.1.Typed registry code) (read json count)

variable {read : PartReader Filter}

theorem countCondition_safe (count : Nat) :
    Safely (fun _ => True) (countCondition limits count) := by
  rw [countCondition]
  split
  · exact rfl
  · exact trivial

/-! ## Logical words -/

theorem readItems_safe (hread : ReadsTyped registry code read) (word : String) (js : List Json)
    (count : Nat) :
    Safely (fun p => ∀ f ∈ p.1, f.Typed registry code) (readItems read word js count) := by
  induction js generalizing count with
  | nil => simp [readItems, Safely]
  | cons j js ih =>
    rw [readItems]
    split
    · exact rfl
    · refine (hread j count).bind ?_
      rintro ⟨f, count⟩ hf
      refine (ih count).bind ?_
      rintro ⟨fs, count⟩ hfs
      exact List.forall_mem_cons.2 ⟨hf, hfs⟩

theorem readList_safe (hread : ReadsTyped registry code read) (word : String) (json : Json)
    (count : Nat) :
    Safely (fun p => ∀ f ∈ p.1, f.Typed registry code) (readList read word json count) := by
  unfold readList
  split
  · exact readItems_safe hread word _ count
  · exact rfl

theorem readNegated_safe (hread : ReadsTyped registry code read) (json : Json) (count : Nat) :
    Safely (fun p => p.1.Typed registry code) (readNegated read json count) := by
  rw [readNegated]
  split
  · exact hread json count
  · exact rfl

theorem readCombinator_safe (hread : ReadsTyped registry code read) (word : String) (json : Json)
    (count : Nat) :
    Safely (fun p => p.1.Typed registry code) (readCombinator read word json count) := by
  rw [readCombinator]
  split
  · exact (readList_safe hread andWord json count).map fun p hp => .all hp
  · split
    · exact (readList_safe hread orWord json count).map fun p hp => .any hp
    · exact (readNegated_safe hread json count).map fun p hp => .not hp

theorem readCombinators_safe (hread : ReadsTyped registry code read) (ms : List (String × Json))
    (count : Nat) :
    Safely (fun p => ∀ f ∈ p.1, f.Typed registry code) (readCombinators read ms count) := by
  induction ms generalizing count with
  | nil => simp [readCombinators, Safely]
  | cons m ms ih =>
    obtain ⟨word, j⟩ := m
    rw [readCombinators]
    refine (readCombinator_safe hread word j count).bind ?_
    rintro ⟨f, count⟩ hf
    refine (ih count).bind ?_
    rintro ⟨fs, count⟩ hfs
    exact List.forall_mem_cons.2 ⟨hf, hfs⟩

theorem combine_typed {fs : List Filter} (h : ∀ f ∈ fs, f.Typed registry code) :
    (combine fs).Typed registry code := by
  unfold combine
  split
  · exact h _ List.mem_cons_self
  · exact .all h

/-! ## Fields -/

theorem scalar_safe (op : Operator) (json : Json) :
    Safely (fun _ => True) (Operand.scalar name op json) := by
  unfold Operand.scalar
  split
  · exact rfl
  · exact rfl
  · exact trivial
  · exact rfl

theorem scalars_safe (op : Operator) (js : List Json) :
    Safely (fun _ => True) (Operand.scalars name op js) := by
  induction js with
  | nil => exact trivial
  | cons j js ih =>
    exact (scalar_safe op j).bind fun _ _ => ih.bind fun _ _ => trivial

theorem operand_safe (op : Operator) (json : Json) :
    Safely (fun _ => True) (Operand.ofJson name op json) := by
  unfold Operand.ofJson
  split
  · split
    · exact trivial
    · exact trivial
    · exact rfl
  · split
    · exact rfl
    · exact rfl
    · exact (scalar_safe op _).map fun _ _ => trivial
  · split
    · exact (scalar_safe op _).bind fun _ _ => (scalar_safe op _).bind fun _ _ => trivial
    · exact rfl
  · split
    · exact (scalars_safe op _).map fun _ _ => trivial
    · exact rfl

theorem check_eq_ok {op : Operator} {kind : ValueKind} {operand : Operand} :
    operand.check name op kind = .ok () ↔ (operand.verdict op kind).1 = true := by
  simp [Operand.check]

theorem check_safe (op : Operator) (kind : ValueKind) (operand : Operand) :
    Safely (fun _ => operand.check name op kind = .ok ()) (operand.check name op kind) := by
  cases hverdict : (operand.verdict op kind).1 with
  | true =>
    rw [check_eq_ok.2 hverdict]
    exact rfl
  | false =>
    simp only [Operand.check, hverdict]
    exact rfl

theorem readTest_safe {e : Entity} {field : Field} (he : registry.find? code = some e)
    (hfield : e.field? name = some field) (key : String) (json : Json) :
    Safely (FieldTest.Typed registry code) (readTest name field.kind key json) := by
  rw [readTest]
  split
  · exact rfl
  · rename_i op hop
    obtain ⟨-, hsupports⟩ := Option.filter_eq_some_iff.1 hop
    refine (operand_safe op json).bind fun operand _ => ?_
    refine (check_safe op field.kind operand).bind fun _ hcheck => ?_
    exact ⟨e, field, he, hfield, hsupports, hcheck⟩

theorem readTests_safe {e : Entity} {field : Field} (he : registry.find? code = some e)
    (hfield : e.field? name = some field) (ms : List (String × Json)) (count : Nat) :
    Safely (fun p => ∀ t ∈ p.1, FieldTest.Typed registry code t)
      (readTests limits name field.kind ms count) := by
  induction ms generalizing count with
  | nil => simp [readTests, Safely]
  | cons m ms ih =>
    obtain ⟨key, j⟩ := m
    rw [readTests]
    refine (readTest_safe he hfield key j).bind fun t ht => ?_
    refine (countCondition_safe count).bind fun count _ => ?_
    refine (ih count).bind ?_
    rintro ⟨ts, count⟩ hts
    exact List.forall_mem_cons.2 ⟨ht, hts⟩

theorem readField_safe {e : Entity} {field : Field} (he : registry.find? code = some e)
    (hfield : e.field? name = some field) (json : Json) (count : Nat) :
    Safely (fun p => ∀ t ∈ p.1, FieldTest.Typed registry code t)
      (readField limits name field json count) := by
  unfold readField
  split
  · exact readTests_safe he hfield _ count
  · exact rfl

/-! ## Relations -/

variable {relation : Relation}

theorem readKeyword_safe (hrel : registry.relation? code name = some relation)
    (hmany : relation.isMany = true) (hread : ReadsTyped registry relation.target read)
    (key : String) (keyword : CollectionKeyword) (json : Json) (count : Nat) :
    Safely (fun p => (Filter.related p.1).Typed registry code)
      (readKeyword read name key keyword json count) := by
  cases keyword with
  | quantifier q =>
    simp only [readKeyword]
    split
    · exact (hread json count).map fun p hp => .quantified hrel hmany hp
    · exact rfl
  | emptiness empty =>
    simp only [readKeyword]
    split
    · have hzero : ((0 : Nat) : Int) ≤ maxInt64 := by decide
      exact .size hrel hmany hzero
    · exact rfl
  | size op =>
    simp only [readKeyword]
    split
    · rename_i n
      split
      · rename_i hn
        simp only [Bool.and_eq_true, decide_eq_true_eq] at hn
        refine .size hrel hmany ?_
        show (n.toNat : Int) ≤ maxInt64
        omega
      · exact rfl
    · exact rfl

theorem readKeywords_safe (hrel : registry.relation? code name = some relation)
    (hmany : relation.isMany = true) (hread : ReadsTyped registry relation.target read)
    (ms : List (String × Json)) (count : Nat) :
    Safely (fun p => ∀ t ∈ p.1, (Filter.related t).Typed registry code)
      (readKeywords limits read name ms count) := by
  induction ms generalizing count with
  | nil => simp [readKeywords, Safely]
  | cons m ms ih =>
    obtain ⟨key, j⟩ := m
    rw [readKeywords]
    split
    · exact ih count
    · rename_i keyword _
      refine (readKeyword_safe hrel hmany hread key keyword j count).bind ?_
      rintro ⟨t, count⟩ ht
      refine (countCondition_safe count).bind fun count _ => ?_
      refine (ih count).bind ?_
      rintro ⟨ts, count⟩ hts
      exact List.forall_mem_cons.2 ⟨ht, hts⟩

/-- A part that a relation may add to a filter. -/
def RelationPart.Typed (registry : Registry) (code : String) (relation : Relation) :
    RelationPart → Prop
  | .nested f => f.Typed registry relation.target
  | .related ts => ∀ t ∈ ts, (Filter.related t).Typed registry code

/-- Over a closed registry, a relation of an entity is read safely. -/
theorem readRelation_safe (hclosed : registry.validate = .ok ())
    (hrel : registry.relation? code name = some relation) {read : Entity → PartReader Filter}
    (hread : ∀ target, registry.find? target.code = some target →
      ReadsTyped registry target.code (read target)) (json : Json) (count : Nat) :
    Safely (fun p => p.1.Typed registry code relation)
      (readRelation registry limits read name relation json count) := by
  obtain ⟨_, target, _, htarget, _⟩ := Registry.closed_relation hclosed hrel
  have hcode := Registry.code_of_find? htarget
  have htyped : ReadsTyped registry relation.target (read target) := by
    rw [← hcode]
    exact hread target (by rw [hcode, htarget])
  unfold readRelation
  split
  · rw [Registry.lookup_eq_ok.2 htarget]
    simp only [bind, Except.bind]
    split
    · exact rfl
    · split
      · exact (htyped _ count).map fun p hp => hp
      · split
        · exact rfl
        · split
          · exact rfl
          · rename_i hmany
            exact (readKeywords_safe hrel (by simpa using hmany) htyped _ count).map fun p hp => hp
  · exact rfl

/-! ## Filters of an entity -/

/-- The parts of a typed filter of an entity. -/
structure TypedParts (registry : Registry) (code : String) (ef : EntityFilter) : Prop where
  code_eq : ef.code = code
  fields : ∀ t ∈ ef.fields, FieldTest.Typed registry code t
  nested : ∀ p ∈ ef.nested, ∃ r, registry.relation? code p.1 = some r ∧ p.2.Typed registry r.target
  related : ∀ t ∈ ef.related, (Filter.related t).Typed registry code
  all : ∀ f ∈ ef.all, f.Typed registry code
  any : ∀ f ∈ ef.any, f.Typed registry code
  negated : ∀ f, ef.negated = some f → f.Typed registry code

theorem TypedParts.typed {ef : EntityFilter} (h : TypedParts registry code ef) :
    (Filter.entity ef).Typed registry code := by
  refine .entity h.code_eq h.fields ?_ ?_ h.related h.all h.any h.negated
  · intro name f hf
    obtain ⟨r, hr, -⟩ := h.nested (name, f) hf
    exact ⟨r, hr⟩
  · intro name f r hf hr
    obtain ⟨r', hr', htyped⟩ := h.nested (name, f) hf
    exact Option.some.inj (hr.symm.trans hr') ▸ htyped

theorem typedParts_everything (registry : Registry) (code : String) :
    TypedParts registry code (.everything code) := by
  constructor <;> simp [EntityFilter.everything]

theorem RelationPart.Typed.addTo {part : RelationPart}
    (hpart : part.Typed registry code relation)
    (hrel : registry.relation? code name = some relation) {ef : EntityFilter}
    (h : TypedParts registry code ef) : TypedParts registry code (part.addTo name ef) := by
  cases part with
  | nested f =>
    refine { h with nested := List.forall_mem_append.2 ⟨h.nested, ?_⟩ }
    simpa using ⟨relation, hrel, hpart⟩
  | related ts => exact { h with related := List.forall_mem_append.2 ⟨h.related, hpart⟩ }

theorem addNegated_typed {previous : Option Filter} {f : Filter}
    (hprevious : ∀ g, previous = some g → g.Typed registry code) (hf : f.Typed registry code) :
    ∀ g, addNegated previous f = some g → g.Typed registry code := by
  intro g hg
  cases previous with
  | none =>
    obtain rfl := Option.some.inj hg
    exact hf
  | some p =>
    obtain rfl := Option.some.inj hg
    refine .all (List.forall_mem_cons.2 ⟨hprevious p rfl, ?_⟩)
    simpa using hf

variable {entity : Entity} {read : Entity → PartReader Filter}

theorem unknownKey_isClientError (entity : Entity) (key : String) (json : Json) :
    (unknownKey entity key json).isClientError = true := by
  unfold unknownKey
  split
  · split <;> rfl
  · rfl

theorem readMember_safe (hclosed : registry.validate = .ok ())
    (hentity : registry.find? entity.code = some entity)
    (hread : ∀ target, registry.find? target.code = some target →
      ReadsTyped registry target.code (read target)) (key : String) (json : Json)
    {ef : EntityFilter} (hef : TypedParts registry entity.code ef) (count : Nat) :
    Safely (fun p => TypedParts registry entity.code p.1)
      (readMember registry limits read entity key json ef count) := by
  have hown := hread entity hentity
  rw [readMember]
  split
  · exact (readList_safe hown andWord json count).map fun p hp =>
      { hef with all := List.forall_mem_append.2 ⟨hef.all, hp⟩ }
  · split
    · exact (readList_safe hown orWord json count).map fun p hp =>
        { hef with any := List.forall_mem_append.2 ⟨hef.any, hp⟩ }
    · split
      · exact (readNegated_safe hown json count).map fun p hp =>
          { hef with negated := addNegated_typed hef.negated hp }
      · split
        · rename_i field hfield
          exact (readField_safe hentity hfield json count).map fun p hp =>
            { hef with fields := List.forall_mem_append.2 ⟨hef.fields, hp⟩ }
        · split
          · rename_i relation hrelation
            have hrel : registry.relation? entity.code key = some relation :=
              Registry.relation?_eq_some.2 ⟨entity, hentity, hrelation⟩
            exact (readRelation_safe hclosed hrel hread json count).map fun p hp =>
              hp.addTo hrel hef
          · exact unknownKey_isClientError entity key json

theorem readMembers_safe (hclosed : registry.validate = .ok ())
    (hentity : registry.find? entity.code = some entity)
    (hread : ∀ target, registry.find? target.code = some target →
      ReadsTyped registry target.code (read target)) (ms : List (String × Json))
    {ef : EntityFilter} (hef : TypedParts registry entity.code ef) (count : Nat) :
    Safely (fun p => TypedParts registry entity.code p.1)
      (readMembers registry limits read entity ms ef count) := by
  induction ms generalizing ef count with
  | nil => exact hef
  | cons m ms ih =>
    obtain ⟨key, j⟩ := m
    rw [readMembers]
    refine (readMember_safe hclosed hentity hread key j hef count).bind ?_
    rintro ⟨ef, count⟩ hef
    exact ih hef count

/-! ## Documents -/

/-- Whatever the limits and however deep a document is nested, what is read from it for a registered
entity is typed, and only the document can be at fault. -/
theorem readFilter_safe (hclosed : registry.validate = .ok ()) (levels : Nat) {entity : Entity}
    (hentity : registry.find? entity.code = some entity) :
    ReadsTyped registry entity.code (readFilter registry limits levels entity) := by
  induction levels generalizing entity with
  | zero =>
    intro json count
    exact rfl
  | succ levels ih =>
    intro json count
    unfold readFilter
    split
    · split
      · refine (readCombinators_safe (ih hentity) _ count).map fun p hp => ?_
        exact combine_typed hp
      · refine (readMembers_safe hclosed hentity (fun target htarget => ih htarget) _
          (typedParts_everything registry entity.code) count).map fun p hp => ?_
        exact hp.typed
    · exact rfl

end FilterDocument

/-- A document is read as a typed filter of a registered entity, or it is at fault. -/
theorem Filter.ofJson_safe (hclosed : registry.validate = .ok ()) {entity : Entity}
    (hentity : registry.find? code = some entity) (limits : FilterLimits) (json : Json) :
    Safely (fun f => f.Typed registry code) (Filter.ofJson registry limits (some code) json) := by
  have hcode := Registry.code_of_find? hentity
  have hfilter : FilterDocument.ReadsTyped registry entity.code
      (FilterDocument.readFilter registry limits (FilterDocument.levelsOf limits) entity) :=
    FilterDocument.readFilter_safe hclosed _ (by rw [hcode, hentity])
  rw [hcode] at hfilter
  simp only [Filter.ofJson, bind, Except.bind, Registry.lookup_eq_ok.2 hentity]
  exact (hfilter json 0).map fun p hp => hp

end FilterQuery
