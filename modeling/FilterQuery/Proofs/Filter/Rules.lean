import FilterQuery.Filter.Tree
import FilterQuery.Schema.Registry

/-!
# Filters that obey rules

A filter can go wrong only at its leaves and at its relations. `Filter.Obeys` follows the
relations of a registry through a filter and holds it to rules about the leaves: which tests a
field may have, which relations may be counted and quantified, which sizes may be asked for, and
which pieces of SQL may occur. `Filter.Fits` is the case without rules: every relation is declared
where it is used, and every filter of an entity stands where its entity is meant.
`Filter.EveryPiece` speaks of the pieces of SQL in a filter, wherever they stand.

`Filter.induct` is induction over filters in which the parts of a filter are members of its lists.
-/

namespace FilterQuery

/-! ## Induction -/

namespace EntityFilter

theorem sizeOf_nested_lt {ef : EntityFilter} {name : String} {f : Filter}
    (h : (name, f) ∈ ef.nested) : sizeOf f < sizeOf ef := by
  obtain ⟨code, tests, nested, collections, every, either, negated⟩ := ef
  have hlist := List.sizeOf_lt_of_mem h
  simp at hlist ⊢
  omega

theorem sizeOf_related_lt {ef : EntityFilter} {t : RelatedTest} (h : t ∈ ef.related) :
    sizeOf t < sizeOf ef := by
  obtain ⟨code, tests, nested, collections, every, either, negated⟩ := ef
  have hlist := List.sizeOf_lt_of_mem h
  simp at hlist ⊢
  omega

theorem sizeOf_part_lt {ef : EntityFilter} {f : Filter}
    (h : f ∈ ef.all ∨ f ∈ ef.any ∨ ef.negated = some f) : sizeOf f < sizeOf ef := by
  obtain ⟨code, tests, nested, collections, every, either, negated⟩ := ef
  simp only at h
  rcases h with h | h | rfl
  · have hlist := List.sizeOf_lt_of_mem h
    simp at hlist ⊢
    omega
  · have hlist := List.sizeOf_lt_of_mem h
    simp at hlist ⊢
    omega
  · simp
    omega

end EntityFilter

/-- Induction over filters: a property of all filters is one that passes from the parts of a filter
to the filter. -/
theorem Filter.induct {P : Filter → Prop}
    (field : ∀ t, P (.field t))
    (all : ∀ fs, (∀ f ∈ fs, P f) → P (.all fs))
    (any : ∀ fs, (∀ f ∈ fs, P f) → P (.any fs))
    (not : ∀ f, P f → P (.not f))
    (entity : ∀ ef : EntityFilter, (∀ name f, (name, f) ∈ ef.nested → P f) →
      (∀ t ∈ ef.related, P (.related t)) → (∀ f ∈ ef.all, P f) → (∀ f ∈ ef.any, P f) →
      (∀ f, ef.negated = some f → P f) → P (.entity ef))
    (quantified : ∀ name q f, P f → P (.related (.quantified name q f)))
    (size : ∀ name op n, P (.related (.size name op n)))
    (raw : ∀ sql values, P (.raw sql values)) : ∀ f, P f := by
  intro f
  induction h : sizeOf f using Nat.strongRecOn generalizing f with
  | ind n ih =>
    subst h
    have smaller : ∀ g, sizeOf g < sizeOf f → P g := fun g hg => ih _ hg g rfl
    cases f with
    | field t => exact field t
    | all fs =>
      refine all fs fun g hg => smaller g ?_
      have := List.sizeOf_lt_of_mem hg
      simp; omega
    | any fs =>
      refine any fs fun g hg => smaller g ?_
      have := List.sizeOf_lt_of_mem hg
      simp; omega
    | not g => exact not g (smaller g (by simp))
    | entity ef =>
      have inside : ∀ g, sizeOf g < sizeOf ef → P g := fun g hg => smaller g (by simp; omega)
      refine entity ef (fun name g hg => inside g (EntityFilter.sizeOf_nested_lt hg))
        (fun t ht => smaller _ ?_) (fun g hg => inside g (EntityFilter.sizeOf_part_lt (.inl hg)))
        (fun g hg => inside g (EntityFilter.sizeOf_part_lt (.inr (.inl hg))))
        (fun g hg => inside g (EntityFilter.sizeOf_part_lt (.inr (.inr hg))))
      have := EntityFilter.sizeOf_related_lt ht
      simp; omega
    | related t =>
      cases t with
      | quantified name q g => exact quantified name q g (smaller g (by simp; omega))
      | size name op n => exact size name op n
    | raw sql values => exact raw sql values

/-! ## Rules -/

/-- Rules about the leaves of a filter and about its tests on collections. -/
structure Filter.Rules where
  /-- Which tests the fields of an entity, given by its code, may have. -/
  field : String → FieldTest → Prop
  /-- Which relations may stand in tests on collections. -/
  collection : Relation → Prop
  /-- Which numbers the size of a collection may be compared with. -/
  count : Nat → Prop
  /-- Which pieces of SQL may occur. -/
  raw : String → List Parameter → Prop

/-- A filter, read at an entity of a registry, obeys rules: the relations are declared by the
entities at which they are used, filters of an entity stand at their own entity, and the rules
hold at every leaf. -/
inductive Filter.Obeys (registry : Registry) (rules : Filter.Rules) : String → Filter → Prop
  | field {code t} : rules.field code t → Obeys registry rules code (.field t)
  | all {code fs} : (∀ f ∈ fs, Obeys registry rules code f) → Obeys registry rules code (.all fs)
  | any {code fs} : (∀ f ∈ fs, Obeys registry rules code f) → Obeys registry rules code (.any fs)
  | not {code f} : Obeys registry rules code f → Obeys registry rules code (.not f)
  | entity {code} {ef : EntityFilter} : ef.code = code →
      (∀ t ∈ ef.fields, rules.field code t) →
      (∀ name f, (name, f) ∈ ef.nested → ∃ r, registry.relation? code name = some r) →
      (∀ name f r, (name, f) ∈ ef.nested → registry.relation? code name = some r →
        Obeys registry rules r.target f) →
      (∀ t ∈ ef.related, Obeys registry rules code (.related t)) →
      (∀ f ∈ ef.all, Obeys registry rules code f) →
      (∀ f ∈ ef.any, Obeys registry rules code f) →
      (∀ f, ef.negated = some f → Obeys registry rules code f) →
      Obeys registry rules code (.entity ef)
  | quantified {code name q f r} : registry.relation? code name = some r → rules.collection r →
      Obeys registry rules r.target f → Obeys registry rules code (.related (.quantified name q f))
  | size {code name op n r} : registry.relation? code name = some r → rules.collection r →
      rules.count n → Obeys registry rules code (.related (.size name op n))
  | raw {code sql values} : rules.raw sql values → Obeys registry rules code (.raw sql values)

/-- The rules that every filter obeys. -/
def Filter.Rules.lax : Filter.Rules :=
  ⟨fun _ _ => True, fun _ => True, fun _ => True, fun _ _ => True⟩

/-- A filter fits a registry at an entity: every relation is declared where it is used, and every
filter of an entity stands where its entity is meant. -/
abbrev Filter.Fits (registry : Registry) (code : String) (f : Filter) : Prop :=
  f.Obeys registry .lax code

/-- A filter that obeys rules obeys weaker ones. -/
theorem Filter.Obeys.mono {registry : Registry} {rules weaker : Filter.Rules} {code : String}
    {f : Filter} (h : f.Obeys registry rules code)
    (hfield : ∀ code t, rules.field code t → weaker.field code t)
    (hcollection : ∀ r, rules.collection r → weaker.collection r)
    (hcount : ∀ n, rules.count n → weaker.count n)
    (hraw : ∀ sql values, rules.raw sql values → weaker.raw sql values) :
    f.Obeys registry weaker code := by
  induction h with
  | field ht => exact .field (hfield _ _ ht)
  | all _ ih => exact .all ih
  | any _ ih => exact .any ih
  | not _ ih => exact .not ih
  | entity hcode hfields hrel _ _ _ _ _ ihn ihr iha iho ihneg =>
    exact .entity hcode (fun t ht => hfield _ _ (hfields t ht)) hrel ihn ihr iha iho ihneg
  | quantified hr hmany _ ih => exact .quantified hr (hcollection _ hmany) ih
  | size hr hmany hn => exact .size hr (hcollection _ hmany) (hcount _ hn)
  | raw h => exact .raw (hraw _ _ h)

theorem Filter.Obeys.fits {registry : Registry} {rules : Filter.Rules} {code : String} {f : Filter}
    (h : f.Obeys registry rules code) : f.Fits registry code :=
  h.mono (fun _ _ _ => trivial) (fun _ _ => trivial) (fun _ _ => trivial) fun _ _ _ => trivial

/-! ## Rules, part by part -/

namespace Filter

variable {registry : Registry} {rules : Rules} {code name : String} {f : Filter}
  {fs : List Filter}

theorem obeys_field {t : FieldTest} :
    (Filter.field t).Obeys registry rules code ↔ rules.field code t := by
  constructor
  · rintro ⟨⟩
    assumption
  · exact .field

theorem obeys_all :
    (Filter.all fs).Obeys registry rules code ↔ ∀ f ∈ fs, f.Obeys registry rules code := by
  constructor
  · rintro ⟨⟩
    assumption
  · exact .all

theorem obeys_any :
    (Filter.any fs).Obeys registry rules code ↔ ∀ f ∈ fs, f.Obeys registry rules code := by
  constructor
  · rintro ⟨⟩
    assumption
  · exact .any

theorem obeys_not :
    (Filter.not f).Obeys registry rules code ↔ f.Obeys registry rules code := by
  constructor
  · rintro ⟨⟩
    assumption
  · exact .not

theorem obeys_quantified {quantifier : Quantifier} :
    (Filter.related (.quantified name quantifier f)).Obeys registry rules code ↔
      ∃ r, registry.relation? code name = some r ∧ rules.collection r ∧
        f.Obeys registry rules r.target := by
  constructor
  · intro h
    cases h with
    | quantified hr hmany hf => exact ⟨_, hr, hmany, hf⟩
  · rintro ⟨r, hr, hmany, hf⟩
    exact .quantified hr hmany hf

theorem obeys_size {op : SizeOp} {n : Nat} :
    (Filter.related (.size name op n)).Obeys registry rules code ↔
      ∃ r, registry.relation? code name = some r ∧ rules.collection r ∧ rules.count n := by
  constructor
  · intro h
    cases h with
    | size hr hmany hn => exact ⟨_, hr, hmany, hn⟩
  · rintro ⟨r, hr, hmany, hn⟩
    exact .size hr hmany hn

theorem obeys_raw {sql : String} {values : List Parameter} :
    (Filter.raw sql values).Obeys registry rules code ↔ rules.raw sql values := by
  constructor
  · rintro ⟨⟩
    assumption
  · exact .raw

theorem obeys_entity {ef : EntityFilter} :
    (Filter.entity ef).Obeys registry rules code ↔
      ef.code = code ∧ (∀ t ∈ ef.fields, rules.field code t) ∧
        (∀ p ∈ ef.nested, ∃ r, registry.relation? code p.1 = some r ∧
          p.2.Obeys registry rules r.target) ∧
        (∀ t ∈ ef.related, (Filter.related t).Obeys registry rules code) ∧
        (∀ f ∈ ef.all, f.Obeys registry rules code) ∧
        (∀ f ∈ ef.any, f.Obeys registry rules code) ∧
        ∀ f ∈ ef.negated.toList, f.Obeys registry rules code := by
  constructor
  · intro h
    cases h with
    | entity hcode hfields hrel hnested hrelated hall hany hnegated =>
      refine ⟨hcode, hfields, ?_, hrelated, hall, hany, ?_⟩
      · rintro ⟨name, f⟩ hf
        obtain ⟨r, hr⟩ := hrel name f hf
        exact ⟨r, hr, hnested name f r hf hr⟩
      · exact fun f hf => hnegated f (Option.mem_toList.1 hf)
  · rintro ⟨hcode, hfields, hnested, hrelated, hall, hany, hnegated⟩
    refine .entity hcode hfields ?_ ?_ hrelated hall hany ?_
    · intro name f hf
      obtain ⟨r, hr, -⟩ := hnested (name, f) hf
      exact ⟨r, hr⟩
    · intro name f r hf hr
      obtain ⟨found, hfound, hobeys⟩ := hnested (name, f) hf
      exact Option.some.inj (hfound.symm.trans hr) ▸ hobeys
    · exact fun f hf => hnegated f (Option.mem_toList.2 hf)

end Filter

/-! ## Pieces of SQL -/

/-- Every piece of SQL in a filter has a property. -/
inductive Filter.EveryPiece (p : String → List Parameter → Prop) : Filter → Prop
  | field (t) : EveryPiece p (.field t)
  | all {fs} : (∀ f ∈ fs, EveryPiece p f) → EveryPiece p (.all fs)
  | any {fs} : (∀ f ∈ fs, EveryPiece p f) → EveryPiece p (.any fs)
  | not {f} : EveryPiece p f → EveryPiece p (.not f)
  | entity {ef : EntityFilter} : (∀ name f, (name, f) ∈ ef.nested → EveryPiece p f) →
      (∀ t ∈ ef.related, EveryPiece p (.related t)) → (∀ f ∈ ef.all, EveryPiece p f) →
      (∀ f ∈ ef.any, EveryPiece p f) → (∀ f, ef.negated = some f → EveryPiece p f) →
      EveryPiece p (.entity ef)
  | quantified {name q f} : EveryPiece p f → EveryPiece p (.related (.quantified name q f))
  | size (name op n) : EveryPiece p (.related (.size name op n))
  | raw {sql values} : p sql values → EveryPiece p (.raw sql values)

/-- A filter without pieces of SQL. -/
abbrev Filter.RawFree (f : Filter) : Prop :=
  f.EveryPiece fun _ _ => False

namespace Filter

variable {p : String → List Parameter → Prop} {f : Filter} {fs : List Filter}

theorem everyPiece_all : (Filter.all fs).EveryPiece p ↔ ∀ f ∈ fs, f.EveryPiece p := by
  constructor
  · rintro ⟨⟩
    assumption
  · exact .all

theorem everyPiece_any : (Filter.any fs).EveryPiece p ↔ ∀ f ∈ fs, f.EveryPiece p := by
  constructor
  · rintro ⟨⟩
    assumption
  · exact .any

theorem everyPiece_not : (Filter.not f).EveryPiece p ↔ f.EveryPiece p := by
  constructor
  · rintro ⟨⟩
    assumption
  · exact .not

theorem everyPiece_quantified {name : String} {q : Quantifier} :
    (Filter.related (.quantified name q f)).EveryPiece p ↔ f.EveryPiece p := by
  constructor
  · rintro ⟨⟩
    assumption
  · exact .quantified

theorem everyPiece_raw {sql : String} {values : List Parameter} :
    (Filter.raw sql values).EveryPiece p ↔ p sql values := by
  constructor
  · rintro ⟨⟩
    assumption
  · exact .raw

theorem everyPiece_entity {ef : EntityFilter} :
    (Filter.entity ef).EveryPiece p ↔
      (∀ part ∈ ef.nested, part.2.EveryPiece p) ∧
        (∀ t ∈ ef.related, (Filter.related t).EveryPiece p) ∧
        (∀ f ∈ ef.all, f.EveryPiece p) ∧ (∀ f ∈ ef.any, f.EveryPiece p) ∧
        ∀ f ∈ ef.negated.toList, f.EveryPiece p := by
  constructor
  · intro h
    cases h with
    | entity hnested hrelated hall hany hnegated =>
      exact ⟨fun part hpart => hnested part.1 part.2 hpart, hrelated, hall, hany,
        fun f hf => hnegated f (Option.mem_toList.1 hf)⟩
  · rintro ⟨hnested, hrelated, hall, hany, hnegated⟩
    exact .entity (fun name f hf => hnested (name, f) hf) hrelated hall hany
      fun f hf => hnegated f (Option.mem_toList.2 hf)

end Filter

theorem Filter.EveryPiece.mono {p q : String → List Parameter → Prop} {f : Filter}
    (h : f.EveryPiece p) (hpq : ∀ sql values, p sql values → q sql values) : f.EveryPiece q := by
  induction h with
  | field t => exact .field t
  | all _ ih => exact .all ih
  | any _ ih => exact .any ih
  | not _ ih => exact .not ih
  | entity _ _ _ _ _ ihn ihr iha iho ihneg => exact .entity ihn ihr iha iho ihneg
  | quantified _ ih => exact .quantified ih
  | size name op n => exact .size name op n
  | raw hp => exact .raw (hpq _ _ hp)

/-- The pieces of a filter that obeys rules are those that the rules allow. -/
theorem Filter.Obeys.everyPiece {registry : Registry} {rules : Filter.Rules} {code : String}
    {f : Filter} (h : f.Obeys registry rules code) : f.EveryPiece rules.raw := by
  induction h with
  | field _ => exact .field _
  | all _ ih => exact .all ih
  | any _ ih => exact .any ih
  | not _ ih => exact .not ih
  | entity _ _ hrel _ _ _ _ _ ihn ihr iha iho ihneg =>
    refine .entity (fun name f hf => ?_) ihr iha iho ihneg
    obtain ⟨r, hr⟩ := hrel name f hf
    exact ihn name f r hf hr
  | quantified _ _ _ ih => exact .quantified ih
  | size _ _ _ => exact .size _ _ _
  | raw hraw => exact .raw hraw

/-- A filter that fits obeys a rule about pieces of SQL when each of its pieces does. -/
theorem Filter.Fits.obeys {registry : Registry} {p : String → List Parameter → Prop}
    {code : String} {f : Filter} (h : f.Fits registry code) (hp : f.EveryPiece p) :
    f.Obeys registry { Filter.Rules.lax with raw := p } code := by
  induction h with
  | field _ => exact .field trivial
  | all _ ih =>
    cases hp with
    | all hfs => exact .all fun f hf => ih f hf (hfs f hf)
  | any _ ih =>
    cases hp with
    | any hfs => exact .any fun f hf => ih f hf (hfs f hf)
  | not _ ih =>
    cases hp with
    | not hf => exact .not (ih hf)
  | entity hcode _ hrel _ _ _ _ _ ihn ihr iha iho ihneg =>
    cases hp with
    | entity hn hr ha ho hneg =>
      exact .entity hcode (fun _ _ => trivial) hrel
        (fun name f r hf hfound => ihn name f r hf hfound (hn name f hf))
        (fun t ht => ihr t ht (hr t ht)) (fun f hf => iha f hf (ha f hf))
        (fun f hf => iho f hf (ho f hf)) (fun f hf => ihneg f hf (hneg f hf))
  | quantified hr _ _ ih =>
    cases hp with
    | quantified hf => exact .quantified hr trivial (ih hf)
  | size hr _ _ => exact .size hr trivial trivial
  | raw _ =>
    cases hp with
    | raw hraw => exact .raw hraw

end FilterQuery
