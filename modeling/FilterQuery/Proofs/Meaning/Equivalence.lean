import FilterQuery.Proofs.Filter.Through
import FilterQuery.Proofs.Meaning.Conjunction

/-!
# Equivalent filters

Filters of an entity are equivalent when they mean the same of every row of every database and obey
the same rules, as far as these let collections be tested (`Filter.Equivalent`). A filter may be
replaced by an equivalent one wherever it stands: below a logical word, in a slot of a filter of an
entity, at the end of a relation, or in a test on a collection. A filter of a relation to many rows
is equivalent to the test that some related row satisfies it (`Filter.Equivalent.through_any`),
although the two stand in different slots of a filter of an entity.

What a document is read as follows from its entries, so that documents with equivalent entries are
read as equivalent filters (`FilterDocument.assemble_equivalent`).
-/

namespace FilterQuery

open List (Forall₂)

variable {registry : Registry} {code name : String} {f g : Filter} {fs gs fs' gs' : List Filter}

/-! ## Equivalence -/

/-- Rules by which every relation to many rows may stand in tests on collections. -/
def Filter.Rules.AllowsMany (rules : Filter.Rules) : Prop :=
  ∀ relation : Relation, relation.isMany = true → rules.collection relation

/-- Two filters of an entity that mean the same and obey the same rules. -/
structure Filter.Equivalent (registry : Registry) (code : String) (f g : Filter) : Prop where
  /-- On every row of every database, they mean the same. -/
  meaning : ∀ {Cell : Type} (db : Database Cell) (now : Instant) (row : Row Cell),
    f.meaning registry db now code row = g.meaning registry db now code row
  /-- Where one obeys rules, the other one does. -/
  obeys : ∀ rules : Filter.Rules, rules.AllowsMany →
    (f.Obeys registry rules code ↔ g.Obeys registry rules code)

namespace Filter.Equivalent

theorem refl (f : Filter) : f.Equivalent registry code f :=
  ⟨fun _ _ _ => rfl, fun _ _ => Iff.rfl⟩

theorem trans {h : Filter} (hfg : f.Equivalent registry code g)
    (hgh : g.Equivalent registry code h) : f.Equivalent registry code h :=
  ⟨fun db now row => (hfg.meaning db now row).trans (hgh.meaning db now row),
    fun rules hrules => (hfg.obeys rules hrules).trans (hgh.obeys rules hrules)⟩

/-! ## Lists -/

theorem forall₂_refl (fs : List Filter) : Forall₂ (Filter.Equivalent registry code) fs fs :=
  List.forall₂_same.2 fun f _ => .refl f

theorem map_meaning {Cell : Type} (h : Forall₂ (Filter.Equivalent registry code) fs gs)
    (db : Database Cell) (now : Instant) (row : Row Cell) :
    (fs.map fun f => f.meaning registry db now code row) =
      gs.map fun g => g.meaning registry db now code row := by
  induction h with
  | nil => rfl
  | cons hfg _ ih => rw [List.map_cons, List.map_cons, hfg.meaning, ih]

theorem forall_obeys (h : Forall₂ (Filter.Equivalent registry code) fs gs) (rules : Filter.Rules)
    (hrules : rules.AllowsMany) :
    (∀ f ∈ fs, f.Obeys registry rules code) ↔ ∀ g ∈ gs, g.Obeys registry rules code := by
  induction h with
  | nil => rfl
  | cons hfg _ ih => rw [List.forall_mem_cons, List.forall_mem_cons, hfg.obeys rules hrules, ih]

theorem all (h : Forall₂ (Filter.Equivalent registry code) fs gs) :
    (Filter.all fs).Equivalent registry code (.all gs) where
  meaning db now row := by
    rw [Filter.meaning, Filter.meaning, meanings_eq_map, meanings_eq_map, map_meaning h]
  obeys rules hrules := by
    rw [obeys_all, obeys_all, forall_obeys h rules hrules]

theorem any (h : Forall₂ (Filter.Equivalent registry code) fs gs) :
    (Filter.any fs).Equivalent registry code (.any gs) where
  meaning db now row := by
    rw [Filter.meaning, Filter.meaning, meanings_eq_map, meanings_eq_map, map_meaning h]
  obeys rules hrules := by
    rw [obeys_any, obeys_any, forall_obeys h rules hrules]

theorem not (h : f.Equivalent registry code g) :
    (Filter.not f).Equivalent registry code (.not g) where
  meaning db now row := by
    rw [Filter.meaning, Filter.meaning, h.meaning]
  obeys rules hrules := by
    rw [obeys_not, obeys_not, h.obeys rules hrules]

theorem all_append (h : (Filter.all fs).Equivalent registry code (.all gs))
    (h' : (Filter.all fs').Equivalent registry code (.all gs')) :
    (Filter.all (fs ++ fs')).Equivalent registry code (.all (gs ++ gs')) where
  meaning db now row := by
    have hfirst := h.meaning db now row
    have hsecond := h'.meaning db now row
    simp only [Filter.meaning, meanings_eq_map] at hfirst hsecond ⊢
    rw [List.map_append, List.map_append, Truth.all_append, Truth.all_append, hfirst, hsecond]
  obeys rules hrules := by
    have hfirst := h.obeys rules hrules
    have hsecond := h'.obeys rules hrules
    rw [obeys_all, obeys_all] at hfirst hsecond ⊢
    rw [List.forall_mem_append, List.forall_mem_append, hfirst, hsecond]

/-- The order of a conjunction does not matter. -/
theorem all_perm (h : fs.Perm gs) : (Filter.all fs).Equivalent registry code (.all gs) where
  meaning db now row := by
    rw [Filter.meaning, Filter.meaning, meanings_eq_map, meanings_eq_map]
    exact Truth.all_perm (h.map _)
  obeys rules _ := by
    rw [obeys_all, obeys_all]
    exact forall_congr' fun f => imp_congr_left h.mem_iff

/-! ## Relations -/

end Filter.Equivalent

theorem Filter.meaning_through {Cell : Type} (db : Database Cell) (now : Instant)
    (row : Row Cell) :
    (f.through code name).meaning registry db now code row =
      db.related registry code name row fun target other =>
        f.meaning registry db now target other :=
  FilterDocument.Entry.meaning_alone code (.relation name (.nested f))

theorem Filter.obeys_through {rules : Filter.Rules} :
    (f.through code name).Obeys registry rules code ↔
      ∃ r, registry.relation? code name = some r ∧ f.Obeys registry rules r.target := by
  rw [through, obeys_entity]
  simp [EntityFilter.everything]

namespace Filter.Equivalent

theorem through
    (h : ∀ r, registry.relation? code name = some r → f.Equivalent registry r.target g) :
    (f.through code name).Equivalent registry code (g.through code name) where
  meaning db now row := by
    rw [meaning_through, meaning_through, Database.related, Database.related]
    cases hrelation : registry.relation? code name with
    | none => rfl
    | some r => simp only [(h r hrelation).meaning]
  obeys rules hrules := by
    rw [obeys_through, obeys_through]
    exact exists_congr fun r => and_congr_right fun hr => (h r hr).obeys rules hrules

theorem quantified {quantifier : Quantifier}
    (h : ∀ r, registry.relation? code name = some r → f.Equivalent registry r.target g) :
    (Filter.related (.quantified name quantifier f)).Equivalent registry code
      (.related (.quantified name quantifier g)) where
  meaning db now row := by
    simp only [Filter.meaning, RelatedTest.meaning]
    cases hrelation : registry.relation? code name with
    | none => rfl
    | some r => simp only [(h r hrelation).meaning]
  obeys rules hrules := by
    rw [obeys_quantified, obeys_quantified]
    exact exists_congr fun r => and_congr_right fun hr =>
      and_congr_right fun _ => (h r hr).obeys rules hrules

/-- A filter of a relation to many rows asks for some related row. -/
theorem through_any (hmany : ∀ r, registry.relation? code name = some r → r.isMany = true) :
    (f.through code name).Equivalent registry code (.related (.quantified name .any f)) where
  meaning db now row := by
    rw [meaning_through, Database.related, Filter.meaning, RelatedTest.meaning]
    cases hrelation : registry.relation? code name with
    | none => rfl
    | some r =>
      simp only
      rw [if_pos (hmany r hrelation)]
      rfl
  obeys rules hrules := by
    rw [obeys_through, obeys_quantified]
    exact exists_congr fun r => and_congr_right fun hr =>
      (and_iff_right (hrules r (hmany r hr))).symm

end Filter.Equivalent

/-! ## Filters of an entity -/

/-- What a filter of an entity says of related rows, each part as a filter by itself. -/
def EntityFilter.relational (ef : EntityFilter) : List Filter :=
  (ef.nested.map fun p => p.2.through ef.code p.1) ++ ef.related.map .related

/-- Two filters of an entity whose slots are equivalent. The filters of relations and the tests on
collections are taken together, since the one slot may have what the other has in the other. -/
structure EntityFilter.Equivalent (registry : Registry) (code : String) (ef eg : EntityFilter) :
    Prop where
  /-- The first is a filter of the entity. -/
  left : ef.code = code
  /-- So is the second. -/
  right : eg.code = code
  fields : ef.fields = eg.fields
  relational :
    (Filter.all ef.relational).Equivalent registry code (.all eg.relational)
  all : Forall₂ (Filter.Equivalent registry code) ef.all eg.all
  any : Forall₂ (Filter.Equivalent registry code) ef.any eg.any
  negated : Forall₂ (Filter.Equivalent registry code) ef.negated.toList eg.negated.toList

namespace EntityFilter

theorem meaning_relational {Cell : Type} (ef : EntityFilter) (db : Database Cell) (now : Instant)
    (row : Row Cell) :
    (Filter.all ef.relational).meaning registry db now ef.code row =
      (Truth.all (Filter.nestedMeanings registry db now ef.nested ef.code row)).and
        (.all (RelatedTest.meanings registry db now ef.related ef.code row)) := by
  rw [Filter.meaning, Filter.meanings_eq_map, relational, List.map_append, Truth.all_append,
    List.map_map, List.map_map, Filter.nestedMeanings_eq_map, RelatedTest.meanings_eq_map]
  congr 2
  exact List.map_congr_left fun p _ => Filter.meaning_through db now row

theorem obeys_relational {rules : Filter.Rules} (ef : EntityFilter) :
    (Filter.all ef.relational).Obeys registry rules ef.code ↔
      (∀ p ∈ ef.nested, ∃ r, registry.relation? ef.code p.1 = some r ∧
        p.2.Obeys registry rules r.target) ∧
      ∀ t ∈ ef.related, (Filter.related t).Obeys registry rules ef.code := by
  rw [Filter.obeys_all, relational, List.forall_mem_append, List.forall_mem_map,
    List.forall_mem_map]
  simp only [Filter.obeys_through]

namespace Equivalent

variable {ef eg : EntityFilter}

theorem everything (registry : Registry) (code : String) :
    Equivalent registry code (.everything code) (.everything code) :=
  ⟨rfl, rfl, rfl, .refl _, .nil, .nil, .nil⟩

/-- Filters of an entity are equivalent when their slots are. -/
theorem entity (h : Equivalent registry code ef eg) :
    (Filter.entity ef).Equivalent registry code (.entity eg) where
  meaning db now row := by
    obtain ⟨_, fields, nested, related, all, any, negated⟩ := ef
    obtain ⟨_, fields', nested', related', all', any', negated'⟩ := eg
    obtain ⟨hleft, hright, hfields, hrelational, hall, hany, hnegated⟩ := h
    simp only at hleft hright hfields hall hany hnegated
    subst hleft hright hfields
    have hrelations := hrelational.meaning db now row
    rw [meaning_relational, meaning_relational] at hrelations
    have hempty : any.isEmpty = any'.isEmpty := by
      cases hany <;> rfl
    have hnot := congrArg (List.map Truth.not) (Filter.Equivalent.map_meaning hnegated db now row)
    rw [List.map_map, List.map_map] at hnot
    simp only [Filter.meaning, meaning, Truth.all_append, Filter.meanings_eq_map,
      Filter.negatedMeaning_eq_map, hempty, Filter.Equivalent.map_meaning hall,
      Filter.Equivalent.map_meaning hany]
    rw [Truth.and_assoc (Truth.all (fields.map _)), hrelations, ← Truth.and_assoc]
    exact congrArg (fun ts => Truth.and _ (Truth.all ts)) hnot
  obeys rules hrules := by
    obtain ⟨rfl, hcode, hfields, hrelational, hall, hany, hnegated⟩ := h
    have hrelations := hrelational.obeys rules hrules
    rw [obeys_relational, ← hcode, obeys_relational, hcode] at hrelations
    rw [Filter.obeys_entity, Filter.obeys_entity, hfields,
      Filter.Equivalent.forall_obeys hall rules hrules,
      Filter.Equivalent.forall_obeys hany rules hrules,
      Filter.Equivalent.forall_obeys hnegated rules hrules]
    refine and_congr (iff_of_true rfl hcode) (and_congr_right fun _ => ?_)
    rw [← and_assoc, hrelations, and_assoc]

end Equivalent

end EntityFilter

/-! ## Entries of a document -/

namespace FilterDocument

/-- What a relation adds to a filter, as filters. -/
def RelationPart.filters (code name : String) : RelationPart → List Filter
  | .nested f => [f.through code name]
  | .related ts => ts.map .related

/-- Two entries that say the same in the same slot, or of the same relation. -/
inductive Entry.Equivalent (registry : Registry) (code : String) : Entry → Entry → Prop
  | fields (tests : List FieldTest) : Equivalent registry code (.fields tests) (.fields tests)
  | relation {name : String} {part part' : RelationPart} :
      (Filter.all (part.filters code name)).Equivalent registry code
        (.all (part'.filters code name)) →
      Equivalent registry code (.relation name part) (.relation name part')
  | all {fs gs : List Filter} : Forall₂ (Filter.Equivalent registry code) fs gs →
      Equivalent registry code (.all fs) (.all gs)
  | any {fs gs : List Filter} : Forall₂ (Filter.Equivalent registry code) fs gs →
      Equivalent registry code (.any fs) (.any gs)
  | negated {f g : Filter} : f.Equivalent registry code g →
      Equivalent registry code (.negated f) (.negated g)

theorem Entry.Equivalent.refl (entry : Entry) : entry.Equivalent registry code entry := by
  cases entry with
  | fields tests => exact .fields tests
  | relation name part => exact .relation (.refl _)
  | all filters => exact .all (Filter.Equivalent.forall₂_refl filters)
  | any filters => exact .any (Filter.Equivalent.forall₂_refl filters)
  | negated item => exact .negated (.refl item)

/-- A part of a relation comes to what a filter says of related rows. -/
theorem perm_relational_addTo (part : RelationPart) (name : String) (ef : EntityFilter) :
    (part.addTo name ef).relational.Perm (ef.relational ++ part.filters ef.code name) := by
  cases part with
  | nested f =>
    simp only [RelationPart.addTo, EntityFilter.relational, RelationPart.filters, List.map_append,
      List.map_singleton, List.append_assoc]
    exact List.perm_append_comm.append_left _
  | related ts =>
    simp only [RelationPart.addTo, EntityFilter.relational, RelationPart.filters, List.map_append,
      List.append_assoc]
    exact .refl _

theorem addNegated_equivalent {previous previous' : Option Filter}
    (hprevious : Forall₂ (Filter.Equivalent registry code) previous.toList previous'.toList)
    (h : f.Equivalent registry code g) :
    Forall₂ (Filter.Equivalent registry code) (addNegated previous f).toList
      (addNegated previous' g).toList := by
  cases previous with
  | none =>
    cases previous' with
    | none => exact .cons h .nil
    | some g' => cases hprevious
  | some f' =>
    cases previous' with
    | none => cases hprevious
    | some g' =>
      obtain _ | ⟨hfirst, -⟩ := hprevious
      exact .cons (.all (.cons hfirst (.cons h .nil))) .nil

/-- Equivalent entries leave equivalent filters equivalent. -/
theorem Entry.Equivalent.addTo {entry entry' : Entry} (h : entry.Equivalent registry code entry')
    {ef eg : EntityFilter} (hef : ef.Equivalent registry code eg) :
    (entry.addTo ef).Equivalent registry code (entry'.addTo eg) := by
  cases h with
  | fields tests => exact { hef with fields := congrArg (· ++ tests) hef.fields }
  | @relation name part part' hpart =>
    obtain ⟨hleft, hright, hfields, hrelational, hall, hany, hnegated⟩ := hef
    have hboth := Filter.Equivalent.all_append hrelational hpart
    have hrelations : (Filter.all (part.addTo name ef).relational).Equivalent registry code
        (.all (part'.addTo name eg).relational) := by
      have hfirst := perm_relational_addTo part name ef
      have hsecond := perm_relational_addTo part' name eg
      rw [hleft] at hfirst
      rw [hright] at hsecond
      exact (Filter.Equivalent.all_perm hfirst).trans
        (hboth.trans (Filter.Equivalent.all_perm hsecond.symm))
    cases part <;> cases part' <;> exact ⟨hleft, hright, hfields, hrelations, hall, hany, hnegated⟩
  | all hfs => exact { hef with all := List.rel_append hef.all hfs }
  | any hfs => exact { hef with any := List.rel_append hef.any hfs }
  | negated hf => exact { hef with negated := addNegated_equivalent hef.negated hf }

theorem foldl_equivalent {entries entries' : List Entry}
    (h : Forall₂ (Entry.Equivalent registry code) entries entries') {ef eg : EntityFilter}
    (hef : ef.Equivalent registry code eg) :
    (entries.foldl (fun filter entry => entry.addTo filter) ef).Equivalent registry code
      (entries'.foldl (fun filter entry => entry.addTo filter) eg) := by
  induction h generalizing ef eg with
  | nil => exact hef
  | cons hentry _ ih => exact ih (hentry.addTo hef)

/-- By themselves, equivalent entries are equivalent filters. -/
theorem Entry.Equivalent.alone {entry entry' : Entry} (h : entry.Equivalent registry code entry') :
    (entry.alone code).Equivalent registry code (entry'.alone code) := by
  have hslots := (h.addTo (.everything registry code)).entity
  cases h with
  | fields tests => exact hslots
  | relation _ => exact hslots
  | all hfs => exact .all hfs
  | any hfs => exact .any hfs
  | negated hf => exact hf.not

theorem combine_equivalent (h : Forall₂ (Filter.Equivalent registry code) fs gs) :
    (combine fs).Equivalent registry code (combine gs) := by
  cases h with
  | nil => exact .refl _
  | cons hfg hrest =>
    cases hrest with
    | nil => exact hfg
    | cons hsecond hrest => exact .all (.cons hfg (.cons hsecond hrest))

/-- Members with the same keys and equivalent entries make equivalent filters. -/
theorem assemble_equivalent {members members' : List (String × Json)}
    {entries entries' : List Entry}
    (hkeys : isCombination members = isCombination members')
    (h : Forall₂ (Entry.Equivalent registry code) entries entries') :
    (assemble code members entries).Equivalent registry code (assemble code members' entries') := by
  rw [assemble, assemble, hkeys]
  split
  · refine combine_equivalent ?_
    rw [List.forall₂_map_left_iff, List.forall₂_map_right_iff]
    exact h.imp fun _ _ hentry => hentry.alone
  · exact (foldl_equivalent h (.everything registry code)).entity

end FilterDocument

end FilterQuery
