import FilterQuery.Proofs.Filter.Splitting
import FilterQuery.Proofs.Meaning.Filter

/-!
# An object means the conjunction of its members

A filter document says of a row what its members say one by one, taken together
(`Filter.ofJson_conjoins`). Whether an object is read as a list of filters or as the slots of a
filter of an entity makes no difference: each entry joins what was said before by a conjunction
(`Entry.meaning_addTo`), as long as it does not meet an entry of its own kind in a slot whose
contents are not joined by conjunctions. These are the slots of `or` and `not`, and an object has
each of the two words at most once. The same holds of the operators of a field and of the keywords
of a collection.

The only exception is an empty list of alternatives, which no row satisfies when it stands alone or
among logical words, and which is no part of a filter beside other members
(`Catalog.not_conjoins`).
-/

namespace FilterQuery

namespace FilterDocument

open FilterQuery.Filter (meanings_eq_map nestedMeanings_eq_map)

variable {Cell : Type} {registry : Registry} {db : Database Cell} {now : Instant} {code : String}
  {row : Row Cell}

/-! ## Entries -/

/-- What an entry of a filter of an entity says of a row. -/
def Entry.meaning (registry : Registry) (db : Database Cell) (now : Instant) (code : String)
    (row : Row Cell) : Entry → Truth
  | .fields tests => .all (tests.map (FieldTest.meaningAt registry db now code row))
  | .relation name (.nested filter) => db.related registry code name row fun target other =>
      filter.meaning registry db now target other
  | .relation _ (.related tests) =>
    .all (tests.map fun test => (Filter.related test).meaning registry db now code row)
  | .all filters => .all (filters.map fun f => f.meaning registry db now code row)
  | .any filters => .any (filters.map fun f => f.meaning registry db now code row)
  | .negated item => (item.meaning registry db now code row).not

/-- An entry for which the slots of a filter are free. -/
def Entry.Fits (filter : EntityFilter) : Entry → Prop
  | .any filters => filters ≠ [] ∧ filter.any = []
  | .negated _ => filter.negated = none
  | _ => True

/-- Two entries that can stand beside each other. -/
def Entry.Apart : Entry → Entry → Prop
  | .any _, .any _ => False
  | .negated _, .negated _ => False
  | _, _ => True

/-- An entry that fits joins what a filter says by a conjunction. -/
theorem Entry.meaning_addTo {entry : Entry} {filter : EntityFilter} (h : entry.Fits filter) :
    (entry.addTo filter).meaning registry db now code row =
      (filter.meaning registry db now code row).and (entry.meaning registry db now code row) := by
  obtain ⟨_, fields, nested, related, all, any, negated⟩ := filter
  -- a filter says the conjunction of its slots, and the slot that grows gives one factor more
  cases entry with
  | fields tests =>
    simp only [addTo, EntityFilter.meaning, meaning, List.map_append, Truth.all_append]
    ac_rfl
  | relation name part =>
    cases part with
    | nested f =>
      simp only [addTo, RelationPart.addTo, EntityFilter.meaning, meaning, nestedMeanings_eq_map,
        List.map_append, List.map_cons, List.map_nil, Truth.all_append, Truth.all_cons,
        Truth.all_nil, Truth.and_holds]
      ac_rfl
    | related tests =>
      simp only [addTo, RelationPart.addTo, EntityFilter.meaning, meaning,
        RelatedTest.meanings_eq_map, List.map_append, Truth.all_append]
      ac_rfl
  | all filters =>
    simp only [addTo, EntityFilter.meaning, meaning, meanings_eq_map, List.map_append,
      Truth.all_append]
    ac_rfl
  | any filters =>
    -- an empty slot is left out, so that the alternatives must be the first ones and some
    obtain ⟨hne, rfl⟩ := h
    simp only [addTo, EntityFilter.meaning, meaning, meanings_eq_map, List.nil_append,
      List.isEmpty_nil, List.isEmpty_eq_false_iff.2 hne, Bool.false_eq_true, if_true, if_false,
      Truth.all_append, Truth.all_cons, Truth.all_nil, Truth.and_holds]
    ac_rfl
  | negated item =>
    cases h
    simp only [addTo, addNegated, EntityFilter.meaning, meaning, Filter.negatedMeaning,
      Truth.all_append, Truth.all_cons, Truth.all_nil, Truth.and_holds]

/-- What fits goes on to fit beside an entry that it can stand beside. -/
theorem Entry.Fits.addTo {first later : Entry} {filter : EntityFilter} (h : later.Fits filter)
    (hapart : first.Apart later) : later.Fits (first.addTo filter) := by
  cases later with
  | any filters =>
    cases first with
    | any _ => exact hapart.elim
    | relation name part => cases part <;> exact h
    | _ => exact h
  | negated item =>
    cases first with
    | negated _ => exact hapart.elim
    | relation name part => cases part <;> exact h
    | _ => exact h
  | _ => trivial

/-- Entries that can stand beside each other all join what a filter says. -/
theorem meaning_foldl {entries : List Entry} {filter : EntityFilter}
    (hfits : ∀ entry ∈ entries, entry.Fits filter) (hapart : entries.Pairwise Entry.Apart) :
    (entries.foldl (fun filter entry => entry.addTo filter) filter).meaning registry db now code
        row =
      (filter.meaning registry db now code row).and
        (.all (entries.map (Entry.meaning registry db now code row))) := by
  -- the slots stay free for the entries that are still to come
  induction entries generalizing filter with
  | nil => rw [List.foldl_nil, List.map_nil, Truth.all_nil, Truth.and_holds]
  | cons entry entries ih =>
    obtain ⟨hentry, hfits⟩ := List.forall_mem_cons.1 hfits
    obtain ⟨hfirst, hapart⟩ := List.pairwise_cons.1 hapart
    rw [List.foldl_cons, ih (fun later hlater => (hfits later hlater).addTo (hfirst later hlater))
      hapart, Entry.meaning_addTo hentry, List.map_cons, Truth.all_cons, Truth.and_assoc]

theorem meaning_everything (name : String) :
    (EntityFilter.everything name).meaning registry db now code row = .holds :=
  rfl

/-- By itself, an entry says what it says. -/
theorem Entry.meaning_alone (name : String) (entry : Entry) :
    (entry.alone name).meaning registry db now code row =
      entry.meaning registry db now code row := by
  have hslot (h : entry.Fits (.everything name)) :
      (entry.addTo (.everything name)).meaning registry db now code row =
        entry.meaning registry db now code row := by
    rw [meaning_addTo h, meaning_everything, Truth.holds_and]
  cases entry with
  | all filters => rw [alone, Filter.meaning, meanings_eq_map, meaning]
  | any filters => rw [alone, Filter.meaning, meanings_eq_map, meaning]
  | negated item => rw [alone, Filter.meaning, meaning]
  | fields tests => exact hslot trivial
  | relation relation part => exact hslot trivial

theorem meaning_combine (filters : List Filter) :
    (combine filters).meaning registry db now code row =
      .all (filters.map fun f => f.meaning registry db now code row) := by
  unfold combine
  split
  · rw [List.map_singleton, Truth.all_cons, Truth.all_nil, Truth.and_holds]
  · rw [Filter.meaning, meanings_eq_map]

/-- Whatever they are put together as, entries that can stand beside each other say together what
they say one by one. -/
theorem meaning_assemble {name : String} {members : List (String × Json)} {entries : List Entry}
    (hfits : ∀ entry ∈ entries, entry.Fits (.everything name))
    (hapart : entries.Pairwise Entry.Apart) :
    (assemble name members entries).meaning registry db now code row =
      .all (entries.map (Entry.meaning registry db now code row)) := by
  unfold assemble
  split
  · rw [meaning_combine, List.map_map]
    exact congrArg Truth.all (List.map_congr_left fun entry _ => entry.meaning_alone name)
  · rw [Filter.meaning, meaning_foldl hfits hapart, meaning_everything, Truth.holds_and]

/-! ## Entries of an object -/

theorem Entry.From.fits {key name : String} {json : Json} {entry : Entry}
    (h : entry.From key json) (hsome : (key, json) ≠ (orWord, .array [])) :
    entry.Fits (.everything name) := by
  cases entry with
  | any filters => exact ⟨fun hnil => hsome (by rw [h.1, h.2 hnil]), rfl⟩
  | negated item => rfl
  | _ => trivial

theorem Entry.From.apart {key key' : String} {json json' : Json} {entry entry' : Entry}
    (h : entry.From key json) (h' : entry'.From key' json') (hkey : key ≠ key') :
    entry.Apart entry' := by
  cases entry with
  | any filters =>
    cases entry' with
    | any filters' => exact hkey (h.1.trans h'.1.symm)
    | _ => trivial
  | negated item =>
    cases entry' with
    | negated item' => exact hkey (h.trans h'.symm)
    | _ => trivial
  | _ => trivial

/-- Different keys have entries that can stand beside each other. -/
theorem pairwise_apart {members : List (String × Json)} {entries : List Entry}
    (h : List.Forall₂ (fun m entry => Entry.From m.1 m.2 entry) members entries)
    (hkeys : (members.map Prod.fst).Nodup) : entries.Pairwise Entry.Apart := by
  induction h with
  | nil => exact .nil
  | cons hentry hrest ih =>
    obtain ⟨hfresh, hkeys⟩ := List.nodup_cons.1 hkeys
    refine .cons (forall_mem_right hrest fun m hm later hlater => ?_) (ih hkeys)
    exact hentry.apart hlater fun hkey => hfresh (hkey ▸ List.mem_map_of_mem hm)

end FilterDocument

/-! ## Documents -/

/-- A document that, whenever it is read as a filter of an entity, says of every row of every
database that all of its parts hold, which are then read as filters of the entity too. -/
def Json.Conjoins (registry : Registry) (code : String) (whole : Json) (parts : List Json) : Prop :=
  ∀ limits filter, Filter.ofJson registry limits (some code) whole = .ok filter →
    ∃ filters,
      List.Forall₂ (fun part f => Filter.ofJson registry limits (some code) part = .ok f) parts
        filters ∧
      ∀ {Cell : Type} (db : Database Cell) (now : Instant) (row : Row Cell),
        filter.meaning registry db now code row =
          .all (filters.map fun f => f.meaning registry db now code row)

namespace Json.Conjoins

open FilterDocument

variable {registry : Registry} {code : String} {entity : Entity}

section

variable {α : Type} {whole : Json} {items : List α} {part : α → Json}
  (hentity : registry.find? code = some entity)

include hentity

/-- It is enough that the parts are read as entries that say together what the whole says. -/
theorem of_entries
    (h : ∀ limits levels p, readFilter registry limits (levels + 1) entity whole 0 = .ok p →
      ∃ entries : List Entry,
        List.Forall₂ (fun item entry => ∃ n, readFilter registry limits (levels + 1) entity
          (part item) 0 = .ok (Entry.alone entity.code entry, n)) items entries ∧
        ∀ {Cell : Type} (db : Database Cell) (now : Instant) (row : Row Cell),
          p.1.meaning registry db now code row =
            .all (entries.map (Entry.meaning registry db now code row))) :
    whole.Conjoins registry code (items.map part) := by
  intro limits filter hwhole
  obtain ⟨p, hp, rfl⟩ := (Filter.ofJson_eq_ok hentity).1 hwhole
  obtain ⟨entries, hentries, hmeaning⟩ := h limits limits.maxDepth p hp
  refine ⟨entries.map (Entry.alone entity.code), ?_, fun db now row => ?_⟩
  · rw [List.forall₂_map_left_iff, List.forall₂_map_right_iff]
    refine hentries.imp fun item entry hentry => ?_
    obtain ⟨n, hentry⟩ := hentry
    exact (Filter.ofJson_eq_ok hentity).2 ⟨_, hentry, rfl⟩
  · rw [hmeaning, List.map_map]
    exact congrArg Truth.all (List.map_congr_left fun entry _ =>
      (entry.meaning_alone entity.code).symm)

/-- Where the whole is one entry that says of all its tests that they hold, it is enough that each
part is read as the entry of its tests. -/
theorem of_pieces {β : Type} (entry : List β → Entry)
    (htests : ∀ {Cell : Type} (db : Database Cell) (now : Instant) (row : Row Cell),
      ∃ test : β → Truth, ∀ tests,
        (entry tests).meaning registry db now code row = .all (tests.map test))
    (h : ∀ limits levels p, readFilter registry limits (levels + 1) entity whole 0 = .ok p →
      ∃ pieces, p.1 = (entry pieces.flatten).alone entity.code ∧
        List.Forall₂ (fun item piece => ∃ n, readFilter registry limits (levels + 1) entity
          (part item) 0 = .ok ((entry piece).alone entity.code, n)) items pieces) :
    whole.Conjoins registry code (items.map part) := by
  refine of_entries hentity fun limits levels p hp => ?_
  obtain ⟨pieces, hwhole, hpieces⟩ := h limits levels p hp
  refine ⟨pieces.map entry, List.forall₂_map_right_iff.2 hpieces, fun db now row => ?_⟩
  obtain ⟨test, htest⟩ := htests db now row
  rw [hwhole, Entry.meaning_alone, htest, Truth.all_flatten, List.map_map]
  exact congrArg Truth.all (List.map_congr_left fun piece _ => (htest piece).symm)

theorem members {members : List (String × Json)} (hkeys : (members.map Prod.fst).Nodup)
    (hsome : (orWord, Json.array []) ∉ members) :
    (Json.object members).Conjoins registry code (members.map fun m => .object [m]) := by
  refine of_entries hentity fun limits levels p hp => ?_
  obtain ⟨entries, hwhole, hentries⟩ := readFilter_entries hp
  refine ⟨entries, hentries.imp fun m entry h => h.2, fun db now row => ?_⟩
  have hfits : ∀ entry ∈ entries, entry.Fits (.everything entity.code) :=
    forall_mem_right hentries fun m hm entry h => h.1.fits fun hempty => hsome (hempty ▸ hm)
  have hapart : entries.Pairwise Entry.Apart :=
    pairwise_apart (hentries.imp fun m entry h => h.1) hkeys
  rw [hwhole, meaning_assemble hfits hapart]

variable {name : String} (hword : isLogicalWord name = false)

include hword

theorem tests {field : Field} (hfield : entity.field? name = some field)
    (tests : List (String × Json)) :
    (Json.object [(name, .object tests)]).Conjoins registry code
      (tests.map fun t => .object [(name, .object [t])]) :=
  of_pieces hentity Entry.fields (fun _ _ _ => ⟨_, fun _ => rfl⟩)
    fun _ _ _ hp => readFilter_tests hword hfield hp

theorem keywords {relation : Relation} (hrelation : entity.relation? name = some relation)
    {keywords : List (String × Json)} (hkeyword : ∃ k ∈ keywords, isCollectionKeyword k.1 = true) :
    (Json.object [(name, .object keywords)]).Conjoins registry code
      (keywords.map fun k => .object [(name, .object [k])]) :=
  of_pieces hentity (fun tests => .relation name (.related tests)) (fun _ _ _ => ⟨_, fun _ => rfl⟩)
    fun _ _ _ hp => readFilter_keywords hword hrelation hkeyword hp

end

end Json.Conjoins

/-- A filter means the conjunction of its members. Of every row of every database, an object says
that all of its members hold, each taken for an object by itself, whether its keys are logical
words, fields and relations or both; the keys are different, as those of every object that a text is
read as are, and no list of alternatives is empty. Likewise, several operators of a field say that
each of them holds, and several keywords of a collection that each of them does. The parts of what
is read under some limits are read under the same limits. -/
theorem Filter.ofJson_conjoins {registry : Registry} {code : String} {entity : Entity}
    (hentity : registry.find? code = some entity) :
    (∀ members : List (String × Json), (members.map Prod.fst).Nodup →
      (orWord, Json.array []) ∉ members →
      (Json.object members).Conjoins registry code (members.map fun m => .object [m])) ∧
    (∀ name field, isLogicalWord name = false → entity.field? name = some field →
      ∀ tests : List (String × Json),
        (Json.object [(name, .object tests)]).Conjoins registry code
          (tests.map fun t => .object [(name, .object [t])])) ∧
    (∀ name relation, isLogicalWord name = false → entity.relation? name = some relation →
      ∀ keywords : List (String × Json), (∃ k ∈ keywords, isCollectionKeyword k.1 = true) →
        (Json.object [(name, .object keywords)]).Conjoins registry code
          (keywords.map fun k => .object [(name, .object [k])])) :=
  ⟨fun _ hkeys hsome => .members hentity hkeys hsome,
    fun _ _ hword hfield tests => .tests hentity hword hfield tests,
    fun _ _ hword hrelation _ hkeyword => .keywords hentity hword hrelation hkeyword⟩

namespace Catalog

/-- Cards of the two best ranks whose name is given in part, which have a picture, and which more
than one collection holds, one of them of cards that are looked for. -/
def soughtMembers : List (String × Json) :=
  [("name", .object [("contains", .text "Rei"), ("ne", .text "Rei")]),
    ("or", .array [.object [("rank", .object [("eq", .text "ASS")])],
      .object [("rank", .object [("eq", .text "S")])]]),
    ("not", .object [("image", .object [("is_null", .bool true)])]),
    ("stats", .object [("any", .object [("collection", .object [("eq", .text "NEED")])]),
      ("size_gt", .integer 1)])]

end Catalog

theorem Filter.ofJson_conjoins_card :
    (∃ filter, ofJson Catalog.registry .default (some "card") (.object Catalog.soughtMembers) =
      .ok filter) ∧
    (Json.object Catalog.soughtMembers).Conjoins Catalog.registry "card"
      (Catalog.soughtMembers.map fun m => .object [m]) ∧
    (Json.object [("name", .object [("contains", .text "Rei"), ("ne", .text "Rei")])]).Conjoins
      Catalog.registry "card" [.object [("name", .object [("contains", .text "Rei")])],
        .object [("name", .object [("ne", .text "Rei")])]] ∧
    (Json.object [("stats", .object [("is_empty", .bool false), ("size_lt", .integer 4)])]).Conjoins
      Catalog.registry "card" [.object [("stats", .object [("is_empty", .bool false)])],
        .object [("stats", .object [("size_lt", .integer 4)])]] := by
  have hcard : Catalog.registry.find? "card" = some Catalog.card := rfl
  obtain ⟨hmembers, htests, hkeywords⟩ := ofJson_conjoins hcard
  refine ⟨⟨_, rfl⟩, hmembers _ (by decide) ?_, ?_, ?_⟩
  · simp [Catalog.soughtMembers, orWord]
  · exact htests "name" ⟨"name", .text⟩ rfl rfl _
  · exact hkeywords "stats" ⟨"card_users_stats", .many, [("card_id", "card_id")]⟩ rfl rfl _
      ⟨_, List.mem_cons_self, rfl⟩

namespace Catalog

/-- Cards of a name, and an empty list of alternatives. -/
def unchosenMembers : List (String × Json) :=
  [("or", .array []), ("name", .object [("eq", .text "Rei")])]

/-- A database of which every test of a value holds. -/
def agreeable : Database Unit :=
  ⟨fun _ => [], fun _ _ _ => .holds, fun _ _ _ => .holds, fun _ _ _ _ => .holds,
    fun _ _ => .holds, fun _ _ _ => .holds⟩

/-- By itself, an empty list of alternatives holds for no row. Beside a field it says nothing. -/
theorem not_conjoins :
    ¬(Json.object unchosenMembers).Conjoins registry "card"
      (unchosenMembers.map fun m => .object [m]) := by
  intro hconjoins
  obtain ⟨filters, hparts, hmeaning⟩ := hconjoins .default _ rfl
  obtain _ | ⟨hchoices, hrest⟩ := hparts
  obtain _ | ⟨hname, hnone⟩ := hrest
  cases hchoices
  cases hname
  cases hnone
  have hrow := hmeaning agreeable ⟨0, 0⟩ fun _ => some ()
  revert hrow
  decide

end Catalog

end FilterQuery
