import FilterQuery.Proofs.Filter.Rules
import FilterQuery.Proofs.Filter.Splitting
import FilterQuery.Proofs.JoinPlan.Paths

/-!
# Filters in another order

`Filter.Rearranged` relates two filters that are the same up to the order of conjuncts: the items of
a conjunction, and the tests on fields, the filters of relations and the tests on collections of a
filter of an entity. They follow the same paths, equally often
(`Filter.Rearranged.followed_perm`).

Entries of an object whose keys all differ make such filters in whatever order they are taken
(`FilterDocument.assemble_rearranged`): no two of them fill the slots in which the order counts.
-/

namespace FilterQuery

/-! ## Filters -/

mutual

/-- Two filters that are the same up to the order of conjuncts. -/
inductive Filter.Rearranged : Filter → Filter → Prop
  | field (test : FieldTest) : Rearranged (.field test) (.field test)
  /-- The items of a conjunction may stand in another order. -/
  | all {items items' : List Filter} (inside : Matched Rearranged items items') :
      Rearranged (.all items) (.all items')
  | any {items items' : List Filter} (inside : List.Forall₂ Rearranged items items') :
      Rearranged (.any items) (.any items')
  | not {item item' : Filter} (inside : Rearranged item item') : Rearranged (.not item) (.not item')
  /-- So may the tests and the filters of relations in a filter of an entity. -/
  | entity {f g : EntityFilter} (code : f.code = g.code) (fields : f.fields.Perm g.fields)
      (nested : Matched RearrangedNested f.nested g.nested)
      (related : Matched (fun t t' => Rearranged (.related t) (.related t')) f.related g.related)
      (all : List.Forall₂ Rearranged f.all g.all) (any : List.Forall₂ Rearranged f.any g.any)
      (negated : List.Forall₂ Rearranged f.negated.toList g.negated.toList) :
      Rearranged (.entity f) (.entity g)
  | quantified {name : String} {quantifier : Quantifier} {f g : Filter} (inside : Rearranged f g) :
      Rearranged (.related (.quantified name quantifier f))
        (.related (.quantified name quantifier g))
  | size (name : String) (op : SizeOp) (count : Nat) :
      Rearranged (.related (.size name op count)) (.related (.size name op count))
  | raw (sql : String) (parameters : List Parameter) :
      Rearranged (.raw sql parameters) (.raw sql parameters)

/-- The filters of one relation. -/
inductive Filter.RearrangedNested : String × Filter → String × Filter → Prop
  | intro {name : String} {f g : Filter} (inside : Rearranged f g) :
      RearrangedNested (name, f) (name, g)

end

/-! ## Paths -/

theorem Matched.flatMap_perm {α γ : Type} {R : α → α → Prop} {f : α → List γ} {as bs : List α}
    (h : Matched R as bs) (hstep : ∀ a ∈ as, ∀ b, R a b → (f a).Perm (f b)) :
    (as.flatMap f).Perm (bs.flatMap f) :=
  matched_eq.1 (h.flatMap fun a ha b hab => matched_eq.2 (hstep a ha b hab))

/-- Rearranged filters follow the same paths. -/
theorem Filter.Rearranged.followed_perm {f g : Filter} (h : f.Rearranged g)
    (parent : Option String) : (JoinPlan.followed parent f).Perm (JoinPlan.followed parent g) := by
  induction f using Filter.induct generalizing g parent with
  | field t =>
    cases h
    exact .refl _
  | all fs ih =>
    cases h with
    | all hitems =>
      rw [JoinPlan.followed, JoinPlan.followed, JoinPlan.followedByItems_eq,
        JoinPlan.followedByItems_eq]
      exact hitems.flatMap_perm fun f hf g hfg => ih f hf hfg parent
  | any fs ih =>
    cases h with
    | any hitems =>
      rw [JoinPlan.followed, JoinPlan.followed, JoinPlan.followedByItems_eq,
        JoinPlan.followedByItems_eq]
      exact (Matched.of_forall₂ hitems).flatMap_perm fun f hf g hfg => ih f hf hfg parent
  | not f ih =>
    cases h with
    | not hitem => exact ih hitem parent
  | entity ef ihnested ihrelated ihall ihany ihnegated =>
    cases h with
    | entity hcode hfields hnested hrelated hall hany hnegated =>
      rw [JoinPlan.followed, JoinPlan.followed, JoinPlan.followedByEntity_eq,
        JoinPlan.followedByEntity_eq, JoinPlan.followedByNested_eq, JoinPlan.followedByNested_eq]
      refine ((((hnested.flatMap_perm ?_).append (hrelated.flatMap_perm ?_)).append
        ((Matched.of_forall₂ hall).flatMap_perm ?_)).append
        ((Matched.of_forall₂ hany).flatMap_perm ?_)).append
        ((Matched.of_forall₂ hnegated).flatMap_perm ?_)
      · rintro ⟨name, f⟩ hf _ ⟨hfg⟩
        exact (ihnested name f hf hfg _).cons _
      · exact fun t ht t' htt' => ihrelated t ht htt' parent
      · exact fun f hf g hfg => ihall f hf hfg parent
      · exact fun f hf g hfg => ihany f hf hfg parent
      · exact fun f hf g hfg => ihnegated f (Option.mem_toList.1 hf) hfg parent
  | quantified name q f ih =>
    cases h with
    | quantified hinside => exact (ih hinside _).cons _
  | size name op n =>
    cases h
    exact .refl _
  | raw sql values =>
    cases h
    exact .refl _

/-! ## Entries -/

namespace FilterDocument

/-- Two entries of one key that are the same up to the order of conjuncts. -/
inductive Entry.Rearranged : Entry → Entry → Prop
  | fields {tests tests' : List FieldTest} (h : tests.Perm tests') :
      Rearranged (.fields tests) (.fields tests')
  | nested {name : String} {f g : Filter} (h : f.Rearranged g) :
      Rearranged (.relation name (.nested f)) (.relation name (.nested g))
  | related {name : String} {tests tests' : List RelatedTest}
      (h : Matched (fun t t' => (Filter.related t).Rearranged (.related t')) tests tests') :
      Rearranged (.relation name (.related tests)) (.relation name (.related tests'))
  | all {fs gs : List Filter} (h : List.Forall₂ Filter.Rearranged fs gs) :
      Rearranged (.all fs) (.all gs)
  | any {fs gs : List Filter} (h : List.Forall₂ Filter.Rearranged fs gs) :
      Rearranged (.any fs) (.any gs)
  | negated {f g : Filter} (h : f.Rearranged g) : Rearranged (.negated f) (.negated g)

namespace Entry

/-! What an entry puts into each slot of a filter of an entity. -/

/-- The tests on fields. -/
def toFields : Entry → List FieldTest
  | .fields tests => tests
  | _ => []

/-- The filters of relations. -/
def toNested : Entry → List (String × Filter)
  | .relation name (.nested f) => [(name, f)]
  | _ => []

/-- The tests on collections. -/
def toRelated : Entry → List RelatedTest
  | .relation _ (.related tests) => tests
  | _ => []

/-- The filters each of which must hold. -/
def toAll : Entry → List Filter
  | .all filters => filters
  | _ => []

/-- The filters one of which must hold. -/
def toAny : Entry → List Filter
  | .any filters => filters
  | _ => []

/-- The filter that must not hold. -/
def toNegated : Entry → List Filter
  | .negated item => [item]
  | _ => []

end Entry

/-- The slots of a filter of an entity hold what the entries put there, one after another. -/
theorem foldl_addTo (entries : List Entry) (ef : EntityFilter) :
    entries.foldl (fun filter entry => entry.addTo filter) ef =
      ⟨ef.code, ef.fields ++ entries.flatMap Entry.toFields,
        ef.nested ++ entries.flatMap Entry.toNested, ef.related ++ entries.flatMap Entry.toRelated,
        ef.all ++ entries.flatMap Entry.toAll, ef.any ++ entries.flatMap Entry.toAny,
        (entries.flatMap Entry.toNegated).foldl addNegated ef.negated⟩ := by
  induction entries generalizing ef with
  | nil =>
    cases ef
    simp
  | cons entry entries ih =>
    rw [List.foldl_cons, ih]
    cases entry with
    | relation name part => cases part <;> simp [Entry.addTo, RelationPart.addTo, Entry.toFields,
        Entry.toNested, Entry.toRelated, Entry.toAll, Entry.toAny, Entry.toNegated]
    | _ => simp [Entry.addTo, Entry.toFields, Entry.toNested, Entry.toRelated, Entry.toAll,
        Entry.toAny, Entry.toNegated]

theorem addNegated_rearranged {previous previous' : Option Filter} {f g : Filter}
    (hprevious : List.Forall₂ Filter.Rearranged previous.toList previous'.toList)
    (h : f.Rearranged g) :
    List.Forall₂ Filter.Rearranged (addNegated previous f).toList
      (addNegated previous' g).toList := by
  cases previous with
  | none =>
    cases previous' with
    | none => exact .cons h .nil
    | some g' => cases hprevious
  | some f' =>
    cases previous' with
    | none => cases hprevious
    | some g' =>
      obtain _ | ⟨hfirst, -⟩ := hprevious
      exact .cons (.all (.of_forall₂ (.cons hfirst (.cons h .nil)))) .nil

theorem foldl_addNegated_rearranged {fs gs : List Filter}
    (h : List.Forall₂ Filter.Rearranged fs gs) {previous previous' : Option Filter}
    (hprevious : List.Forall₂ Filter.Rearranged previous.toList previous'.toList) :
    List.Forall₂ Filter.Rearranged (fs.foldl addNegated previous).toList
      (gs.foldl addNegated previous').toList := by
  induction h generalizing previous previous' with
  | nil => exact hprevious
  | cons hfg _ ih => exact ih (addNegated_rearranged hprevious hfg)

/-- What is made of matched items is the same item by item, where one item at most has something to
give. -/
theorem forall₂_flatMap_of_matched {α β : Type} {R : α → α → Prop} {S : β → β → Prop}
    {f : α → List β} {as bs : List α} (h : Matched R as bs)
    (hstep : ∀ a b, R a b → List.Forall₂ S (f a) (f b))
    (hone : bs.Pairwise fun a b => f a = [] ∨ f b = []) :
    List.Forall₂ S (as.flatMap f) (bs.flatMap f) := by
  obtain ⟨between, hpairs, horder⟩ := matched_iff.1 h
  rw [← flatMap_eq_of_perm horder ((horder.pairwise_iff fun hab => hab.symm).2 hone)]
  clear horder h
  induction hpairs with
  | nil => exact .nil
  | cons hab _ ih =>
    rw [List.flatMap_cons, List.flatMap_cons]
    exact List.rel_append (hstep _ _ hab) ih

/-- Where the keys of an object all differ, one entry at most fills the slot of a word. -/
theorem pairwise_slot {β : Type} {slot : Entry → List β} (word : String)
    (hslot : ∀ key json entry, Entry.From key json entry → key ≠ word → slot entry = [])
    {members : List (String × Json)} {entries : List Entry}
    (hfrom : List.Forall₂ (fun m entry => Entry.From m.1 m.2 entry) members entries)
    (hdistinct : (members.map Prod.fst).Nodup) :
    entries.Pairwise fun a b => slot a = [] ∨ slot b = [] := by
  induction hfrom with
  | nil => exact .nil
  | @cons m entry members entries hm hrest ih =>
    obtain ⟨hnew, hdistinct⟩ := List.nodup_cons.1 hdistinct
    refine .cons ?_ (ih hdistinct)
    by_cases hword : m.1 = word
    · refine forall_mem_right hrest fun m' hm' entry' hentry' => ?_
      refine .inr (hslot _ _ _ hentry' fun hword' => hnew ?_)
      exact List.mem_map.2 ⟨m', hm', hword'.trans hword.symm⟩
    · exact fun _ _ => .inl (hslot _ _ _ hm hword)

/-! ## Entries that are put together -/

section

variable {entries entries' : List Entry} {members members' : List (String × Json)}

theorem Entry.Rearranged.alone {entry entry' : Entry} (h : entry.Rearranged entry')
    (code : String) : (entry.alone code).Rearranged (entry'.alone code) := by
  cases h with
  | fields htests => exact .entity rfl htests .nil .nil .nil .nil .nil
  | nested hf =>
    exact .entity rfl (.refl _) (.of_forall₂ (.cons ⟨hf⟩ .nil)) .nil .nil .nil .nil
  | related htests => exact .entity rfl (.refl _) .nil htests .nil .nil .nil
  | all hitems => exact .all (.of_forall₂ hitems)
  | any hitems => exact .any hitems
  | negated hf => exact .not hf

theorem combine_rearranged {fs gs : List Filter} (h : Matched Filter.Rearranged fs gs) :
    (combine fs).Rearranged (combine gs) := by
  have hlength := h.length_eq
  match fs, gs with
  | [], [] => exact .all .nil
  | [f], [g] =>
    obtain ⟨between, hpairs, horder⟩ := matched_iff.1 h
    obtain rfl := List.perm_singleton.1 horder
    obtain _ | ⟨hfg, -⟩ := hpairs
    exact hfg
  | f :: f' :: fs, g :: g' :: gs => exact .all h

/-- Of the entries of an object with different keys, a filter of an entity is made in whatever order
they are taken. -/
theorem addTo_rearranged (h : Matched Entry.Rearranged entries entries')
    (hfrom : List.Forall₂ (fun m entry => Entry.From m.1 m.2 entry) members' entries')
    (hdistinct : (members'.map Prod.fst).Nodup) (code : String) :
    (Filter.entity (entries.foldl (fun filter entry => entry.addTo filter)
      (.everything code))).Rearranged
      (.entity (entries'.foldl (fun filter entry => entry.addTo filter) (.everything code))) := by
  rw [foldl_addTo, foldl_addTo]
  refine .entity rfl ?_ ?_ ?_ ?_ ?_ ?_
  · refine (h.flatMap_perm fun entry _ entry' hentry => ?_).append_left _
    cases hentry <;> first | assumption | exact .refl _
  · refine h.flatMap fun entry _ entry' hentry => ?_
    cases hentry with
    | nested hf => exact .of_forall₂ (.cons ⟨hf⟩ .nil)
    | _ => exact .nil
  · refine h.flatMap fun entry _ entry' hentry => ?_
    cases hentry with
    | related htests => exact htests
    | _ => exact .nil
  · refine forall₂_flatMap_of_matched h (fun entry entry' hentry => ?_)
      (pairwise_slot andWord (fun key json entry hentry hkey => ?_) hfrom hdistinct)
    · cases hentry <;> first | assumption | exact .nil
    · cases entry <;> first | rfl | exact absurd hentry hkey
  · refine forall₂_flatMap_of_matched h (fun entry entry' hentry => ?_)
      (pairwise_slot orWord (fun key json entry hentry hkey => ?_) hfrom hdistinct)
    · cases hentry <;> first | assumption | exact .nil
    · cases entry <;> first | rfl | exact absurd hentry.1 hkey
  · refine foldl_addNegated_rearranged (forall₂_flatMap_of_matched h
      (fun entry entry' hentry => ?_)
      (pairwise_slot notWord (fun key json entry hentry hkey => ?_) hfrom hdistinct)) .nil
    · cases hentry with
      | negated hf => exact .cons hf .nil
      | _ => exact .nil
    · cases entry <;> first | rfl | exact absurd hentry hkey

/-- Of the entries of an object with different keys, the same filter is made up to the order of
conjuncts, in whatever order they are taken. -/
theorem assemble_rearranged (h : Matched Entry.Rearranged entries entries')
    (hfrom : List.Forall₂ (fun m entry => Entry.From m.1 m.2 entry) members' entries')
    (hdistinct : (members'.map Prod.fst).Nodup)
    (hwords : isCombination members = isCombination members') (code : String) :
    (assemble code members entries).Rearranged (assemble code members' entries') := by
  unfold assemble
  rw [hwords]
  split
  · refine combine_rearranged ?_
    rw [← List.flatMap_pure_eq_map, ← List.flatMap_pure_eq_map]
    exact h.flatMap fun entry _ entry' hentry =>
      .of_forall₂ (.cons (hentry.alone code) .nil)
  · exact addTo_rearranged h hfrom hdistinct code

end

end FilterDocument

end FilterQuery
