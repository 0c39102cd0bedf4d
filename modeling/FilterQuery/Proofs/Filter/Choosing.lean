import FilterQuery.Proofs.Filter.Detecting

/-!
# The entity that detection chooses

The rule of detection, said on the keys of a document and the registered entities alone: the one
entity that has every key, or all such entities, or else the entity that has the most of the keys
and the first key that it lacks (`Registry.detect_by_keys`).
-/

namespace FilterQuery

/-- An entity has all of some keys when each is one of its fields or relations. -/
def Entity.HasAll (entity : Entity) (keys : List String) : Prop :=
  ∀ key ∈ keys, entity.hasMember key = true

instance (entity : Entity) (keys : List String) : Decidable (entity.HasAll keys) :=
  inferInstanceAs (Decidable (∀ key ∈ keys, entity.hasMember key = true))

/-- An entity comes before another one when it has more of the keys, or as many of them and the
smaller code. -/
def Entity.Leads (keys : List String) (entity other : Entity) : Prop :=
  keys.countP other.hasMember < keys.countP entity.hasMember ∨
    keys.countP other.hasMember = keys.countP entity.hasMember ∧ entity.code < other.code

namespace Detection

variable {keys codes : List String} {entities : List Entity} {entity : Entity} {code : String}

/-! ## Candidates -/

/-- Candidates are listed in the order of their entities. -/
theorem pairwise_candidates (keys : List String)
    (hordered : entities.Pairwise fun a b => a.code < b.code) :
    (candidates keys entities).Pairwise (· < ·) :=
  List.pairwise_map.2 (hordered.filter _)

/-- A strictly increasing list in which only one thing occurs holds it once. -/
theorem eq_singleton_of_forall_mem {codes : List String} (hordered : codes.Pairwise (· < ·))
    (hmem : code ∈ codes) (honly : ∀ other ∈ codes, other = code) : codes = [code] := by
  match codes with
  | [] => cases hmem
  | [other] => rw [honly other List.mem_cons_self]
  | other :: another :: rest =>
    have hlt : other < another := (List.pairwise_cons.1 hordered).1 another List.mem_cons_self
    rw [honly other (by simp), honly another (by simp)] at hlt
    exact absurd hlt (String.lt_irrefl code)

theorem choose_several {other : String} (hcode : code ∈ candidates keys entities)
    (hother : other ∈ candidates keys entities) (hne : code ≠ other) :
    choose keys entities = .error (.ambiguousEntity (candidates keys entities)) := by
  unfold choose
  split
  · rename_i found hone
    rw [hone, List.mem_singleton] at hcode hother
    exact absurd (hcode.trans hother.symm) hne
  · rename_i hnone
    rw [hnone] at hcode
    cases hcode
  · rfl

/-- Candidates have all of the keys, in whatever order these are. -/
theorem candidates_congr {keys' : List String} (h : ∀ key, key ∈ keys ↔ key ∈ keys')
    (entities : List Entity) : candidates keys entities = candidates keys' entities := by
  have hall (e : Entity) : keys.all e.hasMember = keys'.all e.hasMember := by
    rw [Bool.eq_iff_iff, List.all_eq_true, List.all_eq_true]
    exact forall_congr' fun key => by rw [h key]
  simp only [candidates, hall]

theorem choose_eq_ok : choose keys entities = .ok code ↔ candidates keys entities = [code] := by
  unfold choose
  split
  · rename_i hone
    rw [hone]
    simp
  · rename_i hnone
    rw [hnone]
    split <;> simp
  · rename_i hnone hseveral
    simpa using hnone code

theorem choose_one (h : candidates keys entities = [code]) : choose keys entities = .ok code :=
  choose_eq_ok.2 h

theorem choose_eq_ambiguous :
    choose keys entities = .error (.ambiguousEntity codes) ↔
      candidates keys entities = codes ∧ codes ≠ [] ∧ ∀ code, codes ≠ [code] := by
  unfold choose
  split
  · rename_i code hone
    rw [hone]
    simp only [reduceCtorEq, false_iff, not_and]
    rintro rfl - hseveral
    exact hseveral code rfl
  · rename_i hnone
    rw [hnone]
    refine iff_of_false ?_ ?_
    · split <;> simp
    · rintro ⟨rfl, hnonempty, -⟩
      exact hnonempty rfl
  · rename_i hone hnonempty
    simp only [Except.error.injEq, FilterError.ambiguousEntity.injEq]
    constructor
    · rintro rfl
      exact ⟨rfl, hnonempty, hone⟩
    · exact And.left

/-! ## The best entity -/

theorem exists_best (keys : List String) (h : entities ≠ []) :
    ∃ e, best keys entities = some e := by
  cases entities with
  | nil => exact absurd rfl h
  | cons e es =>
    unfold best
    split
    · exact ⟨e, rfl⟩
    · split
      · exact ⟨_, rfl⟩
      · exact ⟨e, rfl⟩

theorem best_mem (h : best keys entities = some entity) : entity ∈ entities := by
  induction entities with
  | nil => cases h
  | cons e es ih =>
    unfold best at h
    split at h
    · cases h
      exact List.mem_cons_self
    · rename_i other hother
      split at h
      · cases h
        exact List.mem_cons_of_mem _ (ih hother)
      · cases h
        exact List.mem_cons_self

/-- Among entities in the order of their codes, the best one comes before every other one. -/
theorem best_leads (hordered : entities.Pairwise fun a b => a.code < b.code)
    (h : best keys entities = some entity) :
    ∀ other ∈ entities, other ≠ entity → entity.Leads keys other := by
  induction entities generalizing entity with
  | nil => cases h
  | cons e es ih =>
    obtain ⟨hfirst, hordered⟩ := List.pairwise_cons.1 hordered
    intro other hother hne
    unfold best at h
    cases hbest : best keys es with
    | none =>
      -- there is no other entity
      rw [hbest] at h
      cases h
      have hes : es = [] := by
        by_contra hes
        obtain ⟨found, hfound⟩ := exists_best keys hes
        rw [hbest] at hfound
        cases hfound
      subst hes
      exact absurd (List.mem_singleton.1 hother) hne
    | some found =>
      have hleads := ih hordered hbest
      rw [hbest] at h
      by_cases hless : keys.countP e.hasMember < keys.countP found.hasMember
      · obtain rfl := Option.some.inj ((if_pos hless).symm.trans h)
        rcases List.mem_cons.1 hother with rfl | hother
        · exact Or.inl hless
        · exact hleads other hother hne
      · obtain rfl := Option.some.inj ((if_neg hless).symm.trans h)
        have hother : other ∈ es := (List.mem_cons.1 hother).resolve_left hne
        -- what leads the rest has no more of the keys than the first, which has the smaller code
        have hcount : keys.countP other.hasMember ≤ keys.countP e.hasMember := by
          by_cases heq : other = found
          · rw [heq]
            omega
          · rcases hleads other hother heq with hfewer | ⟨hsame, -⟩ <;> omega
        rcases Nat.lt_or_eq_of_le hcount with hfewer | hsame
        · exact Or.inl hfewer
        · exact Or.inr ⟨hsame, hfirst other hother⟩

/-- Where no entity has every key, the error names the best entity and the first key it lacks. -/
theorem choose_none (hnone : candidates keys entities = [])
    (hbest : best keys entities = some entity) (hlacks : ¬entity.HasAll keys) :
    ∃ before key after, keys = before ++ key :: after ∧ entity.HasAll before ∧
      entity.hasMember key = false ∧
      choose keys entities = .error (.unknownField entity.code key) := by
  have hsome : (keys.find? fun k => !entity.hasMember k).isSome := by
    rw [List.find?_isSome]
    simpa [Entity.HasAll] using hlacks
  obtain ⟨key, hkey⟩ := Option.isSome_iff_exists.1 hsome
  obtain ⟨hkeyLacks, before, after, hsplit, hbefore⟩ := List.find?_eq_some_iff_append.1 hkey
  refine ⟨before, key, after, hsplit, ?_, by simpa using hkeyLacks, ?_⟩
  · intro k hk
    simpa using hbefore k hk
  · unfold choose
    rw [hnone, hbest]
    simp only [hkey, Option.getD_some]

/-! ## Faults of the shape -/

/-- A step whose error, if it has one, lies in the shape of the document. -/
def FailsInShape {α : Type} (x : Except FilterError α) : Prop :=
  ∀ error, x = .error error → error.IsShapeFault

theorem FailsInShape.bind {α β : Type} {x : Except FilterError α} {f : α → Except FilterError β}
    (h : FailsInShape x) (hf : ∀ a, FailsInShape (f a)) : FailsInShape (x >>= f) := by
  intro error herror
  cases x with
  | error error' =>
    cases herror
    exact h _ rfl
  | ok a => exact hf a error herror

theorem failsInShape_error {α : Type} {error : FilterError} (h : error.IsShapeFault) :
    FailsInShape (.error error : Except FilterError α) := by
  rintro _ ⟨⟩
  exact h

theorem failsInShape_ok {α : Type} (a : α) : FailsInShape (.ok a : Except FilterError α) := by
  rintro _ ⟨⟩

section

variable {gather : Gatherer} (hgather : ∀ json keys, FailsInShape (gather json keys))

include hgather

theorem gatherItems_failsInShape (word : String) (js : List Json) (keys : List String) :
    FailsInShape (gatherItems gather word js keys) := by
  induction js generalizing keys with
  | nil => exact failsInShape_ok keys
  | cons j js ih =>
    unfold gatherItems
    split
    · exact failsInShape_error trivial
    · exact (hgather j keys).bind ih

theorem gatherMember_failsInShape (key : String) (json : Json) (keys : List String) :
    FailsInShape (gatherMember gather key json keys) := by
  unfold gatherMember
  split
  · split
    · exact gatherItems_failsInShape hgather key _ keys
    · exact failsInShape_error trivial
  · split
    · split
      · exact hgather json keys
      · exact failsInShape_error trivial
    · exact failsInShape_ok _

theorem gatherMembers_failsInShape (ms : List (String × Json)) (keys : List String) :
    FailsInShape (gatherMembers gather ms keys) := by
  induction ms generalizing keys with
  | nil => exact failsInShape_ok keys
  | cons m ms ih => exact (gatherMember_failsInShape hgather m.1 m.2 keys).bind ih

end

/-- Whatever stops the gathering of keys lies in the shape of the document. -/
theorem gatherKeys_failsInShape (limits : FilterLimits) (levels : Nat) (json : Json)
    (keys : List String) : FailsInShape (gatherKeys limits levels json keys) := by
  induction levels generalizing json keys with
  | zero => exact failsInShape_error trivial
  | succ levels ih =>
    unfold gatherKeys
    split
    · exact gatherMembers_failsInShape ih _ keys
    · exact failsInShape_error trivial

end Detection

/-- A document of the wrong shape is refused for its shape. -/
theorem Registry.detect_of_not_shaped (registry : Registry) {limits : FilterLimits} {v : Json}
    (hshape : ¬v.Shaped (limits.maxDepth + 1)) :
    ∃ error, registry.detect limits v = .error error ∧ error.IsShapeFault := by
  cases hkeys : Detection.keysOf limits v with
  | ok keys => exact absurd (Detection.keysOf_eq_ok.1 hkeys).1 hshape
  | error error =>
    refine ⟨error, ?_, Detection.gatherKeys_failsInShape limits _ v [] error hkeys⟩
    rw [detect, hkeys]
    rfl

/-- Detection goes by the keys of a document, in the order in which they first occur. The one entity
that has every key is detected. Where several have every key, the error lists just these, in the
order of their codes. Where none has, the error is about the entity that has the most keys, the
first one by its code among those with as many, and names the first key that this entity lacks. -/
theorem Registry.detect_by_keys (registry : Registry) (limits : FilterLimits) (json : Json)
    (hsome : 0 < registry.size) (hshape : json.Shaped (limits.maxDepth + 1)) :
    (∀ e ∈ registry.toList, e.HasAll json.keys.eraseDups →
      (∀ other ∈ registry.toList, other.HasAll json.keys.eraseDups → other = e) →
      registry.detect limits json = .ok e.code) ∧
    (∀ e ∈ registry.toList, ∀ other ∈ registry.toList, e ≠ other →
      e.HasAll json.keys.eraseDups → other.HasAll json.keys.eraseDups →
      ∃ codes, registry.detect limits json = .error (.ambiguousEntity codes) ∧
        codes.Pairwise (· < ·) ∧
        ∀ code, code ∈ codes ↔
          ∃ e ∈ registry.toList, e.HasAll json.keys.eraseDups ∧ e.code = code) ∧
    ((∀ e ∈ registry.toList, ¬e.HasAll json.keys.eraseDups) →
      ∃ e ∈ registry.toList,
        (∀ other ∈ registry.toList, other ≠ e → e.Leads json.keys.eraseDups other) ∧
        ∃ before key after, json.keys.eraseDups = before ++ key :: after ∧ e.HasAll before ∧
          e.hasMember key = false ∧
          registry.detect limits json = .error (.unknownField e.code key)) := by
  have hdetect : registry.detect limits json =
      Detection.choose json.keys.eraseDups registry.toList :=
    Filter.detect_eq_choose (Detection.keysOf_eq_ok.2 ⟨hshape, rfl⟩)
  have hordered := Detection.pairwise_candidates json.keys.eraseDups
    registry.pairwise_toList
  rw [hdetect]
  refine ⟨?_, ?_, ?_⟩
  · intro e he hall halone
    refine Detection.choose_one (Detection.eq_singleton_of_forall_mem hordered ?_ ?_)
    · exact Detection.mem_candidates.2 ⟨e, he, hall, rfl⟩
    · intro code hcode
      obtain ⟨other, hother, hothers, rfl⟩ := Detection.mem_candidates.1 hcode
      rw [halone other hother hothers]
  · intro e he other hother hne hall hothers
    refine ⟨_, Detection.choose_several (Detection.mem_candidates.2 ⟨e, he, hall, rfl⟩)
      (Detection.mem_candidates.2 ⟨other, hother, hothers, rfl⟩) ?_, hordered,
      fun code => Detection.mem_candidates⟩
    exact fun hcode => hne (eq_of_code hother he hcode)
  · intro hnone
    have hentities : registry.toList ≠ [] := by
      rw [← List.length_pos_iff]
      simpa [toList, size, NameMap.size] using hsome
    obtain ⟨e, hbest⟩ := Detection.exists_best json.keys.eraseDups hentities
    have he := Detection.best_mem hbest
    have hcandidates : Detection.candidates json.keys.eraseDups registry.toList = [] := by
      rw [List.eq_nil_iff_forall_not_mem]
      intro code hcode
      obtain ⟨other, hother, hothers, -⟩ := Detection.mem_candidates.1 hcode
      exact hnone other hother hothers
    exact ⟨e, he, Detection.best_leads registry.pairwise_toList hbest,
      Detection.choose_none hcandidates hbest (hnone e he)⟩

/-- Cards by their rank and author, with the rank in two places. -/
def Catalog.rankedDocument : Json :=
  .object [("and", .array [
    .object [("rank", .object [("eq", .text "S")])],
    .object [("not", .object [("or", .array [
      .object [("author", .object [("eq", .text "kami")])],
      .object [("rank", .object [("eq", .text "E")])]])])]])]

/-- Statistics with a key that no entity has, between two that both kinds of statistics have. -/
def Catalog.flavouredDocument : Json :=
  .object [("collection", .object [("eq", .text "OWNED")]),
    ("not", .object [("flavour", .object [("eq", .text "mint")])]),
    ("count", .object [("gt", .integer 2)])]

theorem Registry.detect_by_keys_catalog :
    Catalog.registry.detect .default Catalog.rankedDocument = .ok "card" ∧
    (∃ codes, Catalog.registry.detect .default Catalog.ownedDocument =
      .error (.ambiguousEntity codes) ∧ "card_users_stats" ∈ codes ∧ "deck" ∉ codes) ∧
    ∃ e ∈ Catalog.registry.toList,
      e.Leads ["collection", "flavour", "count"] Catalog.summaryCardUsers ∧
      Catalog.registry.detect .default Catalog.flavouredDocument =
        .error (.unknownField e.code "flavour") := by
  have hsize : 0 < Catalog.registry.size := by decide
  have hlist : Catalog.registry.toList = [Catalog.animestarsUser, Catalog.card,
    Catalog.cardUsersStats, Catalog.deck, Catalog.summaryCardUsers] := rfl
  refine ⟨?_, ?_, ?_⟩
  · have hgathered : Detection.keysOf .default Catalog.rankedDocument =
        .ok ["rank", "author"] := rfl
    obtain ⟨hshape, hkeys⟩ := Detection.keysOf_eq_ok.1 hgathered
    refine (detect_by_keys _ _ _ hsize hshape).1 Catalog.card (by simp [hlist]) ?_ ?_
    · rw [← hkeys]
      decide
    · rw [← hkeys, hlist]
      simp only [List.forall_mem_cons]
      exact ⟨fun h => absurd h (by decide), fun _ => trivial, fun h => absurd h (by decide),
        fun h => absurd h (by decide), fun h => absurd h (by decide), by simp⟩
  · have hgathered : Detection.keysOf .default Catalog.ownedDocument = .ok ["collection"] := rfl
    obtain ⟨hshape, hkeys⟩ := Detection.keysOf_eq_ok.1 hgathered
    have hstats : Catalog.cardUsersStats.HasAll ["collection"] := by decide
    have hsummary : Catalog.summaryCardUsers.HasAll ["collection"] := by decide
    rw [hkeys] at hstats hsummary
    have hne : Catalog.cardUsersStats ≠ Catalog.summaryCardUsers := fun h =>
      absurd (congrArg Entity.code h) (by decide)
    obtain ⟨codes, hcodes, -, hmem⟩ := (detect_by_keys _ _ _ hsize hshape).2.1
      Catalog.cardUsersStats (by simp [hlist]) Catalog.summaryCardUsers (by simp [hlist]) hne
      hstats hsummary
    refine ⟨codes, hcodes, (hmem _).2 ⟨_, by simp [hlist], hstats, rfl⟩, ?_⟩
    rw [hmem, ← hkeys, hlist]
    decide
  · have hgathered : Detection.keysOf .default Catalog.flavouredDocument =
        .ok ["collection", "flavour", "count"] := rfl
    obtain ⟨hshape, hkeys⟩ := Detection.keysOf_eq_ok.1 hgathered
    have hnone : ∀ e ∈ Catalog.registry.toList,
        ¬e.HasAll Catalog.flavouredDocument.keys.eraseDups := by
      rw [← hkeys]
      decide
    obtain ⟨e, he, hleads, before, key, after, -, -, -, hanswer⟩ :=
      (detect_by_keys _ _ _ hsize hshape).2.2 hnone
    have hrun : Catalog.registry.detect .default Catalog.flavouredDocument =
        .error (.unknownField "card_users_stats" "flavour") := rfl
    rw [hrun] at hanswer
    injection hanswer with hanswer
    injection hanswer with hcode hkey
    subst hkey
    refine ⟨e, he, ?_, ?_⟩
    · rw [hkeys]
      refine hleads _ (by simp [hlist]) fun h => ?_
      rw [← h] at hcode
      exact absurd hcode (by decide)
    · rw [hrun, hcode]

end FilterQuery
