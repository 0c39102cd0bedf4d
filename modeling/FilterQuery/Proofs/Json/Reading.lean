import FilterQuery.Json.Reader
import FilterQuery.Proofs.Filter.Reordering

/-!
# Documents that are read from a text

A member that an object repeats takes the place of the first one, so that the keys of an object that
is read are different from one another, at any depth. In other words, whatever is read is a
reordering of itself (`Json.reordered_of_parse`).
-/

namespace FilterQuery.Json

/-! ## Repeated members -/

theorem map_fst_putMember (name : String) (value : Json) (members : List (String × Json)) :
    (putMember name value members).map Prod.fst =
      if name ∈ members.map Prod.fst then members.map Prod.fst
      else members.map Prod.fst ++ [name] := by
  induction members with
  | nil => rfl
  | cons m ms ih =>
    unfold putMember
    by_cases hname : m.1 = name
    · simp [hname]
    · have hname' : name ≠ m.1 := Ne.symm hname
      simp only [if_neg hname, List.map_cons, ih, List.mem_cons, hname', false_or]
      split <;> rfl

theorem mem_of_mem_putMember {name : String} {value : Json} {members : List (String × Json)}
    {m : String × Json} (h : m ∈ putMember name value members) :
    m = (name, value) ∨ m ∈ members := by
  induction members with
  | nil => exact .inl (List.mem_singleton.1 h)
  | cons first rest ih =>
    unfold putMember at h
    split at h
    · rcases List.mem_cons.1 h with rfl | h
      · exact .inl rfl
      · exact .inr (List.mem_cons_of_mem _ h)
    · rcases List.mem_cons.1 h with rfl | h
      · exact .inr List.mem_cons_self
      · exact (ih h).imp_right (List.mem_cons_of_mem _)

/-- An object of members each of which is a reordering of itself, and whose keys differ, is one of
itself. -/
theorem reordered_object {members : List (String × Json)}
    (hdistinct : (members.map Prod.fst).Nodup) (hmembers : ∀ m ∈ members, m.2.Reordered m.2) :
    (Json.object members).Reordered (.object members) :=
  .object hdistinct (.of_forall₂ (List.forall₂_same.2 fun m hm => ⟨hmembers m hm⟩))

/-- Merging the members of an object leaves different keys. -/
theorem reordered_mergeMembers {members : List (String × Json)}
    (hmembers : ∀ m ∈ members, m.2.Reordered m.2) :
    (Json.object (mergeMembers members)).Reordered (.object (mergeMembers members)) := by
  have hfold (acc : List (String × Json)) (hdistinct : (acc.map Prod.fst).Nodup)
      (hacc : ∀ m ∈ acc, m.2.Reordered m.2) :
      ((members.foldl (fun acc m => putMember m.1 m.2 acc) acc).map Prod.fst).Nodup ∧
        ∀ m ∈ members.foldl (fun acc m => putMember m.1 m.2 acc) acc, m.2.Reordered m.2 := by
    induction members generalizing acc with
    | nil => exact ⟨hdistinct, hacc⟩
    | cons first rest ih =>
      obtain ⟨hfirst, hrest⟩ := List.forall_mem_cons.1 hmembers
      refine ih hrest _ ?_ fun m hm => ?_
      · rw [map_fst_putMember]
        split
        · exact hdistinct
        · rename_i hnew
          refine List.nodup_append.2 ⟨hdistinct, List.nodup_singleton _, ?_⟩
          rintro key hkey _ hname rfl
          exact hnew (List.mem_singleton.1 hname ▸ hkey)
      · rcases mem_of_mem_putMember hm with rfl | hm
        · exact hfirst
        · exact hacc m hm
  obtain ⟨hdistinct, hmerged⟩ := hfold [] List.nodup_nil (by simp)
  exact reordered_object hdistinct hmerged

/-! ## Values -/

/-- A step of reading whose value, if it has one, is a reordering of itself. -/
def ReadsDistinct (x : Option (Json × List Char)) : Prop :=
  ∀ p, x = some p → p.1.Reordered p.1

theorem readsDistinct_none : ReadsDistinct none :=
  nofun

theorem readsDistinct_some {json : Json} {rest : List Char} (h : json.Reordered json) :
    ReadsDistinct (some (json, rest)) := by
  rintro _ ⟨⟩
  exact h

theorem readsDistinct_word (letters s : List Char) {json : Json} (h : json.Reordered json) :
    ReadsDistinct (word json letters s) := by
  induction letters generalizing s with
  | nil => exact readsDistinct_some h
  | cons letter letters ih =>
    cases s with
    | nil => exact readsDistinct_none
    | cons c cs =>
      unfold word
      split
      · exact ih cs
      · exact readsDistinct_none

theorem readsDistinct_float (x : Option Binary64) (rest : List Char) :
    ReadsDistinct (x.map fun x => (.float x, rest)) := by
  cases x with
  | none => exact readsDistinct_none
  | some x => exact readsDistinct_some (.scalar nofun nofun)

theorem readsDistinct_exponentPart (negative : Bool) (significand : Nat) (scale : Int)
    (s : List Char) : ReadsDistinct (exponentPart negative significand scale s) := by
  cases s with
  | nil => exact readsDistinct_float _ _
  | cons c cs =>
    simp only [exponentPart]
    split
    · -- whichever sign the exponent has, the literal is a double
      split
      all_goals
        split
        · exact readsDistinct_none
        · exact readsDistinct_float _ _
    · exact readsDistinct_float _ _

theorem reordered_integerOf (negative : Bool) (significand : Nat) :
    (integerOf negative significand).Reordered (integerOf negative significand) := by
  unfold integerOf
  split
  · exact .scalar nofun nofun
  · split
    · exact .scalar nofun nofun
    · split <;> exact .scalar nofun nofun

theorem readsDistinct_afterWhole (negative : Bool) (run : DigitRun) :
    ReadsDistinct (afterWhole negative run) := by
  simp only [afterWhole]
  split
  · split
    · exact readsDistinct_none
    · exact readsDistinct_exponentPart _ _ _ _
  · split
    · exact readsDistinct_exponentPart _ _ _ _
    · exact readsDistinct_some (reordered_integerOf _ _)
  · split
    · exact readsDistinct_exponentPart _ _ _ _
    · exact readsDistinct_some (reordered_integerOf _ _)

theorem readsDistinct_unsignedNumber (negative : Bool) (s : List Char) :
    ReadsDistinct (unsignedNumber negative s) := by
  unfold unsignedNumber
  split
  · exact readsDistinct_none
  · split
    · exact readsDistinct_none
    · split
      · exact readsDistinct_none
      · exact readsDistinct_afterWhole _ _
    · exact readsDistinct_afterWhole _ _

theorem readsDistinct_number (s : List Char) : ReadsDistinct (number s) := by
  unfold number
  split <;> exact readsDistinct_unsignedNumber _ _

/-- The readers of values, of items and of members, with a number of steps left. -/
structure StepsReadDistinct (fuel : Nat) : Prop where
  value : ∀ depth s, ReadsDistinct (value fuel depth s)
  items : ∀ depth done s, (∀ j ∈ done, j.Reordered j) → ReadsDistinct (items fuel depth done s)
  fields : ∀ depth done s, (∀ m ∈ done, m.2.Reordered m.2) →
    ReadsDistinct (fields fuel depth done s)

section

variable {fuel : Nat} (hsteps : StepsReadDistinct fuel)

include hsteps

theorem readsDistinct_value (depth : Nat) (s : List Char) :
    ReadsDistinct (value (fuel + 1) depth s) := by
  unfold value
  split
  · exact readsDistinct_word _ _ (.scalar nofun nofun)
  · exact readsDistinct_word _ _ (.scalar nofun nofun)
  · exact readsDistinct_word _ _ (.scalar nofun nofun)
  · rename_i cs
    cases string cs with
    | none => exact readsDistinct_none
    | some p => exact readsDistinct_some (.scalar nofun nofun)
  · split
    · exact readsDistinct_none
    · split
      · exact readsDistinct_some (.array .nil)
      · exact hsteps.items _ [] _ (by simp)
  · split
    · exact readsDistinct_none
    · split
      · exact readsDistinct_some (.object List.nodup_nil .nil)
      · exact hsteps.fields _ [] _ (by simp)
  · exact readsDistinct_number _

theorem readsDistinct_items (depth : Nat) {done : List Json} (s : List Char)
    (hdone : ∀ j ∈ done, j.Reordered j) : ReadsDistinct (items (fuel + 1) depth done s) := by
  unfold items
  split
  · exact readsDistinct_none
  · rename_i item rest hread
    have hitems : ∀ j ∈ item :: done, j.Reordered j :=
      List.forall_mem_cons.2 ⟨hsteps.value _ _ _ hread, hdone⟩
    split
    · exact hsteps.items _ _ _ hitems
    · refine readsDistinct_some (.array (List.forall₂_same.2 fun j hj => ?_))
      exact hitems j (List.mem_reverse.1 hj)
    · exact readsDistinct_none

theorem readsDistinct_fields (depth : Nat) {done : List (String × Json)} (s : List Char)
    (hdone : ∀ m ∈ done, m.2.Reordered m.2) :
    ReadsDistinct (fields (fuel + 1) depth done s) := by
  unfold fields
  split
  · split
    · exact readsDistinct_none
    · split
      · split
        · exact readsDistinct_none
        · rename_i hread
          have hmember := hsteps.value _ _ _ hread
          split
          · exact hsteps.fields _ _ _ (List.forall_mem_cons.2 ⟨hmember, hdone⟩)
          · refine readsDistinct_some (reordered_mergeMembers fun m hm => ?_)
            rcases List.mem_cons.1 (List.mem_reverse.1 hm) with rfl | hm
            · exact hmember
            · exact hdone m hm
          · exact readsDistinct_none
      · exact readsDistinct_none
  · exact readsDistinct_none

end

theorem stepsReadDistinct (fuel : Nat) : StepsReadDistinct fuel := by
  induction fuel with
  | zero =>
    exact ⟨fun _ _ => readsDistinct_none, fun _ _ _ _ => readsDistinct_none,
      fun _ _ _ _ => readsDistinct_none⟩
  | succ fuel ih =>
    exact ⟨readsDistinct_value ih, fun depth _ => readsDistinct_items ih depth,
      fun depth _ => readsDistinct_fields ih depth⟩

/-- Whatever is read from a text is a reordering of itself: its objects, at any depth, have
different keys. -/
theorem reordered_of_parse {text : String} {json : Json} (h : parse text = some json) :
    json.Reordered json := by
  unfold parse parseChars parseInside at h
  split at h
  · rename_i found rest hread
    split at h
    · cases h
      exact (stepsReadDistinct _).value _ _ _ hread
    · cases h
  · cases h

end FilterQuery.Json
