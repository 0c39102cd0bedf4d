import Mathlib.Data.List.Forall2
import Mathlib.Data.List.Nodup
import Mathlib.Data.List.Perm.Basic

/-!
# Lists that are gone through

Gathering keys and planning joins both go through a sequence and keep of every item the first
occurrence; `eraseDups_concat` says how what is kept grows when the sequence goes on. Reading and
resolving go through a list and make something of every item, so that their results are related to
the list item by item (`List.Forall₂`). Where the order does not count either, lists are `Matched`:
one is, item by item, another order of the other.
-/

namespace FilterQuery

/-! ## First occurrences -/

/-- A further item is kept when it is new. -/
theorem eraseDups_concat {α : Type} [BEq α] [LawfulBEq α] [DecidableEq α] (as : List α) (a : α) :
    (as ++ [a]).eraseDups = if a ∈ as then as.eraseDups else as.eraseDups ++ [a] := by
  rw [List.eraseDups_append]
  by_cases h : a ∈ as
  · rw [if_pos h]
    simp [List.removeAll, h]
  · rw [if_neg h]
    simp [List.removeAll, h, List.eraseDups_cons]

/-! ## Item by item -/

/-- A relation between the items of two lists may be weakened for the items of the first. -/
theorem forall₂_of_mem {α β : Type} {R S : α → β → Prop} {as : List α} {bs : List β}
    (h : List.Forall₂ R as bs) (himp : ∀ a ∈ as, ∀ b, R a b → S a b) : List.Forall₂ S as bs := by
  induction h with
  | nil => exact .nil
  | cons hab _ ih =>
    exact .cons (himp _ List.mem_cons_self _ hab)
      (ih fun a ha => himp a (List.mem_cons_of_mem _ ha))

/-- What the items of a first list give to those of a second holds for each of the second. -/
theorem forall_mem_right {α β : Type} {R : α → β → Prop} {Q : β → Prop} {as : List α}
    {bs : List β} (h : List.Forall₂ R as bs) (himp : ∀ a ∈ as, ∀ b, R a b → Q b) :
    ∀ b ∈ bs, Q b := by
  induction h with
  | nil => simp
  | cons hab _ ih =>
    exact List.forall_mem_cons.2
      ⟨himp _ List.mem_cons_self _ hab, ih fun a ha => himp a (List.mem_cons_of_mem _ ha)⟩

/-- What the pairs give to the items of the first list holds for each of them. -/
theorem forall_mem_left {α β : Type} {R : α → β → Prop} {Q : α → Prop} {as : List α}
    {bs : List β} (h : List.Forall₂ R as bs) (himp : ∀ a b, R a b → Q a) : ∀ a ∈ as, Q a := by
  induction h with
  | nil => simp
  | cons hab _ ih => exact List.forall_mem_cons.2 ⟨himp _ _ hab, ih⟩

/-- Where the items of each pair have their properties together, so have the items of the lists. -/
theorem forall_mem_iff {α β : Type} {R : α → β → Prop} {P : α → Prop} {Q : β → Prop} {as : List α}
    {bs : List β} (h : List.Forall₂ R as bs) (hiff : ∀ a ∈ as, ∀ b, R a b → (P a ↔ Q b)) :
    (∀ a ∈ as, P a) ↔ ∀ b ∈ bs, Q b := by
  induction h with
  | nil => simp
  | cons hab _ ih =>
    rw [List.forall_mem_cons, List.forall_mem_cons, hiff _ List.mem_cons_self _ hab,
      ih fun a ha => hiff a (List.mem_cons_of_mem _ ha)]

/-- Each item of the first list gives one of the second. -/
theorem exists_mem_right {α β : Type} {R : α → β → Prop} {as : List α} {bs : List β}
    (h : List.Forall₂ R as bs) {a : α} (ha : a ∈ as) : ∃ b ∈ bs, R a b := by
  induction h with
  | nil => cases ha
  | cons hab _ ih =>
    rcases List.mem_cons.1 ha with rfl | ha
    · exact ⟨_, List.mem_cons_self, hab⟩
    · obtain ⟨b, hb, hR⟩ := ih ha
      exact ⟨b, List.mem_cons_of_mem _ hb, hR⟩

/-- Each item of the second list comes from one of the first. -/
theorem exists_mem_left {α β : Type} {R : α → β → Prop} {as : List α} {bs : List β}
    (h : List.Forall₂ R as bs) {b : β} (hb : b ∈ bs) : ∃ a ∈ as, R a b :=
  exists_mem_right (R := flip R) h.flip hb

/-- What pairs the items of one list with those of two others pairs the two others. -/
theorem forall₂_of_forall₂ {α β γ : Type} {R : α → β → Prop} {S : α → γ → Prop}
    {T : β → γ → Prop} {as : List α} {bs : List β} {cs : List γ} (h : List.Forall₂ R as bs)
    (h' : List.Forall₂ S as cs) (himp : ∀ a b c, R a b → S a c → T b c) : List.Forall₂ T bs cs := by
  induction h generalizing cs with
  | nil =>
    cases h'
    exact .nil
  | cons hab _ ih =>
    cases h' with
    | cons hac hrest => exact .cons (himp _ _ _ hab hac) (ih hrest)

/-- What is made item by item of paired lists is paired. -/
theorem forall₂_of_images {α β γ δ : Type} {R : α → β → Prop} {P : α → γ → Prop}
    {Q : β → δ → Prop} {T : γ → δ → Prop} {as : List α} {bs : List β} {cs : List γ} {ds : List δ}
    (h : List.Forall₂ R as bs) (hcs : List.Forall₂ P as cs) (hds : List.Forall₂ Q bs ds)
    (himp : ∀ a b c d, R a b → P a c → Q b d → T c d) : List.Forall₂ T cs ds := by
  have hsources : List.Forall₂ (fun b c => ∃ a, R a b ∧ P a c) bs cs :=
    forall₂_of_forall₂ h hcs fun a b c hab hac => ⟨a, hab, hac⟩
  refine forall₂_of_forall₂ hsources hds fun b c d hb hbd => ?_
  obtain ⟨a, hab, hac⟩ := hb
  exact himp a b c d hab hac hbd

/-- Two lists that differ in one item are paired with lists that differ, if at all, in what this
item is paired with. -/
theorem forall₂_replaced {α β : Type} {R : α → β → Prop} {T : β → β → Prop}
    {before after : List α} {a a' : α} {bs cs : List β}
    (h : List.Forall₂ R (before ++ a :: after) bs) (h' : List.Forall₂ R (before ++ a' :: after) cs)
    (hsame : ∀ a b c, R a b → R a c → T b c) (hhole : ∀ b c, R a b → R a' c → T b c) :
    List.Forall₂ T bs cs := by
  induction before generalizing bs cs with
  | nil =>
    cases h with
    | cons hb hbs =>
      cases h' with
      | cons hc hcs => exact .cons (hhole _ _ hb hc) (forall₂_of_forall₂ hbs hcs hsame)
  | cons first before ih =>
    cases h with
    | cons hb hbs =>
      cases h' with
      | cons hc hcs => exact .cons (hsame _ _ _ hb hc) (ih hbs hcs)

/-- Pieces of one item each are the items. -/
theorem forall₂_flatten {α β : Type} {R : α → β → Prop} {as : List α} {pieces : List (List β)}
    (h : List.Forall₂ (fun a piece => ∃ b, piece = [b] ∧ R a b) as pieces) :
    List.Forall₂ R as pieces.flatten := by
  induction h with
  | nil => exact .nil
  | cons hfirst hrest ih =>
    obtain ⟨b, rfl, hb⟩ := hfirst
    exact .cons hb ih

/-! ## Item by item, in another order -/

/-- Each item of a list has a partner of its own in another list, wherever it stands, and no item of
the other list is left. -/
inductive Matched {α β : Type} (R : α → β → Prop) : List α → List β → Prop
  | nil : Matched R [] []
  | cons {a : α} {as : List α} {b : β} {before after : List β} (first : R a b)
      (rest : Matched R as (before ++ after)) : Matched R (a :: as) (before ++ b :: after)

/-- Matched lists are, item by item, the same list in another order. -/
theorem matched_iff {α β : Type} {R : α → β → Prop} {as : List α} {bs : List β} :
    Matched R as bs ↔ ∃ between, List.Forall₂ R as between ∧ between.Perm bs := by
  constructor
  · intro h
    induction h with
    | nil => exact ⟨[], .nil, .nil⟩
    | cons first _ ih =>
      obtain ⟨between, hpairs, hperm⟩ := ih
      exact ⟨_ :: between, .cons first hpairs, (hperm.cons _).trans List.perm_middle.symm⟩
  · rintro ⟨between, hpairs, hperm⟩
    induction hpairs generalizing bs with
    | nil =>
      obtain rfl := List.nil_perm.1 hperm
      exact .nil
    | cons first _ ih =>
      obtain ⟨before, after, rfl⟩ := List.append_of_mem (hperm.subset List.mem_cons_self)
      exact .cons first (ih (hperm.trans List.perm_middle).cons_inv)

namespace Matched

variable {α β γ δ : Type} {R : α → β → Prop} {as as' : List α} {bs bs' : List β}

theorem of_forall₂ (h : List.Forall₂ R as bs) : Matched R as bs :=
  matched_iff.2 ⟨bs, h, .refl bs⟩

theorem perm (h : Matched R as bs) (hperm : bs.Perm bs') : Matched R as bs' := by
  obtain ⟨between, hpairs, horder⟩ := matched_iff.1 h
  exact matched_iff.2 ⟨between, hpairs, horder.trans hperm⟩

theorem append (h : Matched R as bs) (h' : Matched R as' bs') :
    Matched R (as ++ as') (bs ++ bs') := by
  obtain ⟨between, hpairs, horder⟩ := matched_iff.1 h
  obtain ⟨between', hpairs', horder'⟩ := matched_iff.1 h'
  exact matched_iff.2 ⟨_, List.rel_append hpairs hpairs', horder.append horder'⟩

theorem length_eq (h : Matched R as bs) : as.length = bs.length := by
  obtain ⟨between, hpairs, horder⟩ := matched_iff.1 h
  rw [hpairs.length_eq, horder.length_eq]

theorem ne_nil (h : Matched R as bs) (has : as ≠ []) : bs ≠ [] := by
  cases h with
  | nil => exact absurd rfl has
  | cons _ _ => simp

theorem exists_mem_right (h : Matched R as bs) {a : α} (ha : a ∈ as) : ∃ b ∈ bs, R a b := by
  obtain ⟨between, hpairs, horder⟩ := matched_iff.1 h
  obtain ⟨b, hb, hab⟩ := FilterQuery.exists_mem_right hpairs ha
  exact ⟨b, horder.mem_iff.1 hb, hab⟩

theorem exists_mem_left (h : Matched R as bs) {b : β} (hb : b ∈ bs) : ∃ a ∈ as, R a b := by
  obtain ⟨between, hpairs, horder⟩ := matched_iff.1 h
  exact FilterQuery.exists_mem_left hpairs (horder.mem_iff.2 hb)

/-- What the pairs carry over from the items of the first list holds for those of the second. -/
theorem forall_mem {P : α → Prop} {Q : β → Prop} (h : Matched R as bs)
    (himp : ∀ a ∈ as, ∀ b, R a b → P a → Q b) (has : ∀ a ∈ as, P a) : ∀ b ∈ bs, Q b := by
  intro b hb
  obtain ⟨a, ha, hab⟩ := h.exists_mem_left hb
  exact himp a ha b hab (has a ha)

/-- Matched lists may change their places. -/
theorem flip_of_mem {S : β → α → Prop} (h : Matched R as bs)
    (himp : ∀ a ∈ as, ∀ b, R a b → S b a) : Matched S bs as := by
  obtain ⟨between, hpairs, horder⟩ := matched_iff.1 h
  have hflip : List.Forall₂ S between as := List.Forall₂.flip (forall₂_of_mem hpairs himp)
  exact matched_iff.2 (List.perm_comp_forall₂ horder.symm hflip)

/-- What matched items have in common occurs in both lists equally often. -/
theorem map_perm {f : α → γ} {g : β → γ} (h : Matched R as bs)
    (hsame : ∀ a ∈ as, ∀ b, R a b → f a = g b) : (as.map f).Perm (bs.map g) := by
  obtain ⟨between, hpairs, horder⟩ := matched_iff.1 h
  have hmap : as.map f = between.map g := by
    rw [← List.forall₂_eq_eq_eq, List.forall₂_map_left_iff, List.forall₂_map_right_iff]
    exact forall₂_of_mem hpairs hsame
  rw [hmap]
  exact horder.map g

/-- What is made of matched items is matched, if it is so for each pair. -/
theorem flatMap {S : γ → δ → Prop} {f : α → List γ} {g : β → List δ} (h : Matched R as bs)
    (hstep : ∀ a ∈ as, ∀ b, R a b → Matched S (f a) (g b)) :
    Matched S (as.flatMap f) (bs.flatMap g) := by
  obtain ⟨between, hpairs, horder⟩ := matched_iff.1 h
  refine Matched.perm ?_ (horder.flatMap_right g)
  clear horder h
  induction hpairs with
  | nil => exact .nil
  | cons first _ ih =>
    rw [List.flatMap_cons, List.flatMap_cons]
    exact (hstep _ List.mem_cons_self _ first).append
      (ih fun a ha => hstep a (List.mem_cons_of_mem _ ha))

theorem flatten {S : γ → δ → Prop} {pieces : List (List γ)} {pieces' : List (List δ)}
    (h : Matched (Matched S) pieces pieces') : Matched S pieces.flatten pieces'.flatten := by
  rw [← List.flatMap_id, ← List.flatMap_id]
  exact h.flatMap fun _ _ _ hpiece => hpiece

/-- What is made item by item of matched lists is matched. -/
theorem of_images {P : α → γ → Prop} {Q : β → δ → Prop} {T : γ → δ → Prop} {cs : List γ}
    {ds : List δ} (h : Matched R as bs) (hcs : List.Forall₂ P as cs) (hds : List.Forall₂ Q bs ds)
    (himp : ∀ a b c d, R a b → P a c → Q b d → T c d) : Matched T cs ds := by
  obtain ⟨between, hpairs, horder⟩ := matched_iff.1 h
  obtain ⟨ds', hds', horder'⟩ := List.perm_comp_forall₂ horder hds
  exact matched_iff.2 ⟨ds', forall₂_of_images hpairs hcs hds' himp, horder'⟩

end Matched

theorem matched_eq {α : Type} {as bs : List α} : Matched Eq as bs ↔ as.Perm bs := by
  rw [matched_iff]
  simp only [List.forall₂_eq_eq_eq, exists_eq_left']

/-- Where one item at most has something to give, the order does not count. -/
theorem flatMap_eq_of_perm {α β : Type} {f : α → List β} {as bs : List α} (h : as.Perm bs)
    (hone : as.Pairwise fun a b => f a = [] ∨ f b = []) : as.flatMap f = bs.flatMap f := by
  induction h with
  | nil => rfl
  | cons a _ ih => rw [List.flatMap_cons, List.flatMap_cons, ih (List.pairwise_cons.1 hone).2]
  | swap a b as =>
    simp only [List.flatMap_cons, ← List.append_assoc]
    rcases (List.pairwise_cons.1 hone).1 a List.mem_cons_self with hb | ha
    · rw [hb, List.nil_append, List.append_nil]
    · rw [ha, List.nil_append, List.append_nil]
  | trans h _ ih ih' =>
    have hone' := (h.pairwise_iff fun hab => hab.symm).1 hone
    rw [ih hone, ih' hone']

end FilterQuery
