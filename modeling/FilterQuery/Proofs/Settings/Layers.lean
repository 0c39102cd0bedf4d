import FilterQuery.Proofs.Result
import FilterQuery.Settings.Layer
import Mathlib.Data.List.Induction

/-!
# Settings from layers

Every setting comes from the highest layer that sets it: the overrides, the layers of files from the
last one down, the default value (`Settings.from_layers`). A `Setting` names one of them with the
type of its values, so that this is one law, whatever the layers do with the other settings and
whichever sections they have. Layers can be put together in any grouping
(`SettingsLayer.above_assoc`, `SettingsLayer.stack_stack`).
-/

namespace FilterQuery

/-! ## Sections above one another -/

section Sections

variable {α β : Type} {empty : α} {above : α → α → α}

theorem mergeSections_none_right (hempty : ∀ a, above a empty = a) (upper : Option α) :
    mergeSections empty above upper none = upper := by
  cases upper with
  | none => rfl
  | some a => exact congrArg some (hempty a)

theorem mergeSections_assoc (hempty : ∀ a, above a empty = a)
    (hassoc : ∀ a b c, above (above a b) c = above a (above b c)) (x y z : Option α) :
    mergeSections empty above (mergeSections empty above x y) z =
      mergeSections empty above x (mergeSections empty above y z) := by
  cases x with
  | none => rfl
  | some a =>
    cases y with
    | none =>
      rw [mergeSections_none_right hempty]
      rfl
    | some b => exact congrArg some (hassoc a b _)

/-- A part of a section comes from the upper section if this sets it, be there one or not. -/
theorem bind_mergeSections {part : α → Option β} (hnone : part empty = none)
    (habove : ∀ a b, part (above a b) = (part a).or (part b)) (upper lower : Option α) :
    (mergeSections empty above upper lower).bind part = (upper.bind part).or (lower.bind part) := by
  cases upper with
  | none => rfl
  | some a =>
    cases lower with
    | none => exact (habove a empty).trans (congrArg _ hnone)
    | some b => exact habove a b

end Sections

namespace DatabaseSection

theorem above_empty (a : DatabaseSection) : a.above empty = a := by
  simp [above, empty]

theorem above_assoc (a b c : DatabaseSection) : (a.above b).above c = a.above (b.above c) := by
  simp [above, Option.or_assoc]

end DatabaseSection

namespace FilterSection

theorem above_empty (a : FilterSection) : a.above empty = a := by
  simp [above, empty]

theorem above_assoc (a b c : FilterSection) : (a.above b).above c = a.above (b.above c) := by
  simp [above, Option.or_assoc]

end FilterSection

namespace PageSection

theorem above_empty (a : PageSection) : a.above empty = a := by
  simp [above, empty]

theorem above_assoc (a b c : PageSection) : (a.above b).above c = a.above (b.above c) := by
  simp [above, Option.or_assoc]

end PageSection

/-! ## Layers above one another -/

namespace SettingsLayer

@[simp] theorem above_empty (a : SettingsLayer) : a.above empty = a := by
  simp only [above, empty, mergeSections_none_right DatabaseSection.above_empty,
    mergeSections_none_right FilterSection.above_empty,
    mergeSections_none_right PageSection.above_empty, Option.or_none]

@[simp] theorem empty_above (a : SettingsLayer) : empty.above a = a := rfl

theorem above_assoc (a b c : SettingsLayer) : (a.above b).above c = a.above (b.above c) := by
  simp only [above,
    mergeSections_assoc DatabaseSection.above_empty DatabaseSection.above_assoc,
    mergeSections_assoc FilterSection.above_empty FilterSection.above_assoc,
    mergeSections_assoc PageSection.above_empty PageSection.above_assoc, Option.or_assoc]

@[simp] theorem stack_nil : stack [] = empty := rfl

theorem stack_concat (layers : List SettingsLayer) (upper : SettingsLayer) :
    stack (layers ++ [upper]) = upper.above (stack layers) := by
  rw [stack, List.foldl_append]
  rfl

theorem stack_append (lower upper : List SettingsLayer) :
    stack (lower ++ upper) = (stack upper).above (stack lower) := by
  induction upper using List.reverseRecOn with
  | nil => rw [List.append_nil, stack_nil, empty_above]
  | append_singleton layers top ih =>
    rw [← List.append_assoc, stack_concat, ih, stack_concat, above_assoc]

/-- Layers that stand next to one another may be put together beforehand. -/
theorem stack_stack (lower parts upper : List SettingsLayer) :
    stack (lower ++ stack parts :: upper) = stack (lower ++ (parts ++ upper)) := by
  have hparts : stack [stack parts] = stack parts := above_empty _
  rw [← List.singleton_append, stack_append, stack_append, hparts, stack_append lower,
    stack_append parts]

end SettingsLayer

/-! ## Single settings -/

/-- A setting, with the type of its values. -/
inductive Setting : Type → Type where
  /-- The dialect of statements. -/
  | dialect : Setting Dialect
  /-- The address of the database. -/
  | url : Setting String
  /-- The greatest length of a filter's text. -/
  | maxBytes : Setting Nat
  /-- How deeply the objects of a filter may be nested. -/
  | maxDepth : Setting Nat
  /-- The greatest number of conditions of a filter. -/
  | maxConditions : Setting Nat
  /-- The number of rows of a page unless a query gives it. -/
  | defaultPerPage : Setting Nat
  /-- The greatest number of rows of a page. -/
  | maxPerPage : Setting Nat
  /-- Whether additional details are written. -/
  | debug : Setting Bool

namespace Setting

variable {α : Type}

/-- What a layer sets a setting to. -/
def inLayer : {α : Type} → Setting α → SettingsLayer → Option α
  | _, .dialect, layer => layer.database.bind (·.dialect)
  | _, .url, layer => layer.database.bind (·.url)
  | _, .maxBytes, layer => layer.filters.bind (·.maxBytes)
  | _, .maxDepth, layer => layer.filters.bind (·.maxDepth)
  | _, .maxConditions, layer => layer.filters.bind (·.maxConditions)
  | _, .defaultPerPage, layer => layer.pages.bind (·.defaultPerPage)
  | _, .maxPerPage, layer => layer.pages.bind (·.maxPerPage)
  | _, .debug, layer => layer.debug

/-- What the overrides set a setting to. They can only ask for details, not refuse them. -/
def inOverrides : {α : Type} → Setting α → Overrides → Option α
  | _, .dialect, overrides => overrides.dialect
  | _, .url, overrides => overrides.url
  | _, .maxBytes, overrides => overrides.maxBytes
  | _, .maxDepth, overrides => overrides.maxDepth
  | _, .maxConditions, overrides => overrides.maxConditions
  | _, .defaultPerPage, overrides => overrides.defaultPerPage
  | _, .maxPerPage, overrides => overrides.maxPerPage
  | _, .debug, overrides => if overrides.debug then some true else none

/-- The default value of a setting. -/
def fallback : {α : Type} → Setting α → Option α
  | _, .dialect => some .sqlite
  | _, .url => none
  | _, .maxBytes => some 65536
  | _, .maxDepth => some 16
  | _, .maxConditions => some 200
  | _, .defaultPerPage => some 10
  | _, .maxPerPage => some 500
  | _, .debug => some false

/-- The value of a setting that is in force. -/
def inForce : {α : Type} → Setting α → Settings → Option α
  | _, .dialect, settings => some settings.dialect
  | _, .url, settings => settings.url
  | _, .maxBytes, settings => some settings.limits.maxBytes
  | _, .maxDepth, settings => some settings.limits.maxDepth
  | _, .maxConditions, settings => some settings.limits.maxConditions
  | _, .defaultPerPage, settings => some settings.defaultPerPage
  | _, .maxPerPage, settings => some settings.maxPerPage
  | _, .debug, settings => some settings.debug

/-- Of two layers the upper one decides about what it sets. -/
theorem inLayer_above (s : Setting α) (upper lower : SettingsLayer) :
    s.inLayer (upper.above lower) = (s.inLayer upper).or (s.inLayer lower) := by
  cases s with
  | dialect | url | maxBytes | maxDepth | maxConditions | defaultPerPage | maxPerPage =>
    exact bind_mergeSections rfl (fun _ _ => rfl) _ _
  | debug => rfl

/-- Of several layers the last one that sets a setting decides. -/
theorem inLayer_stack (s : Setting α) (layers : List SettingsLayer) :
    s.inLayer (.stack layers) = layers.reverse.findSome? s.inLayer := by
  induction layers using List.reverseRecOn with
  | nil => cases s <;> rfl
  | append_singleton layers top ih =>
    rw [SettingsLayer.stack_concat, inLayer_above, ih, List.reverse_concat, List.findSome?_cons]
    cases s.inLayer top <;> rfl

/-- The overrides decide about what they set, then the files, then the default value. -/
theorem inForce_ofLayers (s : Setting α) (overrides : Overrides) (files : SettingsLayer) :
    s.inForce (.ofLayers overrides files) =
      ((s.inOverrides overrides).or (s.inLayer files)).or s.fallback := by
  obtain ⟨database, filters, pages, debug⟩ := files
  cases s with
  | url =>
    rw [fallback, Option.or_none]
    cases database <;> rfl
  | dialect =>
    rw [fallback, Option.or_some]
    cases database <;> rfl
  | maxBytes | maxDepth | maxConditions =>
    rw [fallback, Option.or_some]
    cases filters <;> rfl
  | defaultPerPage | maxPerPage =>
    rw [fallback, Option.or_some]
    cases pages <;> rfl
  | debug =>
    rw [fallback, Option.or_some, inOverrides]
    cases hflag : overrides.debug with
    | true => simp [inForce, Settings.ofLayers, hflag]
    | false => simp [inForce, Settings.ofLayers, inLayer, hflag]

end Setting

namespace Settings

/-- Settings whose bounds on filters allow something and whose page sizes fit each other. -/
def InBounds (s : Settings) : Prop :=
  0 < s.limits.maxBytes ∧ 0 < s.limits.maxDepth ∧ 0 < s.limits.maxConditions ∧
    1 ≤ s.maxPerPage ∧ s.maxPerPage ≤ 500 ∧ 1 ≤ s.defaultPerPage ∧ s.defaultPerPage ≤ s.maxPerPage

/-- Settings pass their check exactly if they are in bounds. -/
theorem check_eq_ok_iff (s : Settings) : s.check = .ok () ↔ s.InBounds := by
  have hgreatest : FilterQuery.maxPerPage = 500 := rfl
  unfold check InBounds
  split
  · rename_i hlimits
    simp only [Bool.or_eq_true, decide_eq_true_eq] at hlimits
    simp only [reduceCtorEq, false_iff]
    omega
  · rename_i hlimits
    simp only [Bool.or_eq_true, decide_eq_true_eq] at hlimits
    split
    · rename_i hmax
      simp only [Bool.or_eq_true, decide_eq_true_eq] at hmax
      simp only [reduceCtorEq, false_iff]
      omega
    · rename_i hmax
      simp only [Bool.or_eq_true, decide_eq_true_eq] at hmax
      split
      · rename_i hdefault
        simp only [Bool.or_eq_true, decide_eq_true_eq] at hdefault
        simp only [reduceCtorEq, false_iff]
        omega
      · rename_i hdefault
        simp only [Bool.or_eq_true, decide_eq_true_eq] at hdefault
        simp only [true_iff]
        omega

/-- The settings of the layers are resolved if they are in bounds, and no others. -/
theorem resolve_eq_ok_iff (overrides : Overrides) (files : SettingsLayer) (resolved : Settings) :
    resolve overrides files = .ok resolved ↔
      resolved = ofLayers overrides files ∧ (ofLayers overrides files).InBounds := by
  rw [← check_eq_ok_iff]
  simp only [resolve, bind_eq_ok]
  constructor
  · rintro ⟨⟨⟩, hcheck, hresolved⟩
    exact ⟨(Except.ok.inj hresolved).symm, hcheck⟩
  · rintro ⟨rfl, hcheck⟩
    exact ⟨(), hcheck, rfl⟩

/-- Settings come from the highest layer that sets them. Whatever sections and settings the
overrides and the files of the profile and above it have, each setting in force is that of the
overrides, else that of the upper file, else that of the profile, else the default value; details
are written exactly if the overrides ask for them or the upper file, or else the profile, says so.
They are resolved exactly if they are in bounds. Layers that follow one another can be put together
beforehand, in any grouping, without a difference to what is resolved. -/
theorem from_layers (overrides : Overrides) (profile upper : Option SettingsLayer) :
    let files := SettingsLayer.stack (profile.toList ++ upper.toList)
    let settings := ofLayers overrides files
    (∀ {α : Type} (s : Setting α), s.inForce settings =
      (((s.inOverrides overrides).or (upper.bind s.inLayer)).or (profile.bind s.inLayer)).or
        s.fallback) ∧
      (settings.debug = true ↔ overrides.debug = true ∨
        (upper.bind (·.debug)).or (profile.bind (·.debug)) = some true) ∧
      (∀ resolved, resolve overrides files = .ok resolved ↔
        resolved = settings ∧ settings.InBounds) ∧
      (∀ a b c : SettingsLayer, (a.above b).above c = a.above (b.above c)) ∧
      ∀ lower parts higher : List SettingsLayer,
        resolve overrides (.stack (lower ++ .stack parts :: higher)) =
          resolve overrides (.stack (lower ++ (parts ++ higher))) := by
  intro files settings
  have hfiles : ∀ {α : Type} (s : Setting α),
      s.inLayer files = (upper.bind s.inLayer).or (profile.bind s.inLayer) := by
    intro α s
    rw [s.inLayer_stack, List.reverse_append, List.findSome?_append]
    cases profile <;> cases upper <;> simp
  refine ⟨fun s => ?_, ?_, fun resolved => resolve_eq_ok_iff overrides files resolved,
    SettingsLayer.above_assoc, fun lower parts higher => ?_⟩
  · rw [s.inForce_ofLayers, hfiles]
    simp only [Option.or_assoc]
  · have hdebug : files.debug = (upper.bind (·.debug)).or (profile.bind (·.debug)) :=
      hfiles Setting.debug
    rw [← hdebug]
    cases hfile : files.debug <;> simp [settings, ofLayers, hfile]
  · rw [SettingsLayer.stack_stack]

/-- A section of the upper file that sets one part leaves the other part to the profile. -/
example :
    (ofLayers .none (.stack [⟨some ⟨some .sqlite, some "sqlite:cards.db"⟩, none, none, none⟩,
      ⟨some ⟨some .postgres, none⟩, none, none, none⟩])).url = some "sqlite:cards.db" := rfl

end Settings

end FilterQuery
