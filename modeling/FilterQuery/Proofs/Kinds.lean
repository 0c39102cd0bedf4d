import FilterQuery.Value
import Mathlib.Algebra.GroupWithZero.Nat
import Mathlib.Data.List.Basic

/-!
# Parameters of kinds

A field has a kind, and the column behind it holds values of that kind only. `ValueKind.Admits`
says which parameters belong to a kind without saying how a value is read: what becomes of a value
by `ValueKind.coerce` is one of them (`ValueKind.admits_coerce`), so that null never is. UUIDs are
compared as texts, which is right only because each of them is written in one way
(`Uuid.isCanonical_canonical?`).
-/

namespace FilterQuery

namespace Uuid

/-! ## UUIDs -/

/-- A hexadecimal digit in lower case. -/
def IsLowerHex (c : Char) : Prop :=
  ('0' ≤ c ∧ c ≤ '9') ∨ ('a' ≤ c ∧ c ≤ 'f')

/-- The canonical spelling of a UUID: 32 hexadecimal digits in lower case, in groups of 8, 4, 4, 4
and 12 with hyphens between them. -/
def IsCanonical (s : String) : Prop :=
  ∃ groups : List (List Char), groups.map List.length = [8, 4, 4, 4, 12] ∧
    (∀ g ∈ groups, ∀ c ∈ g, IsLowerHex c) ∧ s.toList = ['-'].intercalate groups

theorem isLowerHex_toLower {c : Char} (hA : 'A' ≤ c) (hF : c ≤ 'F') : IsLowerHex c.toLower := by
  have hlow : 65 ≤ c.toNat := hA
  have hhigh : c.toNat ≤ 70 := hF
  have hc : Char.ofNat c.toNat = c := Char.ofNat_toNat c
  generalize c.toNat = n at hlow hhigh hc
  subst hc
  have hn : n = 65 ∨ n = 66 ∨ n = 67 ∨ n = 68 ∨ n = 69 ∨ n = 70 := by omega
  rcases hn with rfl | rfl | rfl | rfl | rfl | rfl <;> exact Or.inr (by decide)

theorem isLowerHex_of_hexDigit? {c d : Char} (h : hexDigit? c = some d) : IsLowerHex d := by
  rw [hexDigit?] at h
  split at h
  · rename_i hlower
    obtain rfl := Option.some.inj h
    simpa [IsLowerHex] using hlower
  · split at h
    · rename_i hupper
      obtain rfl := Option.some.inj h
      simp only [Bool.and_eq_true, decide_eq_true_eq] at hupper
      exact isLowerHex_toLower hupper.1 hupper.2
    · cases h

theorem hexDigits_eq_some {cs ds : List Char} (h : hexDigits cs = some ds) :
    ds.length = cs.length ∧ ∀ d ∈ ds, IsLowerHex d := by
  induction cs generalizing ds with
  | nil =>
    obtain rfl := Option.some.inj h
    simp
  | cons c cs ih =>
    simp only [hexDigits, Option.bind_eq_bind, Option.bind_eq_some_iff, Option.some.injEq] at h
    obtain ⟨d, hd, ds, hds, rfl⟩ := h
    obtain ⟨hlength, hlower⟩ := ih hds
    exact ⟨by simp [hlength], List.forall_mem_cons.2 ⟨isLowerHex_of_hexDigit? hd, hlower⟩⟩

theorem length_of_ungrouped {ns : List Nat} {s cs : List Char} (h : ungrouped ns s = some cs) :
    cs.length = ns.sum := by
  fun_induction ungrouped ns s generalizing cs with
  | case1 s hs =>
    obtain rfl := Option.some.inj h
    rfl
  | case2 s hs => cases h
  | case3 s =>
    obtain rfl := Option.some.inj h
    simp
  | case4 => cases h
  | case5 n ns s hns rest hdrop ih =>
    obtain ⟨others, hothers, rfl⟩ := Option.map_eq_some_iff.1 h
    have hlength : n < s.length := by
      by_contra hshort
      rw [List.drop_eq_nil_of_le (by omega)] at hdrop
      cases hdrop
    rw [List.length_append, List.length_take, ih hothers, List.sum_cons]
    omega
  | case6 => cases h

/-- The digits of a UUID are 32 digits in lower case, however it is spelled. -/
theorem digits?_eq_some {s ds : List Char} (h : digits? s = some ds) :
    ds.length = 32 ∧ ∀ d ∈ ds, IsLowerHex d := by
  have hgrouped : ∀ cs, ofGrouped? cs = some ds → ds.length = 32 ∧ ∀ d ∈ ds, IsLowerHex d := by
    intro cs hcs
    obtain ⟨digits, hdigits, hds⟩ := Option.bind_eq_some_iff.1 hcs
    obtain ⟨hlength, hlower⟩ := hexDigits_eq_some hds
    exact ⟨hlength.trans (length_of_ungrouped hdigits), hlower⟩
  unfold digits? at h
  split at h
  · rename_i hlength
    obtain ⟨hds, hlower⟩ := hexDigits_eq_some h
    exact ⟨hds.trans hlength, hlower⟩
  · split at h
    · exact hgrouped _ h
    · split at h
      · split at h
        · split at h
          · exact hgrouped _ h
          · cases h
        · cases h
      · split at h
        · exact hgrouped _ h
        · cases h

/-- Digits are written as groups of the sizes that are asked for, with hyphens between them. -/
theorem grouped_eq_intercalate {ns : List Nat} {ds : List Char} (h : ds.length = ns.sum) :
    ∃ groups : List (List Char), groups.map List.length = ns ∧ groups.flatten = ds ∧
      grouped ns ds = ['-'].intercalate groups := by
  fun_induction grouped ns ds with
  | case1 ds => exact ⟨[], rfl, (List.eq_nil_of_length_eq_zero h).symm, rfl⟩
  | case2 n ds =>
    have hn : ds.take n = ds := List.take_of_length_le (by simp [h])
    exact ⟨[ds], by simpa using h, by simp, by simp [hn]⟩
  | case3 n ns ds hns ih =>
    rw [List.sum_cons] at h
    obtain ⟨groups, hsizes, hdigits, htext⟩ := ih (by rw [List.length_drop]; omega)
    refine ⟨ds.take n :: groups, ?_, ?_, ?_⟩
    · rw [List.map_cons, hsizes, List.length_take, Nat.min_eq_left (by omega)]
    · rw [List.flatten_cons, hdigits, List.take_append_drop]
    · obtain ⟨g, gs, rfl⟩ := List.exists_cons_of_ne_nil (l := groups) (by
        rintro rfl
        exact hns (by simpa using hsizes.symm))
      rw [htext, List.intercalate_cons_cons]
      simp

/-- Whatever the spelling that is read, a UUID is written in the canonical one. -/
theorem isCanonical_canonical? {s c : String} (h : canonical? s = some c) : IsCanonical c := by
  obtain ⟨ds, hds, rfl⟩ := Option.map_eq_some_iff.1 h
  obtain ⟨hlength, hlower⟩ := digits?_eq_some hds
  have hsum : ds.length = groupSizes.sum := hlength
  obtain ⟨groups, hsizes, hdigits, htext⟩ := grouped_eq_intercalate hsum
  refine ⟨groups, hsizes, fun g hg c hc => hlower c ?_, by rw [String.toList_ofList, htext]⟩
  rw [← hdigits]
  exact List.mem_flatten_of_mem hg hc

end Uuid

namespace ValueKind

/-! ## Kinds -/

/-- The parameters that belong to a kind. Null belongs to none. -/
inductive Admits : ValueKind → Parameter → Prop
  | text (s : String) : Admits .text (.text s)
  | integer (n : Int) : Admits .integer (.integer n)
  | float (x : Binary64) : Admits .float (.float x)
  | boolean (b : Bool) : Admits .boolean (.bool b)
  | uuid {s : String} : Uuid.IsCanonical s → Admits .uuid (.text s)
  | datetime (t : Instant) : Admits .datetime (.timestamp t)
  | enum {variants : List String} {s : String} : s ∈ variants → Admits (.enum variants) (.text s)

/-- What a value becomes for a kind belongs to the kind. -/
theorem admits_coerce {kind : ValueKind} {v : Value} {p : Parameter}
    (h : kind.coerce v = some p) : kind.Admits p := by
  unfold coerce at h
  split at h
  · obtain rfl := Option.some.inj h
    exact .text _
  · obtain rfl := Option.some.inj h
    exact .integer _
  · obtain rfl := Option.some.inj h
    exact .float _
  · obtain rfl := Option.some.inj h
    exact .float _
  · obtain rfl := Option.some.inj h
    exact .boolean _
  · obtain ⟨c, hc, rfl⟩ := Option.map_eq_some_iff.1 h
    exact .uuid (Uuid.isCanonical_canonical? hc)
  · obtain ⟨t, -, rfl⟩ := Option.map_eq_some_iff.1 h
    exact .datetime t
  · split at h
    · rename_i hs
      obtain rfl := Option.some.inj h
      exact .enum (by simpa using hs)
    · cases h
  · cases h

end ValueKind

end FilterQuery
