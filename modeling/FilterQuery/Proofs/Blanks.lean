import FilterQuery.Text.Blank

/-!
# Blanks around texts

Blanks around a text do not change what is left of it when it is trimmed (`Text.trim_around`), and a
text without blanks at either end is left as it is. Whether a text ends in a blank is decided by its
last piece (`Text.EndsPlainly.after`).
-/

namespace FilterQuery.Text

/-! ## Texts that end plainly -/

/-- A text does not end in a blank. -/
def EndsPlainly (s : List Char) : Prop :=
  ∀ c, s.getLast? = some c → isBlank c = false

variable {s t : List Char}

theorem endsPlainly_trim (s : List Char) : EndsPlainly (trim s) :=
  fun _ => getLast_trim

theorem endsPlainly_of_forall (h : ∀ c ∈ s, isBlank c = false) : EndsPlainly s :=
  fun c hc => h c (List.mem_of_getLast? hc)

/-- What comes before a text that is not empty does not count. -/
theorem EndsPlainly.after (h : EndsPlainly t) (hne : t ≠ []) (s : List Char) :
    EndsPlainly (s ++ t) := by
  intro c hc
  refine h c ?_
  rwa [List.getLast?_append, List.getLast?_eq_some_getLast hne, Option.some_or,
    ← List.getLast?_eq_some_getLast hne] at hc

theorem EndsPlainly.append (hs : EndsPlainly s) (ht : EndsPlainly t) : EndsPlainly (s ++ t) := by
  by_cases hne : t = []
  · rwa [hne, List.append_nil]
  · exact ht.after hne s

theorem EndsPlainly.of_append (h : EndsPlainly (s ++ t)) : EndsPlainly t := by
  intro c hc
  refine h c ?_
  rw [List.getLast?_append, hc]
  rfl

/-! ## Trimming -/

/-- Blanks before and after a text are dropped with those that it has at its ends. -/
theorem trim_around {before after : List Char} (hbefore : ∀ c ∈ before, isBlank c = true)
    (hafter : ∀ c ∈ after, isBlank c = true) (s : List Char) :
    trim (before ++ s ++ after) = trim s := by
  have hstart : trimStart (before ++ s ++ after) = trimStart (s ++ after) := by
    rw [trimStart, List.append_assoc, List.dropWhile_append_of_pos hbefore]
    rfl
  have hend : ∀ u, trimEnd (u ++ after) = trimEnd u := by
    intro u
    have hreverse : ∀ c ∈ after.reverse, isBlank c = true := fun c hc =>
      hafter c (List.mem_reverse.1 hc)
    rw [trimEnd, List.reverse_append, List.dropWhile_append_of_pos hreverse]
    rfl
  rw [trim, hstart, trim, trimStart, List.dropWhile_append]
  split
  · rename_i hblank
    have hnone : trimStart s = [] := List.isEmpty_iff.1 hblank
    have hall : after.dropWhile isBlank = [] := by
      rw [← List.append_nil after, List.dropWhile_append_of_pos hafter]
      rfl
    rw [hnone, hall]
  · exact hend _

end FilterQuery.Text
