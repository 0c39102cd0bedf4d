import FilterQuery.Proofs.Blanks
import FilterQuery.Settings.Path

/-!
# Expanding paths

What becomes of a path that a user gives, for a home and a current directory that are absolute and
have no blanks around them: an absolute path without blanks around it, which is therefore its own
expansion (`Path.expand_settles`). Behind a leading tilde it is the home directory, or it begins
with this one component by component, as long as what follows the tilde and its separator does not
begin with a slash itself: then that takes the place of the home directory
(`Path.expand_leaves_home`).
-/

namespace FilterQuery

/-! ## Names between slashes -/

namespace Text

theorem splitAt_ne_nil (sep : Char) (s : List Char) : splitAt sep s ≠ [] := by
  cases s with
  | nil => simp [splitAt]
  | cons c cs =>
    rw [splitAt]
    split
    · simp
    · split <;> simp

/-- The pieces before a separator and those after it are the pieces of the whole. -/
theorem splitAt_append (sep : Char) (s t : List Char) :
    splitAt sep (s ++ sep :: t) = splitAt sep s ++ splitAt sep t := by
  induction s with
  | nil => simp [splitAt]
  | cons c cs ih =>
    by_cases hc : c = sep
    · simp [splitAt, hc, ih]
    · obtain ⟨piece, pieces, hpieces⟩ := List.exists_cons_of_ne_nil (splitAt_ne_nil sep cs)
      simp [splitAt, hc, ih, hpieces]

end Text

namespace Path

/-- The names between the slashes of an absolute path. Where two slashes meet, or a point stands
between them, no name is lost. -/
def components (path : List Char) : List (List Char) :=
  (Text.splitAt '/' path).filter fun name => name ≠ [] && name ≠ ['.']

/-- An absolute path begins with another one, component by component. -/
def BeginsWith (path base : List Char) : Prop :=
  isAbsolute path = true ∧ isAbsolute base = true ∧ components base <+: components path

/-- A directory that paths can be relative to: its path is absolute and has no blanks around it. -/
def IsPlace (directory : List Char) : Prop :=
  isAbsolute directory = true ∧ Text.trim directory = directory

variable {home current base path : List Char}

theorem isAbsolute_iff : isAbsolute path = true ↔ ∃ rest, path = '/' :: rest := by
  cases path with
  | nil => simp [isAbsolute]
  | cons c cs => simp [isAbsolute]

theorem components_append (s t : List Char) :
    components (s ++ '/' :: t) = components s ++ components t := by
  rw [components, Text.splitAt_append, List.filter_append]
  rfl

@[simp] theorem components_nil : components [] = [] := rfl

/-! ## Joining paths -/

theorem join_of_absolute (h : isAbsolute path = true) : join base path = path := by
  rw [join, if_pos h]

/-- A relative path below a directory has one slash between them. -/
theorem join_of_relative (hbase : isAbsolute base = true) (h : isAbsolute path = false) :
    ∃ stem, join base path = stem ++ '/' :: path ∧ (base = stem ∨ base = stem ++ ['/']) := by
  obtain ⟨rest, rfl⟩ := isAbsolute_iff.1 hbase
  rw [join, h]
  by_cases hslash : ('/' :: rest).getLast? = some '/'
  · obtain ⟨stem, hstem⟩ := List.getLast?_eq_some_iff.1 hslash
    refine ⟨stem, ?_, .inr hstem⟩
    simp [hstem]
  · refine ⟨'/' :: rest, ?_, .inl rfl⟩
    simp [hslash]

theorem isAbsolute_join (hbase : isAbsolute base = true) : isAbsolute (join base path) = true := by
  cases h : isAbsolute path with
  | true => rwa [join_of_absolute h]
  | false =>
    obtain ⟨rest, rfl⟩ := isAbsolute_iff.1 hbase
    obtain ⟨stem, hjoin, hstem⟩ := join_of_relative hbase h
    rw [hjoin]
    cases stem with
    | nil => simp [isAbsolute]
    | cons c cs => rcases hstem with hstem | hstem <;> simp_all [isAbsolute]

/-- A relative path below a directory has the names of both. -/
theorem components_join (hbase : isAbsolute base = true) (h : isAbsolute path = false) :
    components (join base path) = components base ++ components path := by
  obtain ⟨stem, hjoin, rfl | rfl⟩ := join_of_relative hbase h
  · rw [hjoin, components_append]
  · rw [hjoin, components_append, components_append, components_nil, List.append_nil]

theorem beginsWith_join (hbase : isAbsolute base = true) (h : isAbsolute path = false) :
    BeginsWith (join base path) base := by
  refine ⟨isAbsolute_join hbase, hbase, ?_⟩
  rw [components_join hbase h]
  exact List.prefix_append _ _

/-! ## Blanks at the end -/

theorem IsPlace.endsPlainly (h : IsPlace path) : Text.EndsPlainly path := by
  rw [← h.2]
  exact Text.endsPlainly_trim path

/-- An absolute path has no blank before it. -/
theorem isPlace_of_endsPlainly (h : isAbsolute path = true) (hend : Text.EndsPlainly path) :
    IsPlace path := by
  obtain ⟨rest, rfl⟩ := isAbsolute_iff.1 h
  refine ⟨h, Text.trim_eq_self ?_ hend⟩
  rintro c ⟨⟩
  rfl

theorem endsPlainly_join (hbase : Text.EndsPlainly base) (h : Text.EndsPlainly path) :
    Text.EndsPlainly (join base path) := by
  rw [join]
  split
  · exact h
  · split
    · exact hbase.append h
    · have hslash : Text.EndsPlainly ['/'] := by
        rintro c ⟨⟩
        rfl
      exact hbase.append (hslash.append h)

/-! ## Expansion -/

/-- The tilde and the separators behind it that stand for the home directory. -/
theorem expandHome_cases (home path : List Char) :
    (path = ['~'] ∧ expandHome home path = home) ∨
      (∃ sep rest, (sep = '/' ∨ sep = '\\') ∧ path = '~' :: sep :: rest ∧
        expandHome home path = join home rest) ∨
      expandHome home path = path := by
  unfold expandHome
  split
  · exact .inl ⟨rfl, rfl⟩
  · exact .inr (.inl ⟨'/', _, .inl rfl, rfl, rfl⟩)
  · exact .inr (.inl ⟨'\\', _, .inr rfl, rfl, rfl⟩)
  · exact .inr (.inr rfl)

theorem endsPlainly_expandHome (hhome : Text.EndsPlainly home) (h : Text.EndsPlainly path) :
    Text.EndsPlainly (expandHome home path) := by
  obtain ⟨-, hexpand⟩ | ⟨sep, rest, -, rfl, hexpand⟩ | hexpand := expandHome_cases home path
  · rwa [hexpand]
  · rw [hexpand]
    exact endsPlainly_join hhome (Text.EndsPlainly.of_append (s := ['~', sep]) h)
  · rwa [hexpand]

/-- What is expanded is the current directory, or the trimmed text with the home directory in it,
below the current directory unless it is absolute. -/
theorem expandChars_eq (home current path : List Char) :
    expandChars home current path =
      if Text.trim path = [] then current
      else join current (expandHome home (Text.trim path)) := by
  unfold expandChars
  split
  · rename_i hblank
    rw [if_pos hblank]
  · rename_i hne
    rw [if_neg hne]
    cases habsolute : isAbsolute (expandHome home (Text.trim path)) with
    | true => simp [habsolute, join_of_absolute habsolute]
    | false => simp [habsolute]

/-- An expanded path could be a place itself. -/
theorem isPlace_expandChars (hhome : IsPlace home) (hcurrent : IsPlace current)
    (path : List Char) : IsPlace (expandChars home current path) := by
  rw [expandChars_eq]
  split
  · exact hcurrent
  · exact isPlace_of_endsPlainly (isAbsolute_join hcurrent.1)
      (endsPlainly_join hcurrent.endsPlainly
        (endsPlainly_expandHome hhome.endsPlainly (Text.endsPlainly_trim path)))

/-- A place is its own expansion: it begins with a slash, not with a tilde. -/
theorem expandChars_of_isPlace (h : IsPlace path) : expandChars home current path = path := by
  obtain ⟨rest, rfl⟩ := isAbsolute_iff.1 h.1
  rw [expandChars_eq, h.2, if_neg (List.cons_ne_nil _ _)]
  exact join_of_absolute h.1

theorem expandChars_tilde (hhome : isAbsolute home = true) (h : Text.trim path = ['~']) :
    expandChars home current path = home := by
  rw [expandChars_eq, h, if_neg (List.cons_ne_nil _ _)]
  exact join_of_absolute hhome

theorem expandChars_below_tilde (hhome : isAbsolute home = true) {sep : Char}
    (hsep : sep = '/' ∨ sep = '\\') {rest : List Char} (h : Text.trim path = '~' :: sep :: rest) :
    expandChars home current path = join home rest := by
  have hexpand : expandHome home ('~' :: sep :: rest) = join home rest := by
    rcases hsep with rfl | rfl
    · rfl
    · rfl
  rw [expandChars_eq, h, if_neg (List.cons_ne_nil _ _), hexpand]
  exact join_of_absolute (isAbsolute_join hhome)

/-- Expansion settles. For a home and a current directory that are absolute and have no blanks
around them, every text expands to an absolute path, which expands to itself. A tilde alone expands
to the home directory. A tilde, a separator and a rest expand to a path that begins with the home
directory exactly if the rest does, in case this begins with a slash; it is then the rest. -/
theorem expand_settles (places : Places) (hhome : IsPlace places.home.toList)
    (hcurrent : IsPlace places.current.toList) (text : String) :
    isAbsolute (expand places text).toList = true ∧
      expand places (expand places text) = expand places text ∧
      (Text.trim text.toList = ['~'] → expand places text = places.home) ∧
      ∀ sep rest, sep = '/' ∨ sep = '\\' → Text.trim text.toList = '~' :: sep :: rest →
        (BeginsWith (expand places text).toList places.home.toList ↔
          (isAbsolute rest = true → BeginsWith rest places.home.toList)) ∧
        (isAbsolute rest = true → (expand places text).toList = rest) := by
  have hplace := isPlace_expandChars hhome hcurrent text.toList
  simp only [expand, String.toList_ofList]
  refine ⟨hplace.1, ?_, fun htilde => ?_, fun sep rest hsep htilde => ?_⟩
  · rw [expandChars_of_isPlace hplace]
  · rw [expandChars_tilde hhome.1 htilde, String.ofList_toList]
  · rw [expandChars_below_tilde hhome.1 hsep htilde]
    cases hrest : isAbsolute rest with
    | true =>
      rw [join_of_absolute hrest]
      exact ⟨by simp, fun _ => rfl⟩
    | false => exact ⟨by simp [beginsWith_join hhome.1 hrest], by simp⟩

/-- A path below the home directory with a blank inside it, and one with two slashes behind the
tilde, which is not below the home directory. -/
theorem expand_settles_ann :
    let places : Places := ⟨"/home/ann", "/srv"⟩
    IsPlace places.home.toList ∧ IsPlace places.current.toList ∧
      expand places (expand places " ~/my cards ") = expand places " ~/my cards " ∧
      BeginsWith (expand places " ~/my cards ").toList places.home.toList ∧
      (expand places "~//etc/hosts").toList = "/etc/hosts".toList := by
  intro places
  have hhome : IsPlace places.home.toList := ⟨by decide, by decide⟩
  have hcurrent : IsPlace places.current.toList := ⟨by decide, by decide⟩
  obtain ⟨-, hstable, -, hbelow⟩ := expand_settles places hhome hcurrent " ~/my cards "
  obtain ⟨-, -, -, hslash⟩ := expand_settles places hhome hcurrent "~//etc/hosts"
  refine ⟨hhome, hcurrent, hstable, ?_, ?_⟩
  · exact (hbelow '/' "my cards".toList (.inl rfl) (by decide)).1.2 (fun hslash => by cases hslash)
  · exact (hslash '/' "/etc/hosts".toList (.inl rfl) (by decide)).2 (by decide)

/-- Not every path behind a tilde is below the home directory. -/
theorem expand_leaves_home :
    ¬∀ (places : Places) (text : String), IsPlace places.home.toList →
      IsPlace places.current.toList → ∀ rest, Text.trim text.toList = '~' :: '/' :: rest →
        BeginsWith (expand places text).toList places.home.toList := by
  intro h
  have hbelow := h ⟨"/home/ann", "/srv"⟩ "~//etc/hosts" ⟨by decide, by decide⟩
    ⟨by decide, by decide⟩ "/etc/hosts".toList (by decide)
  exact absurd hbelow.2.2 (by decide)

end Path

end FilterQuery
