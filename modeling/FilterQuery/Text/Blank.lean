/-!
# Blank characters

The characters that count as white space around and between the words of a text, and trimming.
The class is the Unicode property `White_Space`: single characters and the two runs `U+0009` to
`U+000D` and `U+2000` to `U+200A`. Every character that core calls white space is blank
(`isBlank_of_isWhitespace`), and a text that is trimmed has no blank at either end, so trimming it
again changes nothing (`trim_trim`).
-/

namespace FilterQuery.Text

/-- Whether a character has the Unicode property `White_Space`. -/
def isBlank (c : Char) : Bool :=
  let n := c.toNat
  (9 ≤ n && n ≤ 13) || n == 0x20 || n == 0x85 || n == 0xA0 || n == 0x1680 ||
    (0x2000 ≤ n && n ≤ 0x200A) || n == 0x2028 || n == 0x2029 || n == 0x202F ||
    n == 0x205F || n == 0x3000

/-- A text without its leading blanks. -/
def trimStart (s : List Char) : List Char :=
  s.dropWhile isBlank

/-- A text without its trailing blanks. -/
def trimEnd (s : List Char) : List Char :=
  (s.reverse.dropWhile isBlank).reverse

/-- A text without the blanks at either end. -/
def trim (s : List Char) : List Char :=
  trimEnd (trimStart s)

theorem isBlank_of_isWhitespace {c : Char} (h : c.isWhitespace = true) : isBlank c = true := by
  simp only [Char.isWhitespace, Bool.or_eq_true, decide_eq_true_eq] at h
  rcases h with ((rfl | rfl) | rfl) | rfl <;> rfl

theorem head_dropWhile_isBlank {s : List Char} {c : Char}
    (h : (s.dropWhile isBlank).head? = some c) : isBlank c = false := by
  induction s with
  | nil => simp at h
  | cons d ds ih =>
    by_cases hd : isBlank d = true
    · simp only [List.dropWhile_cons, hd, if_true] at h
      exact ih h
    · simp_all

theorem trimStart_eq_self {s : List Char} (h : ∀ c, s.head? = some c → isBlank c = false) :
    trimStart s = s := by
  cases s with
  | nil => rfl
  | cons c cs => simp [trimStart, h c rfl]

theorem trimEnd_eq_self {s : List Char} (h : ∀ c, s.getLast? = some c → isBlank c = false) :
    trimEnd s = s := by
  have e := trimStart_eq_self (s := s.reverse) fun c hc => h c (by rwa [List.head?_reverse] at hc)
  unfold trimStart at e
  simp [trimEnd, e]

theorem trim_eq_self {s : List Char} (first : ∀ c, s.head? = some c → isBlank c = false)
    (last : ∀ c, s.getLast? = some c → isBlank c = false) : trim s = s := by
  rw [trim, trimStart_eq_self first, trimEnd_eq_self last]

/-- A trimmed text does not end in a blank. -/
theorem getLast_trim {s : List Char} {c : Char} (h : (trim s).getLast? = some c) :
    isBlank c = false := by
  rw [trim, trimEnd, List.getLast?_reverse] at h
  exact head_dropWhile_isBlank h

/-- A trimmed text does not begin with a blank. -/
theorem head_trim {s : List Char} {c : Char} (h : (trim s).head? = some c) :
    isBlank c = false := by
  refine head_dropWhile_isBlank (s := s) ?_
  have hp : trim s <+: trimStart s := by
    have := (List.dropWhile_suffix isBlank (l := (trimStart s).reverse)).reverse
    rwa [List.reverse_reverse] at this
  obtain ⟨rest, e⟩ := hp
  rw [← trimStart, ← e]
  cases ht : trim s with
  | nil => simp [ht] at h
  | cons d ds => simpa [ht] using h

theorem trim_trim (s : List Char) : trim (trim s) = trim s :=
  trim_eq_self (fun _ => head_trim) (fun _ => getLast_trim)

/-- The remainder of a text after a literal head, when it begins with that head. -/
def afterHead : List Char → List Char → Option (List Char)
  | [], s => some s
  | _ :: _, [] => none
  | h :: hs, c :: cs => if h = c then afterHead hs cs else none

/-- The pieces of a text between the occurrences of a separator; there is always at least one. -/
def splitAt (sep : Char) : List Char → List (List Char)
  | [] => [[]]
  | c :: cs =>
    if c = sep then [] :: splitAt sep cs
    else match splitAt sep cs with
      | [] => [[c]]
      | p :: ps => (c :: p) :: ps

/-- ASCII upper-case letters become lower-case; every other character stays. -/
def lowerAscii (s : List Char) : List Char :=
  s.map Char.toLower

theorem afterHead_append (h s : List Char) : afterHead h (h ++ s) = some s := by
  induction h with
  | nil => rfl
  | cons c cs ih => simp [afterHead, ih]

theorem eq_append_of_afterHead {h s r : List Char} (e : afterHead h s = some r) : s = h ++ r := by
  induction h generalizing s with
  | nil => simpa [afterHead] using e
  | cons c cs ih =>
    cases s with
    | nil => simp [afterHead] at e
    | cons d ds =>
      by_cases hc : c = d
      · subst hc
        simp [afterHead] at e
        simp [ih e]
      · simp [afterHead, hc] at e

end FilterQuery.Text
