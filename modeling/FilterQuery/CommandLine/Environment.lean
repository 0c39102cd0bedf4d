import FilterQuery.Text.Alphanumeric
import FilterQuery.Text.Blank

/-!
# Environment variables

The variables that a program finds when it starts, and files that define more of them. A line of
such a file holds a name, an equals sign and a value; a value may be quoted, and what is quoted may
go on over the next lines. A variable that has a value keeps it, so what a file says of it
afterwards has no effect (`get?_add`). Reading stops at the first line that is not well formed; the
lines before it count.

A value may refer to variables. A variable is kept as one text, `NAME=VALUE`, and a reference stands
for what follows it and an equals sign in the text that begins so: for the value, if the reference
is the name of a variable (`resolve?_eq_get?`).
-/

namespace FilterQuery

/-- Variables with their values. -/
structure Environment where
  /-- The names and values in the order in which the names got their values, each once. -/
  bindings : List (String × String)
deriving DecidableEq, Repr

namespace Environment

/-- The value of a variable. -/
def get? (e : Environment) (name : String) : Option String :=
  e.bindings.lookup name

/-- Gives a variable a value unless it has one. -/
def add (e : Environment) (name value : String) : Environment :=
  if (e.get? name).isSome then e else ⟨e.bindings ++ [(name, value)]⟩

theorem get?_add (e : Environment) (name value other : String) :
    (e.add name value).get? other =
      (e.get? other).or (if other = name then some value else none) := by
  unfold add
  split
  · rename_i h
    by_cases ho : other = name
    · subst ho
      cases hv : e.get? other <;> simp_all
    · simp [ho]
  · simp only [get?, List.lookup_append, List.lookup_cons, List.lookup_nil]
    by_cases ho : other = name
    · simp [ho]
    · simp [ho, beq_eq_false_iff_ne.mpr ho]

/-- The text that a variable is kept as. -/
def entry (name value : String) : List Char :=
  name.toList ++ '=' :: value.toList

/-- What a reference stands for: what follows it and an equals sign in the first variable whose text
begins with them. -/
def resolve? (e : Environment) (reference : List Char) : Option (List Char) :=
  e.bindings.findSome? fun (name, value) =>
    Text.afterHead (reference ++ ['=']) (entry name value)

theorem afterHead_entry {name value : String} {reference : List Char} (hn : '=' ∉ name.toList)
    (hr : '=' ∉ reference) :
    Text.afterHead (reference ++ ['=']) (entry name value) =
      if reference = name.toList then some value.toList else none := by
  simp only [entry]
  generalize name.toList = n at *
  induction n generalizing reference with
  | nil =>
    cases reference with
    | nil => simp [Text.afterHead]
    | cons c cs =>
      have hc : c ≠ '=' := fun h => hr (h ▸ List.mem_cons_self)
      simp [Text.afterHead, hc]
  | cons d ds ih =>
    have hd : '=' ≠ d := fun h => hn (h ▸ List.mem_cons_self)
    cases reference with
    | nil => simp [Text.afterHead, hd]
    | cons c cs =>
      by_cases hc : c = d
      · subst hc
        simpa [Text.afterHead] using
          ih (fun h => hr (List.mem_cons_of_mem _ h)) (fun h => hn (List.mem_cons_of_mem _ h))
      · simp [Text.afterHead, hc]

/-- A reference that is a name stands for the value of that variable. -/
theorem resolve?_eq_get? {e : Environment} (he : ∀ b ∈ e.bindings, '=' ∉ b.1.toList) {name : String}
    (hn : '=' ∉ name.toList) : e.resolve? name.toList = (e.get? name).map String.toList := by
  obtain ⟨bindings⟩ := e
  simp only [resolve?, get?] at *
  induction bindings with
  | nil => rfl
  | cons b rest ih =>
    obtain ⟨other, value⟩ := b
    have hb := he _ List.mem_cons_self
    have hrest := ih fun b hb => he b (List.mem_cons_of_mem _ hb)
    by_cases h : name = other
    · subst h
      simp [afterHead_entry hb hn]
    · have ht : name.toList ≠ other.toList := fun e => h (String.toList_inj.mp e)
      simp [afterHead_entry hb hn, ht, List.lookup_cons, beq_eq_false_iff_ne.mpr h, hrest]

/-! ## Lines of a file -/

/-- Where a reader of lines stands. -/
inductive LineState where
  /-- Only blanks have been read of the line. -/
  | start
  /-- In a comment. -/
  | comment
  /-- Outside of quotes. -/
  | plain
  /-- Outside of quotes, after a blank. -/
  | blank
  /-- Outside of quotes, after a backslash. -/
  | escaped
  /-- In single quotes. -/
  | single
  /-- In single quotes, after a backslash. -/
  | singleEscaped
  /-- In double quotes. -/
  | double
  /-- In double quotes, after a backslash. -/
  | doubleEscaped
deriving DecidableEq, Repr

namespace LineState

/-- The state after a character outside of quotes that is no blank. -/
def mark (c : Char) : LineState :=
  if c = '\\' then .escaped
  else if c = '"' then .double
  else if c = '\'' then .single
  else .plain

/-- The state after a character that does not end the line. -/
def next : LineState → Char → LineState
  | .start, c => if Text.isBlank c then .start else if c = '#' then .comment else mark c
  | .comment, _ => .comment
  | .plain, c => if Text.isBlank c && c != '\r' then .blank else mark c
  | .blank, c => if c = '#' then .comment else mark c
  | .escaped, _ => .plain
  | .single, c =>
    if c = '\\' then .singleEscaped else if c = '\'' then .plain else .single
  | .singleEscaped, _ => .single
  | .double, c =>
    if c = '\\' then .doubleEscaped else if c = '"' then .plain else .double
  | .doubleEscaped, _ => .double

/-- Whether a line feed is part of the line: it is where quotes are open. -/
def isOpen : LineState → Bool
  | .single | .singleEscaped | .double | .doubleEscaped => true
  | _ => false

/-- Whether a line is complete where the file ends without a line feed. -/
def isComplete : LineState → Bool
  | .comment | .plain => true
  | _ => false

end LineState

/-- The lines of a text without their comments; `line` holds what has been read of the first one,
backwards. An incomplete last line is left out. -/
def lines (state : LineState) (line : List Char) : List Char → List (List Char)
  | [] => if state.isComplete then [line.reverse] else []
  | c :: cs =>
    if c = '\n' && !state.isOpen then line.reverse :: lines .start [] cs
    else
      let after := state.next c
      lines after (if after = .comment then line else c :: line) cs

/-! ## Assignments -/

/-- Whether an assigned name may begin with a character: an ASCII letter or an underscore. -/
def isNameStart (c : Char) : Bool :=
  c.isAlpha || c == '_'

/-- Whether an assigned name may hold a character after the first one: an ASCII letter or digit, an
underscore or a point. -/
def isNamePart (c : Char) : Bool :=
  c.isAlphanum || c == '_' || c == '.'

/-- A leading name, and what follows it after blanks. -/
def leadingName? : List Char → Option (List Char × List Char)
  | [] => none
  | c :: cs =>
    if isNameStart c then
      some (c :: cs.takeWhile isNamePart, Text.trimStart (cs.dropWhile isNamePart))
    else none

/-- What follows an equals sign and blanks. -/
def afterEquals? : List Char → Option (List Char)
  | '=' :: cs => some (Text.trimStart cs)
  | _ => none

/-- The word that may stand before an assignment. -/
def exportWord : List Char :=
  ['e', 'x', 'p', 'o', 'r', 't']

/-- The name that a line assigns to, and the text of the value. -/
def assignment? (line : List Char) : Option (List Char × List Char) := do
  let (name, rest) ← leadingName? line
  match afterEquals? rest with
  | some value => some (name, value)
  | none =>
    if name = exportWord then do
      let (name, rest) ← leadingName? rest
      let value ← afterEquals? rest
      some (name, value)
    else none

/-! ## Values -/

/-- Where a reader of a value stands. Double quotes are open where `quoted` is true. -/
inductive ValueState where
  /-- In the text itself. -/
  | text (quoted : Bool)
  /-- After a backslash. -/
  | escaped (quoted : Bool)
  /-- In single quotes. -/
  | single
  /-- In a reference after a dollar sign; the reference is held backwards. -/
  | reference (quoted : Bool) (read : List Char)
  /-- In a reference in braces; the reference is held backwards. -/
  | braced (quoted : Bool) (read : List Char)
  /-- After the value. -/
  | ended
deriving DecidableEq, Repr

/-- What a character after a backslash stands for. -/
def escapedChar? (c : Char) : Option Char :=
  if c = 'n' then some '\n'
  else if ['\\', '\'', '"', '$', ' '].contains c then some c
  else none

/-- What a reference that is held backwards stands for; empty when it stands for nothing. -/
def valueOf (e : Environment) (reference : List Char) : List Char :=
  (e.resolve? reference.reverse).getD []

/-- Reads a value: escapes are resolved, a reference after a dollar sign is replaced by what it
stands for, and only a comment may follow a blank outside of quotes. -/
def value? (e : Environment) : ValueState → List Char → Option (List Char)
  | .text quoted, [] => if quoted then none else some []
  | .escaped quoted, [] => if quoted then none else some []
  | .single, [] => none
  | .reference quoted read, [] => if quoted then none else some (valueOf e read)
  | .braced _ _, [] => none
  | .ended, [] => some []
  | .text quoted, c :: cs =>
    if c = '$' then value? e (.reference quoted []) cs
    else if c = '\\' then value? e (.escaped quoted) cs
    else if c = '"' then value? e (.text !quoted) cs
    else if quoted then (value? e (.text quoted) cs).map (c :: ·)
    else if c = '\'' then value? e .single cs
    else if c = ' ' || c = '\t' then value? e .ended cs
    else (value? e (.text quoted) cs).map (c :: ·)
  | .escaped quoted, c :: cs => do
    let c ← escapedChar? c
    let rest ← value? e (.text quoted) cs
    some (c :: rest)
  | .single, c :: cs =>
    if c = '\'' then value? e (.text false) cs else (value? e .single cs).map (c :: ·)
  | .reference quoted read, c :: cs =>
    if Text.isAlphanumeric c then value? e (.reference quoted (c :: read)) cs
    else if c = '\x7b' && read.isEmpty then value? e (.braced quoted []) cs
    else if c = '$' then (value? e (.reference quoted []) cs).map (valueOf e read ++ ·)
    else (value? e (.text quoted) cs).map (valueOf e read ++ c :: ·)
  | .braced quoted read, c :: cs =>
    if c = '\x7d' then (value? e (.text quoted) cs).map (valueOf e read ++ ·)
    else value? e (.braced quoted (c :: read)) cs
  | .ended, c :: cs =>
    if c = ' ' || c = '\t' then value? e .ended cs
    else if c = '#' then some []
    else none

/-! ## Files -/

/-- Adds the assignments of lines up to the first one that is not well formed. -/
def addLines (e : Environment) : List (List Char) → Environment
  | [] => e
  | line :: rest =>
    match Text.trim line with
    | [] => addLines e rest
    | '#' :: _ => addLines e rest
    | trimmed =>
      match assignment? trimmed with
      | none => e
      | some (name, '#' :: _) => addLines (e.add (String.ofList name) "") rest
      | some (name, text) =>
        match value? e (.text false) text with
        | none => e
        | some value => addLines (e.add (String.ofList name) (String.ofList value)) rest

/-- A text without the mark that may stand at its beginning to tell the encoding. -/
def withoutMark : List Char → List Char
  | '\ufeff' :: cs => cs
  | cs => cs

/-- Adds the variables that a file defines. -/
def addFile (e : Environment) (content : String) : Environment :=
  e.addLines (lines .start [] (withoutMark content.toList))

end Environment

end FilterQuery
