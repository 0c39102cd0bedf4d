import FilterQuery.Json.Number

/-!
# Reading JSON documents

A strict reader: no byte order mark, comments, trailing commas or control characters inside
strings, escaped surrogates only in pairs, at most 127 arrays and objects inside one another,
and nothing but blanks after the value. A repeated member keeps the place of its first
occurrence and the value of its last.

`members` reads one object a member at a time and leaves each value as text; `skipValue` passes
over a value whose content nobody asks for, which is why it checks less than the reader does:
numbers of any size, unpaired surrogates and any depth go by.
-/

namespace FilterQuery.Json

/-- How many arrays and objects may stand inside one another. -/
def maxNesting : Nat := 127

/-- Whether a character is white space between the tokens of a document. -/
def isSpace (c : Char) : Bool :=
  c == ' ' || c == '\t' || c == '\n' || c == '\r'

/-- The text after leading white space. -/
def skipSpace (s : List Char) : List Char :=
  s.dropWhile isSpace

/-! ## Strings -/

/-- The value of a hexadecimal digit of either case. -/
def hexDigit? (c : Char) : Option Nat :=
  if '0' ≤ c && c ≤ '9' then some (c.toNat - '0'.toNat)
  else if 'a' ≤ c && c ≤ 'f' then some (c.toNat - 'a'.toNat + 10)
  else if 'A' ≤ c && c ≤ 'F' then some (c.toNat - 'A'.toNat + 10)
  else none

/-- Reads the four digits of a `\u` escape. -/
def hexUnit : List Char → Option (Nat × List Char)
  | a :: b :: c :: d :: rest => do
    let a ← hexDigit? a
    let b ← hexDigit? b
    let c ← hexDigit? c
    let d ← hexDigit? d
    some (((a * 16 + b) * 16 + c) * 16 + d, rest)
  | _ => none

/-- The character that a one-letter escape stands for. -/
def simpleEscape : Char → Option Char
  | '"' => some '"'
  | '\\' => some '\\'
  | '/' => some '/'
  | 'b' => some '\x08'
  | 'f' => some '\x0c'
  | 'n' => some '\n'
  | 'r' => some '\r'
  | 't' => some '\t'
  | _ => none

/-- Reads what follows `\u`: one unit, or a leading surrogate and the escape of a trailing one. -/
def unicodeEscape (s : List Char) : Option (Char × List Char) := do
  let (unit, rest) ← hexUnit s
  if 0xDC00 ≤ unit && unit ≤ 0xDFFF then none
  else if unit < 0xD800 || 0xDBFF < unit then some (Char.ofNat unit, rest)
  else match rest with
    | '\\' :: 'u' :: more =>
      let (low, rest) ← hexUnit more
      if 0xDC00 ≤ low && low ≤ 0xDFFF then
        some (Char.ofNat (0x10000 + (unit - 0xD800) * 0x400 + (low - 0xDC00)), rest)
      else none
    | _ => none

/-- Reads the characters of a string up to its closing quote; `done` holds those before, the last
one first. -/
def stringBody : Nat → List Char → List Char → Option (String × List Char)
  | 0, _, _ => none
  | _, _, [] => none
  | _ + 1, done, '"' :: cs => some (String.ofList done.reverse, cs)
  | fuel + 1, done, '\\' :: 'u' :: cs =>
    match unicodeEscape cs with
    | some (c, rest) => stringBody fuel (c :: done) rest
    | none => none
  | fuel + 1, done, '\\' :: c :: cs =>
    match simpleEscape c with
    | some e => stringBody fuel (e :: done) cs
    | none => none
  | fuel + 1, done, c :: cs =>
    if c == '\\' || c.toNat < 0x20 then none else stringBody fuel (c :: done) cs

/-- Reads a string after its opening quote. -/
def string (s : List Char) : Option (String × List Char) :=
  stringBody (s.length + 1) [] s

/-! ## Values -/

/-- The text after a word. -/
def word (value : Json) : List Char → List Char → Option (Json × List Char)
  | [], s => some (value, s)
  | _ :: _, [] => none
  | w :: ws, c :: cs => if w = c then word value ws cs else none

mutual

/-- Reads a value inside which `depth` more arrays and objects may nest. -/
def value : Nat → Nat → List Char → Option (Json × List Char)
  | 0, _, _ => none
  | fuel + 1, depth, s =>
    match s with
    | 'n' :: cs => word .null ['u', 'l', 'l'] cs
    | 't' :: cs => word (.bool true) ['r', 'u', 'e'] cs
    | 'f' :: cs => word (.bool false) ['a', 'l', 's', 'e'] cs
    | '"' :: cs => (string cs).map fun (t, rest) => (.text t, rest)
    | '[' :: cs =>
      match depth with
      | 0 => none
      | depth + 1 =>
        match skipSpace cs with
        | ']' :: rest => some (.array [], rest)
        | rest => items fuel depth [] rest
    | '\x7b' :: cs =>
      match depth with
      | 0 => none
      | depth + 1 =>
        match skipSpace cs with
        | '\x7d' :: rest => some (.object [], rest)
        | rest => fields fuel depth [] rest
    | s => number s

/-- Reads the items of an array from the next one on; `done` holds those before, the last one
first. -/
def items : Nat → Nat → List Json → List Char → Option (Json × List Char)
  | 0, _, _, _ => none
  | fuel + 1, depth, done, s =>
    match value fuel depth (skipSpace s) with
    | none => none
    | some (item, rest) =>
      match skipSpace rest with
      | ',' :: rest => items fuel depth (item :: done) rest
      | ']' :: rest => some (.array (item :: done).reverse, rest)
      | _ => none

/-- Reads the members of an object from the next one on; `done` holds those before, the last one
first. -/
def fields : Nat → Nat → List (String × Json) → List Char → Option (Json × List Char)
  | 0, _, _, _ => none
  | fuel + 1, depth, done, s =>
    match skipSpace s with
    | '"' :: cs =>
      match string cs with
      | none => none
      | some (name, rest) =>
        match skipSpace rest with
        | ':' :: rest =>
          match value fuel depth (skipSpace rest) with
          | none => none
          | some (member, rest) =>
            match skipSpace rest with
            | ',' :: rest => fields fuel depth ((name, member) :: done) rest
            | '\x7d' :: rest =>
              some (.object (mergeMembers ((name, member) :: done).reverse), rest)
            | _ => none
        | _ => none
    | _ => none

end

/-- Enough recursion for any value of a text: a step either consumes a character or goes from a
list to one of its values. -/
def enoughSteps (s : List Char) : Nat :=
  2 * s.length + 2

/-- Reads a text that holds one value, as part of a document in which it stands inside a number of
arrays and objects. -/
def parseInside (outer : Nat) (s : List Char) : Option Json :=
  match value (enoughSteps s) (maxNesting - outer) (skipSpace s) with
  | some (json, rest) => if (skipSpace rest).isEmpty then some json else none
  | none => none

/-- Reads a document that holds one value. -/
def parseChars (s : List Char) : Option Json :=
  parseInside 0 s

/-- Reads a document that holds one value. -/
def parse (s : String) : Option Json :=
  parseChars s.toList

/-! ## Passing over values -/

/-- The text after a string's closing quote, its escapes checked for their form alone. -/
def skipString : Nat → List Char → Option (List Char)
  | 0, _ => none
  | _, [] => none
  | _ + 1, '"' :: cs => some cs
  | fuel + 1, '\\' :: 'u' :: cs =>
    match hexUnit cs with
    | some (_, rest) => skipString fuel rest
    | none => none
  | fuel + 1, '\\' :: c :: cs =>
    match simpleEscape c with
    | some _ => skipString fuel cs
    | none => none
  | fuel + 1, c :: cs =>
    if c == '\\' || c.toNat < 0x20 then none else skipString fuel cs

/-- The text after a run of digits, which must not be empty. -/
def skipDigits (s : List Char) : Option (List Char) :=
  match s.head?.bind digit? with
  | none => none
  | some _ => some (s.dropWhile fun c => (digit? c).isSome)

/-- The text after an optional exponent. -/
def skipExponent : List Char → Option (List Char)
  | [] => some []
  | c :: cs =>
    if c = 'e' || c = 'E' then
      match cs with
      | '+' :: ds => skipDigits ds
      | '-' :: ds => skipDigits ds
      | ds => skipDigits ds
    else some (c :: cs)

/-- The text after an unsigned number literal of any size. -/
def skipUnsigned (s : List Char) : Option (List Char) :=
  match s with
  | '0' :: cs =>
    match cs.head?.bind digit? with
    | some _ => none
    | none => skipFraction cs
  | cs => (skipDigits cs).bind skipFraction
where
  /-- The text after an optional fraction and an optional exponent. -/
  skipFraction : List Char → Option (List Char)
    | '.' :: cs => (skipDigits cs).bind skipExponent
    | cs => skipExponent cs

mutual

/-- The text after a value whose content is not looked at. -/
def skipValue : Nat → List Char → Option (List Char)
  | 0, _ => none
  | fuel + 1, s =>
    match s with
    | 'n' :: cs => (word .null ['u', 'l', 'l'] cs).map Prod.snd
    | 't' :: cs => (word .null ['r', 'u', 'e'] cs).map Prod.snd
    | 'f' :: cs => (word .null ['a', 'l', 's', 'e'] cs).map Prod.snd
    | '"' :: cs => skipString (cs.length + 1) cs
    | '[' :: cs =>
      match skipSpace cs with
      | ']' :: rest => some rest
      | rest => skipItems fuel rest
    | '\x7b' :: cs =>
      match skipSpace cs with
      | '\x7d' :: rest => some rest
      | rest => skipFields fuel rest
    | '-' :: cs => skipUnsigned cs
    | cs => skipUnsigned cs

/-- The text after the remaining items of an array. -/
def skipItems : Nat → List Char → Option (List Char)
  | 0, _ => none
  | fuel + 1, s =>
    match skipValue fuel (skipSpace s) with
    | none => none
    | some rest =>
      match skipSpace rest with
      | ',' :: rest => skipItems fuel rest
      | ']' :: rest => some rest
      | _ => none

/-- The text after the remaining members of an object. -/
def skipFields : Nat → List Char → Option (List Char)
  | 0, _ => none
  | fuel + 1, s =>
    match skipSpace s with
    | '"' :: cs =>
      match (skipString (cs.length + 1) cs).map skipSpace with
      | some (':' :: rest) =>
        match skipValue fuel (skipSpace rest) with
        | none => none
        | some rest =>
          match skipSpace rest with
          | ',' :: rest => skipFields fuel rest
          | '\x7d' :: rest => some rest
          | _ => none
      | _ => none
    | _ => none

end

/-! ## Objects and arrays as texts of their parts -/

/-- The values of an array as texts, from the next one on, and what follows the array. -/
def itemTexts : Nat → List Char → Option (List (List Char) × List Char)
  | 0, _ => none
  | fuel + 1, s =>
    let start := skipSpace s
    match skipValue (enoughSteps start) start with
    | none => none
    | some rest =>
      let text := start.take (start.length - rest.length)
      match skipSpace rest with
      | ',' :: rest => (itemTexts fuel rest).map fun (more, rest) => (text :: more, rest)
      | ']' :: rest => some ([text], rest)
      | _ => none

/-- The members of an object as names and value texts, from the next one on, and what follows
the object. -/
def memberTexts : Nat → List Char → Option (List (String × List Char) × List Char)
  | 0, _ => none
  | fuel + 1, s =>
    match skipSpace s with
    | '"' :: cs =>
      match string cs with
      | none => none
      | some (name, rest) =>
        match skipSpace rest with
        | ':' :: rest =>
          let start := skipSpace rest
          match skipValue (enoughSteps start) start with
          | none => none
          | some rest =>
            let text := start.take (start.length - rest.length)
            match skipSpace rest with
            | ',' :: rest =>
              (memberTexts fuel rest).map fun (more, rest) => ((name, text) :: more, rest)
            | '\x7d' :: rest => some ([(name, text)], rest)
            | _ => none
        | _ => none
    | _ => none

/-- The values of a document that is one array, each as its text. -/
def itemsOf (s : List Char) : Option (List (List Char)) :=
  match skipSpace s with
  | '[' :: cs =>
    match skipSpace cs with
    | ']' :: rest => if (skipSpace rest).isEmpty then some [] else none
    | rest =>
      match itemTexts rest.length rest with
      | some (texts, rest) => if (skipSpace rest).isEmpty then some texts else none
      | none => none
  | _ => none

/-- The members of a document that is one object, each value as its text. A repeated name occurs
once per occurrence. -/
def membersOf (s : List Char) : Option (List (String × List Char)) :=
  match skipSpace s with
  | '\x7b' :: cs =>
    match skipSpace cs with
    | '\x7d' :: rest => if (skipSpace rest).isEmpty then some [] else none
    | rest =>
      match memberTexts rest.length rest with
      | some (texts, rest) => if (skipSpace rest).isEmpty then some texts else none
      | none => none
  | _ => none

end FilterQuery.Json
