import FilterQuery.Json.Basic

/-!
# Number literals

The numbers of a JSON document. A literal without fraction and exponent that fits 64 bits is an
integer; every other literal is a double. The digits of a literal are gathered in a 64-bit
significand: where it is full, further digits of the whole part only count, and further digits of
the fraction are dropped.
-/

namespace FilterQuery.Json

/-- The value of a decimal digit. -/
def digit? (c : Char) : Option Nat :=
  if '0' ≤ c && c ≤ '9' then some (c.toNat - '0'.toNat) else none

/-- What a run of digits adds to a significand. -/
structure DigitRun where
  /-- The significand, with the digits that fit. -/
  significand : Nat
  /-- How many digits went into the significand. -/
  taken : Nat
  /-- How many digits came after the significand was full. -/
  dropped : Nat
  /-- The text after the run. -/
  rest : List Char

/-- The number of values of a significand. -/
def significandLimit : Nat := Nat.pow 2 64

/-- Reads a run of digits onto a significand, which takes digits until one does not fit. -/
def digitRun (significand taken dropped : Nat) : List Char → DigitRun
  | [] => ⟨significand, taken, dropped, []⟩
  | c :: cs =>
    match digit? c with
    | none => ⟨significand, taken, dropped, c :: cs⟩
    | some d =>
      if dropped = 0 && significand * 10 + d < significandLimit then
        digitRun (significand * 10 + d) (taken + 1) dropped cs
      else digitRun significand taken (dropped + 1) cs

/-- Reads digits as a natural number of any size: the number, how many digits, and the rest. -/
def wholeNumber (value count : Nat) : List Char → Nat × Nat × List Char
  | [] => (value, count, [])
  | c :: cs =>
    match digit? c with
    | none => (value, count, c :: cs)
    | some d => wholeNumber (value * 10 + d) (count + 1) cs

/-- The integer of a literal, or a double where it is `-0` or does not fit 64 bits. -/
def integerOf (negative : Bool) (significand : Nat) : Json :=
  if !negative then .integer significand
  else if significand = 0 then .float (.ofMagnitude true 0)
  else if Nat.pow 2 63 < significand then .float (.ofInt (-significand))
  else .integer (-significand)

/-- Finishes a literal at its optional exponent. -/
def exponentPart (negative : Bool) (significand : Nat) (scale : Int) :
    List Char → Option (Json × List Char)
  | [] => (Binary64.ofDecimal negative significand scale).map fun x => (.float x, [])
  | c :: cs =>
    if c = 'e' || c = 'E' then
      let (down, digits) := match cs with
        | '+' :: ds => (false, ds)
        | '-' :: ds => (true, ds)
        | ds => (false, ds)
      let (power, count, rest) := wholeNumber 0 0 digits
      if count = 0 then none
      else
        let exponent := if down then scale - power else scale + power
        (Binary64.ofDecimal negative significand exponent).map fun x => (.float x, rest)
    else (Binary64.ofDecimal negative significand scale).map fun x => (.float x, c :: cs)

/-- Finishes a literal after the digits of its whole part. -/
def afterWhole (negative : Bool) (run : DigitRun) : Option (Json × List Char) :=
  match run.rest with
  | '.' :: cs =>
    let fraction := digitRun run.significand 0 0 cs
    if fraction.taken = 0 && fraction.dropped = 0 then none
    else exponentPart negative fraction.significand (run.dropped - fraction.taken) fraction.rest
  | c :: cs =>
    if c = 'e' || c = 'E' || run.dropped ≠ 0 then
      exponentPart negative run.significand run.dropped (c :: cs)
    else some (integerOf negative run.significand, c :: cs)
  | [] =>
    if run.dropped ≠ 0 then exponentPart negative run.significand run.dropped []
    else some (integerOf negative run.significand, [])

/-- Reads an unsigned literal: a lone zero or digits that do not begin with one, then an optional
fraction and an optional exponent. -/
def unsignedNumber (negative : Bool) : List Char → Option (Json × List Char)
  | [] => none
  | c :: cs =>
    match digit? c with
    | none => none
    | some 0 =>
      match cs.head?.bind digit? with
      | some _ => none
      | none => afterWhole negative ⟨0, 1, 0, cs⟩
    | some _ => afterWhole negative (digitRun 0 0 0 (c :: cs))

/-- Reads a number literal. -/
def number : List Char → Option (Json × List Char)
  | '-' :: cs => unsignedNumber true cs
  | cs => unsignedNumber false cs

end FilterQuery.Json
