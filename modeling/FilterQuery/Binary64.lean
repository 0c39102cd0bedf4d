/-!
# Double-precision numbers

Binary floating-point numbers of 64 bits, carried as their bit patterns so that every operation
is exact arithmetic on natural numbers.

* `ofRatio` rounds a quotient of natural numbers to the nearest double, ties to an even
  significand; multiplication, division and conversion of integers are each one such rounding.
* `shortest` finds the fewest decimal digits that read back as a given double, and among those
  the nearest to it.
* `ofDecimal` reads a decimal literal: its significand is rounded once, then multiplied or
  divided by a rounded power of ten.
-/

namespace FilterQuery

/-- A double-precision number, as its 64 bits. -/
structure Binary64 where
  /-- Sign (bit 63), exponent field (bits 52 to 62) and fraction (bits 0 to 51). -/
  bits : UInt64
deriving DecidableEq

namespace Binary64

/-! ## Fields -/

/-- Whether the sign bit is set. -/
def isNegative (x : Binary64) : Bool :=
  Nat.pow 2 63 ≤ x.bits.toNat

/-- The number without its sign, as bits: these order the magnitudes. -/
def magnitude (x : Binary64) : Nat :=
  x.bits.toNat % Nat.pow 2 63

/-- The bits of positive infinity. -/
def infinityBits : Nat :=
  2047 * Nat.pow 2 52

/-- Whether the number is neither an infinity nor a NaN. -/
def isFinite (x : Binary64) : Bool :=
  x.magnitude < infinityBits

/-- Whether the number is a zero of either sign. -/
def isZero (x : Binary64) : Bool :=
  x.magnitude == 0

/-- The integral significand of a magnitude, with the hidden bit of a normal number. -/
def significandOf (magnitude : Nat) : Nat :=
  if magnitude < Nat.pow 2 52 then magnitude else magnitude % Nat.pow 2 52 + Nat.pow 2 52

/-- How far a magnitude's exponent lies above the least one, `2 ^ (-1074)`. -/
def shiftOf (magnitude : Nat) : Nat :=
  magnitude / Nat.pow 2 52 - 1

/-- The numerator of the value of a finite magnitude. -/
def numeratorOf (magnitude : Nat) : Nat :=
  significandOf magnitude * Nat.pow 2 (shiftOf magnitude - 1074)

/-- The denominator of the value of a finite magnitude, a power of two. -/
def denominatorOf (magnitude : Nat) : Nat :=
  Nat.pow 2 (1074 - shiftOf magnitude)

/-- The number with a given sign and magnitude bits. -/
def ofMagnitude (negative : Bool) (magnitude : Nat) : Binary64 :=
  ⟨UInt64.ofNat (magnitude + if negative then Nat.pow 2 63 else 0)⟩

/-! ## Rounding -/

/-- The quotient rounded to the nearest natural number, a tie to the even one. -/
def roundHalfEven (num den : Nat) : Nat :=
  let q := num / den
  let r := num % den
  if den < 2 * r || (2 * r == den && q % 2 == 1) then q + 1 else q

/-- Whether `num / den` is at least `2 ^ k`. -/
def reachesPower (num den : Nat) (k : Int) : Bool :=
  den * Nat.pow 2 k.toNat ≤ num * Nat.pow 2 (-k).toNat

/-- The magnitude bits of the double nearest to `num / den`, a tie going to the even significand;
the bits of infinity from half a unit above the largest double on. -/
def ofRatio (num den : Nat) : Nat :=
  if num = 0 then 0
  else
    let guess : Int := (num.log2 : Int) - den.log2
    let exponent := if reachesPower num den guess then guess else guess - 1
    let unit := max (exponent - 52) (-1074)
    let significand := roundHalfEven (num * Nat.pow 2 (-unit).toNat) (den * Nat.pow 2 unit.toNat)
    min ((unit + 1074).toNat * Nat.pow 2 52 + significand) infinityBits

/-- The double nearest to an integer. -/
def ofInt (n : Int) : Binary64 :=
  ofMagnitude (n < 0) (ofRatio n.natAbs 1)

/-- The product of two magnitudes, rounded. -/
def mulMagnitude (a b : Nat) : Nat :=
  ofRatio (numeratorOf a * numeratorOf b) (denominatorOf a * denominatorOf b)

/-- The quotient of two magnitudes, rounded; the divisor is not zero. -/
def divMagnitude (a b : Nat) : Nat :=
  ofRatio (numeratorOf a * denominatorOf b) (denominatorOf a * numeratorOf b)

/-! ## Reading decimals -/

/-- The largest power of ten that is applied in one step. -/
def maxPower : Nat := 308

/-- The magnitude bits of a power of ten. -/
def powerOfTen (k : Nat) : Nat :=
  ofRatio (Nat.pow 10 k) 1

/-- A magnitude divided by a power of ten, in steps of at most `10 ^ 308`; a zero stays zero. -/
def divPower (magnitude k : Nat) : Nat :=
  if k ≤ maxPower then divMagnitude magnitude (powerOfTen k)
  else if magnitude = 0 then 0
  else divPower (divMagnitude magnitude (powerOfTen maxPower)) (k - maxPower)
termination_by k
decreasing_by simp [maxPower] at *; omega

/-- The double that a decimal literal denotes: the significand, rounded to a double, times or
divided by a power of ten. There is none when the number leaves the finite range. -/
def ofDecimal (negative : Bool) (significand : Nat) (exponent : Int) : Option Binary64 :=
  let whole := ofRatio significand 1
  if exponent < 0 then
    some (ofMagnitude negative (divPower whole exponent.natAbs))
  else if exponent.toNat ≤ maxPower then
    let magnitude := mulMagnitude whole (powerOfTen exponent.toNat)
    if magnitude < infinityBits then some (ofMagnitude negative magnitude) else none
  else if significand = 0 then some (ofMagnitude negative 0)
  else none

/-! ## The shortest decimal -/

/-- A positive decimal number `digits · 10 ^ exponent`. -/
structure Decimal where
  /-- The digits, read as one natural number. -/
  digits : Nat
  /-- The power of ten that the last digit counts. -/
  exponent : Int

/-- How many decimal digits a natural number has; one for zero. -/
def digitCount (n : Nat) : Nat :=
  (Nat.toDigits 10 n).length

/-- The exponent of the leading decimal digit of `num / den`, for a positive quotient. -/
def leadingExponent (num den : Nat) : Int :=
  if den ≤ num then (digitCount (num / den) : Int) - 1
  else
    let k := digitCount (den / num) - 1
    if den ≤ num * Nat.pow 10 k then -(k : Int) else -(k : Int) - 1

/-- Four times the value of a magnitude is `center` in units of `1 / scale`; these are the
corresponding halfway points to the neighbouring doubles. -/
structure Interval where
  /-- The halfway point to the next smaller double. -/
  low : Nat
  /-- The value itself. -/
  center : Nat
  /-- The halfway point to the next larger double. -/
  high : Nat
  /-- The common denominator. -/
  scale : Nat
  /-- Whether the halfway points themselves round to the value. -/
  closed : Bool

/-- The reals that round to a positive finite magnitude. -/
def intervalOf (magnitude : Nat) : Interval :=
  let m := significandOf magnitude
  let up := Nat.pow 2 (shiftOf magnitude - 1074)
  let down := if m = Nat.pow 2 52 && Nat.pow 2 53 ≤ magnitude then 1 else 2
  ⟨(4 * m - down) * up, 4 * m * up, (4 * m + 2) * up, 4 * denominatorOf magnitude, m % 2 == 0⟩

/-- Whether `digits · 10 ^ exponent` rounds to the value of an interval. -/
def Interval.holds (i : Interval) (d : Decimal) : Bool :=
  let point := d.digits * Nat.pow 10 d.exponent.toNat * i.scale
  let low := i.low * Nat.pow 10 (-d.exponent).toNat
  let high := i.high * Nat.pow 10 (-d.exponent).toNat
  if i.closed then low ≤ point && point ≤ high else low < point && point < high

/-- Twice the distance of a decimal below the value, compared with one step of its grid: whether
the next larger decimal of the grid is the nearer one. -/
def Interval.nearerAbove (i : Interval) (d : Decimal) : Bool :=
  let step := Nat.pow 10 d.exponent.toNat * i.scale
  let center := i.center * Nat.pow 10 (-d.exponent).toNat
  step < 2 * (center - d.digits * step) ||
    (step == 2 * (center - d.digits * step) && d.digits % 2 == 1)

/-- The decimal of `n` digits that reads back as the value, the nearer one when there are two. -/
def Interval.onGrid (i : Interval) (lead : Int) (n : Nat) : Option Decimal :=
  let exponent := lead - (n - 1 : Nat)
  let below : Decimal :=
    ⟨i.center * Nat.pow 10 (-exponent).toNat / (Nat.pow 10 exponent.toNat * i.scale), exponent⟩
  let above : Decimal := ⟨below.digits + 1, exponent⟩
  match i.holds below, i.holds above with
  | true, true => some (if i.nearerAbove below then above else below)
  | true, false => some below
  | false, true => some above
  | false, false => none

/-- The first decimal that reads back, trying `n`, `n + 1`, … digits. -/
def Interval.search (i : Interval) (lead : Int) : Nat → Nat → Decimal
  | 0, _ => ⟨0, 0⟩
  | fuel + 1, n =>
    match i.onGrid lead n with
    | some d => d
    | none => i.search lead fuel (n + 1)

/-- The decimal of fewest digits that reads back as a positive finite magnitude. Seventeen digits
always suffice. -/
def shortest (magnitude : Nat) : Decimal :=
  (intervalOf magnitude).search
    (leadingExponent (numeratorOf magnitude) (denominatorOf magnitude)) 17 1

/-! ## Text -/

/-- Digits without their trailing zeros, at least one digit staying. -/
def dropTrailingZeros (digits : List Char) : List Char :=
  match (digits.reverse.dropWhile (· == '0')).reverse with
  | [] => ['0']
  | ds => ds

/-- The least and the greatest exponent of the leading digit that are written positionally. -/
def positionalRange : Int × Int := (-5, 15)

/-- A decimal whose leading digit counts `10 ^ lead`, written with a point: at least one digit
stands on each side of it. -/
def positional (digits : List Char) (lead : Int) : List Char :=
  if lead < 0 then
    ['0', '.'] ++ List.replicate ((-lead).toNat - 1) '0' ++ digits
  else
    let whole := lead.toNat + 1
    let padded := digits ++ List.replicate (whole - digits.length) '0'
    padded.take whole ++ ['.'] ++
      (if padded.length ≤ whole then ['0'] else padded.drop whole)

/-- A decimal whose leading digit counts `10 ^ lead`, written with an exponent, whose sign is
always written. -/
def scientific (digits : List Char) (lead : Int) : List Char :=
  digits.take 1 ++ (if digits.length ≤ 1 then [] else '.' :: digits.drop 1) ++
    ['e', if lead < 0 then '-' else '+'] ++ Nat.toDigits 10 lead.natAbs

/-- The text of a finite number: the fewest digits that read back, positionally for a leading
digit from `10 ^ (-5)` to `10 ^ 15` and with an exponent otherwise. -/
def text (x : Binary64) : String :=
  let sign := if x.isNegative then ['-'] else []
  if x.isZero then String.ofList (sign ++ ['0', '.', '0'])
  else
    let d := shortest x.magnitude
    let written := Nat.toDigits 10 d.digits
    let lead := d.exponent + written.length - 1
    let digits := dropTrailingZeros written
    let inRange := positionalRange.1 ≤ lead && lead ≤ positionalRange.2
    String.ofList (sign ++ if inRange then positional digits lead else scientific digits lead)

end Binary64

end FilterQuery
