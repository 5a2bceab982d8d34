/-
**Decimals and binary fractions.**

A number with 53 significant bits is a natural number times a power of two. A quotient is rounded
to the nearest such number, and such a number is written with the fewest decimal digits that are
rounded back to it.

* `Binary.nearest` — the nearest number to a quotient, the even one of two.
* `Binary.shortest` — the fewest digits that are rounded back, and of those the nearest.
* `Decimal.positional` — a decimal written without exponent.
-/

namespace RecipeLint

/-- A natural number times a power of ten. -/
structure Decimal where
  /-- The number. -/
  digits : Nat
  /-- The power of ten. -/
  exponent : Int
  deriving DecidableEq, Repr, Inhabited

/-- The decimal written without exponent, and without a point if it is whole. -/
def Decimal.positional (decimal : Decimal) : String :=
  let digits := (toString decimal.digits).toList
  if 0 ≤ decimal.exponent then
    String.ofList (digits ++ List.replicate decimal.exponent.toNat '0')
  else
    let places := (-decimal.exponent).toNat
    let padded := List.replicate (places + 1 - digits.length) '0' ++ digits
    let whole := padded.length - places
    String.ofList (padded.take whole ++ '.' :: padded.drop whole)

/-- A number with 53 significant bits: a natural number times a power of two. -/
structure Binary where
  /-- The number, below `2 ^ 53`. -/
  mantissa : Nat
  /-- The power of two. -/
  exponent : Int
  deriving DecidableEq, Repr, Inhabited

namespace Binary

/-- The number of bits of the largest mantissa. -/
def precision : Nat := 53

/-- The least power of two. -/
def minExponent : Int := -1074

/-- The largest power of two. -/
def maxExponent : Int := 971

/-- The quotient of two numbers, rounded to the nearest, the even one of two. -/
def roundDiv (numerator denominator : Nat) : Nat :=
  let quotient := numerator / denominator
  let twice := 2 * (numerator % denominator)
  if twice < denominator then quotient
  else if denominator < twice then quotient + 1
  else if quotient % 2 = 0 then quotient else quotient + 1

/-- A quotient times a power of two, as a quotient. -/
def scale (numerator denominator : Nat) (exponent : Int) : Nat × Nat :=
  if 0 ≤ exponent then (numerator * Nat.pow 2 exponent.toNat, denominator)
  else (numerator, denominator * Nat.pow 2 (-exponent).toNat)

/-- The nearest number to a quotient; nothing if it is beyond the largest. -/
def nearest (numerator denominator : Nat) : Option Binary :=
  if numerator = 0 then some ⟨0, 0⟩
  else
    let guess := (numerator.log2 : Int) - denominator.log2 - precision
    let guess := max guess minExponent
    let (n, d) := scale numerator denominator (-guess)
    -- the guess is at most one bit too fine
    let exponent := if n / d < Nat.pow 2 precision then guess else guess + 1
    let exponent :=
      let (n, d) := scale numerator denominator (-exponent)
      if n / d < Nat.pow 2 precision then exponent else exponent + 1
    let (n, d) := scale numerator denominator (-exponent)
    let mantissa := roundDiv n d
    let (mantissa, exponent) :=
      if mantissa = Nat.pow 2 precision then (Nat.pow 2 (precision - 1), exponent + 1)
      else (mantissa, exponent)
    if maxExponent < exponent then none else some ⟨mantissa, exponent⟩

/-- The nearest number to a decimal; nothing if it is beyond the largest. A decimal with a huge
power of ten is zero or too large. -/
def ofDecimal (decimal : Decimal) : Option Binary :=
  let size : Int := (toString decimal.digits).length + decimal.exponent
  if decimal.digits = 0 || size < -400 then some ⟨0, 0⟩
  else if 400 < size then none
  else if 0 ≤ decimal.exponent then nearest (decimal.digits * Nat.pow 10 decimal.exponent.toNat) 1
  else nearest decimal.digits (Nat.pow 10 (-decimal.exponent).toNat)

/-- Whether a quotient is rounded to a number. -/
def isNearest (number : Binary) (numerator denominator : Nat) : Bool :=
  match nearest numerator denominator with
  | some found =>
    let (n, d) := scale found.mantissa 1 found.exponent
    let (n', d') := scale number.mantissa 1 number.exponent
    n * d' == n' * d
  | none => false

/-- The decimal with a power of ten that is nearest to a number, of those that are rounded to the
number. -/
def onGrid? (number : Binary) (exponent : Int) : Option Decimal :=
  let (n, d) := scale number.mantissa 1 number.exponent
  let (n, d) :=
    if 0 ≤ exponent then (n, d * Nat.pow 10 exponent.toNat)
    else (n * Nat.pow 10 (-exponent).toNat, d)
  let below := n / d
  let reads := fun digits : Nat =>
    if 0 ≤ exponent then isNearest number (digits * Nat.pow 10 exponent.toNat) 1
    else isNearest number digits (Nat.pow 10 (-exponent).toNat)
  let nearer := roundDiv n d
  let farther := if nearer = below then below + 1 else below
  if reads nearer then some ⟨nearer, exponent⟩
  else if reads farther then some ⟨farther, exponent⟩
  else none

/-- The first decimal found on finer and finer grids. -/
def firstOnGrid (number : Binary) : Nat → Int → Decimal
  | 0, _ => ⟨0, 0⟩
  | bound + 1, exponent =>
    match onGrid? number exponent with
    | some decimal => decimal
    | none => firstOnGrid number bound (exponent - 1)

/-- The decimal with the fewest digits that is rounded to a number. -/
def shortest (number : Binary) : Decimal :=
  if number.mantissa = 0 then ⟨0, 0⟩
  else
    let (n, d) := scale number.mantissa 1 number.exponent
    let size : Int := (toString (n / d)).length
    -- below one the first digit may come as late as the least power of two allows
    let start := if d ≤ n then size else 0
    firstOnGrid number 400 start

end Binary

end RecipeLint
