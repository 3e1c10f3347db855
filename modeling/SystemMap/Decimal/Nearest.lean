/-
The double nearest to a fraction, a tie going to the even neighbour. All of it is exact
arithmetic on naturals; only the last step packs the bits. Whole numbers stored as
coordinates, decimals read from a text and means of rows are rounded here, so that one rule
holds for the three.

A nonnegative double below infinity is `mantissa · 2^(exponent - 1074)` with `mantissa` below
`2^53`, and its bits, read as a natural, are `exponent · 2^52 + mantissa`: the leading bit
of a normal mantissa adds the one by which the stored exponent exceeds `exponent`. Hence
rounding up to the next power of two carries by itself, and bits are ordered as values are.
-/
namespace SystemMap.Decimal

/-- A quotient rounded to the nearest natural, a tie to the even one. -/
def roundDiv (num den : Nat) : Nat :=
  let q := num / den
  let twice := 2 * (num % den)
  if twice < den then q else if den < twice then q + 1 else q + q % 2

/-- The bits of infinity. -/
def infinityBits : Nat := 0x7ff * Nat.pow 2 52

/-- The exponent that gives `num / den` a mantissa of 53 bits, or zero if it is too small
for that. The first guess, taken from the lengths of the two numbers, is right or one too
large. -/
def exponentOf (num den : Nat) : Nat :=
  let guess := num.log2 + 1022 - den.log2
  if num * Nat.pow 2 1022 < den * Nat.pow 2 guess then guess - 1 else guess

/-- The bits of the double nearest to `num / den`. -/
def nearestBits (num den : Nat) : Nat :=
  if num = 0 then 0
  else
    let e := exponentOf num den
    min infinityBits (e * Nat.pow 2 52 + roundDiv (num * Nat.pow 2 1074) (den * Nat.pow 2 e))

/-- A double with the given sign, nearest to `num / den`. -/
def nearest (negative : Bool) (num den : Nat) : Float :=
  let bits := nearestBits num den
  Float.ofBits (UInt64.ofNat (if negative then Nat.pow 2 63 + bits else bits))

/-- The double nearest to a whole number. -/
def nearestInt (n : Int) : Float := nearest (n < 0) n.natAbs 1

/-- Whether a whole number is small enough to be stored in a double. -/
def isStorable (n : Int) : Bool := nearestBits n.natAbs 1 < infinityBits

/-- The double nearest to a whole number that is small enough to be stored. -/
def storeInt? (n : Int) : Option Float := if isStorable n then some (nearestInt n) else none

/-- The double nearest to `coefficient · 10^exponent`. Exponents that leave nothing but
infinity or zero are cut short, which spares powers that no machine can hold. -/
def nearestScientific (negative : Bool) (coefficient : Nat) (exponent : Int) : Float :=
  if 0 ≤ exponent then nearest negative (coefficient * Nat.pow 10 (min exponent 400).toNat) 1
  else nearest negative coefficient (Nat.pow 10 (min (-exponent) (coefficient.log2 + 400)).toNat)

end SystemMap.Decimal
