/-
The fewest decimal digits that read back as a double, and of the shortest ones the nearest.

A positive double is `mantissa · 2^power`, and the reals that round to it fill the interval
between the midpoints to its two neighbours, ends included exactly when the mantissa is
even. For one digit, two, and so on, the two decimals around the value on the grid of that
precision are tried: if any grid point lies in the interval, one of these does, so the first
grid with a hit has the fewest digits. Of two hits the nearer wins, of two as near the one
with the even last digit. Seventeen digits always suffice.
-/
import SystemMap.Decimal.Nearest

namespace SystemMap.Decimal

/-- A decimal `digits · 10^exponent`. -/
structure Scientific where
  digits : Nat
  exponent : Int
deriving DecidableEq

/-- A positive double `mantissa · 2^power`; `narrow` says that the neighbour below is only
half as far away as the one above, which happens at the powers of two. -/
structure Binary where
  mantissa : Nat
  power : Int
  narrow : Bool
deriving DecidableEq

/-- The mantissa and power of a positive finite double, from its bits without sign. -/
def Binary.ofBits (bits : Nat) : Binary :=
  let fraction := bits % Nat.pow 2 52
  let stored : Nat := bits / Nat.pow 2 52
  if stored = 0 then ⟨fraction, -1074, false⟩
  else ⟨Nat.pow 2 52 + fraction, (stored : Int) - 1075, fraction = 0 && stored ≠ 1⟩

/-- An interval of fractions over one denominator: value, lower and upper end. -/
structure Interval where
  value : Nat
  low : Nat
  high : Nat
  den : Nat
  closed : Bool

/-- The reals that round to a double. Everything is scaled by four so that the midpoint to a
narrow neighbour is whole. -/
def Binary.interval (b : Binary) : Interval :=
  let up := Nat.pow 2 b.power.toNat
  { value := 4 * b.mantissa * up
    low := (4 * b.mantissa - (if b.narrow then 1 else 2)) * up
    high := (4 * b.mantissa + 2) * up
    den := 4 * Nat.pow 2 (-b.power).toNat
    closed := b.mantissa % 2 = 0 }

/-- Whether `digits · 10^exponent` lies in the interval. -/
def Interval.has (i : Interval) (s : Scientific) : Bool :=
  let x := s.digits * Nat.pow 10 s.exponent.toNat * i.den
  let scale := Nat.pow 10 (-s.exponent).toNat
  if i.closed then i.low * scale ≤ x && x ≤ i.high * scale
  else i.low * scale < x && x < i.high * scale

/-- The distance of `digits · 10^exponent` from the value, in units that depend on the
exponent alone. -/
def Interval.distance (i : Interval) (s : Scientific) : Nat :=
  let x := s.digits * Nat.pow 10 s.exponent.toNat * i.den
  let v := i.value * Nat.pow 10 (-s.exponent).toNat
  (x - v) + (v - x)

/-- The number of decimal digits of a natural; one for zero. -/
def digitCount (n : Nat) : Nat := (Nat.toDigits 10 n).length

/-- The exponent `e` with `10^e ≤ num / den < 10^(e+1)`, for a positive fraction. -/
def decimalExponent (num den : Nat) : Int :=
  let guess : Int := (digitCount num : Int) - digitCount den
  if num * Nat.pow 10 (-guess).toNat < den * Nat.pow 10 guess.toNat then guess - 1 else guess

/-- The best decimal of the interval on the grid of step `10^exponent`, if it has one. -/
def Interval.onGrid? (i : Interval) (exponent : Int) : Option Scientific :=
  let below : Scientific :=
    ⟨(i.value * Nat.pow 10 (-exponent).toNat) / (i.den * Nat.pow 10 exponent.toNat), exponent⟩
  let above : Scientific := ⟨below.digits + 1, exponent⟩
  match decide (below.digits ≠ 0) && i.has below, i.has above with
  | false, false => none
  | true, false => some below
  | false, true => some above
  | true, true =>
    if i.distance below < i.distance above then some below
    else if i.distance above < i.distance below then some above
    else if below.digits % 2 = 0 then some below else some above

/-- Tries grids from the one of step `10^exponent` down, `count` of them. -/
def Interval.search (i : Interval) (exponent : Int) : Nat → Option Scientific
  | 0 => none
  | count + 1 =>
    match i.onGrid? exponent with
    | some s => some s
    | none => i.search (exponent - 1) count

/-- The decimal of fewest digits that reads back as the positive double with these bits. -/
def shortest (bits : Nat) : Scientific :=
  let i := (Binary.ofBits bits).interval
  (i.search (decimalExponent i.value i.den) 17).getD ⟨0, 0⟩

end SystemMap.Decimal
