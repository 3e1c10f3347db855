/-
Doubles read from texts, and doubles that are whole numbers. A decimal has a sign, digits
with or without a point, at least one of them, and an exponent, of which only the digits are
required; the words for infinity and for what is no number are read in any letter case.
-/
import SystemMap.Decimal.Nearest
import SystemMap.Text.Numeral

namespace SystemMap.Decimal

/-- The number that ASCII digits write. -/
def natOfDigits (digits : List Char) : Nat :=
  digits.foldl (fun n c => 10 * n + (c.toNat - '0'.toNat)) 0

/-- The exponent that follows a mantissa: nothing, or the letter and a whole number. -/
def exponent? : List Char → Option Int
  | [] => some 0
  | e :: rest =>
    if e = 'e' || e = 'E' then
      let (negative, digits) := Text.Numeral.splitSign rest
      if digits.isEmpty || !digits.all Char.isDigit then none
      else some (if negative then -(natOfDigits digits : Int) else natOfDigits digits)
    else none

/-- The words that are read as doubles. -/
def word? (negative : Bool) (w : List Char) : Option Float :=
  let w := w.map Char.toLower
  if w = "inf".toList || w = "infinity".toList then some (if negative then -1 / 0 else 1 / 0)
  else if w = "nan".toList then some (0 / 0)
  else none

/-- The double nearest to what a text writes. -/
def read? (s : List Char) : Option Float :=
  let (negative, body) := Text.Numeral.splitSign s
  let whole := body.takeWhile Char.isDigit
  let (fraction, rest) := match body.dropWhile Char.isDigit with
    | '.' :: rest => (rest.takeWhile Char.isDigit, rest.dropWhile Char.isDigit)
    | rest => ([], rest)
  if whole.isEmpty && fraction.isEmpty then word? negative body
  else (exponent? rest).map fun exponent =>
    nearestScientific negative (natOfDigits (whole ++ fraction)) (exponent - fraction.length)

/-- The fraction that a finite double is: numerator and denominator. -/
def fraction? (x : Float) : Option (Int × Nat) :=
  let bits := x.toBits.toNat
  let magnitude := bits % Nat.pow 2 63
  let stored := magnitude / Nat.pow 2 52
  let mantissa := if stored = 0 then magnitude else Nat.pow 2 52 + magnitude % Nat.pow 2 52
  let sign : Int := if bits < Nat.pow 2 63 then 1 else -1
  if stored = 0x7ff then none
  else some (sign * (mantissa * Nat.pow 2 (stored - 1075) : Nat), Nat.pow 2 (1075 - max stored 1))

/-- The whole number that a finite double is, if it is one. -/
def whole? (x : Float) : Option Int :=
  match fraction? x with
  | some (num, den) => if num % den = 0 then some (num / den) else none
  | none => none

end SystemMap.Decimal
