/-
How a coordinate is written. The digits are the shortest that read back; what else there is
to decide is one record, `Form`, and `coordinate` is the record that every number of a
drawing is written with.
-/
import SystemMap.Decimal.Shortest

namespace SystemMap.Decimal

/-- The decisions of a way to write doubles. -/
structure Form where
  /-- Least decimal exponent that is written positionally. -/
  positionalFrom : Int
  /-- Least decimal exponent above these that is not. -/
  positionalBelow : Int
  /-- What follows a positional number without fractional digits. -/
  wholeEnding : String
  /-- Fewest digits of a written exponent. -/
  exponentDigits : Nat
  /-- The text of what is not a number. -/
  notANumber : String
  /-- The text of infinity, without a sign. -/
  infinite : String

/-- Coordinates are positional from one ten-thousandth to below `10^16`, whole ones end in
`.0`, and an exponent has a sign and at least two digits. -/
def coordinate : Form := ⟨-4, 16, ".0", 2, "nan", "inf"⟩

/-- Digits without the zeros at their end. -/
def dropEndZeros (ds : List Char) : List Char := (ds.reverse.dropWhile (· = '0')).reverse

/-- Digits `d₁d₂…` that stand for `d₁.d₂… · 10^exponent`, written positionally. -/
def positional (form : Form) (ds : List Char) (exponent : Int) : List Char :=
  if exponent < 0 then
    "0.".toList ++ List.replicate ((-exponent).toNat - 1) '0' ++ ds
  else
    let whole := exponent.toNat + 1
    if ds.length ≤ whole then
      ds ++ List.replicate (whole - ds.length) '0' ++ form.wholeEnding.toList
    else ds.take whole ++ '.' :: ds.drop whole

/-- The same number written with an exponent. -/
def exponential (form : Form) (ds : List Char) (exponent : Int) : List Char :=
  let power := Nat.toDigits 10 exponent.natAbs
  let fraction := match ds with
    | d :: e :: rest => d :: '.' :: e :: rest
    | short => short
  fraction ++ 'e' :: (if exponent < 0 then '-' else '+') ::
    (List.replicate (form.exponentDigits - power.length) '0' ++ power)

/-- The text of a positive finite double, from its bits. -/
def writeMagnitude (form : Form) (bits : Nat) : List Char :=
  let s := shortest bits
  let all := Nat.toDigits 10 s.digits
  let exponent := s.exponent + all.length - 1
  let ds := dropEndZeros all
  if form.positionalFrom ≤ exponent ∧ exponent < form.positionalBelow then
    positional form ds exponent
  else exponential form ds exponent

/-- The text of a double. -/
def Form.write (form : Form) (x : Float) : String :=
  let bits := x.toBits.toNat
  let magnitude := bits % Nat.pow 2 63
  if infinityBits < magnitude then form.notANumber
  else
    let text :=
      if magnitude = infinityBits then form.infinite.toList
      else if magnitude = 0 then '0' :: form.wholeEnding.toList
      else writeMagnitude form magnitude
    String.ofList (if bits < Nat.pow 2 63 then text else '-' :: text)

end SystemMap.Decimal
