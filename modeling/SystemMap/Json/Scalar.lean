/-
Scalars out of JSON. Reading is lenient about how a number is written: a truth value counts
as zero or one, a double without a fraction as a whole number, and a string as the number
that it writes.

A whole number in a string is first taken as a bare numeral: perhaps a minus, and digits
without a zero in front. If it is none, the string is tidied and tried once more. Tidying
drops blanks at either end, a plus, the zeros in front, a fraction of zeros, and
underscores. Zeros in front without a sign may be followed by a minus, which then is the
sign of what is left.
-/
import SystemMap.Decimal.Reading
import SystemMap.Decimal.Truncated
import SystemMap.Json.Checked
import SystemMap.Text.Numeral

namespace SystemMap.Json

/-- A string. Nothing else is made into one. -/
def readText : Reader String
  | .text s => .ok s
  | _ => .refuse .notText

-- ====================================================== tidied numerals

/-- Whether underscores stand one by one between other characters. -/
def hasInnerUnderscores (s : List Char) : Bool :=
  s.head? ≠ some '_' && s.getLast? ≠ some '_' &&
    !(s.zip (s.drop 1)).any fun p => p.1 = '_' && p.2 = '_'

/-- A text without its underscores. -/
def dropUnderscores (s : List Char) : List Char := s.filter (· ≠ '_')

/-- What can stand in front of a numeral without padding: a minus, or a digit but zero. -/
def isLeading (c : Char) : Bool := c = '-' || (c.isDigit && c ≠ '0')

/-- What is left of a numeral whose padding has begun; `last` is the character before. Of a
numeral that is padding altogether, and of one that goes on with a point, the last character
of the padding is kept. -/
def afterPadding? (last : Char) : List Char → Option (List Char)
  | [] => some [last]
  | c :: rest =>
    if c = '0' || c = '_' then afterPadding? c rest
    else if c = '.' then some (last :: c :: rest)
    else if isLeading c then some (c :: rest)
    else none

/-- A numeral without the zeros in front. -/
def dropPadding? : List Char → Option (List Char)
  | [] => none
  | c :: rest =>
    if c = '0' then afterPadding? c rest
    else if isLeading c then some (c :: rest)
    else none

/-- A numeral without a fraction of zeros, of which there is at least one. -/
def dropZeroFraction (s : List Char) : List Char :=
  let fraction := (s.dropWhile (· ≠ '.')).drop 1
  if !fraction.isEmpty && fraction.all (· = '0') then s.takeWhile (· ≠ '.') else s

/-- A numeral without a plus and without padding. A minus stays in front; behind a plus
there can be none. -/
def dropFront? : List Char → Option (List Char)
  | '+' :: '-' :: _ => none
  | '+' :: rest => dropPadding? rest
  | '-' :: rest => (dropPadding? rest).map ('-' :: ·)
  | s => dropPadding? s

/-- A numeral tidied as far as it can be. -/
def tidied? (s : List Char) : Option (List Char) := do
  let s := dropZeroFraction (← dropFront? (Text.trimBlanks s))
  return if hasInnerUnderscores s then dropUnderscores s else s

-- ======================================================== whole numbers

/-- Most digits of a bare numeral. -/
def bareLimit : Nat := 4300

/-- The whole number that a bare numeral writes. A run of digits that is too long is refused
as such even if something else follows it. -/
def integerOfBare (s : List Char) : Except Problem Int :=
  let (negative, body) := match s with
    | '-' :: rest => (true, rest)
    | rest => (false, rest)
  let digits := body.takeWhile Char.isDigit
  if body = ['0'] then .ok 0
  else if digits.head? = some '0' then .error .badInteger
  else if bareLimit < digits.length then .error .longInteger
  else if digits.isEmpty || digits ≠ body then .error .badInteger
  else
    let n : Int := Decimal.natOfDigits digits
    .ok (if negative then -n else n)

/-- The whole number that a string writes. That a numeral is too long is told only if it
stands in the string untidied, at its very front. -/
def integerOfText (s : String) : Except Problem Int :=
  match integerOfBare s.toList, tidied? s.toList with
  | .error .badInteger, some tidy => (integerOfBare tidy).mapError fun _ => .badInteger
  | result, _ => result

/-- The whole number that a double is. It has to be within the words of 64 bits, and not the
least of them. -/
def integerOfReal (x : Float) : Checked Int :=
  match Decimal.truncate x, Decimal.whole? x with
  | .error _, _ => .refuse .unbounded
  | .ok _, none => .refuse .fractional
  | .ok _, some n => if n.natAbs < Nat.pow 2 63 then .ok n else .refuse .longInteger

/-- A whole number: as such, as a truth value, as a double without fraction, or written in a
string. -/
def readInteger : Reader Int
  | .int n => .ok n
  | .bool b => .ok (if b then 1 else 0)
  | .real x => integerOfReal x
  | .text s => match integerOfText s with
    | .ok n => .ok n
    | .error problem => .refuse problem
  | _ => .refuse .notInteger

-- ============================================================== doubles

/-- The double that a string writes: with blanks around it, or else with underscores in it,
but not with both. -/
def realOfText? (s : String) : Option Float :=
  Decimal.read? (Text.trimBlanks s.toList) <|>
    if hasInnerUnderscores s.toList then Decimal.read? (dropUnderscores s.toList) else none

/-- A double: any number that is small enough, a truth value, or a number written in a
string. -/
def readReal : Reader Float
  | .real x => .ok x
  | .int n => match Decimal.storeInt? n with
    | some x => .ok x
    | none => .refuse .notReal
  | .bool b => .ok (if b then 1 else 0)
  | .text s => match realOfText? s with
    | some x => .ok x
    | none => .refuse .badReal
  | _ => .refuse .notReal

-- =============================================================== choices

/-- One of some named values. -/
def readChoice {α : Type} (ofName? : String → Option α) : Reader α
  | .text s => match ofName? s with
    | some a => .ok a
    | none => .refuse .noChoice
  | _ => .refuse .noChoice

/-- One of some named values, where only the name itself is a literal. -/
def readLiteral {α : Type} (ofName? : String → Option α) : Reader α
  | .text s => match ofName? s with
    | some a => .ok a
    | none => .refuse .notLiteral
  | _ => .refuse .notLiteral

end SystemMap.Json
