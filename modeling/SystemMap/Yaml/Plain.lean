/-
What a scalar without quotes means. The words for null and the truth values are few; whole
numbers are written in base ten, two, eight or sixteen, or as sixtieths with colons between
them; a decimal needs a point, and an exponent a sign; a date has all its digits. All else is
a text.
-/
import SystemMap.Text.Split
import SystemMap.Yaml.Value

namespace SystemMap.Yaml.Plain

-- ================================================================== shapes

/-- A scalar without its sign. -/
def unsigned : List Char → List Char
  | '-' :: rest => rest
  | '+' :: rest => rest
  | rest => rest

/-- Whether a scalar has a minus sign. -/
def isNegative : List Char → Bool
  | '-' :: _ => true
  | _ => false

/-- A digit or an underscore. -/
def isDigitOrLow (c : Char) : Bool := c.isDigit || c = '_'

/-- A digit of base sixteen. -/
def isHexDigit (c : Char) : Bool :=
  c.isDigit || ('a' ≤ c && c ≤ 'f') || ('A' ≤ c && c ≤ 'F')

/-- A run that starts with a digit and goes on with digits and underscores. -/
def isRun : List Char → Bool
  | [] => false
  | c :: rest => c.isDigit && rest.all isDigitOrLow

/-- One or two digits below sixty. -/
def isSixtieth : List Char → Bool
  | [a] => a.isDigit
  | [a, b] => '0' ≤ a && a ≤ '5' && b.isDigit
  | _ => false

/-- A run and at least one group of sixtieths after it. -/
def isSexagesimal (s : List Char) : Bool :=
  match Text.splitAt ':' s with
  | first :: second :: more => isRun first && (second :: more).all isSixtieth
  | _ => false

/-- Nothing, or an exponent with a sign. -/
def isExponent : List Char → Bool
  | [] => true
  | e :: sign :: ds =>
    (e = 'e' || e = 'E') && (sign = '-' || sign = '+') && !ds.isEmpty && ds.all Char.isDigit
  | _ => false

/-- What may follow the point of a decimal. -/
def isFraction (s : List Char) : Bool := isExponent (s.dropWhile isDigitOrLow)

/-- The ways to write a whole number. -/
inductive Whole where
  | inBase (base : Nat) (digits : List Char)
  | decimal (digits : List Char)
  | sexagesimal (groups : List (List Char))

/-- The whole number that a scalar without sign is written as. -/
def whole? (s : List Char) : Option Whole :=
  match s with
  | ['0'] => some (.decimal ['0'])
  | '0' :: 'b' :: ds =>
    if !ds.isEmpty && ds.all (fun c => c = '0' || c = '1' || c = '_') then some (.inBase 2 ds)
    else none
  | '0' :: 'x' :: ds =>
    if !ds.isEmpty && ds.all (fun c => isHexDigit c || c = '_') then some (.inBase 16 ds)
    else none
  | '0' :: ds =>
    if ds.all (fun c => ('0' ≤ c && c ≤ '7') || c = '_') then some (.inBase 8 s) else none
  | _ =>
    if isRun s then some (.decimal s)
    else if isSexagesimal s then some (.sexagesimal (Text.splitAt ':' s))
    else none

/-- Whether a scalar is written as a decimal with a point. -/
def isReal (s : List Char) : Bool :=
  let body := unsigned s
  match Text.splitAt '.' body with
  | [whole, fraction] =>
    if whole.isEmpty then
      (s = body && isRun (fraction.takeWhile isDigitOrLow) && isFraction fraction) ||
        ["inf", "Inf", "INF"].any (fraction = ·.toList) ||
        (s = body && ["nan", "NaN", "NAN"].any (fraction = ·.toList))
    else
      (isRun whole && isFraction fraction) ||
        (isSexagesimal whole && fraction.all isDigitOrLow)
  | _ => false

-- ================================================================== values

/-- Digits without underscores. -/
def dropLows (s : List Char) : List Char := s.filter (· ≠ '_')

/-- The value of a digit of a base up to sixteen. -/
def digitOf (c : Char) : Nat :=
  if c.isDigit then c.toNat - '0'.toNat
  else if c.isLower then c.toNat - 'a'.toNat + 10
  else c.toNat - 'A'.toNat + 10

/-- The number that digits write in a base. -/
def inBase (base : Nat) (ds : List Char) : Nat := ds.foldl (fun n c => base * n + digitOf c) 0

/-- The number that digits write in base ten. -/
def inTens (ds : List Char) : Except Fault Nat :=
  if ds.length ≤ Text.Numeral.digitLimit then .ok (inBase 10 ds)
  else .error (.numeral (.tooLong ds.length))

/-- The value of a whole number. -/
def Whole.value : Whole → Except Fault Nat
  | .inBase base ds =>
    let ds := dropLows ds
    if ds.isEmpty then .error (.noDigits base) else .ok (Plain.inBase base ds)
  | .decimal ds => inTens (dropLows ds)
  | .sexagesimal groups => groups.foldlM (fun n g => (inTens (dropLows g)).map (60 * n + ·)) 0

/-- The sum of sixtieths, the last of them first, which weighs one. Every weight is a whole
number that is rounded once. -/
def sumOfSixtieths : Nat → Float → List Float → Except Fault Float
  | _, sum, [] => .ok sum
  | weight, sum, part :: more =>
    match Decimal.storeInt? weight with
    | some w => sumOfSixtieths (60 * weight) (sum + part * w) more
    | none => .error .heavySixtieth

/-- The value of a decimal with a point. -/
def realValue (s : List Char) : Except Fault Float :=
  let body := dropLows (unsigned s)
  let size :=
    if body.contains ':' then
      sumOfSixtieths 1 0
        ((Text.splitAt ':' body).reverse.map fun part => (Decimal.read? part).getD 0)
    else if body.head? = some '.' && (body.drop 1).head?.any Char.isAlpha then
      .ok ((Decimal.read? (body.drop 1)).getD 0)
    else .ok ((Decimal.read? body).getD 0)
  size.map fun x => if isNegative s then -x else x

-- ================================================================= meaning

/-- The words for the truth values. -/
def truth? (s : String) : Option Bool :=
  if ["yes", "Yes", "YES", "true", "True", "TRUE", "on", "On", "ON"].contains s then some true
  else if ["no", "No", "NO", "false", "False", "FALSE", "off", "Off", "OFF"].contains s then
    some false
  else none

/-- The words for null. -/
def isNull (s : String) : Bool := ["", "~", "null", "Null", "NULL"].contains s

/-- What a scalar without quotes means. The two signs that stand for joining mappings and for
a default value are no values of their own. -/
def meaning (s : String) : Except Fault Value :=
  let cs := s.toList
  match truth? s with
  | some b => .ok (.bool b)
  | none =>
    if isNull s then .ok .null
    else if isReal cs then (realValue cs).map .real
    else match whole? (unsigned cs) with
      | some w => w.value.map fun n => .int (if isNegative cs then -(n : Int) else n)
      | none =>
        match date? cs, moment? cs with
        | some d, _ => d.demand.map fun _ => .date d
        | none, some m => m.demand.map fun _ => .time m
        | none, none => if s = "=" || s = "<<" then .error .malformed else .ok (.text (.ofString s))

end SystemMap.Yaml.Plain
