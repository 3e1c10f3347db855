/-
Values of settings files. A mapping keeps its keys in the order in which they first occur;
a later value of a key replaces the earlier one. Two keys are one if they are equal as
numbers, truth values counting as zero and one, or equal in the same other type. Numbers are
compared exactly, so a whole number and the double nearest to it may be two keys.

Bytes, sets, and the pairs of ordered mappings are values that a text can only ask for by a tag.
Sets and pairs are never keys.
-/
import SystemMap.Decimal.Notation
import SystemMap.Decimal.Reading
import SystemMap.Text.CodePoint
import SystemMap.Text.Quoted
import SystemMap.Yaml.Moment

namespace SystemMap.Yaml

/-- A value. -/
inductive Value where
  | null
  | bool (b : Bool)
  | int (n : Int)
  | real (x : Float)
  | text (s : Text.Points)
  | bytes (bs : List UInt8)
  | date (d : Date)
  | time (m : Moment)
  | set (items : List Value)
  | pair (first second : Value)
  | list (items : List Value)
  | mapping (fields : List (Value × Value))

-- ================================================================ numbers

/-- A number among numbers: a fraction, or a double that is none. -/
inductive Number where
  | fraction (num : Int) (den : Nat)
  | unbounded (x : Float)

namespace Number

/-- A double as a number. -/
def ofReal (x : Float) : Number :=
  match Decimal.fraction? x with
  | some (num, den) => .fraction num den
  | none => .unbounded x

/-- Whether two numbers are equal. What is no number is one thing. -/
def isEqual : Number → Number → Bool
  | .fraction a b, .fraction c d => a * d = c * b
  | .unbounded x, .unbounded y => x == y || (x != x && y != y)
  | _, _ => false

/-- Whether a number is less than another. Against infinity all fractions are alike. -/
def isLess : Number → Number → Bool
  | .fraction a b, .fraction c d => a * d < c * b
  | .fraction _ _, .unbounded y => 0 < y
  | .unbounded x, .fraction _ _ => x < 0
  | .unbounded x, .unbounded y => x < y

end Number

namespace Value

/-- The number that a value is. -/
def number? : Value → Option Number
  | .bool b => some (.fraction (if b then 1 else 0) 1)
  | .int n => some (.fraction n 1)
  | .real x => some (.ofReal x)
  | _ => none

-- =================================================================== keys

/-- Whether two values are one as keys. -/
def isSameKey : Value → Value → Bool
  | .null, .null => true
  | .text a, .text b => a = b
  | .bytes a, .bytes b => a = b
  | .date a, .date b => a = b
  | .time a, .time b => a.isSame b
  | a, b => match a.number?, b.number? with
    | some x, some y => x.isEqual y
    | _, _ => false

/-- Puts a value under a key. -/
def putField (fields : List (Value × Value)) (key value : Value) : List (Value × Value) :=
  if fields.any (·.1.isSameKey key) then
    fields.map fun f => if f.1.isSameKey key then (f.1, value) else f
  else fields ++ [(key, value)]

/-- The value under a text as key. -/
def field? (fields : List (Value × Value)) (key : String) : Option Value :=
  (fields.find? (·.1.isSameKey (.text (.ofString key)))).map (·.2)

/-- The order of two keys, where there is one: numbers by size, texts by their characters,
bytes by their numbers, dates and times by the calendar. -/
def isBefore? : Value → Value → Option Bool
  | .text a, .text b => some (a.isBefore b)
  | .bytes a, .bytes b => some (a.map (·.toNat) < b.map (·.toNat))
  | .date a, .date b => some (a.ordinal < b.ordinal)
  | .time a, .time b => if a.isComparable b then some (a.instant < b.instant) else none
  | a, b => match a.number?, b.number? with
    | some x, some y => some (x.isLess y)
    | _, _ => none

/-- Bytes as a message shows them: quoted, with the code of whatever is no printable ASCII. -/
def bytesText (bs : List UInt8) : String :=
  let cs := bs.map fun b => Char.ofNat b.toNat
  let quote := Text.enclosingQuote cs
  let shown := cs.flatMap fun c =>
    if c.toNat < 0x80 then Text.quoteChar quote c else '\\' :: 'x' :: Text.hexDigits 2 c.toNat
  String.ofList ('b' :: quote :: shown ++ [quote])

/-- A scalar as a message shows it. A whole number may be too long for that. -/
def shown : Value → Except Text.Numeral.Fault String
  | .null => .ok "None"
  | .bool b => .ok (if b then "True" else "False")
  | .int n => if Text.Numeral.isWritable n then .ok (toString n) else .error .unwritable
  | .real x => .ok (Decimal.coordinate.write x)
  | .text s => .ok s.toString
  | .bytes bs => .ok (bytesText bs)
  | .date d => .ok d.text
  | .time m => .ok m.text
  | .set _ => .ok "set()"
  | .pair _ _ => .ok "()"
  | .list _ => .ok "[]"
  | .mapping _ => .ok "\x7b\x7d"

end Value

end SystemMap.Yaml
