/-
JSON as indented text: two blanks a level, one item or field a line, an empty array or
object closed at once. A string escapes its quote, the backslash and the controls, and
leaves every other character as it is.
-/
import SystemMap.Decimal.Notation
import SystemMap.Json
import SystemMap.Text.Quoted

namespace SystemMap.Json

/-- One character inside a JSON string. -/
def escapeChar (c : Char) : List Char :=
  if c = '"' || c = '\\' then ['\\', c]
  else if c = '\n' then ['\\', 'n']
  else if c = '\r' then ['\\', 'r']
  else if c = '\t' then ['\\', 't']
  else if c = '\x08' then ['\\', 'b']
  else if c = '\x0c' then ['\\', 'f']
  else if c.toNat < 0x20 then '\\' :: 'u' :: Text.hexDigits 4 c.toNat
  else [c]

/-- A string as JSON writes it. -/
def quoted (s : String) : String :=
  String.ofList ('"' :: s.toList.flatMap escapeChar ++ ['"'])

/-- A fresh line at some depth. -/
def freshLine (depth : Nat) : String := "\n" ++ String.ofList (List.replicate (2 * depth) ' ')

/-- A number that JSON can hold; the others are null. -/
def realText (x : Float) : String :=
  if x.isFinite then Decimal.coordinate.write x else "null"

mutual

/-- The text of a value that starts at depth `depth`. -/
def write (depth : Nat) : Json → String
  | .null => "null"
  | .bool b => if b then "true" else "false"
  | .int n => toString n
  | .real x => realText x
  | .text s => quoted s
  | .array [] => "[]"
  | .array (item :: items) =>
    "[" ++ freshLine (depth + 1) ++ write (depth + 1) item ++
      writeItems (depth + 1) items ++ freshLine depth ++ "]"
  | .object [] => "\x7b\x7d"
  | .object ((key, value) :: fields) =>
    "\x7b" ++ freshLine (depth + 1) ++ quoted key ++ ": " ++ write (depth + 1) value ++
      writeFields (depth + 1) fields ++ freshLine depth ++ "\x7d"

/-- The items after the first, each with the comma and the line break before it. -/
def writeItems (depth : Nat) : List Json → String
  | [] => ""
  | item :: items => "," ++ freshLine depth ++ write depth item ++ writeItems depth items

/-- The fields after the first, each with the comma and the line break before it. -/
def writeFields (depth : Nat) : List (String × Json) → String
  | [] => ""
  | (key, value) :: fields =>
    "," ++ freshLine depth ++ quoted key ++ ": " ++ write depth value ++
      writeFields depth fields

end

/-- A value as indented text, without a line end. -/
def pretty (j : Json) : String := j.write 0

end SystemMap.Json
