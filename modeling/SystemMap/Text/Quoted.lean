/-
A text as a message quotes it: between single quotes, or between double quotes when it
holds a single quote and no double one, with a backslash before a backslash and before the
enclosing quote, letters for line feed, carriage return and tab, and the code in lower-case
hexadecimal for whatever else is not printable.
-/
import SystemMap.Text.Printable

namespace SystemMap.Text

/-- The quote that encloses a text: the double one only where it spares an escape. -/
def enclosingQuote (s : List Char) : Char :=
  if s.contains '\'' && !s.contains '"' then '"' else '\''

/-- A number in lower-case hexadecimal, filled with zeros to at least `width` digits. -/
def hexDigits (width n : Nat) : List Char :=
  let digits := Nat.toDigits 16 n
  List.replicate (width - digits.length) '0' ++ digits

/-- One character of a text quoted by `quote`. -/
def quoteChar (quote c : Char) : List Char :=
  if c = quote || c = '\\' then ['\\', c]
  else if c = '\n' then ['\\', 'n']
  else if c = '\r' then ['\\', 'r']
  else if c = '\t' then ['\\', 't']
  else if isPrintable c then [c]
  else if c.toNat < 0x100 then '\\' :: 'x' :: hexDigits 2 c.toNat
  else if c.toNat < 0x10000 then '\\' :: 'u' :: hexDigits 4 c.toNat
  else '\\' :: 'U' :: hexDigits 8 c.toNat

/-- A text as a message quotes it. -/
def quote (s : String) : String :=
  let q := enclosingQuote s.toList
  String.ofList (q :: s.toList.flatMap (quoteChar q) ++ [q])

end SystemMap.Text
