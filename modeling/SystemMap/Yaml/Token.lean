/-
Tokens of a settings file, and the text they are cut from. Structure is told by indentation
or by brackets; both become tokens here, so that what follows need not look at columns.

Tokens may break off: then the last one says why, and whether that counts depends on whether
anything before it is wrong.
-/
import SystemMap.Text.CodePoint
import SystemMap.Yaml.Fault

namespace SystemMap.Yaml

/-- A token. -/
inductive Token where
  | documentStart
  | documentEnd
  | blockList
  | blockMapping
  | blockEnd
  | openList
  | closeList
  | openMapping
  | closeMapping
  | item
  | comma
  | key
  | value
  | plain (s : String)
  | quoted (s : Text.Points)
  /-- The tokens break off here. -/
  | broken (fault : Fault)
deriving DecidableEq

-- ============================================================ characters

/-- A line break. Carriage returns are made line feeds before anything else. -/
def isBreak (c : Char) : Bool := c = '\n' || c = '\u2028' || c = '\u2029'

/-- A blank or a line break. -/
def isGap (c : Char) : Bool := c = ' ' || c = '\t' || isBreak c

/-- Whether a character is followed by a gap or by the end. -/
def isGapOrEnd : Option Char → Bool
  | none => true
  | some c => isGap c

/-- A character that may stand in a file at all. -/
def isAllowed (c : Char) : Bool :=
  let n := c.toNat
  n = 0x09 || n = 0x0a || n = 0x0d || (0x20 ≤ n && n ≤ 0x7e) || n = 0x85 ||
    (0xa0 ≤ n && n ≤ 0xfffd) || 0x10000 ≤ n

/-- Every line end but the two separators as a line feed. -/
def unifyBreaks : List Char → List Char
  | '\r' :: '\n' :: rest => '\n' :: unifyBreaks rest
  | '\r' :: rest => '\n' :: unifyBreaks rest
  | '\u0085' :: rest => '\n' :: unifyBreaks rest
  | c :: rest => c :: unifyBreaks rest
  | [] => []

-- ================================================================ cursors

/-- The rest of a text, and where it starts. Lines and columns count from zero; a mark of
byte order has no width. -/
structure Cursor where
  rest : List Char
  index : Nat
  line : Nat
  column : Nat

namespace Cursor

/-- The start of a text. A mark of byte order at its very start is no part of it. -/
def start : List Char → Cursor
  | '\ufeff' :: rest => ⟨rest, 1, 0, 0⟩
  | cs => ⟨cs, 0, 0, 0⟩

/-- The next character. -/
def head? (c : Cursor) : Option Char := c.rest.head?

/-- The character `n` places on. -/
def peek? (c : Cursor) (n : Nat) : Option Char := (c.rest.drop n).head?

/-- Past one character. -/
def step (c : Cursor) : Cursor :=
  match c.rest with
  | [] => c
  | ch :: rest =>
    if isBreak ch then ⟨rest, c.index + 1, c.line + 1, 0⟩
    else ⟨rest, c.index + 1, c.line, if ch = '\ufeff' then c.column else c.column + 1⟩

/-- Past some characters. -/
def forward : Nat → Cursor → Cursor
  | 0, c => c
  | n + 1, c => forward n c.step

/-- Past the longest run of characters of a class. -/
def skipWhile (p : Char → Bool) (c : Cursor) : Cursor :=
  c.forward (c.rest.takeWhile p).length

/-- Whether the rest starts with three times a character and then a gap or the end. -/
def atMarker (mark : Char) (c : Cursor) : Bool :=
  c.rest.take 3 = [mark, mark, mark] && isGapOrEnd (c.peek? 3)

/-- Whether the rest starts with either marker that bounds documents. -/
def atBoundary (c : Cursor) : Bool := c.atMarker '-' || c.atMarker '.'

end Cursor

end SystemMap.Yaml
