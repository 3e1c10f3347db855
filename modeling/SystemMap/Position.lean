/-
A place in a text, by line and column. Both count from one and count characters; only a line
feed ends a line. Places read from a file of data may hold any numbers, so both are
integers.
-/
namespace SystemMap

/-- Line and column of a character. -/
structure Position where
  line : Int
  column : Int
deriving DecidableEq

namespace Position

/-- The place of the first character of a text. -/
def origin : Position := ⟨1, 1⟩

/-- The place after one character. -/
def step (p : Position) (c : Char) : Position :=
  if c = '\n' then ⟨p.line + 1, 1⟩ else ⟨p.line, p.column + 1⟩

/-- The place after some characters. -/
def after (p : Position) (cs : List Char) : Position := cs.foldl step p

end Position

end SystemMap
