/-
Texts in which halves of characters may stand apart. A character beyond the first 65536 may
be written as two codes, one for each half. Codes that are written by themselves stay by
themselves: two halves side by side are not the character that they make up, although they
look like it. Main statement: a text without halves is shown as it is (`toString_ofString`).
-/
namespace SystemMap.Text

/-- A character, or a half of one. -/
inductive CodePoint where
  | char (c : Char)
  | half (code : Nat)
deriving DecidableEq

namespace CodePoint

/-- The number of a code point, by which texts are ordered. -/
def number : CodePoint → Nat
  | .char c => c.toNat
  | .half code => code

/-- The code point of a number below the end of all. -/
def ofNumber (code : Nat) : CodePoint :=
  if code.isValidChar then .char (Char.ofNat code) else .half code

/-- Whether a number is the first half of a character. -/
def isHigh (code : Nat) : Bool := 0xd800 ≤ code && code < 0xdc00

/-- Whether a number is the second half of a character. -/
def isLow (code : Nat) : Bool := 0xdc00 ≤ code && code < 0xe000

/-- The character of two halves. -/
def ofHalves (high low : Nat) : Char :=
  Char.ofNat (0x10000 + (high - 0xd800) * 0x400 + (low - 0xdc00))

end CodePoint

/-- A text in which halves of characters may stand apart. -/
abbrev Points := List CodePoint

namespace Points

/-- The characters of a text as code points. -/
def ofChars (cs : List Char) : Points := cs.map .char

/-- A text without halves. -/
def ofString (s : String) : Points := ofChars s.toList

/-- What stands for a half that has no other half beside it. -/
def lone : Char := '\ufffd'

/-- The characters that a text looks like, after a first half that waits for the second. -/
def charsAfter : Option Nat → Points → List Char
  | none, [] => []
  | some _, [] => [lone]
  | none, .char c :: rest => c :: charsAfter none rest
  | some _, .char c :: rest => lone :: c :: charsAfter none rest
  | none, .half code :: rest =>
    if CodePoint.isHigh code then charsAfter (some code) rest else lone :: charsAfter none rest
  | some high, .half code :: rest =>
    if CodePoint.isLow code then CodePoint.ofHalves high code :: charsAfter none rest
    else lone :: charsAfter (some code) rest

/-- The characters that a text looks like. -/
def toChars (s : Points) : List Char := charsAfter none s

/-- What a text looks like. -/
def toString (s : Points) : String := String.ofList s.toChars

theorem toChars_ofChars (cs : List Char) : toChars (ofChars cs) = cs := by
  unfold toChars
  induction cs with
  | nil => rfl
  | cons c cs ih => simpa [ofChars, charsAfter] using ih

/-- A text without halves is shown as it is. -/
theorem toString_ofString (s : String) : toString (ofString s) = s := by
  simp [toString, ofString, toChars_ofChars]

/-- Whether a text comes before another, code point by code point. -/
def isBefore (a b : Points) : Bool := a.map (·.number) < b.map (·.number)

/-- Whether a text has halves in it. -/
def hasHalves (s : Points) : Bool :=
  s.any fun
    | .half _ => true
    | .char _ => false

end Points

end SystemMap.Text
