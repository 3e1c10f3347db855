/-
Whole numbers as texts write them. A numeral is an optional sign and decimal digits of any
script, with single underscores allowed between digits and blanks around the whole; one of
more than `digitLimit` digits is refused unread, whatever follows the digits. `read` is the
reader, `Fault` says why a text is none.

A digit sign is a wider notion: superscripts and circled digits are digit signs too, but
have no place in a numeral.
-/
import SystemMap.Text.Quoted

namespace SystemMap.Text

-- ========================================================= blanks and digits

/-- Ranges of the characters that count as blank around a numeral. -/
def blankRanges : List (Nat × Nat) :=
  [(0x0009, 0x000d), (0x0020, 0x0020), (0x0085, 0x0085), (0x00a0, 0x00a0), (0x1680, 0x1680),
   (0x2000, 0x200a), (0x2028, 0x2029), (0x202f, 0x202f), (0x205f, 0x205f), (0x3000, 0x3000)]

/-- A blank of any script, line ends included; the controls that separate records are none. -/
def isBlank (c : Char) : Bool := inRanges c.toNat blankRanges

/-- The zeros of the scripts that count in tens. The nine code points after a zero are the
other digits of its script. -/
def decimalZeros : List Nat :=
  [0x0030, 0x0660, 0x06f0, 0x07c0, 0x0966, 0x09e6, 0x0a66, 0x0ae6, 0x0b66, 0x0be6, 0x0c66,
   0x0ce6, 0x0d66, 0x0de6, 0x0e50, 0x0ed0, 0x0f20, 0x1040, 0x1090, 0x17e0, 0x1810, 0x1946,
   0x19d0, 0x1a80, 0x1a90, 0x1b50, 0x1bb0, 0x1c40, 0x1c50, 0xa620, 0xa8d0, 0xa900, 0xa9d0,
   0xa9f0, 0xaa50, 0xabf0, 0xff10, 0x104a0, 0x10d30, 0x11066, 0x110f0, 0x11136, 0x111d0,
   0x112f0, 0x11450, 0x114d0, 0x11650, 0x116c0, 0x11730, 0x118e0, 0x11950, 0x11c50, 0x11d50,
   0x11da0, 0x16a60, 0x16ac0, 0x16b50, 0x1d7ce, 0x1d7d8, 0x1d7e2, 0x1d7ec, 0x1d7f6, 0x1e140,
   0x1e2f0, 0x1e950, 0x1fbf0]

/-- Superscript, subscript, circled and other digits that do not count in tens. -/
def singleDigitRanges : List (Nat × Nat) :=
  [(0x00b2, 0x00b3), (0x00b9, 0x00b9), (0x1369, 0x1371), (0x19da, 0x19da), (0x2070, 0x2070),
   (0x2074, 0x2079), (0x2080, 0x2089), (0x2460, 0x2468), (0x2474, 0x247c), (0x2488, 0x2490),
   (0x24ea, 0x24ea), (0x24f5, 0x24fd), (0x24ff, 0x24ff), (0x2776, 0x277e), (0x2780, 0x2788),
   (0x278a, 0x2792), (0x10a40, 0x10a43), (0x10e60, 0x10e68), (0x11052, 0x1105a),
   (0x1f100, 0x1f10a)]

/-- The value of a decimal digit of any script. -/
def digitValue? (c : Char) : Option Nat :=
  (decimalZeros.find? fun z => z ≤ c.toNat && c.toNat ≤ z + 9).map (c.toNat - ·)

/-- A digit sign: a decimal digit, or a digit written as a sign of its own. -/
def isDigitSign (c : Char) : Bool :=
  (digitValue? c).isSome || inRanges c.toNat singleDigitRanges

/-- A text of digit signs only, and of at least one. -/
def isDigitText (s : List Char) : Bool := !s.isEmpty && s.all isDigitSign

/-- A text without the blanks at either end. -/
def trimBlanks (s : List Char) : List Char :=
  ((s.dropWhile isBlank).reverse.dropWhile isBlank).reverse

-- ================================================================== numerals

namespace Numeral

/-- Most digits a numeral is read or written with. -/
def digitLimit : Nat := 4300

/-- Why a number cannot be read from a text, or written as one. -/
inductive Fault where
  /-- The text is no numeral. -/
  | malformed (text : String)
  /-- The text is a numeral of too many digits. -/
  | tooLong (digits : Nat)
  /-- The number is too long to be written. -/
  | unwritable
deriving DecidableEq

/-- Most characters of a quoted text that a message shows. -/
def shownLength : Nat := 200

/-- What a message says about a fault. -/
def Fault.message : Fault → String
  | .malformed text => "invalid literal for int() with base 10: " ++
      String.ofList ((quote text).toList.take shownLength)
  | .tooLong digits =>
    "Exceeds the limit (4300 digits) for integer string conversion: value has " ++
      toString digits ++ " digits; use sys.set_int_max_str_digits() to increase the limit"
  | .unwritable => "Exceeds the limit (4300 digits) for integer string conversion; " ++
      "use sys.set_int_max_str_digits() to increase the limit"

/-- The digits of a numeral without sign and blanks: digits, with a single underscore
allowed between two of them. -/
def digits? : List Char → Option (List Nat)
  | [] => none
  | [c] => (digitValue? c).map ([·])
  | c :: '_' :: rest => do return (← digitValue? c) :: (← digits? rest)
  | c :: rest => do return (← digitValue? c) :: (← digits? rest)

/-- The number that digits write, the first digit weighing most. -/
def ofDigits (ds : List Nat) : Nat := ds.foldl (fun n d => 10 * n + d) 0

/-- Takes an optional sign off the front; `true` stands for minus. -/
def splitSign : List Char → Bool × List Char
  | '-' :: rest => (true, rest)
  | '+' :: rest => (false, rest)
  | rest => (false, rest)

/-- What the run of digits at the front of a numeral is made of. -/
def isRunPart (c : Char) : Bool := c = '_' || (digitValue? c).isSome

/-- The number that a text writes. Digits are counted before what follows them is looked
at, so a text that is wrong in both ways is too long. -/
def read (text : String) : Except Fault Int :=
  let (negative, body) := splitSign (text.toList.dropWhile isBlank)
  match digits? (body.takeWhile isRunPart) with
  | none => .error (.malformed text)
  | some ds =>
    if ds.length > digitLimit then .error (.tooLong ds.length)
    else if !(body.dropWhile isRunPart).all isBlank then .error (.malformed text)
    else .ok (if negative then -(ofDigits ds : Int) else ofDigits ds)

/-- Whether a number is short enough to be written. -/
def isWritable (n : Int) : Bool := n.natAbs < Nat.pow 10 digitLimit

end Numeral

end SystemMap.Text
