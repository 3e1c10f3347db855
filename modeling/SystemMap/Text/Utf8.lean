/-
Bytes read as text. Every character is encoded by its shortest form, no surrogate is
encoded, and nothing stands for a malformed sequence: the first one is the answer, with
the place and the reason. The malformed sequence is the longest run of bytes that some
character's encoding starts with, and never less than one byte.

`decode` is one pass that is either between two characters or inside one (`Phase`).
-/
namespace SystemMap.Text.Utf8

-- ================================================================== faults

/-- Why bytes stand for no character. -/
inductive Reason where
  /-- No encoding starts with this byte. -/
  | start
  /-- The next byte cannot stand where it stands. -/
  | continuation
  /-- The bytes end inside a character. -/
  | cutShort
deriving DecidableEq

/-- The wording of a reason. -/
def Reason.phrase : Reason → String
  | .start => "invalid start byte"
  | .continuation => "invalid continuation byte"
  | .cutShort => "unexpected end of data"

/-- The first malformed sequence: its offset, its first byte, how many bytes follow that
byte in it, and what is wrong with it. -/
structure Fault where
  offset : Nat
  byte : UInt8
  following : Nat
  reason : Reason
deriving DecidableEq

/-- A digit of lower-case hexadecimal. -/
def hexDigit (n : Nat) : Char := Nat.digitChar (n % 16)

/-- What a message says about a malformed sequence: one byte is shown by its value, several
by their place alone. -/
def Fault.message (f : Fault) : String :=
  let place :=
    if f.following = 0 then
      "byte 0x" ++ String.ofList [hexDigit (f.byte.toNat / 16), hexDigit f.byte.toNat] ++
        " in position " ++ toString f.offset
    else
      "bytes in position " ++ toString f.offset ++ "-" ++ toString (f.offset + f.following)
  "'utf-8' codec can't decode " ++ place ++ ": " ++ f.reason.phrase

-- ================================================================ decoding

/-- What the first byte of a longer encoding fixes: the bits it carries, how many bytes
follow it, and the range of the first of these. The range is what rules out forms longer
than needed, surrogates and code points past the last. -/
structure Lead where
  bits : Nat
  following : Nat
  low : UInt8
  high : UInt8

/-- The lead that a byte is, if any. -/
def Lead.ofByte? (b : UInt8) : Option Lead :=
  if 0xc2 ≤ b ∧ b ≤ 0xdf then some ⟨b.toNat - 0xc0, 1, 0x80, 0xbf⟩
  else if b = 0xe0 then some ⟨0, 2, 0xa0, 0xbf⟩
  else if b = 0xed then some ⟨0xd, 2, 0x80, 0x9f⟩
  else if 0xe1 ≤ b ∧ b ≤ 0xef then some ⟨b.toNat - 0xe0, 2, 0x80, 0xbf⟩
  else if b = 0xf0 then some ⟨0, 3, 0x90, 0xbf⟩
  else if 0xf1 ≤ b ∧ b ≤ 0xf3 then some ⟨b.toNat - 0xf0, 3, 0x80, 0xbf⟩
  else if b = 0xf4 then some ⟨4, 3, 0x80, 0x8f⟩
  else none

/-- Where a pass stands. -/
inductive Phase where
  /-- Between two characters. -/
  | between
  /-- Inside the character that starts with byte `first`: `value` holds the bits read,
  `taken` bytes follow `first` so far, `left` are missing, and the next of them lies between
  `low` and `high`. -/
  | inside (first : UInt8) (value taken left : Nat) (low high : UInt8)

/-- Reads the bytes from offset `offset` on. -/
def decodeFrom (offset : Nat) : Phase → List UInt8 → Except Fault (List Char)
  | .between, [] => .ok []
  | .inside first _ taken _ _ _, [] =>
    .error ⟨offset - (taken + 1), first, taken, .cutShort⟩
  | .between, b :: rest =>
    if b < 0x80 then do return Char.ofNat b.toNat :: (← decodeFrom (offset + 1) .between rest)
    else match Lead.ofByte? b with
      | none => .error ⟨offset, b, 0, .start⟩
      | some lead =>
        decodeFrom (offset + 1) (.inside b lead.bits 0 lead.following lead.low lead.high) rest
  | .inside first value taken left low high, b :: rest =>
    if low ≤ b ∧ b ≤ high then
      let value := 64 * value + (b.toNat - 0x80)
      if left ≤ 1 then do
        return Char.ofNat value :: (← decodeFrom (offset + 1) .between rest)
      else decodeFrom (offset + 1) (.inside first value (taken + 1) (left - 1) 0x80 0xbf) rest
    else .error ⟨offset - (taken + 1), first, taken, .continuation⟩

/-- The text that bytes encode. -/
def decode (bytes : List UInt8) : Except Fault String :=
  (decodeFrom 0 .between bytes).map String.ofList

/-- The bytes that encode a text. -/
def encode (text : String) : List UInt8 := text.toUTF8.toList

/-- Line ends made uniform: a carriage return, alone or with the line feed after it,
becomes one line feed. -/
def uniformLines : List Char → List Char
  | '\r' :: '\n' :: rest => '\n' :: uniformLines rest
  | '\r' :: rest => '\n' :: uniformLines rest
  | c :: rest => c :: uniformLines rest
  | [] => []

end SystemMap.Text.Utf8
