/-
A text cut into tokens. `Piece.cut` takes the longest piece off the front of a text that is
not empty: a token, a blank or a comment. `scan` repeats it, keeping count of lines and
columns, and every piece is a slice of the text (`Piece.cut_append`), so nothing of the text
is lost between two pieces.

The one rule that looks at more than a piece's own characters is that of `#`: it marks a
section if the word right after it names one, in any letter case, and starts a comment up to
the end of the line otherwise.
-/
import SystemMap.Text.Quoted
import SystemMap.Token

namespace SystemMap

-- ============================================================ characters

/-- Characters between tokens. -/
def isSpace (c : Char) : Bool := c = ' ' || c = '\t' || c = '\r' || c = '\n'

/-- A decimal digit. -/
def isDigit (c : Char) : Bool := '0' ≤ c && c ≤ '9'

/-- A character that starts a word: a letter of the Latin alphabet or an underscore. -/
def isWordStart (c : Char) : Bool := c = '_' || ('a' ≤ c && c ≤ 'z') || ('A' ≤ c && c ≤ 'Z')

/-- A character inside a word. -/
def isWordPart (c : Char) : Bool := isWordStart c || isDigit c

/-- A word in lower case. -/
def lowerWord (w : List Char) : List Char := w.map Char.toLower

/-- The section that a word marks after `#`. -/
def Section.ofWord? (w : List Char) : Option Section :=
  Section.all.find? fun s => lowerWord w = s.keyword.toList

/-- A word is a name unless it is, in any letter case, one of the two keywords. -/
def TokenKind.ofWord (w : List Char) : TokenKind :=
  if lowerWord w = "include".toList then .includeWord
  else if lowerWord w = "udp".toList then .udpWord
  else .name

/-- The signs that are tokens by themselves. -/
def TokenKind.ofSign? (c : Char) : Option TokenKind :=
  match c with
  | '(' => some .leftParen
  | ')' => some .rightParen
  | ',' => some .comma
  | '.' => some .dot
  | '*' => some .star
  | '@' => some .at
  | _ => none

-- ================================================================ pieces

/-- Why a text cannot be cut. -/
inductive ScanFault where
  /-- A quoted text without its closing quote. -/
  | unterminatedText
  /-- A character that nothing starts with. -/
  | unexpected (c : Char)
deriving DecidableEq

/-- What a message says about a fault. -/
def ScanFault.message : ScanFault → String
  | .unterminatedText => "Unterminated string literal"
  | .unexpected c => "Unexpected character: " ++ Text.quote (String.ofList [c])

/-- A piece off the front of a text: the token that it is, if any, the characters taken and
those left. -/
structure Piece where
  token : Option (TokenKind × List Char)
  taken : List Char
  rest : List Char

namespace Piece

/-- The piece that starts with `#`, before `cs`. -/
def ofHash (cs : List Char) : Piece :=
  let word := cs.takeWhile isWordPart
  match Section.ofWord? word with
  | some s => ⟨some (.marker s, word), '#' :: word, cs.dropWhile isWordPart⟩
  | none => ⟨none, '#' :: cs.takeWhile (· ≠ '\n'), cs.dropWhile (· ≠ '\n')⟩

/-- The piece that starts with a quote, before `cs`: all up to the next quote. -/
def ofQuote (cs : List Char) : Except ScanFault Piece :=
  let body := cs.takeWhile (· ≠ '"')
  match cs.dropWhile (· ≠ '"') with
  | _ :: rest => .ok ⟨some (.text, body), '"' :: body ++ ['"'], rest⟩
  | [] => .error .unterminatedText

/-- The longest piece at the front of `c :: cs`. -/
def cut (c : Char) (cs : List Char) : Except ScanFault Piece :=
  if isSpace c then .ok ⟨none, [c], cs⟩
  else if c = '#' then .ok (ofHash cs)
  else if isWordStart c then
    let word := c :: cs.takeWhile isWordPart
    .ok ⟨some (.ofWord word, word), word, cs.dropWhile isWordPart⟩
  else if isDigit c then
    let digits := c :: cs.takeWhile isDigit
    .ok ⟨some (.number, digits), digits, cs.dropWhile isDigit⟩
  else if c = '"' then ofQuote cs
  else match TokenKind.ofSign? c with
    | some kind => .ok ⟨some (kind, [c]), [c], cs⟩
    | none =>
      match c, cs with
      | ':', ':' :: rest => .ok ⟨some (.doubleColon, [':', ':']), [':', ':'], rest⟩
      | '-', '>' :: rest => .ok ⟨some (.arrow, ['-', '>']), ['-', '>'], rest⟩
      | '-', rest => .ok ⟨some (.dash, ['-']), ['-'], rest⟩
      | c, _ => .error (.unexpected c)

/-- The head of what `dropWhile` leaves fails the test. -/
private theorem head_dropWhile_quote {cs rest : List Char} {c : Char}
    (h : cs.dropWhile (· ≠ '"') = c :: rest) : c = '"' := by
  induction cs with
  | nil => simp at h
  | cons d ds ih =>
    rw [List.dropWhile_cons] at h
    split at h
    · exact ih h
    · next hd =>
      obtain ⟨rfl, -⟩ := List.cons.inj h
      simpa using hd

/-- A piece and what it leaves are the text that was cut, and a piece is not empty. -/
theorem cut_append {c : Char} {cs : List Char} {p : Piece} (h : cut c cs = .ok p) :
    p.taken ++ p.rest = c :: cs ∧ p.taken ≠ [] := by
  unfold cut at h
  split at h
  · cases h; simp
  split at h
  · rename_i hc
    cases h
    unfold ofHash
    dsimp only
    split <;> simp [hc, List.takeWhile_append_dropWhile]
  split at h
  · cases h; simp [List.takeWhile_append_dropWhile]
  split at h
  · cases h; simp [List.takeWhile_append_dropWhile]
  split at h
  · rename_i hc
    unfold ofQuote at h
    dsimp only at h
    split at h
    · next d rest hd =>
      cases h
      have hq := head_dropWhile_quote hd
      have hs := List.takeWhile_append_dropWhile (p := (· ≠ '"')) (l := cs)
      rw [hd, hq] at hs
      simp only [List.append_assoc, List.cons_append, List.nil_append, hs, hc]
      simp
    · cases h
  split at h
  · cases h; simp
  · split at h <;> cases h <;> simp

theorem cut_shorter {c : Char} {cs : List Char} {p : Piece} (h : cut c cs = .ok p) :
    p.rest.length < (c :: cs).length := by
  obtain ⟨happ, hne⟩ := cut_append h
  have hlen := congrArg List.length happ
  have hpos := List.length_pos_iff.2 hne
  simp only [List.length_append] at hlen
  omega

end Piece

-- ================================================================ texts

/-- A fault and the place of the character it is about. -/
structure ScanError where
  fault : ScanFault
  position : Position
deriving DecidableEq

/-- What a message says about an error: place first. -/
def atPlace (p : Position) (text : String) : String :=
  "Line " ++ toString p.line ++ ", column " ++ toString p.column ++ ": " ++ text

/-- The message of an error. -/
def ScanError.message (e : ScanError) : String := atPlace e.position e.fault.message

/-- Puts the token of a piece that starts at `p`, if it is one, before other tokens. -/
def Piece.consTo (piece : Piece) (p : Position) (ts : Tokens) : Tokens :=
  match piece.token with
  | some (kind, value) => { ts with list := ⟨kind, String.ofList value, p⟩ :: ts.list }
  | none => ts

/-- The tokens of the part of a text that starts at `p`. -/
def scanFrom (p : Position) (cs : List Char) : Except ScanError Tokens :=
  match cs with
  | [] => .ok ⟨[], p⟩
  | c :: cs =>
    match _h : Piece.cut c cs with
    | .error fault => .error ⟨fault, p⟩
    | .ok piece =>
      match scanFrom (p.after piece.taken) piece.rest with
      | .error e => .error e
      | .ok ts => .ok (piece.consTo p ts)
termination_by cs.length
decreasing_by exact Piece.cut_shorter _h

/-- The tokens of a text. -/
def scan (text : String) : Except ScanError Tokens := scanFrom .origin text.toList

end SystemMap
