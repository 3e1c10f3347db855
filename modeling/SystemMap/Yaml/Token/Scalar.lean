/-
Scalars. One without quotes goes on until a colon before a gap, a comment, or a line that is
not indented enough; one in quotes goes on until its quote. Over a line break both fold: a
single break is a blank, and of several all but the first stay.
-/
import SystemMap.Yaml.Plain
import SystemMap.Yaml.Token

namespace SystemMap.Yaml

-- ================================================================ folding

/-- What line breaks inside a scalar stand for: the first one and those after it. -/
def fold (first : Char) (more : List Char) : List Char :=
  if first ≠ '\n' then first :: more
  else if more.isEmpty then [' ']
  else more

/-- The line breaks of blank lines, with the blanks between them taken. In quotes, a marker
that bounds documents may not stand at the start of a line. -/
def blankLines (isBlank : Char → Bool) (stopsAtBoundary : Bool) :
    Nat → Cursor → List Char × Cursor
  | 0, c => ([], c)
  | rounds + 1, c =>
    if stopsAtBoundary && c.column = 0 && c.atBoundary then ([], c)
    else
      let c := c.skipWhile isBlank
      match c.head? with
      | some ch =>
        if isBreak ch then
          let (more, c) := blankLines isBlank stopsAtBoundary rounds c.step
          (ch :: more, c)
        else ([], c)
      | none => ([], c)

-- ========================================================= without quotes

/-- Whether a scalar without quotes ends before the characters at hand. -/
def endsPlain (inFlow : Bool) : List Char → Bool
  | [] => true
  | c :: rest =>
    isGap c ||
      (c = ':' && (isGapOrEnd rest.head? ||
        (inFlow && rest.head?.any [',', '[', ']', '\x7b', '\x7d'].contains))) ||
      (inFlow && [',', '?', '[', ']', '\x7b', '\x7d'].contains c)

/-- The characters of a scalar up to the next gap or to its end. -/
def plainWord (inFlow : Bool) : List Char → List Char
  | [] => []
  | c :: rest => if endsPlain inFlow (c :: rest) then [] else c :: plainWord inFlow rest

/-- What stands between two words of a scalar: the gap, folded, and whether it has a line
break. A gap that a marker of document bounds follows ends the scalar. -/
structure PlainGap where
  text : List Char
  broken : Bool
  after : Cursor

/-- The gap at the cursor. -/
def plainGap (c : Cursor) : PlainGap :=
  let blanks := c.rest.takeWhile (· = ' ')
  let past := c.forward blanks.length
  match past.head? with
  | some ch =>
    if isBreak ch then
      let next := past.step
      if next.atBoundary then ⟨[], true, next⟩
      else
        let (more, after) := blankLines (· = ' ') true next.rest.length next
        if after.column = 0 && after.atBoundary then ⟨[], true, after⟩
        else ⟨fold ch more, true, after⟩
    else ⟨blanks, false, past⟩
  | none => ⟨blanks, false, past⟩

/-- The text of a scalar without quotes that has to be indented by `indent`, whether a line
break was its last gap, and the cursor behind it. -/
def scanPlain (inFlow : Bool) (indent : Int) : Nat → List Char → Cursor → List Char × Bool × Cursor
  | 0, _, c => ([], false, c)
  | rounds + 1, gap, c =>
    let word := if c.head? = some '#' then [] else plainWord inFlow c.rest
    if word.isEmpty then ([], false, c)
    else
      let next := plainGap (c.forward word.length)
      if next.text.isEmpty || next.after.head? = some '#' ||
          (!inFlow && next.after.column < indent) then
        (gap ++ word, next.broken, next.after)
      else
        let (more, broken, after) := scanPlain inFlow indent rounds next.text next.after
        (gap ++ word ++ more, if more.isEmpty then next.broken else broken, after)

-- ============================================================== in quotes

/-- The escapes of one letter. -/
def escape? : Char → Option Char
  | '0' => some '\x00'
  | 'a' => some '\x07'
  | 'b' => some '\x08'
  | 't' | '\t' => some '\t'
  | 'n' => some '\n'
  | 'v' => some '\x0b'
  | 'f' => some '\x0c'
  | 'r' => some '\r'
  | 'e' => some '\x1b'
  | ' ' => some ' '
  | '"' => some '"'
  | '\\' => some '\\'
  | '/' => some '/'
  | 'N' => some '\u0085'
  | '_' => some '\u00a0'
  | 'L' => some '\u2028'
  | 'P' => some '\u2029'
  | _ => none

/-- How many digits of a code follow a letter. -/
def codeLength? : Char → Option Nat
  | 'x' => some 2
  | 'u' => some 4
  | 'U' => some 8
  | _ => none

/-- The number that a code of `n` digits writes. -/
def codeOf (n : Nat) (ds : List Char) : Except Fault Nat :=
  if ds.length = n && ds.all Plain.isHexDigit then .ok (Plain.inBase 16 ds)
  else .error .malformed

/-- The code point that a code stands for. -/
def ofCode (code : Nat) : Except Fault Text.CodePoint :=
  if 0x7fffffff < code then .error .wideCode
  else if 0x110000 ≤ code then .error .noCharacter
  else .ok (.ofNumber code)

/-- The text up to the closing quote, and the cursor behind it. -/
def scanQuoted (quote : Char) : Nat → Cursor → Except Fault (Text.Points × Cursor)
  | 0, _ => .error .malformed
  | rounds + 1, c => do
    let put := fun (text : Text.Points) (after : Cursor) => do
      let (more, last) ← scanQuoted quote rounds after
      return (text ++ more, last)
    let putChars := fun (cs : List Char) => put (.ofChars cs)
    let isSpace := fun c => c = ' ' || c = '\t'
    match c.rest with
    | [] => throw .malformed
    | ch :: rest =>
      if ch = quote then
        if quote = '\'' && rest.head? = some '\'' then putChars ['\''] (c.forward 2)
        else return ([], c.step)
      else if quote = '"' && ch = '\\' then
        match rest with
        | [] => throw .malformed
        | e :: rest =>
          match escape? e, codeLength? e with
          | some d, _ => putChars [d] (c.forward 2)
          | none, some n =>
            let d ← ofCode (← codeOf n (rest.take n))
            put [d] (c.forward (2 + n))
          | none, none =>
            if isBreak e then
              let (more, after) := blankLines isSpace true rounds (c.forward 2)
              if after.column = 0 && after.atBoundary then throw .malformed else putChars more after
            else throw .malformed
      else if isGap ch then
        let blanks := c.rest.takeWhile isSpace
        let past := c.forward blanks.length
        match past.head? with
        | none => throw .malformed
        | some b =>
          if isBreak b then
            let (more, after) := blankLines isSpace true rounds past.step
            if after.column = 0 && after.atBoundary then throw .malformed
            else putChars (fold b more) after
          else putChars blanks past
      else putChars [ch] c.step

end SystemMap.Yaml
