/-
A settings file cut into tokens. The state holds the indentation of the blocks that are
open, how deep in brackets the cursor is, and for each depth the place where a key may have
started: only the colon after it tells that it was one, and then the tokens for a key, and
for the mapping it may open, go in before it. A key stays on one line and is not longer than
1024 characters. Where a key has to be and no colon comes, the file is not well-formed.

A code that belongs to no character breaks the tokens off. What came before is settled as far
as no key may have started there, and no further.
-/
import SystemMap.Yaml.Token.Scalar

namespace SystemMap.Yaml

/-- A place where a key may have started: how many tokens came before it, where it is, and
whether it has to be a key. -/
structure KeyPlace where
  tokens : Nat
  required : Bool
  index : Nat
  line : Nat
  column : Nat

/-- The state of the scan. -/
structure ScanState where
  cursor : Cursor
  /-- How many brackets are open. -/
  depth : Nat
  /-- The columns of the open blocks, the innermost first. -/
  blocks : List Nat
  /-- Whether a key may start here. -/
  keyAllowed : Bool
  /-- Where keys may have started, by depth. -/
  keys : List (Nat × KeyPlace)
  tokens : List Token

namespace ScanState

/-- The indentation in force; below zero outside all blocks. -/
def indent (s : ScanState) : Int :=
  match s.blocks with
  | [] => -1
  | column :: _ => column

/-- Adds a token. -/
def emit (s : ScanState) (t : Token) : ScanState := { s with tokens := s.tokens ++ [t] }

/-- Moves the cursor. -/
def forward (s : ScanState) (n : Nat) : ScanState := { s with cursor := s.cursor.forward n }

/-- Says whether a key may start next. -/
def allowKey (s : ScanState) (b : Bool) : ScanState := { s with keyAllowed := b }

-- ================================================================= blocks

/-- Closes the blocks that are indented more than a column. -/
def closeBlocks (s : ScanState) (column : Int) : ScanState :=
  if s.depth ≠ 0 then s
  else
    let closed := s.blocks.takeWhile fun (c : Nat) => column < (c : Int)
    { s with
      blocks := s.blocks.drop closed.length
      tokens := s.tokens ++ closed.map fun _ => .blockEnd }

/-- Opens a block at a column if none is open that is indented as much, with its token put
after `count` tokens. -/
def openBlock (s : ScanState) (column : Nat) (t : Token) (count : Nat) : ScanState :=
  if s.indent < column then
    { s with
      blocks := column :: s.blocks
      tokens := s.tokens.take count ++ t :: s.tokens.drop count }
  else s

-- =================================================================== keys

/-- The key that may have started at the depth of the cursor. -/
def key? (s : ScanState) : Option KeyPlace := s.keys.lookup s.depth

/-- Gives up the key at the depth of the cursor, unless it has to be one. -/
def dropKey (s : ScanState) : Except Fault ScanState :=
  if s.key?.any (·.required) then .error .malformed
  else .ok { s with keys := s.keys.filter (·.1 ≠ s.depth) }

/-- Whether a key is on an earlier line than the cursor, or too long. -/
def isStale (s : ScanState) (k : KeyPlace) : Bool :=
  k.line ≠ s.cursor.line || 1024 < s.cursor.index - k.index

/-- Gives up keys that are stale, unless one has to be a key. -/
def dropStaleKeys (s : ScanState) : Except Fault ScanState :=
  if s.keys.any fun k => s.isStale k.2 && k.2.required then .error .malformed
  else .ok { s with keys := s.keys.filter fun k => !s.isStale k.2 }

/-- The tokens before every place where a key may have started. -/
def settled (s : ScanState) : List Token :=
  let live := s.keys.filter fun k => !s.isStale k.2
  s.tokens.take ((live.map fun k => k.2.tokens).foldl min s.tokens.length)

/-- Notes that a key may start at the cursor. -/
def noteKey (s : ScanState) : Except Fault ScanState :=
  if s.keyAllowed then do
    let required := s.depth = 0 && s.indent = s.cursor.column
    let place : KeyPlace :=
      ⟨s.tokens.length, required, s.cursor.index, s.cursor.line, s.cursor.column⟩
    let s ← s.dropKey
    return { s with keys := (s.depth, place) :: s.keys }
  else return s

-- ================================================================ gaps

/-- Past blanks, comments and line breaks. After a line break outside brackets a key may
start. -/
def skipGaps : Nat → ScanState → ScanState
  | 0, s => s
  | rounds + 1, s =>
    let c := s.cursor.skipWhile (· = ' ')
    let c := if c.head? = some '#' then c.skipWhile fun ch => !isBreak ch else c
    if c.head?.any isBreak then
      skipGaps rounds { s with cursor := c.step, keyAllowed := s.keyAllowed || s.depth = 0 }
    else { s with cursor := c }

-- ================================================================= tokens

/-- A marker that bounds documents. -/
def scanBoundary (s : ScanState) (t : Token) : Except Fault ScanState := do
  let s ← (s.closeBlocks (-1)).dropKey
  return ((s.allowKey false).forward 3).emit t

/-- An opening bracket. -/
def scanOpen (s : ScanState) (t : Token) : Except Fault ScanState := do
  let s ← s.noteKey
  return (({ s with depth := s.depth + 1 }.allowKey true).forward 1).emit t

/-- A closing bracket. -/
def scanClose (s : ScanState) (t : Token) : Except Fault ScanState := do
  let s ← s.dropKey
  return (({ s with depth := s.depth - 1 }.allowKey false).forward 1).emit t

/-- A comma. -/
def scanComma (s : ScanState) : Except Fault ScanState := do
  let s ← (s.allowKey true).dropKey
  return (s.forward 1).emit .comma

/-- The dash before an item. -/
def scanItem (s : ScanState) : Except Fault ScanState := do
  if s.depth = 0 && !s.keyAllowed then throw .malformed
  let s := if s.depth = 0 then s.openBlock s.cursor.column .blockList s.tokens.length else s
  let s ← (s.allowKey true).dropKey
  return (s.forward 1).emit .item

/-- The question mark before a key. -/
def scanKey (s : ScanState) : Except Fault ScanState := do
  if s.depth = 0 && !s.keyAllowed then throw .malformed
  let s := if s.depth = 0 then s.openBlock s.cursor.column .blockMapping s.tokens.length else s
  let s ← (s.allowKey (s.depth = 0)).dropKey
  return (s.forward 1).emit .key

/-- The colon before a value. -/
def scanValue (s : ScanState) : Except Fault ScanState :=
  match s.key? with
  | some k =>
    let s := { s with
      keys := s.keys.filter (·.1 ≠ s.depth)
      tokens := s.tokens.take k.tokens ++ Token.key :: s.tokens.drop k.tokens }
    let s := if s.depth = 0 then s.openBlock k.column .blockMapping k.tokens else s
    .ok (((s.allowKey false).forward 1).emit .value)
  | none => do
    if s.depth = 0 && !s.keyAllowed then throw .malformed
    let s := if s.depth = 0 then s.openBlock s.cursor.column .blockMapping s.tokens.length else s
    let s ← (s.allowKey (s.depth = 0)).dropKey
    return (s.forward 1).emit .value

/-- A scalar in quotes. -/
def scanQuotedToken (s : ScanState) (quote : Char) : Except Fault ScanState := do
  let s ← s.noteKey
  let c := s.cursor.step
  let (text, after) ← scanQuoted quote (c.rest.length + 1) c
  return { s.allowKey false with cursor := after }.emit (.quoted text)

/-- A scalar without quotes. -/
def scanPlainToken (s : ScanState) : Except Fault ScanState := do
  let s ← s.noteKey
  let (text, broken, after) :=
    scanPlain (s.depth ≠ 0) (s.indent + 1) (s.cursor.rest.length + 1) [] s.cursor
  return { s.allowKey broken with cursor := after }.emit (.plain (String.ofList text))

/-- Whether a scalar without quotes can start with a character before another. -/
def startsPlain (inFlow : Bool) (c : Char) (next : Option Char) : Bool :=
  let signs := ['-', '?', ':', ',', '[', ']', '\x7b', '\x7d', '#', '&', '*', '!', '|', '>',
    '\'', '"', '%', '@', '\x60']
  (!isGap c && !signs.contains c) ||
    (!isGapOrEnd next && (c = '-' || (!inFlow && (c = '?' || c = ':'))))

/-- The token that starts with `c`. Directives, anchors, aliases, tags and block scalars are
no part of a settings file. -/
def scanToken (s : ScanState) (c : Char) : Except Fault ScanState :=
  let next := s.cursor.peek? 1
  let inFlow := s.depth ≠ 0
  if s.cursor.column = 0 && s.cursor.atMarker '-' then s.scanBoundary .documentStart
  else if s.cursor.column = 0 && s.cursor.atMarker '.' then s.scanBoundary .documentEnd
  else if c = '[' then s.scanOpen .openList
  else if c = '\x7b' then s.scanOpen .openMapping
  else if c = ']' then s.scanClose .closeList
  else if c = '\x7d' then s.scanClose .closeMapping
  else if c = ',' then s.scanComma
  else if c = '-' && isGapOrEnd next then s.scanItem
  else if c = '?' && (inFlow || isGapOrEnd next) then s.scanKey
  else if c = ':' && (inFlow || isGapOrEnd next) then s.scanValue
  else if c = '\'' || c = '"' then s.scanQuotedToken c
  else if startsPlain inFlow c next then s.scanPlainToken
  else .error .malformed

/-- The tokens from a state on, each round taking one. -/
def run : Nat → ScanState → Except Fault (List Token)
  | 0, _ => .error .malformed
  | rounds + 1, before => do
    let s := skipGaps (before.cursor.rest.length + 1) before
    let s ← s.dropStaleKeys
    match s.cursor.head? with
    | none =>
      let s ← (s.closeBlocks (-1)).dropKey
      return s.tokens
    | some c =>
      match (s.closeBlocks s.cursor.column).scanToken c with
      | .ok next => run rounds next
      | .error .malformed => throw .malformed
      | .error fault => return before.settled ++ [.broken fault]

end ScanState

/-- The tokens of a text. A character that may not stand in a file spoils all of it. -/
def tokens (text : String) : Except Fault (List Token) :=
  let cs := text.toList
  if cs.all isAllowed then
    let cursor := Cursor.start (unifyBreaks cs)
    ScanState.run (cs.length + 1) ⟨cursor, 0, [], true, [], []⟩
  else .error .malformed

end SystemMap.Yaml
