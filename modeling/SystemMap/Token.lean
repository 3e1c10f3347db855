/-
Tokens of a system description. A description is cut into words, numbers, quoted texts,
signs and section markers; blanks and comments leave nothing behind. A sequence of tokens
ends at the place just past the last character, which is not a token of its own: reading
past the last token finds the end there.
-/
import SystemMap.Position

namespace SystemMap

/-- The sections of a description. Each gives its own meaning to the words that follow. -/
inductive Section where
  | nodeClasses
  | linkClasses
  | instances
  | nats
  | connections
deriving DecidableEq

/-- The word that marks a section, in lower case. -/
def Section.keyword : Section → String
  | .nodeClasses => "nodeclass"
  | .linkClasses => "linkclass"
  | .instances => "instances"
  | .nats => "nats"
  | .connections => "connections"

/-- All sections. -/
def Section.all : List Section := [.nodeClasses, .linkClasses, .instances, .nats, .connections]

/-- What a token is. -/
inductive TokenKind where
  | marker (s : Section)
  | includeWord
  | udpWord
  | leftParen
  | rightParen
  | comma
  | doubleColon
  | dot
  | arrow
  | dash
  | star
  | at
  | text
  | number
  | name
deriving DecidableEq

/-- The name of a kind in messages. -/
def TokenKind.label : TokenKind → String
  | .marker .nodeClasses => "SECTION_NODECLASS"
  | .marker .linkClasses => "SECTION_LINKCLASS"
  | .marker .instances => "SECTION_INSTANCES"
  | .marker .nats => "SECTION_NATS"
  | .marker .connections => "SECTION_CONNECTIONS"
  | .includeWord => "INCLUDE"
  | .udpWord => "UDP"
  | .leftParen => "LPAREN"
  | .rightParen => "RPAREN"
  | .comma => "COMMA"
  | .doubleColon => "DOUBLE_COLON"
  | .dot => "DOT"
  | .arrow => "ARROW"
  | .dash => "DASH"
  | .star => "STAR"
  | .at => "AT"
  | .text => "STRING"
  | .number => "NUMBER"
  | .name => "IDENTIFIER"

/-- The name of what stands at a place: a kind of token, or the end of the text. -/
def TokenKind.labelOrEnd : Option TokenKind → String
  | some kind => kind.label
  | none => "EOF"

/-- A token. Its value is the text as written, without the `#` of a marker and without the
quotes of a quoted text. -/
structure Token where
  kind : TokenKind
  value : String
  position : Position
deriving DecidableEq

/-- The tokens of a text and the place just past its last character. -/
structure Tokens where
  list : List Token
  finish : Position
deriving DecidableEq

namespace Tokens

/-- The kind of the next token; `none` at the end. -/
def headKind? (ts : Tokens) : Option TokenKind := ts.list.head?.map (·.kind)

/-- The kind of the token after the next. -/
def secondKind? (ts : Tokens) : Option TokenKind := (ts.list.drop 1).head?.map (·.kind)

/-- Where the next token stands, or the text ends. -/
def position (ts : Tokens) : Position :=
  match ts.list with
  | t :: _ => t.position
  | [] => ts.finish

end Tokens

end SystemMap
