/-
What is taken over from the library of records: how single values are written and read. A whole
number, a text, and one of some named values are written and read as a codec says; what records
they are the fields of, and which of these may be left out, is told by the documents themselves.
`lenient` is the codec that the program runs with.
-/
import SystemMap.Json.Reading

namespace SystemMap.Json

/-- How single values are written and read. -/
structure Codec where
  ofInteger : Int → Json
  ofText : String → Json
  /-- Writes the name of a value. -/
  ofName : String → Json
  integer : Reader Int
  text : Reader String
  /-- One of some values, told by its name. -/
  choice : {α : Type} → (String → Option α) → Reader α
  /-- The same for a name that can only be the one that is meant. -/
  literal : {α : Type} → (String → Option α) → Reader α
  /-- The name that tells which kind of record follows. -/
  tag? : Json → Option String

/-- The codec that takes a number in a string or a truth value for a whole number. -/
def Codec.lenient : Codec where
  ofInteger := .int
  ofText := .text
  ofName := .text
  integer := readInteger
  text := readText
  choice := readChoice
  literal := readLiteral
  tag?
    | .text name => some name
    | _ => none

/-- The field that names the kind of a record. It may be left out, but if it is there, it
holds the one right name. -/
def Fields.kind (c : Codec) (fields : Fields) (name : String) : Checked Unit :=
  fields.optional "kind" () (c.literal fun s => if s = name then some () else none)

end SystemMap.Json
