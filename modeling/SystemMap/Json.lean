/-
JSON values. Whole numbers are exact and unbounded and are told apart from doubles, because
a place in a text and a port are whole while a coordinate is not. An object keeps its fields
in the order in which they were put; no key stands twice.
-/
namespace SystemMap

/-- A JSON value. -/
inductive Json where
  | null
  | bool (b : Bool)
  | int (n : Int)
  | real (x : Float)
  | text (s : String)
  | array (items : List Json)
  | object (fields : List (String × Json))

namespace Json

/-- A text, or null for an absent one. -/
def ofText? : Option String → Json
  | none => .null
  | some s => .text s

/-- The image of an optional value, or null. -/
def ofOption {α : Type} (f : α → Json) : Option α → Json
  | none => .null
  | some a => f a

/-- The array of the images of some values. -/
def ofList {α : Type} (f : α → Json) (as : List α) : Json := .array (as.map f)

end Json

end SystemMap
