/-
Results of reading that gather issues. Reading does not stop at the first problem: every
issue is reported with the path that leads to it, in the order in which the fields of the
record are declared. A record is read as `Record.mk <$> field <*> field <*> …`.
-/
import SystemMap.Json

namespace SystemMap.Json

-- ================================================================= issues

/-- One step of a path into a value. -/
inductive Place where
  | key (name : String)
  | index (i : Nat)
deriving DecidableEq

/-- What is wrong with a value. -/
inductive Problem where
  | missing
  | notText
  | notInteger
  | badInteger
  /-- A whole number that is longer than one that is read. -/
  | longInteger
  | fractional
  /-- A double that is infinite, or no number, where a whole number is wanted. -/
  | unbounded
  | notReal
  | badReal
  | notList
  | notRecord
  | notTaggedRecord
  | noChoice
  | notLiteral
  | noTag
  | badTag
  /-- The fields are well-formed one by one but do not go together. -/
  | contradiction
deriving DecidableEq

/-- The word that stands for a problem in a report. -/
def Problem.code : Problem → String
  | .missing => "missing"
  | .notText => "string_type"
  | .notInteger => "int_type"
  | .badInteger => "int_parsing"
  | .longInteger => "int_parsing_size"
  | .fractional => "int_from_float"
  | .unbounded => "finite_number"
  | .notReal => "float_type"
  | .badReal => "float_parsing"
  | .notList => "list_type"
  | .notRecord => "model_type"
  | .notTaggedRecord => "model_attributes_type"
  | .noChoice => "enum"
  | .notLiteral => "literal_error"
  | .noTag => "union_tag_not_found"
  | .badTag => "union_tag_invalid"
  | .contradiction => "value_error"

/-- A problem and where it is. -/
structure Issue where
  path : List Place
  problem : Problem
deriving DecidableEq

/-- An issue seen from one step further out. -/
def Issue.under (place : Place) (issue : Issue) : Issue :=
  { issue with path := place :: issue.path }

-- ================================================================= results

/-- A value, or the issues that keep it from being one. -/
inductive Checked (α : Type) where
  | ok (value : α)
  | refused (issues : List Issue)
deriving DecidableEq

namespace Checked

variable {α β : Type}

/-- Refusal of a value for one problem at its own place. -/
def refuse (problem : Problem) : Checked α := .refused [⟨[], problem⟩]

/-- The issues of a result. -/
def issues : Checked α → List Issue
  | .ok _ => []
  | .refused is => is

/-- The image of a value. -/
def map (f : α → β) : Checked α → Checked β
  | .ok a => .ok (f a)
  | .refused is => .refused is

/-- A result seen from one step further out. -/
def under (place : Place) : Checked α → Checked α
  | .ok a => .ok a
  | .refused is => .refused (is.map (Issue.under place))

/-- What follows needs the value, so it is looked at only if there is one. -/
def andThen (f : α → Checked β) : Checked α → Checked β
  | .ok a => f a
  | .refused is => .refused is

instance : Functor Checked where
  map := Checked.map

/-- Two results side by side; issues of the left one come first. -/
instance : Applicative Checked where
  pure := .ok
  seq f x := match f with
    | .ok g => (x ()).map g
    | .refused is => .refused (is ++ (x ()).issues)

end Checked

/-- How values of a type are read. -/
abbrev Reader (α : Type) := Json → Checked α

end SystemMap.Json
