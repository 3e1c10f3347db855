/-
Paths. A path is an anchor and parts. Empty parts and single dots do not count, two dots
stay: what they mean depends on the files, which a path knows nothing of. A path with two
slashes at its front has an anchor of its own; three and more are one.

Settings can name directories that no file system has, with halves of characters in their
names. So the parts of a path are texts of code points.
-/
import SystemMap.Text.CodePoint
import SystemMap.Text.Split

namespace SystemMap

/-- What a path starts from. -/
inductive Anchor where
  | none
  | root
  | doubleRoot
deriving DecidableEq

/-- One part of a path. -/
abbrev Name := Text.Points

namespace Name

/-- The part that means the directory itself. -/
def here : Name := [.char '.']

/-- The part that means the directory above. -/
def above : Name := [.char '.', .char '.']

end Name

/-- A path. -/
structure Path where
  anchor : Anchor
  parts : List Name
deriving DecidableEq

namespace Path

/-- The sign between parts. -/
def slash : Text.CodePoint := .char '/'

/-- The anchor that a text starts with. -/
def anchorOf (s : Text.Points) : Anchor :=
  match (s.takeWhile (· = slash)).length with
  | 0 => .none
  | 2 => .doubleRoot
  | _ => .root

/-- The path that a text of code points writes. -/
def ofPoints (s : Text.Points) : Path where
  anchor := anchorOf s
  parts := (Text.splitAt slash s).filter fun p => p ≠ [] && p ≠ Name.here

/-- The path that a text writes. -/
def ofString (s : String) : Path := ofPoints (.ofString s)

/-- How an anchor is written. -/
def Anchor.text : Anchor → String
  | .none => ""
  | .root => "/"
  | .doubleRoot => "//"

/-- The text of a path; the empty path is a single dot. -/
def toString (p : Path) : String :=
  if p.anchor = .none && p.parts.isEmpty then "."
  else Anchor.text p.anchor ++ "/".intercalate (p.parts.map Text.Points.toString)

/-- Whether a path starts from a root. -/
def isAbsolute (p : Path) : Bool := p.anchor ≠ .none

/-- One path seen from another; an absolute one is the same from everywhere. -/
def join (base p : Path) : Path :=
  if p.isAbsolute then p else { base with parts := base.parts ++ p.parts }

/-- The path without its last part; an anchor alone is its own parent. -/
def parent (p : Path) : Path := { p with parts := p.parts.dropLast }

/-- The last part, if there is one. -/
def name (p : Path) : String := (p.parts.getLast?.getD []).toString

/-- Parts in which two dots have taken back the part before them. -/
def settleParts (parts : List Name) : List Name :=
  parts.foldl (fun done part => if part = Name.above then done.dropLast else done ++ [part]) []

/-- The absolute path without double dots that a path means from a directory, whatever
exists there. -/
def settle (directory p : Path) : Path := ⟨.root, settleParts (directory.join p).parts⟩

end Path

end SystemMap
