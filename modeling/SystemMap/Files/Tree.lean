/-
Trees of files. An entry stands at a location, which is a list of names from the root. A
path is followed from a directory, name by name: every name but the last has to be one of a
directory, and two dots lead back to the directory above. Following a path fails with the
reason that the first bad name gives. Trees have no links and no permissions: an entry stands
at one location only, and each file can be read.
-/
import SystemMap.Files.Path
import SystemMap.Text.Quoted
import SystemMap.Text.Utf8

namespace SystemMap

/-- What stands at a location. -/
inductive Entry where
  | file (bytes : List UInt8)
  | directory
deriving DecidableEq

/-- Names from the root. -/
abbrev Location := List Name

/-- Files and directories, the latest change of a location first. -/
structure FileTree where
  entries : List (Location × Entry)
deriving DecidableEq

/-- Why a path leads nowhere. -/
inductive AccessFault where
  | missing
  | notDirectory
  | isDirectory
  | nameTooLong
  /-- The path holds a character that no name can have. -/
  | badName
deriving DecidableEq

/-- What a message says about a fault with a path. -/
def AccessFault.message (p : Path) : AccessFault → String
  | .missing => "[Errno 2] No such file or directory: " ++ Text.quote p.toString
  | .notDirectory => "[Errno 20] Not a directory: " ++ Text.quote p.toString
  | .isDirectory => "[Errno 21] Is a directory: " ++ Text.quote p.toString
  | .nameTooLong => "[Errno 36] File name too long: " ++ Text.quote p.toString
  | .badName => "embedded null byte"

namespace FileTree

-- =============================================================== locations

/-- What stands at a location. The root is always a directory. -/
def at? (t : FileTree) (l : Location) : Option Entry :=
  if l.isEmpty then some .directory else (t.entries.find? (·.1 = l)).map (·.2)

/-- Whether a name is longer than names can be. -/
def isTooLong (name : Name) : Bool := 255 < name.toString.utf8ByteSize

/-- Whether a path is longer than a path can be. -/
def isTooLongPath (p : Path) : Bool := 4095 < p.toString.utf8ByteSize

/-- Whether a name holds a character that no name can have, or half of one. -/
def isBadName (name : Name) : Bool := name.contains (.char '\x00') || name.hasHalves

/-- Follows names from a directory. -/
def walk (t : FileTree) (here : Location) : List Name → Except AccessFault (Location × Entry)
  | [] => .ok (here, .directory)
  | name :: rest =>
    if name = Name.above then t.walk here.dropLast rest
    else if isTooLong name then .error .nameTooLong
    else match t.at? (here ++ [name]) with
      | none => .error .missing
      | some .directory => t.walk (here ++ [name]) rest
      | some (.file bytes) =>
        if rest.isEmpty then .ok (here ++ [name], .file bytes) else .error .notDirectory

/-- What stands where a path leads from a directory. -/
def follow (t : FileTree) (directory p : Path) : Except AccessFault (Location × Entry) :=
  if p.parts.any isBadName then .error .badName
  else if isTooLongPath p then .error .nameTooLong
  else t.walk [] (directory.join p).parts

/-- The bytes of the file where a path leads. -/
def bytes (t : FileTree) (directory p : Path) : Except AccessFault (List UInt8) :=
  match t.follow directory p with
  | .ok (_, .file bytes) => .ok bytes
  | .ok (_, .directory) => .error .isDirectory
  | .error e => .error e

/-- Faults that mean no more than that nothing is there. -/
def isAbsence : AccessFault → Bool
  | .missing | .notDirectory | .badName => true
  | .isDirectory | .nameTooLong => false

/-- Whether something is where a path leads. -/
def exists? (t : FileTree) (directory p : Path) : Except AccessFault Bool :=
  match t.follow directory p with
  | .ok _ => .ok true
  | .error e => if isAbsence e then .ok false else .error e

/-- The bytes of the file where a path leads, if it leads to a file. -/
def file? (t : FileTree) (directory p : Path) : Except AccessFault (Option (List UInt8)) :=
  match t.follow directory p with
  | .ok (_, .file bytes) => .ok (some bytes)
  | .ok (_, .directory) => .ok none
  | .error e => if isAbsence e then .ok none else .error e

-- ================================================================= changes

/-- The tree with nothing in it. -/
def empty : FileTree := ⟨[]⟩

/-- Puts an entry at a location, in place of what is there. -/
def put (t : FileTree) (l : Location) (e : Entry) : FileTree :=
  ⟨(l, e) :: t.entries.filter (·.1 ≠ l)⟩

/-- Makes directories of the prefixes of a location, the longest included. -/
def makeDirectory (t : FileTree) (l : Location) : FileTree :=
  (List.range l.length).foldl (fun t i => t.put (l.take (i + 1)) .directory) t

/-- Writes a file, and the directories that lead to it. -/
def write (t : FileTree) (l : Location) (bytes : List UInt8) : FileTree :=
  (t.makeDirectory l.dropLast).put l (.file bytes)

/-- Takes a location away, with all below it. -/
def delete (t : FileTree) (l : Location) : FileTree :=
  ⟨t.entries.filter fun e => !l.isPrefixOf e.1⟩

end FileTree

/-- The text of a file, with uniform line ends. -/
def textOfBytes (bytes : List UInt8) : Except Text.Utf8.Fault String :=
  (Text.Utf8.decode bytes).map fun s => String.ofList (Text.Utf8.uniformLines s.toList)

end SystemMap
