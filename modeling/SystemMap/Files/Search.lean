/-
Where included texts are searched. An absolute path names its file. Any other is looked for
beside the including file, then in the root of the workspace, then in the include
directories; the first of these places that holds a file is the answer. A path that an
including file goes by is itself seen from the root, unless it is absolute.

`Search.library` makes of a tree and a search the library that a reading asks.
-/
import SystemMap.Files.Tree
import SystemMap.Library

namespace SystemMap

/-- The places to search. -/
structure Search where
  root : Path
  directories : List Path
deriving DecidableEq

/-- Why a search yields no text. -/
inductive SearchFault where
  /-- No candidate is a file. -/
  | notFound (path : String) (candidates : List Path)
  /-- A candidate cannot be looked at. -/
  | inaccessible (candidate : Path) (fault : AccessFault)
  /-- The file that was found is no text. -/
  | undecodable (fault : Text.Utf8.Fault)
deriving DecidableEq

/-- What a message says about a failed search. -/
def SearchFault.message : SearchFault → String
  | .notFound path candidates =>
    "Cannot resolve include '" ++ path ++ "' (tried: " ++
      ", ".intercalate (candidates.map Path.toString) ++ ")"
  | .inaccessible candidate fault => fault.message candidate
  | .undecodable fault => fault.message

namespace Search

/-- The directories that a relative path is seen from. -/
def bases (s : Search) (includer : Option String) : List Path :=
  let beside := match includer with
    | some p => [(s.root.join (Path.ofString p)).parent]
    | none => []
  beside ++ s.root :: s.directories

/-- The places where a path is looked for, in order, none twice. -/
def candidates (s : Search) (path : String) (includer : Option String) : List Path :=
  let p := Path.ofString path
  if p.isAbsolute then [p] else ((s.bases includer).map (·.join p)).eraseDups

/-- The bytes of the first candidate that is a file. -/
def firstFile (t : FileTree) (directory : Path) :
    List Path → Except SearchFault (Option (List UInt8))
  | [] => .ok none
  | p :: later =>
    match t.file? directory p with
    | .error e => .error (.inaccessible p e)
    | .ok (some bytes) => .ok (some bytes)
    | .ok none => firstFile t directory later

/-- The text that a path leads to from an including file. -/
def find (s : Search) (t : FileTree) (directory : Path) (path : String)
    (includer : Option String) : Except SearchFault String :=
  let candidates := s.candidates path includer
  match firstFile t directory candidates with
  | .error e => .error e
  | .ok none => .error (.notFound path candidates)
  | .ok (some bytes) =>
    match textOfBytes bytes with
    | .error e => .error (.undecodable e)
    | .ok text => .ok text

-- ================================================================= library

/-- The texts of all files of a tree. -/
def textsOf (t : FileTree) : List String :=
  t.entries.filterMap fun e => match e.2 with
    | .file bytes => (textOfBytes bytes).toOption
    | .directory => none

theorem mem_of_walk {t : FileTree} {here l : Location} {names : List Name}
    {bytes : List UInt8} (h : t.walk here names = .ok (l, .file bytes)) :
    ∃ e ∈ t.entries, e.2 = .file bytes := by
  induction names generalizing here with
  | nil => cases h
  | cons name rest ih =>
    unfold FileTree.walk at h
    split at h
    · exact ih h
    · split at h
      · cases h
      · split at h
        · cases h
        · exact ih h
        · next found hat =>
          split at h
          · cases h
            unfold FileTree.at? at hat
            split at hat
            · cases hat
            · obtain ⟨e, he, hfound⟩ := Option.map_eq_some_iff.1 hat
              exact ⟨e, List.mem_of_find?_eq_some he, hfound⟩
          · cases h

theorem mem_of_file? {t : FileTree} {directory p : Path} {bytes : List UInt8}
    (h : t.file? directory p = .ok (some bytes)) : ∃ e ∈ t.entries, e.2 = .file bytes := by
  unfold FileTree.file? at h
  split at h
  · next l found hfollow =>
    cases h
    unfold FileTree.follow at hfollow
    split at hfollow
    · cases hfollow
    · split at hfollow
      · cases hfollow
      · exact mem_of_walk hfollow
  · cases h
  · split at h <;> cases h

theorem mem_of_firstFile {t : FileTree} {directory : Path} {candidates : List Path}
    {bytes : List UInt8} (h : firstFile t directory candidates = .ok (some bytes)) :
    ∃ e ∈ t.entries, e.2 = .file bytes := by
  induction candidates with
  | nil => cases h
  | cons p later ih =>
    unfold firstFile at h
    split at h
    · cases h
    · next found hfile =>
      cases h
      exact mem_of_file? hfile
    · exact ih h

theorem mem_textsOf {s : Search} {t : FileTree} {directory : Path} {path : String}
    {includer : Option String} {text : String}
    (h : s.find t directory path includer = .ok text) : text ∈ textsOf t := by
  unfold find at h
  dsimp only at h
  split at h
  · cases h
  · cases h
  · next bytes hbytes =>
    split at h
    · cases h
    · next found htext =>
      cases h
      obtain ⟨e, he, hfile⟩ := mem_of_firstFile hbytes
      refine List.mem_filterMap.2 ⟨e, he, ?_⟩
      simp [hfile, htext, Except.toOption]

/-- The library of what a search finds in a tree. -/
def library (s : Search) (t : FileTree) (directory : Path) : Library SearchFault where
  lookup := s.find t directory
  paths := Library.pathsOf (textsOf t)
  closed h _ hp := Library.mem_pathsOf (mem_textsOf h) hp

end Search

end SystemMap
