/-
Libraries: where the texts come from that include directives name. A library answers a path,
asked for from a text with a path of its own, by a text or by a reason why there is none.
It also lists the paths that directives in its texts can name. The list is finite, so that
following includes comes to an end whatever the texts say, and `closed` says that it is
complete.
-/
import SystemMap.Outline

namespace SystemMap

/-- A source of included texts; `ε` tells why a text is missing. -/
structure Library (ε : Type) where
  /-- The text of a path, as seen from the text that includes it. -/
  lookup : String → Option String → Except ε String
  /-- The paths that the texts of the library name. -/
  paths : List String
  /-- No text of the library names another path. -/
  closed : ∀ {path includer text}, lookup path includer = .ok text →
    ∀ p ∈ (Outline.ofText text).includePaths, p ∈ paths

namespace Library

/-- A path that a library of given texts does not have. -/
structure UnknownPath where
  path : String
deriving DecidableEq

/-- The paths that some texts name. -/
def pathsOf (texts : List String) : List String :=
  texts.flatMap fun text => (Outline.ofText text).includePaths

theorem mem_pathsOf {texts : List String} {text p : String} (htext : text ∈ texts)
    (hp : p ∈ (Outline.ofText text).includePaths) : p ∈ pathsOf texts :=
  List.mem_flatMap.2 ⟨text, htext, hp⟩

/-- The library of some texts, each under its own path, wherever it is asked for from. -/
def ofTexts (texts : List (String × String)) : Library UnknownPath where
  lookup path _ := match texts.find? (·.1 = path) with
    | some (_, text) => .ok text
    | none => .error ⟨path⟩
  paths := pathsOf (texts.map (·.2))
  closed := by
    intro path includer text h p hp
    split at h
    · next key found hfind =>
      cases h
      exact mem_pathsOf (List.mem_map.2 ⟨_, List.mem_of_find?_eq_some hfind, rfl⟩) hp
    · cases h

end Library

end SystemMap
