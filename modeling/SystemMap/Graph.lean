/-
Graphs of names. A graph is built from names, some perhaps given twice, and from edges
between names, some perhaps not among those given; it keeps each name at its first place and
the edges whose two ends are among the names. Parallel edges stay, and so do loops.
-/
namespace SystemMap

/-- A directed graph: its names, and its edges from source to target, in order. -/
structure Graph where
  names : List String
  edges : List (String × String)
deriving DecidableEq

namespace Graph

/-- The graph of some names and some edges. -/
def build (names : List String) (edges : List (String × String)) : Graph where
  names := names.eraseDups
  edges := edges.filter fun e => names.contains e.1 && names.contains e.2

/-- The sources of the edges that enter a name, one for each edge, in order. -/
def predecessors (g : Graph) (name : String) : List String :=
  g.edges.filterMap fun e => if e.2 = name then some e.1 else none

end Graph

end SystemMap
