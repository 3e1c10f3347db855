/-
Rows within layers. Layer zero is in the order of names; each later layer is ordered by the
mean row of the predecessors of its names, as far as these have rows already, and names of
one mean stay in the order in which they were given. Layers are taken in increasing order,
so a predecessor in the same or in a later layer counts as row zero.

Means are compared as doubles. They are never negative, and the bits of such doubles are
ordered as the doubles are.
-/
import SystemMap.Decimal.Nearest
import SystemMap.Graph

namespace SystemMap.Graph

/-- Names with their rows. -/
abbrev Rows := List (String × Nat)

/-- The row of a name, zero if it has none yet. -/
def Rows.row (rows : Rows) (name : String) : Nat := (List.lookup name rows).getD 0

/-- The mean row of some names, as the bits of the nearest double; zero for no names. -/
def meanBits (rows : Rows) (names : List String) : Nat :=
  if names.isEmpty then 0
  else Decimal.nearestBits (names.foldr (fun name n => rows.row name + n) 0) names.length

/-- Names in the order of their characters. -/
def sortNames (names : List String) : List String := names.mergeSort fun a b => a ≤ b

/-- Names in the order of the mean rows of their predecessors. -/
def sortByMean (g : Graph) (rows : Rows) (names : List String) : List String :=
  let keyed := names.map fun name => (meanBits rows (g.predecessors name), name)
  (keyed.mergeSort fun a b => a.1 ≤ b.1).map (·.2)

/-- The names of one layer in the order of their rows. -/
def orderLayer (g : Graph) (rows : Rows) (layer : Int) (names : List String) : List String :=
  if layer = 0 then sortNames names else sortByMean g rows names

/-- The names with their layers, in the order of the names. -/
def inLayers (g : Graph) (layerOf : String → Int) : List (String × Int) :=
  g.names.map fun name => (name, layerOf name)

/-- The layers in use, in increasing order. -/
def layersInUse (placed : List (String × Int)) : List Int :=
  (placed.map (·.2)).eraseDups.mergeSort fun a b => a ≤ b

/-- The names of one layer. -/
def namesIn (placed : List (String × Int)) (layer : Int) : List String :=
  (placed.filter (·.2 = layer)).map (·.1)

/-- The names of one layer are those that the graph has there, in its order. -/
theorem namesIn_inLayers (g : Graph) (layerOf : String → Int) (layer : Int) :
    namesIn (g.inLayers layerOf) layer = g.names.filter (layerOf · = layer) := by
  simp [namesIn, inLayers, List.filter_map, Function.comp_def]

/-- The rows of all names, given their layers. -/
def rows (g : Graph) (layerOf : String → Int) : Rows :=
  let placed := g.inLayers layerOf
  (layersInUse placed).foldl (fun rows layer =>
    rows ++ (g.orderLayer rows layer (namesIn placed layer)).zipIdx) []

end SystemMap.Graph
