/-
Placement of boxes on the grid, in exact integers. A layer is a column and a row a line of
the grid. The spacing leaves room between columns for edges, and a box is at least as high
as the measures say and higher where its connectors need it.

Entities of one name share a cell, since layers and rows belong to names.
-/
import SystemMap.Drawing
import SystemMap.Graph.Layers
import SystemMap.Graph.Rows

namespace SystemMap

/-- An entity to be placed. -/
structure Node where
  name : String
  subject : Subject
  connectors : List Connector
  nodeClass : Option String
  address : Option String
deriving DecidableEq

namespace Node

/-- The connectors of one role, in order. -/
def side (n : Node) (role : Role) : List Connector := n.connectors.filter (·.role = role)

/-- The number of connectors on the fuller side of the box. -/
def perSide (n : Node) : Nat := max (n.side .server).length (n.side .client).length

/-- Connectors of one side, from top to bottom. -/
def placeSide (n : Node) (start spacing : Int) (role : Role) : List (PlacedConnector Int) :=
  (n.side role).zipIdx.map fun (c, i) => ⟨c.name, role, start + i * spacing⟩

/-- The connectors of a box: servers, then clients, each side stacked on its own. -/
def placeConnectors (n : Node) (start spacing : Int) : List (PlacedConnector Int) :=
  n.placeSide start spacing .server ++ n.placeSide start spacing .client

/-- The height of a box. -/
def height (n : Node) (m : Metrics) (start : Int) : Int :=
  max m.nodeHeight (start + n.perSide * m.connectorSpacing + m.contentBottomMargin)

end Node

namespace Metrics

/-- The distance from one column to the next. -/
def columnSpacing (m : Metrics) : Int := m.nodeWidth + 3 * m.padding

/-- The distance from one row to the next. -/
def rowSpacing (m : Metrics) : Int := m.nodeHeight + 2 * m.padding

end Metrics

/-- A node placed in a cell of the grid. -/
def Node.place (n : Node) (m : Metrics) (view : View) (layer row : Nat) : PlacedEntity Int where
  name := n.name
  subject := n.subject
  layer := layer
  row := row
  box :=
    { x := m.padding + layer * m.columnSpacing
      y := m.padding + row * m.rowSpacing
      width := m.nodeWidth
      height := n.height m (m.contentStart view) }
  connectors := n.placeConnectors (m.contentStart view) m.connectorSpacing
  nodeClass := n.nodeClass
  address := n.address

/-- What a placement reports when it is done. -/
structure PlacementEvent where
  view : View
  entities : Nat
  layers : Nat
deriving DecidableEq

/-- Nodes placed on the grid, in their order, and the report. -/
structure Placement where
  entities : List (PlacedEntity Int)
  event : PlacementEvent
deriving DecidableEq

/-- Places nodes by the edges between their names. -/
def Placement.ofNodes (nodes : List Node) (edges : List (String × String)) (view : View)
    (m : Metrics) : Placement :=
  let g := Graph.build (nodes.map (·.name)) edges
  let layers := g.layers
  let layerOf := fun name => (layers.lookup name).getD 0
  let rows := g.rows fun name => layerOf name
  let entities := nodes.map fun n => n.place m view (layerOf n.name) (rows.row n.name)
  ⟨entities, view, entities.length, (layers.map (·.2)).eraseDups.length⟩

end SystemMap
