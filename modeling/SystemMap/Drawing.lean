/-
Drawings: what a surface needs to paint one view of a document. Boxes stand on a grid of
layers and rows; connectors sit on the left edge of their box if they are servers and on the
right edge if they are clients; edges leave a box to the right and enter one from the left.

The type of coordinates is a parameter. Placement is done in integers, a drawing that is
stored or painted has doubles, and all geometry that both share is stated once.
-/
import SystemMap.Document

namespace SystemMap

/-- The two views of a document: its classes, or what is deployed. -/
inductive View where
  | schema
  | instances
deriving DecidableEq

namespace View

/-- The name of a view. -/
def label : View → String
  | .schema => "schema"
  | .instances => "instances"

/-- Both views. -/
def all : List View := [schema, instances]

/-- The view of a name. -/
def ofLabel? (s : String) : Option View := all.find? (·.label = s)

/-- The view of a document that asks for none: deployed instances if it groups any. -/
def default (d : Document) : View := if d.instances.isEmpty then .schema else .instances

end View

/-- What a box stands for. -/
inductive Subject where
  | nodeClass
  | instanceEntry
  | translation
deriving DecidableEq

namespace Subject

/-- The name of a subject. -/
def label : Subject → String
  | .nodeClass => "node_class"
  | .instanceEntry => "instance"
  | .translation => "nat"

/-- The subject of a name. -/
def ofLabel? (s : String) : Option Subject :=
  [nodeClass, instanceEntry, translation].find? (·.label = s)

end Subject

/-- The measures of a grid and its boxes. -/
structure Metrics where
  nodeWidth : Int := 200
  nodeHeight : Int := 100
  padding : Int := 40
  connectorSpacing : Int := 24
  connectorRadius : Int := 6
  schemaContentStart : Int := 40
  instanceContentStart : Int := 55
  contentBottomMargin : Int := 15
deriving DecidableEq

/-- Where connectors start below the top of a box. -/
def Metrics.contentStart (m : Metrics) : View → Int
  | .schema => m.schemaContentStart
  | .instances => m.instanceContentStart

-- ================================================================= shapes

/-- A point. -/
structure Point (α : Type) where
  x : α
  y : α
deriving DecidableEq

/-- A rectangle, given by its top left corner and its size; `y` grows downwards. -/
structure Box (α : Type) where
  x : α
  y : α
  width : α
  height : α
deriving DecidableEq

/-- The numbers that make a box, with their names. -/
def Box.sides {α : Type} (b : Box α) : List (String × α) :=
  [("x", b.x), ("y", b.y), ("width", b.width), ("height", b.height)]

/-- A connector on a box; `y` is measured from the top of the box. -/
structure PlacedConnector (α : Type) where
  name : String
  role : Role
  y : α
deriving DecidableEq

/-- A box with what is written on it. -/
structure PlacedEntity (α : Type) where
  name : String
  subject : Subject
  layer : Int
  row : Int
  box : Box α
  connectors : List (PlacedConnector α)
  nodeClass : Option String
  address : Option String
deriving DecidableEq

/-- The hexagon of a translation, inscribed in its box. -/
structure PlacedTranslation (α : Type) where
  name : String
  external : String
  internal : String
  layer : Int
  row : Int
  box : Box α
deriving DecidableEq

/-- An edge between two boxes, with the connectors it ends at, if any. -/
structure PlacedEdge (α : Type) where
  source : String
  target : String
  start : Point α
  finish : Point α
  sourceConnector : Option String
  targetConnector : Option String
deriving DecidableEq

/-- A view, painted. -/
structure Drawing (α : Type) where
  view : View
  entities : List (PlacedEntity α)
  translations : List (PlacedTranslation α)
  edges : List (PlacedEdge α)
deriving DecidableEq

-- ================================================== change of coordinates

section Map

variable {α β : Type} (f : α → β)

/-- A box in other coordinates. -/
def Box.map (b : Box α) : Box β := ⟨f b.x, f b.y, f b.width, f b.height⟩

/-- A connector in other coordinates. -/
def PlacedConnector.map (c : PlacedConnector α) : PlacedConnector β := ⟨c.name, c.role, f c.y⟩

/-- An entity in other coordinates. -/
def PlacedEntity.map (e : PlacedEntity α) : PlacedEntity β where
  name := e.name
  subject := e.subject
  layer := e.layer
  row := e.row
  box := e.box.map f
  connectors := e.connectors.map (·.map f)
  nodeClass := e.nodeClass
  address := e.address

end Map

-- =============================================================== geometry

section Geometry

variable {α : Type} [Add α] [Div α] [OfNat α 2]

/-- The right edge of a box. -/
def Box.right (b : Box α) : α := b.x + b.width

/-- The bottom edge of a box. -/
def Box.bottom (b : Box α) : α := b.y + b.height

/-- Half the height of a box. -/
def Box.halfHeight (b : Box α) : α := b.height / 2

/-- How far below the top of an entity an edge attaches: at a connector, or half way down. -/
def PlacedEntity.attach (e : PlacedEntity α) : Option (PlacedConnector α) → α
  | some c => c.y
  | none => e.box.halfHeight

/-- The edge from the right side of one entity to the left side of another, both ends a
connector's radius away. -/
def PlacedEdge.between [Sub α] (radius : α) (source target : PlacedEntity α)
    (sourceConnector targetConnector : Option (PlacedConnector α)) : PlacedEdge α where
  source := source.name
  target := target.name
  start := ⟨source.box.right + radius, source.box.y + source.attach sourceConnector⟩
  finish := ⟨target.box.x - radius, target.box.y + target.attach targetConnector⟩
  sourceConnector := sourceConnector.map (·.name)
  targetConnector := targetConnector.map (·.name)

end Geometry

end SystemMap
