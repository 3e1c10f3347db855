/-
The drawing of a document. The schema view has a box for each node class and an edge for
each link class whose connectors are drawn. The instance view has a box for each instance,
with the connectors of its class, a hexagon for each translation, and an edge for each
connection whose ends are drawn; such an edge starts at the first client connector and ends
at the first server connector, where there are any.

Where several boxes bear one name, edges attach to the last of them.
-/
import SystemMap.Drawing.Placement

namespace SystemMap

-- =================================================================== nodes

namespace Document

variable (d : Document)

/-- The nodes of the schema view. -/
def schemaNodes : List Node :=
  d.nodeClasses.map fun c => ⟨c.name, .nodeClass, c.connectors, none, none⟩

/-- The edges of the schema view, between classes. -/
def schemaEdges : List (String × String) :=
  d.linkClasses.map fun l => (l.source.nodeClass, l.target.nodeClass)

/-- The connectors of a class; of several classes of one name those of the first, and none if
there is no such class. -/
def connectorsOf (name : String) : List Connector :=
  match d.nodeClasses.find? (·.name = name) with
  | some c => c.connectors
  | none => []

/-- The nodes that stand for instances. -/
def instanceNodes : List Node :=
  d.deployed.map fun (nodeClass, e) =>
    ⟨e.name, .instanceEntry, d.connectorsOf nodeClass, some nodeClass, e.address⟩

/-- The nodes that stand for translations. -/
def translationNodes : List Node :=
  d.translations.map fun t => ⟨t.name, .translation, [], none, none⟩

/-- The edges of the instance view. -/
def instanceEdges : List (String × String) := d.connections.map fun c => (c.source, c.target)

end Document

-- ================================================================ look-ups

section Lookup

variable {α : Type}

/-- The box that edges of a name attach to. -/
def PlacedEntity.lastNamed? (entities : List (PlacedEntity α)) (name : String) :
    Option (PlacedEntity α) :=
  entities.reverse.find? (·.name = name)

/-- The first connector of a name on a box. -/
def PlacedEntity.connector? (e : PlacedEntity α) (name : String) : Option (PlacedConnector α) :=
  e.connectors.find? (·.name = name)

/-- The first connector of a role on a box. -/
def PlacedEntity.firstOf? (e : PlacedEntity α) (role : Role) : Option (PlacedConnector α) :=
  e.connectors.find? (·.role = role)

end Lookup

-- ================================================================ drawings

section Draw

variable {α : Type} [Add α] [Sub α] [Div α] [OfNat α 2]

/-- The edge of a link class, if both connectors are drawn. -/
def LinkClass.draw? (l : LinkClass) (radius : α) (entities : List (PlacedEntity α)) :
    Option (PlacedEdge α) := do
  let source ← PlacedEntity.lastNamed? entities l.source.nodeClass
  let target ← PlacedEntity.lastNamed? entities l.target.nodeClass
  let sourceConnector ← source.connector? l.source.connector
  let targetConnector ← target.connector? l.target.connector
  return .between radius source target (some sourceConnector) (some targetConnector)

/-- The edge of a connection, if both ends are drawn. -/
def Connection.draw? (c : Connection) (radius : α) (entities : List (PlacedEntity α)) :
    Option (PlacedEdge α) := do
  let source ← PlacedEntity.lastNamed? entities c.source
  let target ← PlacedEntity.lastNamed? entities c.target
  return .between radius source target (source.firstOf? .client) (target.firstOf? .server)

/-- A translation in the cell where its node was placed. -/
def Translation.inCell (t : Translation) (e : PlacedEntity α) : PlacedTranslation α :=
  ⟨t.name, t.external, t.internal, e.layer, e.row, e.box⟩

namespace Document

variable (d : Document) (store : Int → α) (m : Metrics)

/-- The placement of the schema view. -/
def placeSchema : Placement := .ofNodes d.schemaNodes d.schemaEdges .schema m

/-- The placement of the instance view: instances, then translations. -/
def placeInstances : Placement :=
  .ofNodes (d.instanceNodes ++ d.translationNodes) d.instanceEdges .instances m

/-- The placement of a view. -/
def place : View → Placement
  | .schema => d.placeSchema m
  | .instances => d.placeInstances m

/-- The schema view, with integers stored as coordinates by `store`. -/
def drawSchema : Drawing α :=
  let entities := (d.placeSchema m).entities.map (·.map store)
  { view := .schema
    entities
    translations := []
    edges := d.linkClasses.filterMap (·.draw? (store m.connectorRadius) entities) }

/-- The instance view, with integers stored as coordinates by `store`. -/
def drawInstances : Drawing α :=
  let placed := (d.placeInstances m).entities.map (·.map store)
  let count := d.instanceNodes.length
  { view := .instances
    entities := placed.take count
    translations := d.translations.zipWith Translation.inCell (placed.drop count)
    edges := d.connections.filterMap (·.draw? (store m.connectorRadius) placed) }

/-- The drawing of a view, with integers stored as coordinates by `store`. -/
def drawWith : View → Drawing α
  | .schema => d.drawSchema store m
  | .instances => d.drawInstances store m

end Document

end Draw

end SystemMap
