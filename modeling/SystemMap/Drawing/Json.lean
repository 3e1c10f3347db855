/-
Drawings and their measures as JSON, to be written and to be read. Coordinates are doubles;
layers and rows are whole.
-/
import SystemMap.Document.Json
import SystemMap.Drawing

namespace SystemMap

open Json (Reader readRecord readList readText readInteger readReal readChoice readLiteral
  orNull)

namespace Metrics

/-- The image of measures. -/
def toJson (m : Metrics) : Json :=
  .object [("node_width", .int m.nodeWidth), ("node_height", .int m.nodeHeight),
    ("padding", .int m.padding), ("connector_spacing", .int m.connectorSpacing),
    ("connector_radius", .int m.connectorRadius),
    ("schema_content_start", .int m.schemaContentStart),
    ("instance_content_start", .int m.instanceContentStart),
    ("content_bottom_margin", .int m.contentBottomMargin)]

/-- Reads measures; one that is left out has its usual value. -/
def ofJson : Reader Metrics := readRecord fun o =>
  let usual : Metrics := {}
  Metrics.mk <$> o.optional "node_width" usual.nodeWidth readInteger
    <*> o.optional "node_height" usual.nodeHeight readInteger
    <*> o.optional "padding" usual.padding readInteger
    <*> o.optional "connector_spacing" usual.connectorSpacing readInteger
    <*> o.optional "connector_radius" usual.connectorRadius readInteger
    <*> o.optional "schema_content_start" usual.schemaContentStart readInteger
    <*> o.optional "instance_content_start" usual.instanceContentStart readInteger
    <*> o.optional "content_bottom_margin" usual.contentBottomMargin readInteger

end Metrics

namespace Point

/-- The image of a point. -/
def toJson (p : Point Float) : Json := .object [("x", .real p.x), ("y", .real p.y)]

/-- Reads a point. -/
def ofJson : Reader (Point Float) := readRecord fun o =>
  Point.mk <$> o.required "x" readReal <*> o.required "y" readReal

end Point

namespace Box

/-- The image of a box. -/
def toJson (b : Box Float) : Json := .object (b.sides.map fun (name, x) => (name, .real x))

/-- Reads a box. -/
def ofJson : Reader (Box Float) := readRecord fun o =>
  Box.mk <$> o.required "x" readReal <*> o.required "y" readReal
    <*> o.required "width" readReal <*> o.required "height" readReal

end Box

namespace PlacedConnector

/-- The image of a placed connector. -/
def toJson (c : PlacedConnector Float) : Json :=
  .object [("name", .text c.name), ("role", .text c.role.label), ("y", .real c.y)]

/-- Reads a placed connector. -/
def ofJson : Reader (PlacedConnector Float) := readRecord fun o =>
  PlacedConnector.mk <$> o.required "name" readText
    <*> o.required "role" (readChoice Role.ofLabel?)
    <*> o.required "y" readReal

end PlacedConnector

namespace PlacedEntity

/-- The image of a placed entity. -/
def toJson (e : PlacedEntity Float) : Json :=
  .object [("name", .text e.name), ("kind", .text e.subject.label), ("layer", .int e.layer),
    ("row", .int e.row), ("box", e.box.toJson),
    ("connectors", .ofList PlacedConnector.toJson e.connectors),
    ("node_class", .ofText? e.nodeClass), ("ip", .ofText? e.address)]

/-- Reads a placed entity. -/
def ofJson : Reader (PlacedEntity Float) := readRecord fun o =>
  PlacedEntity.mk <$> o.required "name" readText
    <*> o.required "kind" (readLiteral Subject.ofLabel?)
    <*> o.required "layer" readInteger
    <*> o.required "row" readInteger
    <*> o.required "box" Box.ofJson
    <*> o.optional "connectors" [] (readList PlacedConnector.ofJson)
    <*> o.optional "node_class" none (orNull readText)
    <*> o.optional "ip" none (orNull readText)

end PlacedEntity

namespace PlacedTranslation

/-- The image of a placed translation. -/
def toJson (t : PlacedTranslation Float) : Json :=
  .object [("name", .text t.name), ("external_ip", .text t.external),
    ("internal_ip", .text t.internal), ("layer", .int t.layer), ("row", .int t.row),
    ("box", t.box.toJson)]

/-- Reads a placed translation. -/
def ofJson : Reader (PlacedTranslation Float) := readRecord fun o =>
  PlacedTranslation.mk <$> o.required "name" readText
    <*> o.required "external_ip" readText
    <*> o.required "internal_ip" readText
    <*> o.required "layer" readInteger
    <*> o.required "row" readInteger
    <*> o.required "box" Box.ofJson

end PlacedTranslation

namespace PlacedEdge

/-- The image of an edge. -/
def toJson (e : PlacedEdge Float) : Json :=
  .object [("source", .text e.source), ("target", .text e.target),
    ("start", e.start.toJson), ("end", e.finish.toJson),
    ("source_connector", .ofText? e.sourceConnector),
    ("target_connector", .ofText? e.targetConnector)]

/-- Reads an edge. -/
def ofJson : Reader (PlacedEdge Float) := readRecord fun o =>
  PlacedEdge.mk <$> o.required "source" readText
    <*> o.required "target" readText
    <*> o.required "start" Point.ofJson
    <*> o.required "end" Point.ofJson
    <*> o.optional "source_connector" none (orNull readText)
    <*> o.optional "target_connector" none (orNull readText)

end PlacedEdge

namespace Drawing

/-- The image of a drawing. -/
def toJson (d : Drawing Float) : Json :=
  .object [("view", .text d.view.label),
    ("entities", .ofList PlacedEntity.toJson d.entities),
    ("nats", .ofList PlacedTranslation.toJson d.translations),
    ("edges", .ofList PlacedEdge.toJson d.edges)]

/-- Reads a drawing. -/
def ofJson : Reader (Drawing Float) := readRecord fun o =>
  Drawing.mk <$> o.required "view" (readChoice View.ofLabel?)
    <*> o.optional "entities" [] (readList PlacedEntity.ofJson)
    <*> o.optional "nats" [] (readList PlacedTranslation.ofJson)
    <*> o.optional "edges" [] (readList PlacedEdge.ofJson)

end Drawing

end SystemMap
