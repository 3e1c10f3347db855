/-
Documents as JSON. Each type has its image with every field present, in the order of
declaration, and its reader, which takes that image back. A field that has a default may be
left out of what is read; a declaration carries its kind as a tag.

Images and readers are made of a codec for the single values. `toJson` and `ofJson` are those of
documents with the lenient one.
-/
import SystemMap.Document
import SystemMap.Json.Codec

namespace SystemMap

open Json (Checked Codec Fields Reader readRecord readList orNull)

-- ============================================================ small parts

namespace Position

/-- The image of a place. -/
def image (c : Codec) (p : Position) : Json :=
  .object [("line", c.ofInteger p.line), ("column", c.ofInteger p.column)]

/-- Reads a place. -/
def reader (c : Codec) : Reader Position := readRecord fun o =>
  Position.mk <$> o.required "line" c.integer <*> o.required "column" c.integer

end Position

/-- The field in which a declaration keeps its place. -/
def Json.Fields.position (c : Codec) (o : Fields) : Checked (Option Position) :=
  o.optional "position" none (orNull (Position.reader c))

namespace PortSpec

/-- The image of a range. -/
def rangeImage (c : Codec) (range : Int × Int) : Json :=
  .object [("start", c.ofInteger range.1), ("end", c.ofInteger range.2)]

/-- Reads a range. -/
def rangeReader (c : Codec) : Reader (Int × Int) := readRecord fun o =>
  Prod.mk <$> o.required "start" c.integer <*> o.required "end" c.integer

/-- The image of ports: a single port and a range have a field each, and one is null. -/
def image (c : Codec) (s : PortSpec) : Json :=
  .object <| ("protocol", c.ofName s.protocol.label) :: match s.ports with
    | .single port => [("port", c.ofInteger port), ("port_range", .null)]
    | .range first last => [("port", .null), ("port_range", rangeImage c (first, last))]

/-- Exactly one of a single port and a range makes ports. -/
def combine (protocol : Protocol) : Option Int → Option (Int × Int) → Option PortSpec
  | some port, none => some ⟨protocol, .single port⟩
  | none, some (first, last) => some ⟨protocol, .range first last⟩
  | _, _ => none

/-- Reads ports. -/
def reader (c : Codec) : Reader PortSpec := readRecord fun o =>
  (combine <$> o.optional "protocol" .tcp (c.choice Protocol.ofLabel?)
    <*> o.optional "port" none (orNull c.integer)
    <*> o.optional "port_range" none (orNull (rangeReader c))).andThen fun
      | some s => .ok s
      | none => .refuse .contradiction

end PortSpec

namespace Connector

/-- The image of a connector. -/
def image (c : Codec) (k : Connector) : Json :=
  .object [("name", c.ofText k.name), ("role", c.ofName k.role.label),
    ("ports", .ofList (PortSpec.image c) k.ports),
    ("position", .ofOption (Position.image c) k.position)]

/-- Reads a connector. -/
def reader (c : Codec) : Reader Connector := readRecord fun o =>
  Connector.mk <$> o.required "name" c.text
    <*> o.optional "role" .server (c.choice Role.ofLabel?)
    <*> o.optional "ports" [] (readList (PortSpec.reader c))
    <*> o.position c

end Connector

namespace ConnectorRef

/-- The image of a reference. -/
def image (c : Codec) (r : ConnectorRef) : Json :=
  .object [("node_class", c.ofText r.nodeClass), ("connector", c.ofText r.connector)]

/-- Reads a reference. -/
def reader (c : Codec) : Reader ConnectorRef := readRecord fun o =>
  ConnectorRef.mk <$> o.required "node_class" c.text <*> o.required "connector" c.text

end ConnectorRef

namespace InstanceEntry

/-- The image of an instance. -/
def image (c : Codec) (e : InstanceEntry) : Json :=
  .object [("name", c.ofText e.name), ("ip", .ofOption c.ofText e.address),
    ("position", .ofOption (Position.image c) e.position)]

/-- Reads an instance. -/
def reader (c : Codec) : Reader InstanceEntry := readRecord fun o =>
  InstanceEntry.mk <$> o.required "name" c.text
    <*> o.optional "ip" none (orNull c.text)
    <*> o.position c

end InstanceEntry

-- =========================================================== declarations

/-- The image of a declaration of some kind. -/
def Json.tagged (c : Codec) (kind : String) (fields : Fields) (position : Option Position) :
    Json :=
  .object (("kind", c.ofName kind) :: fields ++
    [("position", .ofOption (Position.image c) position)])

namespace NodeClass

/-- The image of a node class. -/
def image (c : Codec) (k : NodeClass) : Json :=
  .tagged c "node_class"
    [("name", c.ofText k.name), ("connectors", .ofList (Connector.image c) k.connectors)]
    k.position

/-- Reads a node class. -/
def reader (c : Codec) : Reader NodeClass := readRecord fun o =>
  (fun _ => NodeClass.mk) <$> o.kind c "node_class"
    <*> o.required "name" c.text
    <*> o.optional "connectors" [] (readList (Connector.reader c))
    <*> o.position c

end NodeClass

namespace LinkClass

/-- The image of a link class. -/
def image (c : Codec) (l : LinkClass) : Json :=
  .tagged c "link_class" [("source", l.source.image c), ("target", l.target.image c)] l.position

/-- Reads a link class. -/
def reader (c : Codec) : Reader LinkClass := readRecord fun o =>
  (fun _ => LinkClass.mk) <$> o.kind c "link_class"
    <*> o.required "source" (ConnectorRef.reader c)
    <*> o.required "target" (ConnectorRef.reader c)
    <*> o.position c

end LinkClass

namespace InstanceGroup

/-- The image of a group of instances. -/
def image (c : Codec) (g : InstanceGroup) : Json :=
  .tagged c "instance"
    [("node_class", c.ofText g.nodeClass), ("entries", .ofList (InstanceEntry.image c) g.entries)]
    g.position

/-- Reads a group of instances. -/
def reader (c : Codec) : Reader InstanceGroup := readRecord fun o =>
  (fun _ => InstanceGroup.mk) <$> o.kind c "instance"
    <*> o.required "node_class" c.text
    <*> o.optional "entries" [] (readList (InstanceEntry.reader c))
    <*> o.position c

end InstanceGroup

namespace Translation

/-- The image of a translation. -/
def image (c : Codec) (t : Translation) : Json :=
  .tagged c "nat"
    [("name", c.ofText t.name), ("external_ip", c.ofText t.external),
      ("internal_ip", c.ofText t.internal)] t.position

/-- Reads a translation. -/
def reader (c : Codec) : Reader Translation := readRecord fun o =>
  (fun _ => Translation.mk) <$> o.kind c "nat"
    <*> o.required "name" c.text
    <*> o.required "external_ip" c.text
    <*> o.required "internal_ip" c.text
    <*> o.position c

end Translation

namespace Connection

/-- The image of a connection. -/
def image (c : Codec) (k : Connection) : Json :=
  .tagged c "connection" [("source", c.ofText k.source), ("target", c.ofText k.target)] k.position

/-- Reads a connection. -/
def reader (c : Codec) : Reader Connection := readRecord fun o =>
  (fun _ => Connection.mk) <$> o.kind c "connection"
    <*> o.required "source" c.text
    <*> o.required "target" c.text
    <*> o.position c

end Connection

namespace Include

/-- The image of an include directive. -/
def image (c : Codec) (i : Include) : Json :=
  .tagged c "include" [("path", c.ofText i.path)] i.position

/-- Reads an include directive. -/
def reader (c : Codec) : Reader Include := readRecord fun o =>
  (fun _ => Include.mk) <$> o.kind c "include" <*> o.required "path" c.text <*> o.position c

end Include

namespace Declaration

/-- The image of a declaration. -/
def image (c : Codec) : Declaration → Json
  | .nodeClass k => k.image c
  | .linkClass l => l.image c
  | .instances g => g.image c
  | .translation t => t.image c
  | .connection k => k.image c
  | .directive i => i.image c

/-- How the declarations of a kind are read. -/
def readerOf? (c : Codec) : String → Option (Reader Declaration)
  | "node_class" => some fun j => nodeClass <$> NodeClass.reader c j
  | "link_class" => some fun j => linkClass <$> LinkClass.reader c j
  | "instance" => some fun j => instances <$> InstanceGroup.reader c j
  | "nat" => some fun j => translation <$> Translation.reader c j
  | "connection" => some fun j => connection <$> Connection.reader c j
  | "include" => some fun j => directive <$> Include.reader c j
  | _ => none

/-- Reads a declaration of the kind that its tag names. Issues are told under the tag. -/
def reader (c : Codec) : Reader Declaration
  | .object fields => match fields.lookup "kind" with
    | none => .refuse .noTag
    | some j => match c.tag? j with
      | none => .refuse .badTag
      | some tag => match readerOf? c tag with
        | some read => (read (.object fields)).under (.key tag)
        | none => .refuse .badTag
  | _ => .refuse .notTaggedRecord

end Declaration

-- ============================================================== documents

namespace Document

/-- The image of a document. -/
def image (c : Codec) (d : Document) : Json :=
  .object [("includes", .ofList (Include.image c) d.includes),
    ("node_classes", .ofList (NodeClass.image c) d.nodeClasses),
    ("link_classes", .ofList (LinkClass.image c) d.linkClasses),
    ("instances", .ofList (InstanceGroup.image c) d.instances),
    ("nats", .ofList (Translation.image c) d.translations),
    ("connections", .ofList (Connection.image c) d.connections)]

/-- Reads a document. -/
def reader (c : Codec) : Reader Document := readRecord fun o =>
  Document.mk <$> o.optional "includes" [] (readList (Include.reader c))
    <*> o.optional "node_classes" [] (readList (NodeClass.reader c))
    <*> o.optional "link_classes" [] (readList (LinkClass.reader c))
    <*> o.optional "instances" [] (readList (InstanceGroup.reader c))
    <*> o.optional "nats" [] (readList (Translation.reader c))
    <*> o.optional "connections" [] (readList (Connection.reader c))

/-- The image of a document, as it is shown. -/
def toJson : Document → Json := image .lenient

/-- Reads a document leniently. -/
def ofJson : Reader Document := reader .lenient

end Document

end SystemMap
