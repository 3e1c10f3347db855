/-
A document as the text of a flowchart. The schema view has a frame for each node class, with
its connectors inside, and an arrow for each link class; the instance view has a box for each
instance, a hexagon for each translation and an arrow for each connection.

Frames and boxes are named by identifiers, in which every character that an identifier
cannot have is an underscore. A connector is labelled as a description writes it.
-/
import SystemMap.Document
import SystemMap.Drawing
import SystemMap.Text.Numeral

namespace SystemMap.Flowchart

-- ============================================================= directions

/-- Where a flowchart flows to. -/
inductive Direction where
  | leftToRight
  | rightToLeft
  | topToBottom
  | bottomToTop
deriving DecidableEq

namespace Direction

/-- The name of a direction. -/
def label : Direction → String
  | .leftToRight => "LR"
  | .rightToLeft => "RL"
  | .topToBottom => "TB"
  | .bottomToTop => "BT"

/-- All directions. -/
def all : List Direction := [.leftToRight, .rightToLeft, .topToBottom, .bottomToTop]

/-- The direction of a name. -/
def ofLabel? (s : String) : Option Direction := all.find? (·.label = s)

/-- What a message says about a name that is no direction. -/
def unknownMessage (s : String) : String :=
  "Unknown flowchart direction " ++ Text.quote s ++ "; expected one of " ++
    ", ".intercalate (all.map label)

end Direction

-- ============================================================ identifiers

/-- A character that an identifier may have. -/
def isIdentifierChar (c : Char) : Bool :=
  ('A' ≤ c && c ≤ 'Z') || ('a' ≤ c && c ≤ 'z') || ('0' ≤ c && c ≤ '9') || c = '_'

/-- The identifier of a name. -/
def identifier (name : String) : String :=
  String.ofList (name.toList.map fun c => if isIdentifierChar c then c else '_')

/-- The identifier of a connector. -/
def connectorId (nodeClass connector : String) : String :=
  identifier nodeClass ++ "_" ++ identifier connector

-- ================================================================= labels

/-- Ports as a description writes them. -/
def portsLabel : Ports → String
  | .single port => toString port
  | .range first last => toString first ++ "-" ++ toString last

/-- Ports with their protocol as a description writes them. -/
def portLabel (s : PortSpec) : String :=
  match s.protocol with
  | .tcp => portsLabel s.ports
  | .udp => "UDP(" ++ portsLabel s.ports ++ ")"

/-- A connector as a description writes it. -/
def connectorLabel (c : Connector) : String :=
  (match c.role with
    | .client => "*"
    | .server => "") ++ c.name ++
  (if c.ports.isEmpty then ""
    else " (" ++ ", ".intercalate (c.ports.map portLabel) ++ ")")

/-- The label of an instance; its address goes on a line of its own. -/
def instanceLabel (e : InstanceEntry) : String :=
  match e.address with
  | none => e.name
  | some "" => e.name
  | some address => e.name ++ "<br/>" ++ address

-- ================================================================== lines

/-- A box. -/
def boxLine (indent id label : String) : String := indent ++ id ++ "[" ++ label ++ "]"

/-- An arrow. -/
def arrowLine (source target : String) : String := "    " ++ source ++ " --> " ++ target

/-- The frame of a node class. -/
def classLines (c : NodeClass) : List String :=
  ("    subgraph " ++ identifier c.name ++ "[" ++ c.name ++ "]") ::
    c.connectors.map (fun k =>
      boxLine "        " (connectorId c.name k.name) (connectorLabel k)) ++
    ["    end"]

/-- The arrow of a link class. -/
def linkLine (l : LinkClass) : String :=
  arrowLine (connectorId l.source.nodeClass l.source.connector)
    (connectorId l.target.nodeClass l.target.connector)

/-- The hexagon of a translation. -/
def translationLine (t : Translation) : String :=
  "    " ++ identifier t.name ++ "\x7b\x7b" ++ t.name ++ "<br/>" ++ t.external ++ " -> " ++
    t.internal ++ "\x7d\x7d"

/-- The lines of a view after the first. -/
def lines (d : Document) : View → List String
  | .schema => d.nodeClasses.flatMap classLines ++ d.linkClasses.map linkLine
  | .instances =>
    d.deployed.map (fun (_, e) => boxLine "    " (identifier e.name) (instanceLabel e)) ++
    d.translations.map translationLine ++
    d.connections.map fun c => arrowLine (identifier c.source) (identifier c.target)

/-- The flowchart of a view. -/
def text (d : Document) (view : View) (direction : Direction) : String :=
  "\n".intercalate (("flowchart " ++ direction.label) :: lines d view)

/-- The numbers that the flowchart of a view writes. -/
def numbers (d : Document) : View → List Int
  | .schema => d.nodeClasses.flatMap fun c => c.connectors.flatMap fun k =>
    k.ports.flatMap fun s => match s.ports with
      | .single port => [port]
      | .range first last => [first, last]
  | .instances => []

/-- The flowchart of a view, unless a number in it is too long to be written. -/
def render (d : Document) (view : View) (direction : Direction) :
    Except Text.Numeral.Fault String :=
  if (numbers d view).all Text.Numeral.isWritable then .ok (text d view direction)
  else .error .unwritable

end SystemMap.Flowchart
