/-
What a system description says. A document has node classes with their connectors, link
classes between connectors, groups of instances, address translations, connections and the
include directives that were met. Every list keeps the order of declaration. A declaration
may know where it stands in its text.
-/
import SystemMap.Position

namespace SystemMap

/-- The transport protocol of a port. -/
inductive Protocol where
  | tcp
  | udp
deriving DecidableEq

namespace Protocol

/-- The name of a protocol. -/
def label : Protocol → String
  | .tcp => "TCP"
  | .udp => "UDP"

/-- The protocol of a name. -/
def ofLabel? (s : String) : Option Protocol := [tcp, udp].find? (·.label = s)

end Protocol

/-- One port, or all from a first to a last one. Nothing asks that the first be the lesser,
and documents that do not come from a text may hold any integers. -/
inductive Ports where
  | single (port : Int)
  | range (first last : Int)
deriving DecidableEq

/-- Ports of one protocol. -/
structure PortSpec where
  protocol : Protocol
  ports : Ports
deriving DecidableEq

/-- A server connector waits for connections, a client connector opens them. -/
inductive Role where
  | server
  | client
deriving DecidableEq

namespace Role

/-- The name of a role. -/
def label : Role → String
  | .server => "server"
  | .client => "client"

/-- The role of a name. -/
def ofLabel? (s : String) : Option Role := [server, client].find? (·.label = s)

end Role

/-- A connector of a node class. One without ports uses a port that is not told. -/
structure Connector where
  name : String
  role : Role
  ports : List PortSpec
  position : Option Position
deriving DecidableEq

/-- A connector by name, with the name of its node class. -/
structure ConnectorRef where
  nodeClass : String
  connector : String
deriving DecidableEq

/-- A kind of node, given by its connectors. -/
structure NodeClass where
  name : String
  connectors : List Connector
  position : Option Position
deriving DecidableEq

/-- Permission for one connector to reach another. -/
structure LinkClass where
  source : ConnectorRef
  target : ConnectorRef
  position : Option Position
deriving DecidableEq

/-- One deployed node. Its address is kept as written. -/
structure InstanceEntry where
  name : String
  address : Option String
  position : Option Position
deriving DecidableEq

/-- Deployed nodes of one class. -/
structure InstanceGroup where
  nodeClass : String
  entries : List InstanceEntry
  position : Option Position
deriving DecidableEq

/-- A named address translation, which connections may lead to and from. -/
structure Translation where
  name : String
  external : String
  internal : String
  position : Option Position
deriving DecidableEq

/-- A deployed edge between instances or translations. -/
structure Connection where
  source : String
  target : String
  position : Option Position
deriving DecidableEq

/-- A directive to include another text. -/
structure Include where
  path : String
  position : Option Position
deriving DecidableEq

/-- Any one declaration. -/
inductive Declaration where
  | nodeClass (c : NodeClass)
  | linkClass (l : LinkClass)
  | instances (g : InstanceGroup)
  | translation (t : Translation)
  | connection (c : Connection)
  | directive (i : Include)
deriving DecidableEq

/-- A whole description. -/
structure Document where
  includes : List Include
  nodeClasses : List NodeClass
  linkClasses : List LinkClass
  instances : List InstanceGroup
  translations : List Translation
  connections : List Connection
deriving DecidableEq

namespace Document

/-- The document that declares nothing. -/
def empty : Document := ⟨[], [], [], [], [], []⟩

/-- Two documents one after the other, list by list. -/
def append (a b : Document) : Document where
  includes := a.includes ++ b.includes
  nodeClasses := a.nodeClasses ++ b.nodeClasses
  linkClasses := a.linkClasses ++ b.linkClasses
  instances := a.instances ++ b.instances
  translations := a.translations ++ b.translations
  connections := a.connections ++ b.connections

instance : Append Document := ⟨append⟩

/-- The document of one declaration. -/
def ofDeclaration : Declaration → Document
  | .nodeClass c => { empty with nodeClasses := [c] }
  | .linkClass l => { empty with linkClasses := [l] }
  | .instances g => { empty with instances := [g] }
  | .translation t => { empty with translations := [t] }
  | .connection c => { empty with connections := [c] }
  | .directive i => { empty with includes := [i] }

/-- The instances of all groups, each with the class of its group. -/
def deployed (d : Document) : List (String × InstanceEntry) :=
  d.instances.flatMap fun g => g.entries.map fun e => (g.nodeClass, e)

/-- The names that a connection may lead to and from: those of instances, then those of
translations. -/
def endpointNames (d : Document) : List String :=
  d.deployed.map (·.2.name) ++ d.translations.map (·.name)

end Document

end SystemMap
