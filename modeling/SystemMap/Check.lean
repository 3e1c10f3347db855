/-
Checks of a document. Defects make a document wrong: a name declared twice, or one that
nothing declares. Suspicions leave it usable: a link class against the direction of its
connectors, a port or an address that cannot be, a connection that no link class permits.

Findings are causes with a wording (`Defect.message`, `Suspicion.message`). They are told in
a fixed order: by kind, and within a kind by declaration. A check ends early only at a
number that cannot be read or written for being too long, or at a digit in an address that
does not count in tens.
-/
import SystemMap.Document
import SystemMap.Text.Numeral
import SystemMap.Text.Split

namespace SystemMap

-- =============================================================== findings

/-- What makes a document wrong. -/
inductive Defect where
  | duplicateClass (name : String)
  | duplicateConnector (nodeClass name : String)
  | duplicateEndpoint (name : String)
  | groupOfUnknownClass (position : Option Position) (nodeClass : String)
  | linkOfUnknownClass (position : Option Position) (nodeClass : String)
  | linkOfUnknownConnector (position : Option Position) (ref : ConnectorRef)
  | unknownEndpoint (position : Option Position) (name : String)
deriving DecidableEq

/-- The two addresses of a translation. -/
inductive Side where
  | external
  | internal
deriving DecidableEq

/-- What makes a document doubtful. -/
inductive Suspicion where
  | linkFromServer (position : Option Position) (ref : ConnectorRef)
  | linkToClient (position : Option Position) (ref : ConnectorRef)
  | reversedRange (connector : ConnectorRef) (first last : Int)
  | portOutOfRange (connector : ConnectorRef) (port : Int)
  | instanceAddress (name address : String)
  | translationAddress (name : String) (side : Side) (address : String)
  | unpermitted (source target sourceClass targetClass : String)
deriving DecidableEq

/-- The findings of a check. -/
structure Report where
  defects : List Defect
  suspicions : List Suspicion
deriving DecidableEq

-- ================================================================ wording

/-- The place of a declaration as a message puts it after a noun. -/
def Position.suffix : Option Position → String
  | none => ""
  | some p => " (line " ++ toString p.line ++ ", column " ++ toString p.column ++ ")"

/-- The name of a connector with its class. -/
def ConnectorRef.dotted (r : ConnectorRef) : String := r.nodeClass ++ "." ++ r.connector

/-- The wording of a defect. -/
def Defect.message : Defect → String
  | .duplicateClass name => "Node class '" ++ name ++ "' is declared more than once."
  | .duplicateConnector nodeClass name =>
    "Node class '" ++ nodeClass ++ "' declares connector '" ++ name ++ "' more than once."
  | .duplicateEndpoint name =>
    "Instance or NAT name '" ++ name ++ "' is declared more than once."
  | .groupOfUnknownClass position nodeClass =>
    "Instance group" ++ Position.suffix position ++ " uses undeclared node class '" ++
      nodeClass ++ "'."
  | .linkOfUnknownClass position nodeClass =>
    "Link class" ++ Position.suffix position ++ " uses undeclared node class '" ++
      nodeClass ++ "'."
  | .linkOfUnknownConnector position ref =>
    "Link class" ++ Position.suffix position ++ " uses connector '" ++ ref.connector ++
      "' which node class '" ++ ref.nodeClass ++ "' does not declare."
  | .unknownEndpoint position name =>
    "Connection" ++ Position.suffix position ++ " refers to unknown instance or NAT '" ++
      name ++ "'."

/-- The word for a side. -/
def Side.word : Side → String
  | .external => "external"
  | .internal => "internal"

/-- The wording of a suspicion. -/
def Suspicion.message : Suspicion → String
  | .linkFromServer position ref =>
    "Link class" ++ Position.suffix position ++ " starts at server connector '" ++
      ref.dotted ++ "'; expected a client connector."
  | .linkToClient position ref =>
    "Link class" ++ Position.suffix position ++ " ends at client connector '" ++
      ref.dotted ++ "'; expected a server connector."
  | .reversedRange connector first last =>
    "Connector '" ++ connector.dotted ++ "' has reversed port range " ++ toString first ++
      "-" ++ toString last ++ "."
  | .portOutOfRange connector port =>
    "Connector '" ++ connector.dotted ++ "' uses port " ++ toString port ++
      " outside 0-65535."
  | .instanceAddress name address =>
    "Instance '" ++ name ++ "' has invalid IPv4 address '" ++ address ++ "'."
  | .translationAddress name side address =>
    "NAT '" ++ name ++ "' has invalid " ++ side.word ++ " address '" ++ address ++ "'."
  | .unpermitted source target sourceClass targetClass =>
    "Connection '" ++ source ++ "' -> '" ++ target ++
      "' is not permitted by any link class from '" ++ sourceClass ++ "' to '" ++
      targetClass ++ "'."

/-- The numbers of a place. -/
def Position.numbers : Option Position → List Int
  | none => []
  | some p => [p.line, p.column]

/-- The numbers in the wording of a defect. -/
def Defect.numbers : Defect → List Int
  | .groupOfUnknownClass position _ | .linkOfUnknownClass position _
  | .linkOfUnknownConnector position _ | .unknownEndpoint position _ =>
    Position.numbers position
  | _ => []

/-- The numbers in the wording of a suspicion. -/
def Suspicion.numbers : Suspicion → List Int
  | .linkFromServer position _ | .linkToClient position _ => Position.numbers position
  | .reversedRange _ first last => [first, last]
  | .portOutOfRange _ port => [port]
  | _ => []

-- ====================================================== names and numbers

/-- The greatest port that is not suspicious. -/
def maxPort : Int := 65535

/-- What is doubtful about ports of a connector. Only the upper bound is looked at. -/
def Ports.suspicions (connector : ConnectorRef) : Ports → List Suspicion
  | .single port => if port > maxPort then [.portOutOfRange connector port] else []
  | .range first last =>
    (if first > last then [.reversedRange connector first last] else []) ++
    ([first, last].filter (· > maxPort)).map (.portOutOfRange connector)

/-- Whether each part is a number of at most 255; the first that is not decides. -/
def areOctets : List (List Char) → Except Text.Numeral.Fault Bool
  | [] => .ok true
  | part :: parts =>
    if Text.isDigitText part then
      match Text.Numeral.read (String.ofList part) with
      | .error f => .error f
      | .ok n => if n ≤ 255 then areOctets parts else .ok false
    else .ok false

/-- Whether a text is an address of four octets. -/
def isAddress (text : String) : Except Text.Numeral.Fault Bool :=
  let parts := Text.splitAt '.' text.toList
  if parts.length = 4 then areOctets parts else .ok false

/-- A suspicion about each item whose address is none. -/
def suspectAddresses : List (String × Suspicion) → Except Text.Numeral.Fault (List Suspicion)
  | [] => .ok []
  | (address, suspicion) :: rest => do
    let good ← isAddress address
    let later ← suspectAddresses rest
    return if good then later else suspicion :: later

-- ================================================================ defects

/-- Names that occur more than once, each told once, in the order of first occurrence. -/
def duplicates (names : List String) : List String :=
  names.eraseDups.filter fun name => 1 < names.count name

namespace Document

variable (d : Document)

/-- Names declared twice in one namespace. Instances and translations share one. -/
def duplicateNames : List Defect :=
  (duplicates (d.nodeClasses.map (·.name))).map .duplicateClass ++
  d.nodeClasses.flatMap (fun c =>
    (duplicates (c.connectors.map (·.name))).map (.duplicateConnector c.name)) ++
  (duplicates d.endpointNames).map .duplicateEndpoint

/-- Whether a node class is declared. -/
def declaresClass (name : String) : Bool := d.nodeClasses.any (·.name = name)

/-- Whether some declaration of a node class has a connector. -/
def declaresConnector (ref : ConnectorRef) : Bool :=
  d.nodeClasses.any fun c =>
    c.name = ref.nodeClass && c.connectors.any (·.name = ref.connector)

/-- What is wrong with one end of a link class. -/
def linkEndDefects (position : Option Position) (ref : ConnectorRef) : List Defect :=
  if !d.declaresClass ref.nodeClass then [.linkOfUnknownClass position ref.nodeClass]
  else if !d.declaresConnector ref then [.linkOfUnknownConnector position ref]
  else []

/-- Names that nothing declares. -/
def danglingNames : List Defect :=
  d.instances.flatMap (fun g =>
    if d.declaresClass g.nodeClass then [] else [.groupOfUnknownClass g.position g.nodeClass]) ++
  d.linkClasses.flatMap (fun l =>
    d.linkEndDefects l.position l.source ++ d.linkEndDefects l.position l.target) ++
  d.connections.flatMap (fun c =>
    ([c.source, c.target].filter fun name => !d.endpointNames.contains name).map
      (.unknownEndpoint c.position))

/-- All defects of a document. -/
def defects : List Defect := d.duplicateNames ++ d.danglingNames

-- ============================================================= suspicions

/-- The role of a connector; of several declarations the first counts. -/
def roleOf? (ref : ConnectorRef) : Option Role :=
  d.nodeClasses.findSome? fun c =>
    if c.name = ref.nodeClass then
      (c.connectors.find? (·.name = ref.connector)).map (·.role)
    else none

/-- Link classes that do not lead from a client to a server. -/
def misdirectedLinks : List Suspicion :=
  d.linkClasses.flatMap fun l =>
    (if d.roleOf? l.source = some .server then [.linkFromServer l.position l.source] else []) ++
    (if d.roleOf? l.target = some .client then [.linkToClient l.position l.target] else [])

/-- Ports that are reversed or too large. -/
def doubtfulPorts : List Suspicion :=
  d.nodeClasses.flatMap fun c => c.connectors.flatMap fun k =>
    k.ports.flatMap fun spec => spec.ports.suspicions ⟨c.name, k.name⟩

/-- Every address, with what to say if it is none. -/
def addresses : List (String × Suspicion) :=
  (d.deployed.filterMap fun (_, e) => e.address.map fun a => (a, .instanceAddress e.name a)) ++
  d.translations.flatMap fun t =>
    [(t.external, .translationAddress t.name .external t.external),
      (t.internal, .translationAddress t.name .internal t.internal)]

/-- The class of an instance; of several of one name the last counts. -/
def classOf? (name : String) : Option String :=
  (d.deployed.reverse.find? (·.2.name = name)).map (·.1)

/-- Whether a link class leads from one class to another. -/
def permits (source target : String) : Bool :=
  d.linkClasses.any fun l => l.source.nodeClass = source && l.target.nodeClass = target

/-- Connections between instances whose classes no link class joins. Without link classes
nothing is restricted, and connections of translations never are. -/
def unpermittedConnections : List Suspicion :=
  if d.linkClasses.isEmpty then []
  else d.connections.filterMap fun c =>
    match d.classOf? c.source, d.classOf? c.target with
    | some source, some target =>
      if d.permits source target then none
      else some (.unpermitted c.source c.target source target)
    | _, _ => none

-- ================================================================== check

/-- Refuses findings with a number too long to be written. -/
def demandWritable (numbers : List Int) : Except Text.Numeral.Fault Unit :=
  if numbers.all Text.Numeral.isWritable then .ok () else .error .unwritable

/-- Checks a document. -/
def check : Except Text.Numeral.Fault Report := do
  let defects := d.defects
  let links := d.misdirectedLinks
  let ports := d.doubtfulPorts
  demandWritable
    (defects.flatMap Defect.numbers ++ (links ++ ports).flatMap Suspicion.numbers)
  let addresses ← suspectAddresses d.addresses
  return ⟨defects, links ++ ports ++ addresses ++ d.unpermittedConnections⟩

end Document

end SystemMap
