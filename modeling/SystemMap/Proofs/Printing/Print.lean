/-
Documents printed as texts: the include directives first, then the five sections in their
order, each marker followed by the constructs of its section, one on a line.

A construct is printed as a layout, so its text and its lexemes come from one definition.
Not every document can be printed so that it is read again. `Writable` says which can: names
have to be words that are no keywords, ports have to be natural numbers below the limit of
digits, and so on. What printing does not keep is positions; `unplaced` is what is left of a
document without them.
-/
import SystemMap.Proofs.Scan.Layout
import SystemMap.Document
import SystemMap.Outline

namespace SystemMap

-- ================================================================== parts

namespace Ink

/-- A single space. -/
def space : Ink := .gap [' ']

/-- The end of a line. -/
def newline : Ink := .gap ['\n']

/-- A name. -/
def named (s : String) : Ink := .lexeme ⟨.name, s.toList⟩

/-- A number in decimal. -/
def number (n : Int) : Ink := .lexeme ⟨.number, (toString n).toList⟩

/-- A quoted text. -/
def quoted (s : String) : Ink := .lexeme ⟨.text, s.toList⟩

/-- A section marker. -/
def marker (s : Section) : Ink := .lexeme ⟨.marker s, s.keyword.toList⟩

def includeWord : Ink := .lexeme ⟨.includeWord, "include".toList⟩
def udpWord : Ink := .lexeme ⟨.udpWord, "UDP".toList⟩
def leftParen : Ink := .lexeme ⟨.leftParen, ['(']⟩
def rightParen : Ink := .lexeme ⟨.rightParen, [')']⟩
def comma : Ink := .lexeme ⟨.comma, [',']⟩
def dot : Ink := .lexeme ⟨.dot, ['.']⟩
def star : Ink := .lexeme ⟨.star, ['*']⟩
def atSign : Ink := .lexeme ⟨.at, ['@']⟩
def doubleColon : Ink := .lexeme ⟨.doubleColon, [':', ':']⟩
def arrow : Ink := .lexeme ⟨.arrow, ['-', '>']⟩
def dash : Ink := .lexeme ⟨.dash, ['-']⟩

end Ink

open Ink

/-- Items with a separator between them. -/
def Layout.separated {α : Type} (separator : Layout) (ink : α → Layout) : List α → Layout
  | [] => []
  | first :: later => ink first ++ later.flatMap fun a => separator ++ ink a

-- ============================================================= constructs

/-- `port`, or `first-last`. -/
def Ports.ink : Ports → Layout
  | .single n => [number n]
  | .range a b => [number a, dash, number b]

/-- Ports, or `UDP(ports)`. -/
def PortSpec.ink (s : PortSpec) : Layout :=
  match s.protocol with
  | .tcp => s.ports.ink
  | .udp => udpWord :: leftParen :: (s.ports.ink ++ [rightParen])

/-- ` (ports, ports)`, or nothing. -/
def portListInk : List PortSpec → Layout
  | [] => []
  | ports => space :: leftParen ::
      (Layout.separated [comma, space] PortSpec.ink ports ++ [rightParen])

/-- ` name (ports)`, with a star for a client. -/
def Connector.ink (c : Connector) : Layout :=
  match c.role with
  | .server => space :: named c.name :: portListInk c.ports
  | .client => space :: star :: named c.name :: portListInk c.ports

/-- `name:: connector connector`. -/
def NodeClass.ink (c : NodeClass) : Layout :=
  named c.name :: doubleColon :: c.connectors.flatMap Connector.ink

/-- `class.connector`. -/
def ConnectorRef.ink (r : ConnectorRef) : Layout := [named r.nodeClass, dot, named r.connector]

/-- `class.connector -> class.connector`. -/
def LinkClass.ink (l : LinkClass) : Layout :=
  l.source.ink ++ space :: arrow :: space :: l.target.ink

/-- The octets of an address. -/
def octets (address : String) : List (List Char) := address.toList.splitOn '.'

/-- Octets with dots between them. -/
def addressInk (address : String) : Layout :=
  Layout.separated [dot] (fun o => [.lexeme ⟨.number, o⟩]) (octets address)

/-- `name(address)`, or `name`. -/
def InstanceEntry.ink (e : InstanceEntry) : Layout :=
  match e.address with
  | none => [named e.name]
  | some address => named e.name :: leftParen :: (addressInk address ++ [rightParen])

/-- `class entry, entry`. -/
def InstanceGroup.ink (g : InstanceGroup) : Layout :=
  named g.nodeClass :: space ::
    Layout.separated [comma, space] InstanceEntry.ink g.entries

/-- `@name (external, internal)`. -/
def Translation.ink (t : Translation) : Layout :=
  atSign :: named t.name :: space :: leftParen ::
    (addressInk t.external ++ comma :: space :: (addressInk t.internal ++ [rightParen]))

/-- `source -> target`. -/
def Connection.ink (c : Connection) : Layout :=
  [named c.source, space, arrow, space, named c.target]

/-- `include "path"`. -/
def Include.ink (i : Include) : Layout := [Ink.includeWord, space, quoted i.path]

/-- How a declaration is printed. -/
def Declaration.ink : Declaration → Layout
  | .nodeClass c => c.ink
  | .linkClass l => l.ink
  | .instances g => g.ink
  | .translation t => t.ink
  | .connection c => c.ink
  | .directive i => i.ink

/-- How a segment is printed. A token passed over is not kept. -/
def Segment.ink : Segment → Layout
  | .marker s => [Ink.marker s]
  | .declared d => d.ink
  | .passed .. => []

-- =============================================================== documents

/-- The lines that a document is printed as. -/
def Document.segments (d : Document) : List Segment :=
  d.includes.map (.declared ∘ .directive) ++
    .marker .nodeClasses :: d.nodeClasses.map (.declared ∘ .nodeClass) ++
    .marker .linkClasses :: d.linkClasses.map (.declared ∘ .linkClass) ++
    .marker .instances :: d.instances.map (.declared ∘ .instances) ++
    .marker .nats :: d.translations.map (.declared ∘ .translation) ++
    .marker .connections :: d.connections.map (.declared ∘ .connection)

/-- Segments, each on a line. -/
def linesInk (segments : List Segment) : Layout := segments.flatMap fun s => s.ink ++ [newline]

/-- A document as a text. -/
def Document.print (d : Document) : String := String.ofList (linesInk d.segments).text

-- =============================================================== writable

/-- A word that is not, in any letter case, one of the two keywords. -/
def IsName (s : String) : Prop :=
  IsWord s.toList ∧ lowerWord s.toList ≠ "include".toList ∧ lowerWord s.toList ≠ "udp".toList

/-- A port that can be written. -/
def IsPort (n : Int) : Prop := 0 ≤ n ∧ n.toNat < 10 ^ Text.Numeral.digitLimit

/-- Runs of digits with dots between them. -/
def IsAddress (s : String) : Prop := ∀ o ∈ octets s, IsDigits o

def Ports.Writable : Ports → Prop
  | .single n => IsPort n
  | .range a b => IsPort a ∧ IsPort b

def Connector.Writable (c : Connector) : Prop :=
  IsName c.name ∧ ∀ s ∈ c.ports, s.ports.Writable

def NodeClass.Writable (c : NodeClass) : Prop :=
  IsName c.name ∧ ∀ connector ∈ c.connectors, connector.Writable

def ConnectorRef.Writable (r : ConnectorRef) : Prop := IsName r.nodeClass ∧ IsName r.connector

def LinkClass.Writable (l : LinkClass) : Prop := l.source.Writable ∧ l.target.Writable

def InstanceEntry.Writable (e : InstanceEntry) : Prop :=
  IsName e.name ∧ ∀ address ∈ e.address, IsAddress address

def InstanceGroup.Writable (g : InstanceGroup) : Prop :=
  IsName g.nodeClass ∧ g.entries ≠ [] ∧ ∀ e ∈ g.entries, e.Writable

def Translation.Writable (t : Translation) : Prop :=
  IsName t.name ∧ IsAddress t.external ∧ IsAddress t.internal

def Connection.Writable (c : Connection) : Prop := IsName c.source ∧ IsName c.target

def Include.Writable (i : Include) : Prop := '"' ∉ i.path.toList

/-- A declaration that can be printed so that it is read again. -/
def Declaration.Writable : Declaration → Prop
  | .nodeClass c => c.Writable
  | .linkClass l => l.Writable
  | .instances g => g.Writable
  | .translation t => t.Writable
  | .connection c => c.Writable
  | .directive i => i.Writable

/-- A segment that can be printed so that it is read again. -/
def Segment.Writable : Segment → Prop
  | .declared d => d.Writable
  | _ => True

/-- A document that can be printed so that it is read again. -/
structure Document.Writable (d : Document) : Prop where
  includes : ∀ i ∈ d.includes, i.Writable
  nodeClasses : ∀ c ∈ d.nodeClasses, c.Writable
  linkClasses : ∀ l ∈ d.linkClasses, l.Writable
  instances : ∀ g ∈ d.instances, g.Writable
  translations : ∀ t ∈ d.translations, t.Writable
  connections : ∀ c ∈ d.connections, c.Writable

-- =============================================================== unplaced

def Connector.unplaced (c : Connector) : Connector := { c with position := none }

def NodeClass.unplaced (c : NodeClass) : NodeClass :=
  { c with connectors := c.connectors.map .unplaced, position := none }

def LinkClass.unplaced (l : LinkClass) : LinkClass := { l with position := none }

def InstanceEntry.unplaced (e : InstanceEntry) : InstanceEntry := { e with position := none }

def InstanceGroup.unplaced (g : InstanceGroup) : InstanceGroup :=
  { g with entries := g.entries.map .unplaced, position := none }

def Translation.unplaced (t : Translation) : Translation := { t with position := none }

def Connection.unplaced (c : Connection) : Connection := { c with position := none }

def Include.unplaced (i : Include) : Include := { i with position := none }

/-- A declaration without its place. -/
def Declaration.unplaced : Declaration → Declaration
  | .nodeClass c => .nodeClass c.unplaced
  | .linkClass l => .linkClass l.unplaced
  | .instances g => .instances g.unplaced
  | .translation t => .translation t.unplaced
  | .connection c => .connection c.unplaced
  | .directive i => .directive i.unplaced

/-- A segment without the places of its declaration. -/
def Segment.unplaced : Segment → Segment
  | .declared d => .declared d.unplaced
  | s => s

/-- A document without places. -/
def Document.unplaced (d : Document) : Document where
  includes := d.includes.map .unplaced
  nodeClasses := d.nodeClasses.map .unplaced
  linkClasses := d.linkClasses.map .unplaced
  instances := d.instances.map .unplaced
  translations := d.translations.map .unplaced
  connections := d.connections.map .unplaced

end SystemMap
