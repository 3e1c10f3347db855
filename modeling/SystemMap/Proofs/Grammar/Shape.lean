/-
The grammar of a description, said without the steps that read it. A `Shape` relates a value
to the run of tokens that spells it and to the tokens that follow that run. What follows
matters because constructs have no terminators: each is as long as it can be, so whether a
run is a whole construct depends on the token after it.

That is said where it applies and nowhere else. A port list is absent, an address is absent
or a list ends only where the parenthesis or the sign that would go on does not follow
(`Next`), and a node class ends only before what starts no connector (`StartsConnector`).

Every position is that of the first token of a run.
-/
import SystemMap.Outline

namespace SystemMap

/-- A value, the run of tokens that spells it and the tokens that follow. -/
abbrev Shape (α : Type) := α → List Token → List Token → Prop

-- ============================================================ what is next

/-- A token of the kind given comes next. -/
def Next (kind : TokenKind) : List Token → Prop
  | t :: _ => t.kind = kind
  | [] => False

/-- What comes next starts one more connector: a star, or a name that no double colon
follows. -/
def StartsConnector (ts : List Token) : Prop :=
  Next .star ts ∨ Next .name ts ∧ ¬ Next .doubleColon ts.tail

/-- The number that a token writes. -/
def Token.Writes (t : Token) (n : Int) : Prop :=
  t.kind = .number ∧ Text.Numeral.read t.value = .ok n

-- ================================================================== lists

section Lists

variable {α : Type}

/-- The sign and an item, as often as the sign comes next. -/
inductive After (sign : TokenKind) (item : Shape α) : Shape (List α)
  | stop {rest} (hs : ¬ Next sign rest) : After sign item [] [] rest
  | more {s a as run later rest} (hs : s.kind = sign) (ha : item a run (later ++ rest))
      (hl : After sign item as later rest) : After sign item (a :: as) (s :: (run ++ later)) rest

/-- An item, and one more after each sign that comes next. -/
inductive Listed (sign : TokenKind) (item : Shape α) : Shape (List α)
  | mk {a as run later rest} (ha : item a run (later ++ rest))
      (hl : After sign item as later rest) : Listed sign item (a :: as) (run ++ later) rest

/-- Items as long as what comes next starts one. -/
inductive Many (starts : List Token → Prop) (item : Shape α) : Shape (List α)
  | stop {rest} (hs : ¬ starts rest) : Many starts item [] [] rest
  | more {a as run later rest} (hs : starts (run ++ (later ++ rest)))
      (ha : item a run (later ++ rest)) (hl : Many starts item as later rest) :
      Many starts item (a :: as) (run ++ later) rest

end Lists

-- ================================================================== ports

/-- `port`, or `first - last`. -/
inductive Ports.Spelled : Shape Ports
  | single {t n rest} (ht : t.Writes n) (hd : ¬ Next .dash rest) : Spelled (.single n) [t] rest
  | range {t d u a b rest} (ht : t.Writes a) (hd : d.kind = .dash) (hu : u.Writes b) :
      Spelled (.range a b) [t, d, u] rest

/-- Ports, or ports inside `UDP( … )`. -/
inductive PortSpec.Spelled : Shape PortSpec
  | tcp {ports run rest} (hp : ports.Spelled run rest) : Spelled ⟨.tcp, ports⟩ run rest
  | udp {u l r ports run rest} (hu : u.kind = .udpWord) (hl : l.kind = .leftParen)
      (hp : ports.Spelled run (r :: rest)) (hr : r.kind = .rightParen) :
      Spelled ⟨.udp, ports⟩ (u :: l :: (run ++ [r])) rest

-- ======================================================== nodes and links

/-- The ports of a connector, listed in parentheses. -/
inductive PortList : Shape (List PortSpec)
  | absent {rest} (hl : ¬ Next .leftParen rest) : PortList [] [] rest
  | listed {l r ports run rest} (hl : l.kind = .leftParen)
      (hp : Listed .comma PortSpec.Spelled ports run (r :: rest)) (hr : r.kind = .rightParen) :
      PortList ports (l :: (run ++ [r])) rest

/-- `name`, after a star for a client, and its ports. -/
inductive Connector.Spelled : Shape Connector
  | server {t ports run rest} (ht : t.kind = .name) (hp : PortList ports run rest) :
      Spelled ⟨t.value, .server, ports, some t.position⟩ (t :: run) rest
  | client {s t ports run rest} (hs : s.kind = .star) (ht : t.kind = .name)
      (hp : PortList ports run rest) :
      Spelled ⟨t.value, .client, ports, some s.position⟩ (s :: t :: run) rest

/-- `name ::` and connectors. -/
inductive NodeClass.Spelled : Shape NodeClass
  | mk {t c connectors run rest} (ht : t.kind = .name) (hc : c.kind = .doubleColon)
      (hm : Many StartsConnector Connector.Spelled connectors run rest) :
      Spelled ⟨t.value, connectors, some t.position⟩ (t :: c :: run) rest

/-- `class . connector`. -/
inductive ConnectorRef.Spelled : Shape ConnectorRef
  | mk {c d n rest} (hc : c.kind = .name) (hd : d.kind = .dot) (hn : n.kind = .name) :
      Spelled ⟨c.value, n.value⟩ [c, d, n] rest

/-- `class . connector -> class . connector`. -/
inductive LinkClass.Spelled : Shape LinkClass
  | mk {t w source target run later rest}
      (hs : source.Spelled (t :: run) (w :: (later ++ rest))) (hw : w.kind = .arrow)
      (ht : target.Spelled later rest) :
      Spelled ⟨source, target, some t.position⟩ (t :: (run ++ w :: later)) rest

-- =============================================== instances and addresses

/-- Numbers with dots between them, kept as written. -/
inductive AddressSpelled : Shape String
  | mk {octets run rest}
      (ho : Listed .dot (fun t run _ => run = [t] ∧ t.kind = .number) octets run rest) :
      AddressSpelled (".".intercalate (octets.map (·.value))) run rest

/-- The address of an instance, in parentheses. -/
inductive AddressGiven : Shape (Option String)
  | absent {rest} (hl : ¬ Next .leftParen rest) : AddressGiven none [] rest
  | given {l r address run rest} (hl : l.kind = .leftParen)
      (ha : AddressSpelled address run (r :: rest)) (hr : r.kind = .rightParen) :
      AddressGiven (some address) (l :: (run ++ [r])) rest

/-- `name` and its address. -/
inductive InstanceEntry.Spelled : Shape InstanceEntry
  | mk {t address run rest} (ht : t.kind = .name) (ha : AddressGiven address run rest) :
      Spelled ⟨t.value, address, some t.position⟩ (t :: run) rest

/-- `class` and instances with commas between them. -/
inductive InstanceGroup.Spelled : Shape InstanceGroup
  | mk {t entries run rest} (ht : t.kind = .name)
      (he : Listed .comma InstanceEntry.Spelled entries run rest) :
      Spelled ⟨t.value, entries, some t.position⟩ (t :: run) rest

/-- `@ name ( external , internal )`. -/
inductive Translation.Spelled : Shape Translation
  | mk {a n l c r external internal run later rest} (ha : a.kind = .at) (hn : n.kind = .name)
      (hl : l.kind = .leftParen)
      (he : AddressSpelled external run (c :: (later ++ r :: rest))) (hc : c.kind = .comma)
      (hi : AddressSpelled internal later (r :: rest)) (hr : r.kind = .rightParen) :
      Spelled ⟨n.value, external, internal, some a.position⟩
        (a :: n :: l :: (run ++ c :: (later ++ [r]))) rest

-- ============================================== connections and includes

/-- `source -> target`. -/
inductive Connection.Spelled : Shape Connection
  | mk {s w t rest} (hs : s.kind = .name) (hw : w.kind = .arrow) (ht : t.kind = .name) :
      Spelled ⟨s.value, t.value, some s.position⟩ [s, w, t] rest

/-- `include "path"`. -/
inductive Include.Spelled : Shape Include
  | mk {w p rest} (hw : w.kind = .includeWord) (hp : p.kind = .text) :
      Spelled ⟨p.value, some w.position⟩ [w, p] rest

-- =============================================================== segments

/-- Whether a token of some kind starts something where a section is in force: markers and
directives anywhere, translations and the others in their own section. -/
def Starts : Option Section → TokenKind → Prop
  | _, .marker _ => True
  | _, .includeWord => True
  | some .nats, .at => True
  | some .nodeClasses, .name => True
  | some .linkClasses, .name => True
  | some .instances, .name => True
  | some .connections, .name => True
  | _, _ => False

/-- What segments are where a section is in force. -/
inductive Segment.Spelled (current : Option Section) : Shape Segment
  | marker {t s rest} (ht : t.kind = .marker s) : Spelled current (.marker s) [t] rest
  | directive {i run rest} (h : i.Spelled run rest) :
      Spelled current (.declared (.directive i)) run rest
  | nodeClass {c run rest} (hs : current = some .nodeClasses) (h : c.Spelled run rest) :
      Spelled current (.declared (.nodeClass c)) run rest
  | linkClass {l run rest} (hs : current = some .linkClasses) (h : l.Spelled run rest) :
      Spelled current (.declared (.linkClass l)) run rest
  | instances {g run rest} (hs : current = some .instances) (h : g.Spelled run rest) :
      Spelled current (.declared (.instances g)) run rest
  | translation {t run rest} (hs : current = some .nats) (h : t.Spelled run rest) :
      Spelled current (.declared (.translation t)) run rest
  | connection {c run rest} (hs : current = some .connections) (h : c.Spelled run rest) :
      Spelled current (.declared (.connection c)) run rest
  | passed {t rest} (ht : ¬ Starts current t.kind) :
      Spelled current (.passed current t.kind t.position) [t] rest

/-- `Split current ts parts`: where a section is in force, tokens fall into consecutive
parts, each a segment with its run. A marker sets the section of the parts after it. -/
inductive Split : Option Section → List Token → List (Segment × List Token) → Prop
  | nil {current} : Split current [] []
  | cons {current s run rest parts} (hs : s.Spelled current run rest)
      (hp : Split (s.sectionAfter current) rest parts) :
      Split current (run ++ rest) ((s, run) :: parts)

end SystemMap
