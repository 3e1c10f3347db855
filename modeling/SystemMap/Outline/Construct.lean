/-
The constructs of a description, one step each. A construct has no terminator: it ends where
the next token cannot continue it. A parenthesis after a connector or an instance always
opens its ports or its address, a comma always continues a list, and a node class takes
connectors up to a name that a double colon follows, which starts the next class.

Every construct takes at least one token; the theorems named `shrinks_` say so.
-/
import SystemMap.Document
import SystemMap.Outline.Step

namespace SystemMap

open Step (expect accept here numeral manyWhile manyAfter separated Shrinks Keeps
  shrinks_expect keeps_accept keeps_here keeps_numeral keeps_pure keeps_manyWhile
  keeps_manyAfter shrinks_separated)

-- ================================================================== ports

namespace PortSpec

/-- Reads `port` or `first - last`. -/
def stepPorts : Step Ports :=
  (expect .number .port).bind fun first =>
  (accept .dash).bind fun ranged =>
  if ranged then
    (expect .number .lastPort).bind fun last =>
    (numeral first).bind fun a =>
    (numeral last).bind fun b => Step.pure (.range a b)
  else (numeral first).map .single

theorem shrinks_stepPorts : stepPorts.Shrinks := by
  refine Shrinks.bind (shrinks_expect _ _) fun first => ?_
  refine Keeps.bind (keeps_accept _) fun ranged => ?_
  split
  · refine Keeps.bind (shrinks_expect _ _).keeps fun last => ?_
    refine Keeps.bind (keeps_numeral _) fun a => ?_
    exact Keeps.bind (keeps_numeral _) fun b => keeps_pure _
  · exact Keeps.map _ (keeps_numeral _)

/-- Reads ports, or ports inside `UDP( … )`. -/
def step : Step PortSpec :=
  (accept .udpWord).bind fun udp =>
  if udp then
    (expect .leftParen .udpOpening).bind fun _ =>
    stepPorts.bind fun ports =>
    (expect .rightParen .udpClosing).bind fun _ => Step.pure ⟨.udp, ports⟩
  else stepPorts.map (PortSpec.mk .tcp)

theorem shrinks_step : step.Shrinks := by
  refine Keeps.bind_shrinks (keeps_accept _) fun udp => ?_
  split
  · refine Shrinks.bind (shrinks_expect _ _) fun _ => ?_
    refine Keeps.bind shrinks_stepPorts.keeps fun ports => ?_
    exact Keeps.bind (shrinks_expect _ _).keeps fun _ => keeps_pure _
  · exact Shrinks.map _ shrinks_stepPorts

end PortSpec

-- ======================================================= nodes and links

namespace Connector

/-- Reads the ports of a connector, if a parenthesis opens any. -/
def stepPortList : Step (List PortSpec) :=
  (accept .leftParen).bind fun listed =>
  if listed then
    (separated .comma PortSpec.step PortSpec.shrinks_step).bind fun ports =>
    (expect .rightParen .portListEnd).bind fun _ => Step.pure ports
  else Step.pure []

theorem keeps_stepPortList : stepPortList.Keeps := by
  refine Keeps.bind (keeps_accept _) fun listed => ?_
  split
  · refine Keeps.bind (shrinks_separated _ _).keeps fun ports => ?_
    exact Keeps.bind (shrinks_expect _ _).keeps fun _ => keeps_pure _
  · exact keeps_pure _

/-- Reads a connector. A star makes it a client. -/
def step : Step Connector :=
  here.bind fun position =>
  (accept .star).bind fun starred =>
  (expect .name .connectorName).bind fun name =>
  stepPortList.bind fun ports =>
  Step.pure ⟨name.value, if starred then .client else .server, ports, some position⟩

theorem shrinks_step : step.Shrinks := by
  refine Keeps.bind_shrinks keeps_here fun position => ?_
  refine Keeps.bind_shrinks (keeps_accept _) fun starred => ?_
  refine Shrinks.bind (shrinks_expect _ _) fun name => ?_
  exact Keeps.bind keeps_stepPortList fun ports => keeps_pure _

end Connector

namespace NodeClass

/-- Whether the tokens ahead belong to one more connector. -/
def moreConnectors (ts : Tokens) : Bool :=
  ts.headKind? = some .star ||
    (ts.headKind? = some .name && ts.secondKind? ≠ some .doubleColon)

/-- Reads a node class. -/
def step : Step NodeClass :=
  (expect .name .className).bind fun name =>
  (expect .doubleColon .doubleColon).bind fun _ =>
  Step.map (fun connectors => ⟨name.value, connectors, some name.position⟩)
    (manyWhile moreConnectors Connector.step Connector.shrinks_step)

theorem shrinks_step : step.Shrinks := by
  refine Shrinks.bind (shrinks_expect _ _) fun name => ?_
  refine Keeps.bind (shrinks_expect _ _).keeps fun _ => ?_
  exact Keeps.map _ (keeps_manyWhile _ _ _)

end NodeClass

namespace ConnectorRef

/-- Reads `class . connector`. -/
def step (nodeClass connector : Want) : Step ConnectorRef :=
  (expect .name nodeClass).bind fun c =>
  (expect .dot .refDot).bind fun _ =>
  (expect .name connector).map fun n => ⟨c.value, n.value⟩

theorem shrinks_step (nodeClass connector : Want) : (step nodeClass connector).Shrinks := by
  refine Shrinks.bind (shrinks_expect _ _) fun c => ?_
  refine Keeps.bind (shrinks_expect _ _).keeps fun _ => ?_
  exact Keeps.map _ (shrinks_expect _ _).keeps

end ConnectorRef

namespace LinkClass

/-- Reads a link class. -/
def step : Step LinkClass :=
  here.bind fun position =>
  (ConnectorRef.step .sourceClass .sourceConnector).bind fun source =>
  (expect .arrow .arrow).bind fun _ =>
  (ConnectorRef.step .targetClass .targetConnector).map fun target =>
    ⟨source, target, some position⟩

theorem shrinks_step : step.Shrinks := by
  refine Keeps.bind_shrinks keeps_here fun position => ?_
  refine Shrinks.bind (ConnectorRef.shrinks_step _ _) fun source => ?_
  refine Keeps.bind (shrinks_expect _ _).keeps fun _ => ?_
  exact Keeps.map _ (ConnectorRef.shrinks_step _ _).keeps

end LinkClass

-- ============================================== instances and addresses

/-- Reads an address: numbers with dots between them, kept as written. -/
def stepAddress : Step String :=
  Step.map (fun octets => ".".intercalate (octets.map (·.value)))
    (separated .dot (expect .number .octet) (shrinks_expect _ _))

theorem shrinks_stepAddress : stepAddress.Shrinks := Shrinks.map _ (shrinks_separated _ _)

namespace InstanceEntry

/-- Reads the address of an instance, if a parenthesis opens one. -/
def stepAddress? : Step (Option String) :=
  (accept .leftParen).bind fun opened =>
  if opened then
    stepAddress.bind fun address =>
    (expect .rightParen .addressEnd).bind fun _ => Step.pure (some address)
  else Step.pure none

theorem keeps_stepAddress? : stepAddress?.Keeps := by
  refine Keeps.bind (keeps_accept _) fun opened => ?_
  split
  · refine Keeps.bind shrinks_stepAddress.keeps fun address => ?_
    exact Keeps.bind (shrinks_expect _ _).keeps fun _ => keeps_pure _
  · exact keeps_pure _

/-- Reads one instance. -/
def step : Step InstanceEntry :=
  (expect .name .instanceName).bind fun name =>
  stepAddress?.map fun address => ⟨name.value, address, some name.position⟩

theorem shrinks_step : step.Shrinks := by
  refine Shrinks.bind (shrinks_expect _ _) fun name => ?_
  exact Keeps.map _ keeps_stepAddress?

end InstanceEntry

namespace InstanceGroup

/-- Reads a class and its instances. -/
def step : Step InstanceGroup :=
  (expect .name .className).bind fun nodeClass =>
  (separated .comma InstanceEntry.step InstanceEntry.shrinks_step).map fun entries =>
    ⟨nodeClass.value, entries, some nodeClass.position⟩

theorem shrinks_step : step.Shrinks := by
  refine Shrinks.bind (shrinks_expect _ _) fun nodeClass => ?_
  exact Keeps.map _ (shrinks_separated _ _).keeps

end InstanceGroup

namespace Translation

/-- Reads an address translation. -/
def step : Step Translation :=
  (expect .at .translationMark).bind fun mark =>
  (expect .name .translationName).bind fun name =>
  (expect .leftParen .translationOpening).bind fun _ =>
  stepAddress.bind fun external =>
  (expect .comma .addressComma).bind fun _ =>
  stepAddress.bind fun internal =>
  (expect .rightParen .translationEnd).map fun _ =>
    ⟨name.value, external, internal, some mark.position⟩

theorem shrinks_step : step.Shrinks := by
  refine Shrinks.bind (shrinks_expect _ _) fun mark => ?_
  refine Keeps.bind (shrinks_expect _ _).keeps fun name => ?_
  refine Keeps.bind (shrinks_expect _ _).keeps fun _ => ?_
  refine Keeps.bind shrinks_stepAddress.keeps fun external => ?_
  refine Keeps.bind (shrinks_expect _ _).keeps fun _ => ?_
  refine Keeps.bind shrinks_stepAddress.keeps fun internal => ?_
  exact Keeps.map _ (shrinks_expect _ _).keeps

end Translation

-- ============================================= connections and includes

namespace Connection

/-- Reads a connection. -/
def step : Step Connection :=
  (expect .name .sourceName).bind fun source =>
  (expect .arrow .arrow).bind fun _ =>
  (expect .name .targetName).map fun target =>
    ⟨source.value, target.value, some source.position⟩

theorem shrinks_step : step.Shrinks := by
  refine Shrinks.bind (shrinks_expect _ _) fun source => ?_
  refine Keeps.bind (shrinks_expect _ _).keeps fun _ => ?_
  exact Keeps.map _ (shrinks_expect _ _).keeps

end Connection

namespace Include

/-- Reads an include directive. -/
def step : Step Include :=
  (expect .includeWord .includeWord).bind fun word =>
  (expect .text .filePath).map fun path => ⟨path.value, some word.position⟩

theorem shrinks_step : step.Shrinks := by
  refine Shrinks.bind (shrinks_expect _ _) fun word => ?_
  exact Keeps.map _ (shrinks_expect _ _).keeps

end Include

-- ========================================================== declarations

namespace Declaration

/-- The construct that a token of some kind starts in a section, if it starts one. Include
directives may stand anywhere; the rest belongs to its section. -/
def step? : Option Section → TokenKind → Option (Step Declaration)
  | _, .includeWord => some (Include.step.map directive)
  | some .nodeClasses, .name => some (NodeClass.step.map nodeClass)
  | some .linkClasses, .name => some (LinkClass.step.map linkClass)
  | some .instances, .name => some (InstanceGroup.step.map instances)
  | some .nats, .at => some (Translation.step.map translation)
  | some .connections, .name => some (Connection.step.map connection)
  | _, _ => none

theorem shrinks_of_step? {current : Option Section} {kind : TokenKind} {s : Step Declaration}
    (h : step? current kind = some s) : s.Shrinks := by
  unfold step? at h
  split at h <;> cases h
  · exact Shrinks.map _ Include.shrinks_step
  · exact Shrinks.map _ NodeClass.shrinks_step
  · exact Shrinks.map _ LinkClass.shrinks_step
  · exact Shrinks.map _ InstanceGroup.shrinks_step
  · exact Shrinks.map _ Translation.shrinks_step
  · exact Shrinks.map _ Connection.shrinks_step

end Declaration

end SystemMap
