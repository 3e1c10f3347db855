/-
What does not look at places. Drawings and flowcharts of a document are those of the document
without its places. A check looks at them only to word its findings: the findings themselves
are the same without places, and a finding is worded the same but for the place after the noun
(`alike_message`).
-/
import Mathlib.Data.List.Forall2
import SystemMap.Drawing.Storage
import SystemMap.Flowchart
import SystemMap.Proofs.Checking.Defects
import SystemMap.Proofs.Printing.Print

namespace SystemMap

-- ========================================================= what stays of each

section Fields

@[simp] theorem Connector.unplaced_name (k : Connector) : k.unplaced.name = k.name := rfl
@[simp] theorem Connector.unplaced_ports (k : Connector) : k.unplaced.ports = k.ports := rfl
@[simp] theorem NodeClass.unplaced_name (c : NodeClass) : c.unplaced.name = c.name := rfl
@[simp] theorem NodeClass.unplaced_connectors (c : NodeClass) :
    c.unplaced.connectors = c.connectors.map .unplaced := rfl
@[simp] theorem LinkClass.unplaced_source (l : LinkClass) : l.unplaced.source = l.source := rfl
@[simp] theorem LinkClass.unplaced_target (l : LinkClass) : l.unplaced.target = l.target := rfl
@[simp] theorem LinkClass.unplaced_position (l : LinkClass) : l.unplaced.position = none := rfl
@[simp] theorem InstanceEntry.unplaced_name (e : InstanceEntry) : e.unplaced.name = e.name := rfl
@[simp] theorem InstanceEntry.unplaced_address (e : InstanceEntry) :
    e.unplaced.address = e.address := rfl
@[simp] theorem InstanceGroup.unplaced_nodeClass (g : InstanceGroup) :
    g.unplaced.nodeClass = g.nodeClass := rfl
@[simp] theorem InstanceGroup.unplaced_entries (g : InstanceGroup) :
    g.unplaced.entries = g.entries.map .unplaced := rfl
@[simp] theorem InstanceGroup.unplaced_position (g : InstanceGroup) :
    g.unplaced.position = none := rfl
@[simp] theorem Translation.unplaced_name (t : Translation) : t.unplaced.name = t.name := rfl
@[simp] theorem Translation.unplaced_external (t : Translation) :
    t.unplaced.external = t.external := rfl
@[simp] theorem Translation.unplaced_internal (t : Translation) :
    t.unplaced.internal = t.internal := rfl
@[simp] theorem Connection.unplaced_source (c : Connection) : c.unplaced.source = c.source := rfl
@[simp] theorem Connection.unplaced_target (c : Connection) : c.unplaced.target = c.target := rfl
@[simp] theorem Connection.unplaced_position (c : Connection) :
    c.unplaced.position = none := rfl

namespace Document

variable (d : Document)

@[simp] theorem unplaced_nodeClasses :
    d.unplaced.nodeClasses = d.nodeClasses.map .unplaced := rfl
@[simp] theorem unplaced_linkClasses :
    d.unplaced.linkClasses = d.linkClasses.map .unplaced := rfl
@[simp] theorem unplaced_instances : d.unplaced.instances = d.instances.map .unplaced := rfl
@[simp] theorem unplaced_translations :
    d.unplaced.translations = d.translations.map .unplaced := rfl
@[simp] theorem unplaced_connections :
    d.unplaced.connections = d.connections.map .unplaced := rfl

@[simp] theorem unplaced_deployed :
    d.unplaced.deployed = d.deployed.map fun e => (e.1, e.2.unplaced) := by
  simp [deployed, List.flatMap_map, List.map_flatMap, Function.comp_def]

@[simp] theorem unplaced_endpointNames : d.unplaced.endpointNames = d.endpointNames := by
  simp [endpointNames, Function.comp_def]

end Document

end Fields

-- ================================================================ drawings

namespace Node

/-- A node whose connectors have no places in a text. -/
def unplaced (n : Node) : Node := { n with connectors := n.connectors.map .unplaced }

theorem side_unplaced (n : Node) (role : Role) :
    n.unplaced.side role = (n.side role).map .unplaced := List.filter_map

theorem perSide_unplaced (n : Node) : n.unplaced.perSide = n.perSide := by
  unfold perSide
  rw [side_unplaced, side_unplaced, List.length_map, List.length_map]

/-- Connectors are placed by their roles. -/
theorem placeConnectors_unplaced (n : Node) (start spacing : Int) :
    n.unplaced.placeConnectors start spacing = n.placeConnectors start spacing := by
  have hside : ∀ role, n.unplaced.placeSide start spacing role = n.placeSide start spacing role := by
    intro role
    unfold placeSide
    rw [side_unplaced, List.zipIdx_map, List.map_map]
    rfl
  unfold placeConnectors
  rw [hside, hside]

@[simp] theorem place_unplaced (n : Node) (m : Metrics) (view : View) (layer row : Nat) :
    n.unplaced.place m view layer row = n.place m view layer row := by
  unfold place height
  rw [perSide_unplaced, placeConnectors_unplaced]
  rfl

end Node

/-- A placement depends on names, roles and edges, none of which are places. -/
theorem Placement.ofNodes_unplaced (nodes : List Node) (edges : List (String × String))
    (view : View) (m : Metrics) :
    Placement.ofNodes (nodes.map .unplaced) edges view m = Placement.ofNodes nodes edges view m := by
  have hname : ∀ n : Node, n.unplaced.name = n.name := fun _ => rfl
  simp [Placement.ofNodes, Function.comp_def, hname]

namespace Document

section Draw

variable (d : Document) (m : Metrics)

theorem schemaNodes_unplaced : d.unplaced.schemaNodes = d.schemaNodes.map .unplaced := by
  simp [schemaNodes, Node.unplaced, Function.comp_def]

theorem schemaEdges_unplaced : d.unplaced.schemaEdges = d.schemaEdges := by
  simp [schemaEdges, Function.comp_def]

theorem connectorsOf_unplaced (name : String) :
    d.unplaced.connectorsOf name = (d.connectorsOf name).map .unplaced := by
  have hfind : d.unplaced.nodeClasses.find? (·.name = name)
      = (d.nodeClasses.find? (·.name = name)).map .unplaced := List.find?_map
  unfold connectorsOf
  rw [hfind]
  cases d.nodeClasses.find? (·.name = name) with
  | none => rfl
  | some c => rfl

theorem instanceNodes_unplaced : d.unplaced.instanceNodes = d.instanceNodes.map .unplaced := by
  simp [instanceNodes, Node.unplaced, connectorsOf_unplaced, Function.comp_def]

theorem translationNodes_unplaced :
    d.unplaced.translationNodes = d.translationNodes.map .unplaced := by
  simp [translationNodes, Node.unplaced, Function.comp_def]

theorem instanceEdges_unplaced : d.unplaced.instanceEdges = d.instanceEdges := by
  simp [instanceEdges, Function.comp_def]

theorem placeSchema_unplaced : d.unplaced.placeSchema m = d.placeSchema m := by
  unfold placeSchema
  rw [schemaNodes_unplaced, schemaEdges_unplaced, Placement.ofNodes_unplaced]

theorem placeInstances_unplaced : d.unplaced.placeInstances m = d.placeInstances m := by
  unfold placeInstances
  rw [instanceNodes_unplaced, translationNodes_unplaced, instanceEdges_unplaced,
    ← List.map_append, Placement.ofNodes_unplaced]

theorem place_unplaced (view : View) : d.unplaced.place m view = d.place m view := by
  cases view with
  | schema => exact d.placeSchema_unplaced m
  | instances => exact d.placeInstances_unplaced m

/-- So a drawing is the same without places. -/
theorem drawWith_unplaced {α : Type} [Add α] [Sub α] [Div α] [OfNat α 2] (store : Int → α)
    (view : View) : d.unplaced.drawWith store m view = d.drawWith store m view := by
  have hlink : ∀ (radius : α) entities (l : LinkClass),
      l.unplaced.draw? radius entities = l.draw? radius entities := fun _ _ _ => rfl
  have hconnection : ∀ (radius : α) entities (c : Connection),
      c.unplaced.draw? radius entities = c.draw? radius entities := fun _ _ _ => rfl
  have hcell : ∀ t : Translation, Translation.inCell (α := α) t.unplaced = t.inCell := fun _ => rfl
  cases view with
  | schema =>
      simp only [drawWith, drawSchema, placeSchema_unplaced, unplaced_linkClasses,
        List.filterMap_map, Function.comp_def, hlink]
  | instances =>
      simp only [drawWith, drawInstances, placeInstances_unplaced, unplaced_connections,
        unplaced_translations, List.filterMap_map, Function.comp_def, hconnection,
        List.zipWith_map_left, hcell, instanceNodes_unplaced, List.length_map]

/-- The drawing of a document without its places. -/
theorem draw_unplaced (view : View) : d.unplaced.draw m view = d.draw m view := by
  unfold draw unstorable?
  rw [place_unplaced, drawWith_unplaced, drawWith_unplaced]

end Draw

end Document

-- ============================================================== flowcharts

namespace Flowchart

/-- A flowchart shows no places. -/
theorem classLines_unplaced (c : NodeClass) : classLines c.unplaced = classLines c := by
  have hlabel : ∀ k : Connector, connectorLabel k.unplaced = connectorLabel k := fun _ => rfl
  simp [classLines, Function.comp_def, hlabel]

/-- The flowchart of a document without its places. -/
theorem render_unplaced (d : Document) (view : View) (direction : Direction) :
    render d.unplaced view direction = render d view direction := by
  have hlink : ∀ l : LinkClass, linkLine l.unplaced = linkLine l := fun _ => rfl
  have hinstance : ∀ e : InstanceEntry, instanceLabel e.unplaced = instanceLabel e := fun _ => rfl
  have htranslation : ∀ t : Translation, translationLine t.unplaced = translationLine t :=
    fun _ => rfl
  have hlines : lines d.unplaced view = lines d view := by
    cases view <;> simp [lines, List.flatMap_map, Function.comp_def, classLines_unplaced, hlink,
      hinstance, htranslation]
  have hnumbers : numbers d.unplaced view = numbers d view := by
    cases view <;> simp [numbers, List.flatMap_map]
  unfold render text
  rw [hlines, hnumbers]

end Flowchart

-- ================================================================= checks

/-- A defect without its place. -/
def Defect.unplaced : Defect → Defect
  | .groupOfUnknownClass _ nodeClass => .groupOfUnknownClass none nodeClass
  | .linkOfUnknownClass _ nodeClass => .linkOfUnknownClass none nodeClass
  | .linkOfUnknownConnector _ ref => .linkOfUnknownConnector none ref
  | .unknownEndpoint _ name => .unknownEndpoint none name
  | x => x

/-- A suspicion without its place. -/
def Suspicion.unplaced : Suspicion → Suspicion
  | .linkFromServer _ ref => .linkFromServer none ref
  | .linkToClient _ ref => .linkToClient none ref
  | x => x

/-- Two messages that are the same but for the place after the noun. -/
def AlikeMessages (a b : String) : Prop := ∃ before after p q,
  a = before ++ Position.suffix p ++ after ∧ b = before ++ Position.suffix q ++ after

/-- A message is alike to itself. -/
theorem AlikeMessages.refl (a : String) : AlikeMessages a a :=
  ⟨a, "", none, none, by simp [Position.suffix], by simp [Position.suffix]⟩

/-- Messages that end with a place may have any other there. -/
theorem alikeMessages_suffix (before : String) (p q : Option Position) :
    AlikeMessages (before ++ Position.suffix p) (before ++ Position.suffix q) :=
  ⟨before, "", p, q, String.append_empty.symm, String.append_empty.symm⟩

/-- What follows a place may go on in the same way. -/
theorem AlikeMessages.append {a b : String} (h : AlikeMessages a b) (more : String) :
    AlikeMessages (a ++ more) (b ++ more) := by
  obtain ⟨before, after, p, q, rfl, rfl⟩ := h
  exact ⟨before, after ++ more, p, q, String.append_assoc, String.append_assoc⟩

/-- Defects that differ at most in their places are worded alike. -/
theorem Defect.alike_message {x y : Defect} (h : x.unplaced = y.unplaced) :
    AlikeMessages x.message y.message := by
  unfold unplaced at h
  split at h
  · next p nodeClass =>
    split at h <;> cases h
    · exact (((alikeMessages_suffix _ p _).append _).append _).append _
    · next hother _ _ _ => exact absurd rfl (hother none nodeClass)
  · next p nodeClass =>
    split at h <;> cases h
    · exact (((alikeMessages_suffix _ p _).append _).append _).append _
    · next hother _ _ => exact absurd rfl (hother none nodeClass)
  · next p ref =>
    split at h <;> cases h
    · exact (((((alikeMessages_suffix _ p _).append _).append _).append _).append _).append _
    · next hother _ => exact absurd rfl (hother none ref)
  · next p name =>
    split at h <;> cases h
    · exact (((alikeMessages_suffix _ p _).append _).append _).append _
    · next hother => exact absurd rfl (hother none name)
  · next hgroup hclass hconnector hendpoint =>
    split at h
    · exact (hgroup _ _ h).elim
    · exact (hclass _ _ h).elim
    · exact (hconnector _ _ h).elim
    · exact (hendpoint _ _ h).elim
    · cases h
      exact AlikeMessages.refl _

/-- Suspicions that differ at most in their places are worded alike. -/
theorem Suspicion.alike_message {x y : Suspicion} (h : x.unplaced = y.unplaced) :
    AlikeMessages x.message y.message := by
  unfold unplaced at h
  split at h
  · next p ref =>
    split at h <;> cases h
    · exact (((alikeMessages_suffix _ p _).append _).append _).append _
    · next hother _ => exact absurd rfl (hother none ref)
  · next p ref =>
    split at h <;> cases h
    · exact (((alikeMessages_suffix _ p _).append _).append _).append _
    · next hother => exact absurd rfl (hother none ref)
  · next hfrom hto =>
    split at h
    · exact (hfrom _ _ h).elim
    · exact (hto _ _ h).elim
    · cases h
      exact AlikeMessages.refl _

/-- Two lists of one length whose items have the same images. -/
theorem flatMap_map_eq {α β γ δ : Type} {u : α → β} {v : γ → δ} {F : β → List δ}
    {G : α → List γ} (h : ∀ a, F (u a) = (G a).map v) (l : List α) :
    (l.map u).flatMap F = (l.flatMap G).map v := by
  rw [List.flatMap_map, List.map_flatMap]
  exact congrArg (List.flatMap · l) (funext h)

namespace Document

variable (d : Document)

/-- Looking up names does not depend on places. -/
theorem declaresClass_unplaced (name : String) :
    d.unplaced.declaresClass name = d.declaresClass name := List.any_map

theorem declaresConnector_unplaced (ref : ConnectorRef) :
    d.unplaced.declaresConnector ref = d.declaresConnector ref := by
  have hany : ∀ c : NodeClass, c.unplaced.connectors.any (·.name = ref.connector)
      = c.connectors.any (·.name = ref.connector) := fun c => List.any_map
  simp only [declaresConnector, unplaced_nodeClasses, List.any_map, Function.comp_def, hany]
  rfl

/-- Repeated names are told without a place. -/
theorem duplicateNames_unplaced : d.unplaced.duplicateNames = d.duplicateNames.map .unplaced := by
  simp [duplicateNames, List.flatMap_map, List.map_flatMap, Function.comp_def, Defect.unplaced]

/-- The defects of an end are told at the place of the link. -/
theorem linkEndDefects_unplaced (p : Option Position) (ref : ConnectorRef) :
    d.unplaced.linkEndDefects none ref = (d.linkEndDefects p ref).map .unplaced := by
  unfold linkEndDefects
  rw [declaresClass_unplaced, declaresConnector_unplaced]
  split
  · rfl
  · split <;> rfl

/-- Names without a meaning are the same, told at no place. -/
theorem danglingNames_unplaced : d.unplaced.danglingNames = d.danglingNames.map .unplaced := by
  unfold danglingNames
  rw [List.map_append, List.map_append]
  refine congrArg₂ (· ++ ·) (congrArg₂ (· ++ ·) ?_ ?_) ?_
  · refine flatMap_map_eq (fun g => ?_) d.instances
    rw [declaresClass_unplaced, InstanceGroup.unplaced_nodeClass]
    split <;> rfl
  · refine flatMap_map_eq (fun l => ?_) d.linkClasses
    rw [List.map_append]
    exact congrArg₂ (· ++ ·) (d.linkEndDefects_unplaced ..) (d.linkEndDefects_unplaced ..)
  · refine flatMap_map_eq (fun c => ?_) d.connections
    rw [unplaced_endpointNames, List.map_map]
    rfl

/-- So are all defects. -/
theorem defects_unplaced : d.unplaced.defects = d.defects.map .unplaced := by
  unfold defects
  rw [List.map_append, duplicateNames_unplaced, danglingNames_unplaced]

/-- Roles are found by names. -/
theorem roleOf?_unplaced (ref : ConnectorRef) : d.unplaced.roleOf? ref = d.roleOf? ref := by
  have hrole : ∀ c : NodeClass, (c.unplaced.connectors.find? (·.name = ref.connector)).map (·.role)
      = (c.connectors.find? (·.name = ref.connector)).map (·.role) := by
    intro c
    rw [NodeClass.unplaced_connectors, List.find?_map, Option.map_map]
    rfl
  unfold roleOf?
  rw [unplaced_nodeClasses, List.findSome?_map]
  simp only [Function.comp_def, hrole]
  rfl

/-- Links are suspected of the same, told at no place. -/
theorem misdirectedLinks_unplaced :
    d.unplaced.misdirectedLinks = d.misdirectedLinks.map .unplaced := by
  refine flatMap_map_eq (fun l => ?_) d.linkClasses
  rw [List.map_append, roleOf?_unplaced, roleOf?_unplaced, LinkClass.unplaced_source,
    LinkClass.unplaced_target]
  refine congrArg₂ (· ++ ·) ?_ ?_
  · split <;> rfl
  · split <;> rfl

theorem doubtfulPorts_unplaced : d.unplaced.doubtfulPorts = d.doubtfulPorts := by
  simp [doubtfulPorts, List.flatMap_map]

theorem addresses_unplaced : d.unplaced.addresses = d.addresses := by
  simp [addresses, List.filterMap_map, List.flatMap_map, Function.comp_def]

theorem classOf?_unplaced (name : String) : d.unplaced.classOf? name = d.classOf? name := by
  unfold classOf?
  rw [unplaced_deployed, ← List.map_reverse, List.find?_map, Option.map_map]
  rfl

theorem permits_unplaced (source target : String) :
    d.unplaced.permits source target = d.permits source target := List.any_map

/-- Unpermitted connections are told of by their ends. -/
theorem unpermittedConnections_unplaced :
    d.unplaced.unpermittedConnections = d.unpermittedConnections := by
  simp [unpermittedConnections, List.filterMap_map, Function.comp_def, classOf?_unplaced,
    permits_unplaced]

end Document

/-- A report without places. -/
def Report.unplaced (r : Report) : Report :=
  ⟨r.defects.map .unplaced, r.suspicions.map .unplaced⟩

/-- Lists that are equal in some respect agree in it item by item. -/
theorem forall₂_of_map_eq {α β : Type} {f : α → β} {R : α → α → Prop}
    (h : ∀ {a b}, f a = f b → R a b) {as bs : List α} (heq : as.map f = bs.map f) :
    List.Forall₂ R as bs := by
  have hsame : List.Forall₂ Eq (as.map f) (bs.map f) := by
    rw [heq, List.forall₂_same]
    exact fun _ _ => rfl
  rw [List.forall₂_map_left_iff, List.forall₂_map_right_iff] at hsame
  exact hsame.imp fun _ _ => h

/-- Reports that differ at most in places tell the same, in the same order and in words that
are alike. -/
theorem Report.alike_messages {r r' : Report} (h : r.unplaced = r'.unplaced) :
    List.Forall₂ AlikeMessages (r.defects.map (·.message)) (r'.defects.map (·.message)) ∧
    List.Forall₂ AlikeMessages (r.suspicions.map (·.message)) (r'.suspicions.map (·.message)) := by
  obtain ⟨hdefects, hsuspicions⟩ := Report.mk.inj h
  rw [List.forall₂_map_left_iff, List.forall₂_map_right_iff, List.forall₂_map_left_iff,
    List.forall₂_map_right_iff]
  exact ⟨forall₂_of_map_eq Defect.alike_message hdefects,
    forall₂_of_map_eq Suspicion.alike_message hsuspicions⟩

/-- Documents that differ at most in places have reports that differ at most in places. -/
theorem Document.unplaced_report_eq {d d' : Document} (hd : d.unplaced = d'.unplaced)
    {r r' : Report} (hr : d.check = .ok r) (hr' : d'.check = .ok r') :
    r.unplaced = r'.unplaced := by
  obtain ⟨doubtful, hdoubtful, rfl⟩ := exists_of_check hr
  obtain ⟨doubtful', hdoubtful', rfl⟩ := exists_of_check hr'
  have hdefects : d.defects.map Defect.unplaced = d'.defects.map .unplaced := by
    rw [← defects_unplaced, hd, defects_unplaced]
  have hlinks : d.misdirectedLinks.map Suspicion.unplaced = d'.misdirectedLinks.map .unplaced := by
    rw [← misdirectedLinks_unplaced, hd, misdirectedLinks_unplaced]
  have hports : d.doubtfulPorts = d'.doubtfulPorts := by
    rw [← doubtfulPorts_unplaced, hd, doubtfulPorts_unplaced]
  have hconnections : d.unpermittedConnections = d'.unpermittedConnections := by
    rw [← unpermittedConnections_unplaced, hd, unpermittedConnections_unplaced]
  rw [← addresses_unplaced, hd, addresses_unplaced, hdoubtful'] at hdoubtful
  cases hdoubtful
  unfold Report.unplaced
  simp only [List.map_append]
  rw [hdefects, hlinks, hports, hconnections]

end SystemMap
