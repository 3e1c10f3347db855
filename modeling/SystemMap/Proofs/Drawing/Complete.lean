/-
What the check accepts is drawn completely. Checks and drawings look names up in ways of their
own: a check asks whether any declaration of a name has what is wanted, a drawing takes the
last box of a name and the first connector on it, and passes over in silence what it does not
find. Still they agree. A connection is drawn exactly if both its ends have names, whichever
box of a name is taken; a link class is drawn exactly if both its connectors are declared,
provided that no two classes share a name. And where nothing at all is wrong, each node class,
instance and translation has one box.
-/
import Mathlib.Data.List.Forall2
import Mathlib.Data.List.Nodup
import SystemMap.Proofs.Checking.Defects
import SystemMap.Proofs.Drawing.Stored

namespace SystemMap

-- ========================================================= what a drawing shows

section Shows

variable {α : Type}

/-- What an edge leads from and to. -/
def PlacedEdge.ends (e : PlacedEdge α) : (String × Option String) × (String × Option String) :=
  ((e.source, e.sourceConnector), (e.target, e.targetConnector))

/-- A box carries some connectors: the servers among them, then the clients, in order. -/
def PlacedEntity.Carries (b : PlacedEntity α) (connectors : List Connector) : Prop :=
  b.connectors.map (fun k => (k.name, k.role)) =
    (connectors.filter (·.role = .server) ++ connectors.filter (·.role = .client)).map
      fun c => (c.name, c.role)

/-- A drawing has one box for each node class, in order. -/
structure Drawing.ShowsClasses (g : Drawing α) (d : Document) : Prop where
  once : (g.entities.map (·.name)).Nodup
  classes : List.Forall₂
    (fun c b => b.name = c.name ∧ b.subject = .nodeClass ∧ b.Carries c.connectors)
    d.nodeClasses g.entities

/-- A drawing has one box for each instance, with the connectors of its class, and one for
each translation, with its addresses, in order. -/
structure Drawing.ShowsDeployed (g : Drawing α) (d : Document) : Prop where
  once : (g.entities.map (·.name) ++ g.translations.map (·.name)).Nodup
  instances : List.Forall₂
    (fun e b => b.name = e.2.name ∧ b.subject = .instanceEntry ∧ b.nodeClass = some e.1 ∧
      b.address = e.2.address ∧ ∃ c ∈ d.nodeClasses, c.name = e.1 ∧ b.Carries c.connectors)
    d.deployed g.entities
  translations : List.Forall₂
    (fun t b => b.name = t.name ∧ b.external = t.external ∧ b.internal = t.internal)
    d.translations g.translations

end Shows

-- =========================================================== boxes for nodes

section Boxes

variable {α : Type}

/-- A box stands for a node: it has what the node has, and a cell and coordinates besides. -/
structure PlacedEntity.Stands (b : PlacedEntity α) (n : Node) : Prop where
  name : b.name = n.name
  subject : b.subject = n.subject
  nodeClass : b.nodeClass = n.nodeClass
  address : b.address = n.address
  carries : b.Carries n.connectors

/-- A side shows the connectors of its role in order. -/
theorem Node.placeSide_shown (n : Node) (start spacing : Int) (role : Role) :
    (n.placeSide start spacing role).map (fun k => (k.name, k.role))
      = (n.connectors.filter (·.role = role)).map fun c => (c.name, c.role) := by
  unfold placeSide side
  rw [List.map_map, ← List.zipIdx_map_fst 0 (n.connectors.filter (·.role = role)), List.map_map,
    List.zipIdx_map_fst]
  refine List.map_congr_left fun entry hentry => ?_
  have hmem := List.fst_mem_of_mem_zipIdx hentry
  have hrole : entry.1.role = role := of_decide_eq_true (List.mem_filter.1 hmem).2
  simp [hrole]

/-- The box of a node shows its name, its kind and its connectors, each side in order. -/
theorem Node.stands_place (n : Node) (m : Metrics) (view : View) (layer row : Nat)
    (store : Int → α) : ((n.place m view layer row).map store).Stands n where
  name := rfl
  subject := rfl
  nodeClass := rfl
  address := rfl
  carries := by
    unfold PlacedEntity.Carries PlacedEntity.map place
    dsimp only
    rw [List.map_map]
    show (n.placeConnectors _ _).map (fun k => (k.name, k.role)) = _
    unfold placeConnectors
    rw [List.map_append, List.map_append, placeSide_shown, placeSide_shown]

/-- The boxes of a placement are those of its nodes, in order. -/
theorem exists_boxes (nodes : List Node) (edges : List (String × String)) (view : View)
    (m : Metrics) (store : Int → α) : ∃ box : Node → PlacedEntity α,
      (Placement.ofNodes nodes edges view m).entities.map (·.map store) = nodes.map box ∧
        ∀ n, (box n).Stands n := by
  refine ⟨_, List.map_map, fun n => ?_⟩
  exact n.stands_place ..

/-- Looking up a box is looking up its node. -/
theorem lastNamed?_map {box : Node → PlacedEntity α} (hbox : ∀ n, (box n).Stands n)
    (nodes : List Node) (name : String) :
    PlacedEntity.lastNamed? (nodes.map box) name
      = (nodes.reverse.find? (·.name = name)).map box := by
  unfold PlacedEntity.lastNamed?
  rw [← List.map_reverse, List.find?_map]
  congr 2
  funext n
  simp [(hbox n).name]

/-- A box of a name is found if a node has the name. -/
theorem isSome_lastNamed? {box : Node → PlacedEntity α} (hbox : ∀ n, (box n).Stands n)
    {nodes : List Node} {name : String} :
    (PlacedEntity.lastNamed? (nodes.map box) name).isSome ↔ name ∈ nodes.map (·.name) := by
  rw [lastNamed?_map hbox, Option.isSome_map, List.find?_isSome]
  simp

/-- Where names are unique, a name finds the box of its node. -/
theorem lastNamed?_of_mem {box : Node → PlacedEntity α} (hbox : ∀ n, (box n).Stands n)
    {nodes : List Node} (hnodup : (nodes.map (·.name)).Nodup) {n : Node} (hn : n ∈ nodes) :
    PlacedEntity.lastNamed? (nodes.map box) n.name = some (box n) := by
  rw [lastNamed?_map hbox, (find?_reverse_eq_some_iff hnodup).2 ⟨hn, rfl⟩]
  rfl

/-- A box is found under its own name. -/
theorem PlacedEntity.name_of_lastNamed? {entities : List (PlacedEntity α)} {name : String}
    {b : PlacedEntity α} (h : lastNamed? entities name = some b) : b.name = name := by
  simpa using List.find?_some h

/-- A connector is found under its own name. -/
theorem PlacedEntity.name_of_connector? {b : PlacedEntity α} {name : String}
    {k : PlacedConnector α} (h : b.connector? name = some k) : k.name = name := by
  simpa using List.find?_some h

/-- A box has the connectors of its node. -/
theorem PlacedEntity.Stands.isSome_connector? {b : PlacedEntity α} {n : Node} (h : b.Stands n)
    {name : String} :
    (b.connector? name).isSome ↔ ∃ c ∈ n.connectors, c.name = name := by
  have hshown : (∃ k ∈ b.connectors, k.name = name) ↔
      ∃ shown ∈ b.connectors.map (fun k => (k.name, k.role)), shown.1 = name := by
    simp
  unfold connector?
  rw [List.find?_isSome]
  simp only [decide_eq_true_eq]
  rw [hshown, h.carries]
  constructor
  · rintro ⟨shown, hmem, hname⟩
    obtain ⟨c, hc, rfl⟩ := List.mem_map.1 hmem
    rcases List.mem_append.1 hc with hc | hc
    · exact ⟨c, (List.mem_filter.1 hc).1, hname⟩
    · exact ⟨c, (List.mem_filter.1 hc).1, hname⟩
  · rintro ⟨c, hc, hname⟩
    refine ⟨(c.name, c.role), List.mem_map_of_mem (List.mem_append.2 ?_), hname⟩
    cases hrole : c.role with
    | server => exact .inl (List.mem_filter.2 ⟨hc, decide_eq_true hrole⟩)
    | client => exact .inr (List.mem_filter.2 ⟨hc, decide_eq_true hrole⟩)

end Boxes

-- ==================================================================== edges

/-- Items that are drawn as what they are make one drawing each exactly if all are drawn. -/
theorem map_filterMap_eq_iff {α β γ : Type} {draw : α → Option β} {shown : β → γ} {item : α → γ}
    (hdraw : ∀ a b, draw a = some b → shown b = item a) {items : List α} :
    (items.filterMap draw).map shown = items.map item ↔ ∀ a ∈ items, (draw a).isSome := by
  constructor
  · intro h
    have hlength := congrArg List.length h
    rw [List.length_map, List.length_map] at hlength
    exact List.filterMap_length_eq_length.1 hlength
  · intro h
    induction items with
    | nil => rfl
    | cons a later ih =>
        obtain ⟨b, hb⟩ := Option.isSome_iff_exists.1 (h a List.mem_cons_self)
        rw [List.filterMap_cons_some hb, List.map_cons, List.map_cons, hdraw a b hb,
          ih fun x hx => h x (List.mem_cons_of_mem _ hx)]

section Edges

variable {α : Type} [Add α] [Sub α] [Div α] [OfNat α 2] {radius : α}
  {entities : List (PlacedEntity α)} {edge : PlacedEdge α}

/-- The edge of a link class is between the connectors that it names. -/
theorem LinkClass.ends_of_draw? {l : LinkClass} (h : l.draw? radius entities = some edge) :
    edge.ends = ((l.source.nodeClass, some l.source.connector),
      (l.target.nodeClass, some l.target.connector)) := by
  unfold draw? at h
  simp only [Option.bind_eq_bind, Option.bind_eq_some_iff, Option.pure_def] at h
  obtain ⟨source, hsource, target, htarget, start, hstart, finish, hfinish, hedge⟩ := h
  cases hedge
  unfold PlacedEdge.ends PlacedEdge.between
  rw [Option.map_some, Option.map_some, PlacedEntity.name_of_lastNamed? hsource,
    PlacedEntity.name_of_lastNamed? htarget, PlacedEntity.name_of_connector? hstart,
    PlacedEntity.name_of_connector? hfinish]

/-- The edge of a connection is between the boxes that it names. -/
theorem Connection.ends_of_draw? {c : Connection} (h : c.draw? radius entities = some edge) :
    (edge.source, edge.target) = (c.source, c.target) := by
  unfold draw? at h
  simp only [Option.bind_eq_bind, Option.bind_eq_some_iff, Option.pure_def] at h
  obtain ⟨source, hsource, target, htarget, hedge⟩ := h
  cases hedge
  unfold PlacedEdge.between
  rw [PlacedEntity.name_of_lastNamed? hsource, PlacedEntity.name_of_lastNamed? htarget]

/-- A link class has an edge if both its connectors are found. -/
theorem LinkClass.isSome_draw? {l : LinkClass} : (l.draw? radius entities).isSome ↔
    ∀ ref ∈ [l.source, l.target], ∃ b, PlacedEntity.lastNamed? entities ref.nodeClass = some b ∧
      (b.connector? ref.connector).isSome := by
  rw [List.forall_mem_cons, List.forall_mem_singleton]
  constructor
  · intro h
    obtain ⟨edge, hedge⟩ := Option.isSome_iff_exists.1 h
    unfold draw? at hedge
    simp only [Option.bind_eq_bind, Option.bind_eq_some_iff] at hedge
    obtain ⟨source, hsource, target, htarget, start, hstart, finish, hfinish, -⟩ := hedge
    exact ⟨⟨source, hsource, by rw [hstart]; rfl⟩, ⟨target, htarget, by rw [hfinish]; rfl⟩⟩
  · rintro ⟨⟨source, hsource, hstart⟩, ⟨target, htarget, hfinish⟩⟩
    obtain ⟨start, hstart⟩ := Option.isSome_iff_exists.1 hstart
    obtain ⟨finish, hfinish⟩ := Option.isSome_iff_exists.1 hfinish
    unfold draw?
    simp [hsource, htarget, hstart, hfinish]

/-- A connection has an edge if both its boxes are found. -/
theorem Connection.isSome_draw? {c : Connection} : (c.draw? radius entities).isSome ↔
    ∀ name ∈ [c.source, c.target], (PlacedEntity.lastNamed? entities name).isSome := by
  rw [List.forall_mem_cons, List.forall_mem_singleton]
  unfold draw?
  cases PlacedEntity.lastNamed? entities c.source with
  | none => simp
  | some source =>
      cases PlacedEntity.lastNamed? entities c.target with
      | none => simp
      | some target => simp

end Edges

-- ==================================================================== views

namespace Document

section Nodes

variable {α : Type} {d : Document}

/-- The schema view has a node for each node class. -/
theorem names_schemaNodes : d.schemaNodes.map (·.name) = d.nodeClasses.map (·.name) := by
  unfold schemaNodes
  rw [List.map_map]
  rfl

/-- The instance view has a node for each name that a connection can end at. -/
theorem names_deployedNodes :
    (d.instanceNodes ++ d.translationNodes).map (·.name) = d.endpointNames := by
  unfold instanceNodes translationNodes endpointNames
  rw [List.map_append, List.map_map, List.map_map]
  rfl

/-- An instance has the connectors of a class of its group's name. -/
theorem HasClass.exists_connectorsOf {name : String} (h : d.HasClass name) :
    ∃ c ∈ d.nodeClasses, c.name = name ∧ d.connectorsOf name = c.connectors := by
  obtain ⟨c, hc, hname⟩ := h
  unfold connectorsOf
  cases hfind : d.nodeClasses.find? (·.name = name) with
  | none =>
      have hno := List.find?_eq_none.1 hfind c hc
      simp [hname] at hno
  | some found =>
      have hfound : found.name = name := by simpa using List.find?_some hfind
      exact ⟨found, List.mem_of_find?_eq_some hfind, hfound, rfl⟩

/-- A connector is found on the box of its class exactly if it is declared. -/
theorem drawn_iff_hasConnector {box : Node → PlacedEntity α} (hbox : ∀ n, (box n).Stands n)
    (hclasses : (d.nodeClasses.map (·.name)).Nodup) {ref : ConnectorRef} :
    (∃ b, PlacedEntity.lastNamed? (d.schemaNodes.map box) ref.nodeClass = some b ∧
      (b.connector? ref.connector).isSome) ↔ d.HasConnector ref := by
  constructor
  · rintro ⟨b, hb, hk⟩
    obtain ⟨n, hn, rfl⟩ := List.mem_map.1 (List.mem_reverse.1 (List.mem_of_find?_eq_some hb))
    have hname : n.name = ref.nodeClass :=
      (hbox n).name.symm.trans (PlacedEntity.name_of_lastNamed? hb)
    obtain ⟨k, hk, hconnector⟩ := (hbox n).isSome_connector?.1 hk
    obtain ⟨c, hc, rfl⟩ := List.mem_map.1 hn
    exact ⟨c, hc, hname, k, hk, hconnector⟩
  · rintro ⟨c, hc, hname, hconnector⟩
    have hnodes : (d.schemaNodes.map (·.name)).Nodup := names_schemaNodes ▸ hclasses
    have hfound := lastNamed?_of_mem hbox hnodes (List.mem_map_of_mem hc)
    rw [← hname]
    exact ⟨_, hfound, (hbox _).isSome_connector?.2 hconnector⟩

/-- Each translation takes the box of its own node. -/
theorem zipWith_inCell (box : Node → PlacedEntity α) (node : Translation → Node)
    (translations : List Translation) :
    translations.zipWith Translation.inCell ((translations.map node).map box)
      = translations.map fun t => t.inCell (box (node t)) := by
  rw [List.map_map, List.zipWith_map_right, List.zipWith_self]
  rfl

end Nodes

section Views

variable {α : Type} [Add α] [Sub α] [Div α] [OfNat α 2] {d : Document} {m : Metrics}
  {store : Int → α}

/-- The link classes are all drawn, each as what it is, exactly if their connectors are all
declared. -/
theorem schema_edges_iff (hclasses : (d.nodeClasses.map (·.name)).Nodup) :
    (d.drawSchema store m).edges.map PlacedEdge.ends = d.linkClasses.map (fun l =>
      ((l.source.nodeClass, some l.source.connector),
        (l.target.nodeClass, some l.target.connector))) ↔
      ∀ l ∈ d.linkClasses, d.HasConnector l.source ∧ d.HasConnector l.target := by
  obtain ⟨box, hboxes, hbox⟩ := exists_boxes d.schemaNodes d.schemaEdges .schema m store
  unfold drawSchema placeSchema
  dsimp only
  rw [hboxes, map_filterMap_eq_iff fun l edge h => LinkClass.ends_of_draw? h]
  refine forall₂_congr fun l _ => ?_
  rw [LinkClass.isSome_draw?, List.forall_mem_cons, List.forall_mem_singleton,
    drawn_iff_hasConnector hbox hclasses, drawn_iff_hasConnector hbox hclasses]

/-- The connections are all drawn, each as what it is, exactly if their ends all have
names. -/
theorem instance_edges_iff :
    (d.drawInstances store m).edges.map (fun e => (e.source, e.target)) =
      d.connections.map (fun c => (c.source, c.target)) ↔
      ∀ c ∈ d.connections, d.HasEndpoint c.source ∧ d.HasEndpoint c.target := by
  obtain ⟨box, hboxes, hbox⟩ := exists_boxes (d.instanceNodes ++ d.translationNodes)
    d.instanceEdges .instances m store
  unfold drawInstances placeInstances
  dsimp only
  rw [hboxes, map_filterMap_eq_iff fun c edge h => Connection.ends_of_draw? h]
  refine forall₂_congr fun c _ => ?_
  rw [Connection.isSome_draw?, List.forall_mem_cons, List.forall_mem_singleton,
    isSome_lastNamed? hbox, isSome_lastNamed? hbox, names_deployedNodes, mem_endpointNames,
    mem_endpointNames]

/-- Without defects, the schema view shows all classes and all links between them. -/
theorem Sound.showsClasses (h : d.Sound) : (d.drawSchema store m).ShowsClasses d := by
  obtain ⟨box, hboxes, hbox⟩ := exists_boxes d.schemaNodes d.schemaEdges .schema m store
  have hentities : (d.drawSchema store m).entities = d.schemaNodes.map box := hboxes
  constructor
  · have hnames : (d.schemaNodes.map box).map (·.name) = d.schemaNodes.map (·.name) := by
      rw [List.map_map]
      exact List.map_congr_left fun n _ => (hbox n).name
    rw [hentities, hnames, names_schemaNodes]
    exact h.classes
  · rw [hentities, schemaNodes, List.map_map, List.forall₂_map_right_iff, List.forall₂_same]
    exact fun c _ => ⟨(hbox _).name, (hbox _).subject, (hbox _).carries⟩

/-- One list of boxes is for instances and translations both, and those of the translations are
behind those of the instances. -/
theorem boxes_drawInstances {box : Node → PlacedEntity α}
    (hboxes : (d.placeInstances m).entities.map (·.map store)
      = (d.instanceNodes ++ d.translationNodes).map box) :
    (d.drawInstances store m).entities = d.instanceNodes.map box ∧
    (d.drawInstances store m).translations =
      d.translations.map fun t => t.inCell (box ⟨t.name, .translation, [], none, none⟩) := by
  unfold drawInstances
  dsimp only
  rw [hboxes, List.map_append]
  refine ⟨List.take_left' (List.length_map _), ?_⟩
  rw [List.drop_left' (List.length_map _)]
  exact zipWith_inCell box _ d.translations

/-- Without defects, the instance view shows all instances, translations and connections. -/
theorem Sound.showsDeployed (h : d.Sound) : (d.drawInstances store m).ShowsDeployed d := by
  obtain ⟨box, hboxes, hbox⟩ := exists_boxes (d.instanceNodes ++ d.translationNodes)
    d.instanceEdges .instances m store
  obtain ⟨hentities, htranslations⟩ := boxes_drawInstances (d := d) hboxes
  constructor
  · have hnames : (d.instanceNodes.map box).map (·.name) = d.deployed.map (·.2.name) := by
      rw [instanceNodes, List.map_map, List.map_map]
      exact List.map_congr_left fun e _ => (hbox _).name
    rw [hentities, htranslations, hnames, List.map_map]
    exact h.endpoints
  · rw [hentities, instanceNodes, List.map_map, List.forall₂_map_right_iff, List.forall₂_same]
    intro e he
    obtain ⟨g, hg, hentry⟩ := List.mem_flatMap.1 he
    obtain ⟨entry, -, rfl⟩ := List.mem_map.1 hentry
    obtain ⟨c, hc, hname, hconnectors⟩ := (h.groups g hg).exists_connectorsOf
    refine ⟨(hbox _).name, (hbox _).subject, (hbox _).nodeClass, (hbox _).address, c, hc, hname, ?_⟩
    rw [← hconnectors]
    exact (hbox _).carries
  · rw [htranslations, List.forall₂_map_right_iff, List.forall₂_same]
    exact fun t _ => ⟨rfl, rfl, rfl⟩

end Views

/-- A drawing that is made has each coordinate rounded to a double. -/
theorem eq_drawWith_of_draw {d : Document} {m : Metrics} {view : View} {g : Drawing Float}
    (h : d.draw m view = .ok g) : g = d.drawWith Decimal.nearestInt m view := by
  unfold draw at h
  split at h
  · cases h
  · cases h
    rfl

/-- What a check accepts is drawn completely. A document whose check returns is drawn, unless
it is too large for any memory. If no two of its node classes share a name, then no defect of
a link class is reported exactly if the schema view has one edge for each link class, in
order, between its connectors; and no defect of a connection is reported exactly if the view
of instances has one edge for each connection, in order, between its names. Where no defect is
reported, each node class, instance and translation has one box, in order, instances with the
connectors of their class and translations with their addresses. -/
theorem accepted_drawn_completely {d : Document} {r : Report} (hr : d.check = .ok r) :
    (d.size.log2 < 1000 → ∀ view, ∃ g, d.draw {} view = .ok g) ∧
    (∀ m g, d.draw m .schema = .ok g → (d.nodeClasses.map (·.name)).Nodup →
      ((∀ x ∈ r.defects, ¬ x.IsOfLink) ↔
        g.edges.map PlacedEdge.ends = d.linkClasses.map fun l =>
          ((l.source.nodeClass, some l.source.connector),
            (l.target.nodeClass, some l.target.connector)))) ∧
    (∀ m g, d.draw m .instances = .ok g →
      ((∀ x ∈ r.defects, ¬ x.IsOfConnection) ↔
        g.edges.map (fun e => (e.source, e.target)) =
          d.connections.map fun c => (c.source, c.target))) ∧
    (r.defects = [] → ∀ m g,
      (d.draw m .schema = .ok g → g.ShowsClasses d) ∧
        (d.draw m .instances = .ok g → g.ShowsDeployed d)) := by
  rw [defects_of_check hr]
  refine ⟨fun hsize view => ⟨_, draw_returns hsize view⟩, fun m g hg hclasses => ?_,
    fun m g hg => ?_, fun hdefects m g => ⟨fun hg => ?_, fun hg => ?_⟩⟩
  · rw [eq_drawWith_of_draw hg, no_defect_of_link_iff]
    exact (schema_edges_iff hclasses).symm
  · rw [eq_drawWith_of_draw hg, no_defect_of_connection_iff]
    exact instance_edges_iff.symm
  · rw [eq_drawWith_of_draw hg]
    exact (defects_eq_nil_iff.1 hdefects).showsClasses
  · rw [eq_drawWith_of_draw hg]
    exact (defects_eq_nil_iff.1 hdefects).showsDeployed

/-- A browser, a server behind a translation, and a client connector of a name that the
server has too. -/
def shop : Document where
  includes := []
  nodeClasses := [⟨"browser", [⟨"web", .client, [], none⟩], none⟩,
    ⟨"server", [⟨"web", .server, [⟨.tcp, .range 80 81⟩], none⟩, ⟨"log", .client, [], none⟩], none⟩]
  linkClasses := [⟨⟨"browser", "web"⟩, ⟨"server", "web"⟩, some ⟨4, 1⟩⟩]
  instances := [⟨"server", [⟨"s", some "10.0.0.1", none⟩], none⟩,
    ⟨"browser", [⟨"b", none, none⟩], none⟩]
  translations := [⟨"n", "203.0.113.10", "10.0.0.1", none⟩]
  connections := [⟨"b", "n", none⟩, ⟨"b", "s", some ⟨9, 1⟩⟩]

/-- Both views of that document are complete. -/
theorem shop_drawn : ∃ r, shop.check = .ok r ∧
    (∃ g, shop.draw {} .schema = .ok g ∧ g.ShowsClasses shop ∧
      g.edges.map PlacedEdge.ends = [(("browser", some "web"), ("server", some "web"))]) ∧
    ∃ g, shop.draw {} .instances = .ok g ∧ g.ShowsDeployed shop ∧
      g.edges.map (fun e => (e.source, e.target)) = [("b", "n"), ("b", "s")] := by
  have hcheck : shop.check = .ok ⟨[], []⟩ := by decide +kernel
  obtain ⟨hreturns, hlinks, hconnections, hboxes⟩ := accepted_drawn_completely hcheck
  obtain ⟨classes, hclasses⟩ := hreturns (by decide) .schema
  obtain ⟨deployed, hdeployed⟩ := hreturns (by decide) .instances
  refine ⟨_, hcheck, ⟨classes, hclasses, (hboxes rfl {} classes).1 hclasses, ?_⟩,
    ⟨deployed, hdeployed, (hboxes rfl {} deployed).2 hdeployed, ?_⟩⟩
  · exact (hlinks {} classes hclasses (by decide)).1 nofun
  · exact (hconnections {} deployed hdeployed).1 nofun

end Document

end SystemMap
