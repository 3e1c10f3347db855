/-
Edges meet the markers of connectors. Where an edge begins is said by the drawing, which leaves
a box on its right and enters one on its left; where a marker stands is said by the figure, which
puts it on the side of its role. The two agree where links lead from clients to servers: then an
end that names a connector lies a radius outside the one marker that is painted for it, at its
height, in the same doubles. An end without a connector lies half way down its box.
-/
import SystemMap.Figure
import SystemMap.Proofs.Checking.Suspicions
import SystemMap.Proofs.Drawing.Edges

namespace SystemMap

/-- A suspicion about the direction of a link class. -/
def Suspicion.IsOfDirection : Suspicion → Prop
  | .linkFromServer .. | .linkToClient .. => True
  | _ => False

-- ================================================================= markers

/-- The marker of a connector. -/
def Figure.markerOf (e : PlacedEntity Float) (c : PlacedConnector Float) : Figure.Marker :=
  ⟨e.marker c, c.role, e.name ++ "." ++ c.name ++ " (" ++ c.role.label ++ ")"⟩

/-- The markers of a painted drawing: one for each connector of each entity, in order. -/
theorem Drawing.markers_paint (g : Drawing Float) :
    g.paint.markers = g.entities.flatMap fun b => b.connectors.map (Figure.markerOf b) := by
  have hedges : (g.edges.map Figure.paintEdge).flatMap (·.markers) = [] := by
    rw [List.flatMap_map]
    exact List.flatMap_eq_nil_iff.2 fun _ _ => rfl
  have htranslations : (g.translations.map Figure.paintTranslation).flatMap (·.markers) = [] := by
    rw [List.flatMap_map]
    exact List.flatMap_eq_nil_iff.2 fun _ _ => rfl
  unfold paint
  rw [Figure.Artwork.markers_join, List.flatMap_append, List.flatMap_append, hedges,
    htranslations, List.nil_append, List.append_nil, List.flatMap_map]
  refine List.flatMap_congr fun b _ => ?_
  rw [Figure.markers_paintEntity]
  exact List.map_eq_flatMap.symm

/-- The figure of a drawing is painted from it. -/
theorem Drawing.artwork_of_figure {g : Drawing Float} {f : Figure} (h : g.figure = .ok f) :
    f.artwork = g.paint := by
  have hopen : g.figure = (Decimal.truncate g.extent.2).bind fun whole =>
      .ok ⟨g.paint, g.extent.1, g.extent.2, max whole Figure.leastHeight⟩ := rfl
  rw [hopen] at h
  cases htruncate : Decimal.truncate g.extent.2 with
  | error fault =>
      rw [htruncate] at h
      cases h
  | ok whole =>
      rw [htruncate] at h
      cases h
      rfl

/-- Away from a box, from the side of a role. -/
def Role.outward (radius x : Float) : Role → Float
  | .client => x + radius
  | .server => x - radius

/-- An end of an edge lies where it should. One box has the name. If a connector is named, then
the box is that of one entity, which has one connector of the name, of the given role, and the
end lies a radius outside its marker, which is painted on the side of the role. If none is
named, the end lies half way down the box. -/
def Drawing.Meets (g : Drawing Float) (radius : Float) (role : Role) (name : String)
    (connector : Option String) (p : Point Float) : Prop :=
  ∃ box, g.boxesNamed name = [box] ∧
    match connector with
    | none => p = ⟨role.outward radius (box.side role), box.y + box.halfHeight⟩
    | some k => ∃ b, g.entities.filter (·.name = name) = [b] ∧ b.box = box ∧
      ∃ c, b.connectors.filter (·.name = k) = [c] ∧ c.role = role ∧
        ∃ marker ∈ g.paint.markers, marker = Figure.markerOf b c ∧
          marker.place.x = box.side role ∧
          p = ⟨role.outward radius marker.place.x, marker.place.y⟩

-- ================================================================== boxes

section Stands

variable {α : Type} {b : PlacedEntity α} {n : Node}

/-- The connectors on a box are those of its node. -/
theorem PlacedEntity.Stands.exists_connector (h : b.Stands n) {c : PlacedConnector α}
    (hc : c ∈ b.connectors) : ∃ k ∈ n.connectors, k.name = c.name ∧ k.role = c.role := by
  have hshown : (c.name, c.role) ∈ b.connectors.map fun k => (k.name, k.role) :=
    List.mem_map_of_mem hc
  rw [h.carries] at hshown
  obtain ⟨k, hk, heq⟩ := List.mem_map.1 hshown
  have hname : k.name = c.name := congrArg Prod.fst heq
  have hrole : k.role = c.role := congrArg Prod.snd heq
  rcases List.mem_append.1 hk with hk | hk
  · exact ⟨k, (List.mem_filter.1 hk).1, hname, hrole⟩
  · exact ⟨k, (List.mem_filter.1 hk).1, hname, hrole⟩

/-- Connectors put on the two sides of a box keep their names apart. -/
theorem PlacedEntity.Stands.nodup_connectors (h : b.Stands n)
    (hnames : (n.connectors.map (·.name)).Nodup) : (b.connectors.map (·.name)).Nodup := by
  have hsides : (n.connectors.filter (·.role = .server) ++
      n.connectors.filter (·.role = .client)).Perm n.connectors := by
    have hclient : ∀ k : Connector, decide (k.role = .client) = !decide (k.role = .server) := by
      intro k
      cases k.role <;> rfl
    simp only [hclient]
    exact List.filter_append_perm _ n.connectors
  have hshown : b.connectors.map (·.name) = (n.connectors.filter (·.role = .server) ++
      n.connectors.filter (·.role = .client)).map (·.name) := by
    have hfst := congrArg (List.map Prod.fst) h.carries
    rw [List.map_map, List.map_map] at hfst
    exact hfst
  rw [hshown]
  exact (hsides.map _).nodup_iff.2 hnames

end Stands

namespace Document

variable {d : Document} {m : Metrics}

section Sound

variable {α : Type} {store : Int → α} {view : View} {b : PlacedEntity α}

/-- Each box of a view stands for a node of it. -/
theorem exists_node (hb : b ∈ d.boxesOf store m view) : ∃ n ∈ d.nodesOf view, b.Stands n := by
  obtain ⟨box, hboxes, hbox⟩ := d.exists_boxesOf store m view
  rw [hboxes] at hb
  obtain ⟨n, hn, rfl⟩ := List.mem_map.1 hb
  exact ⟨n, hn, hbox n⟩

/-- Without defects, no two boxes have one name. -/
theorem Sound.nodup_boxes (h : d.Sound) : ((d.boxesOf store m view).map (·.name)).Nodup := by
  have hnames : (d.boxesOf store m view).map (·.name) = (d.nodesOf view).map (·.name) := by
    obtain ⟨box, hboxes, hbox⟩ := d.exists_boxesOf store m view
    rw [hboxes, List.map_map]
    exact List.map_congr_left fun n _ => (hbox n).name
  rw [hnames]
  cases view with
  | schema => exact names_schemaNodes ▸ h.classes
  | instances => exact names_deployedNodes ▸ h.endpoints

/-- Without defects, no two connectors of a class have one name. -/
theorem Sound.nodup_connectorsOf (h : d.Sound) (name : String) :
    ((d.connectorsOf name).map (·.name)).Nodup := by
  unfold connectorsOf
  cases hfind : d.nodeClasses.find? (·.name = name) with
  | none => exact List.nodup_nil
  | some c => exact h.connectors c (List.mem_of_find?_eq_some hfind)

/-- So it is with those of a box. -/
theorem Sound.nodup_connectors (h : d.Sound) (hb : b ∈ d.boxesOf store m view) :
    (b.connectors.map (·.name)).Nodup := by
  obtain ⟨n, hn, hstands⟩ := exists_node hb
  refine hstands.nodup_connectors ?_
  cases view with
  | schema =>
      obtain ⟨c, hc, rfl⟩ := List.mem_map.1 hn
      exact h.connectors c hc
  | instances =>
      rcases List.mem_append.1 hn with hn | hn
      · obtain ⟨e, -, rfl⟩ := List.mem_map.1 hn
        exact h.nodup_connectorsOf e.1
      · obtain ⟨t, -, rfl⟩ := List.mem_map.1 hn
        exact List.nodup_nil

/-- The role of a connector is that of the connector drawn for it. -/
theorem Sound.roleOf?_eq (h : d.Sound) (hb : b ∈ d.boxesOf store m .schema) {ref : ConnectorRef}
    (hname : b.name = ref.nodeClass) {c : PlacedConnector α}
    (hc : b.connector? ref.connector = some c) : d.roleOf? ref = some c.role := by
  obtain ⟨n, hn, hstands⟩ := exists_node hb
  obtain ⟨nodeClass, hclass, rfl⟩ := List.mem_map.1 hn
  obtain ⟨k, hk, hkname, hkrole⟩ := hstands.exists_connector (List.mem_of_find?_eq_some hc)
  exact h.roleOf?_eq_some_iff.2 ⟨nodeClass, hclass, hstands.name.symm.trans hname, k, hk,
    hkname.trans (PlacedEntity.name_of_connector? hc), hkrole⟩

/-- If no link is suspected, none comes from a server or leads to a client. -/
theorem role_ne_of_directed (hlinks : d.misdirectedLinks = []) {l : LinkClass}
    (hl : l ∈ d.linkClasses) :
    d.roleOf? l.source ≠ some .server ∧ d.roleOf? l.target ≠ some .client := by
  have hnone := List.flatMap_eq_nil_iff.1 hlinks l hl
  obtain ⟨hsource, htarget⟩ := List.append_eq_nil_iff.1 hnone
  constructor
  · intro hrole
    rw [if_pos hrole] at hsource
    cases hsource
  · intro hrole
    rw [if_pos hrole] at htarget
    cases htarget

/-- The first connector of a role is one of the box's, and has the role. -/
theorem PlacedEntity.mem_of_firstOf? {role : Role} {c : PlacedConnector α}
    (hc : b.firstOf? role = some c) : c ∈ b.connectors ∧ c.role = role :=
  ⟨List.mem_of_find?_eq_some hc, by simpa using List.find?_some hc⟩

/-- Edges lead from clients to servers. -/
theorem Sound.roles_of_attaches (h : d.Sound) (hlinks : d.misdirectedLinks = [])
    {source target : PlacedEntity α} (hsource : source ∈ d.boxesOf store m view)
    (htarget : target ∈ d.boxesOf store m view) {start finish : Option (PlacedConnector α)}
    (hattaches : d.Attaches view source target start finish) :
    (∀ c ∈ start, c ∈ source.connectors ∧ c.role = .client) ∧
    (∀ c ∈ finish, c ∈ target.connectors ∧ c.role = .server) := by
  cases view with
  | schema =>
      obtain ⟨l, hl, hname, hname', ⟨s, rfl, hs⟩, f, rfl, hf⟩ := hattaches
      obtain ⟨hserver, hclient⟩ := role_ne_of_directed hlinks hl
      rw [h.roleOf?_eq hsource hname hs] at hserver
      rw [h.roleOf?_eq htarget hname' hf] at hclient
      constructor
      · rintro c ⟨⟩
        refine ⟨List.mem_of_find?_eq_some hs, ?_⟩
        cases hrole : s.role with
        | server => exact absurd (congrArg some hrole) hserver
        | client => rfl
      · rintro c ⟨⟩
        refine ⟨List.mem_of_find?_eq_some hf, ?_⟩
        cases hrole : f.role with
        | server => rfl
        | client => exact absurd (congrArg some hrole) hclient
  | instances =>
      obtain ⟨c, hc, -, -, rfl, rfl⟩ := hattaches
      exact ⟨fun _ hc => PlacedEntity.mem_of_firstOf? hc,
        fun _ hc => PlacedEntity.mem_of_firstOf? hc⟩

end Sound

section Meets

variable {view : View} {b : PlacedEntity Float}

/-- A box with connectors is that of an entity, not of a translation. -/
theorem mem_entities (hb : b ∈ d.boxesOf Decimal.nearestInt m view) (hne : b.connectors ≠ []) :
    b ∈ (d.drawWith Decimal.nearestInt m view).entities := by
  cases view with
  | schema => exact hb
  | instances =>
      obtain ⟨box, hboxes, hbox⟩ := d.exists_boxesOf Decimal.nearestInt m .instances
      obtain ⟨hentities, -⟩ := boxes_drawInstances (d := d) hboxes
      rw [hboxes, nodesOf, List.map_append] at hb
      show b ∈ (d.drawInstances Decimal.nearestInt m).entities
      rw [hentities]
      refine (List.mem_append.1 hb).resolve_right fun hb => hne ?_
      obtain ⟨n, hn, rfl⟩ := List.mem_map.1 hb
      obtain ⟨t, -, rfl⟩ := List.mem_map.1 hn
      exact List.map_eq_nil_iff.1 (hbox _).carries

/-- An end of an edge lies where it should, if its connector is on the box and has the role. -/
theorem Sound.meets (h : d.Sound) (hb : b ∈ d.boxesOf Decimal.nearestInt m view) {role : Role}
    {connector : Option (PlacedConnector Float)}
    (hc : ∀ c ∈ connector, c ∈ b.connectors ∧ c.role = role) (radius : Float) :
    (d.drawWith Decimal.nearestInt m view).Meets radius role b.name (connector.map (·.name))
      ⟨role.outward radius (b.box.side role), b.box.y + b.attach connector⟩ := by
  have hboxes : (d.drawWith Decimal.nearestInt m view).boxesNamed b.name = [b.box] := by
    rw [boxesNamed_drawWith, filter_eq_singleton h.nodup_boxes hb]
    rfl
  refine ⟨b.box, hboxes, ?_⟩
  cases connector with
  | none => exact rfl
  | some c =>
      obtain ⟨hmem, rfl⟩ := hc c rfl
      have hentity := mem_entities hb (List.ne_nil_of_mem hmem)
      have hnames : ((d.drawWith Decimal.nearestInt m view).entities.map (·.name)).Nodup := by
        cases view with
        | schema => exact h.showsClasses.once
        | instances => exact (List.nodup_append.1 h.showsDeployed.once).1
      refine ⟨b, filter_eq_singleton hnames hentity, rfl, c,
        filter_eq_singleton (h.nodup_connectors hb) hmem, rfl, Figure.markerOf b c, ?_, rfl, rfl,
        rfl⟩
      rw [Drawing.markers_paint]
      exact List.mem_flatMap.2 ⟨b, hentity, List.mem_map_of_mem hmem⟩

end Meets

/-- A report without suspicions of direction says that no link has any. -/
theorem misdirectedLinks_eq_nil_of_check {r : Report} (hcheck : d.check = .ok r)
    (hlinks : ∀ x ∈ r.suspicions, ¬ x.IsOfDirection) : d.misdirectedLinks = [] := by
  have hsub : ∀ x ∈ d.misdirectedLinks, x ∈ r.suspicions := by
    intro x hx
    obtain ⟨doubtful, -, rfl⟩ := exists_of_check hcheck
    simp only [List.append_assoc]
    exact List.mem_append_left _ hx
  refine List.eq_nil_iff_forall_not_mem.2 fun x hx => hlinks x (hsub x hx) ?_
  obtain ⟨l, -, hx⟩ := List.mem_flatMap.1 hx
  rcases List.mem_append.1 hx with hx | hx <;> split at hx
  · cases List.mem_singleton.1 hx
    exact trivial
  · cases hx
  · cases List.mem_singleton.1 hx
    exact trivial
  · cases hx

/-- Edges meet markers. In either view of a document without defects whose links lead from
clients to servers, with any measures, a start that names a connector lies a radius to the right
of the marker that is painted for it on the right side, and a finish a radius to the left of the
one on the left side, each at the height of its marker; an end without a connector lies half way
down its box. -/
theorem ends_meet_markers {r : Report} (hcheck : d.check = .ok r) (hdefects : r.defects = [])
    (hlinks : ∀ x ∈ r.suspicions, ¬ x.IsOfDirection) {view : View} {g : Drawing Float}
    (hdraw : d.draw m view = .ok g) :
    (∀ f, g.figure = .ok f → f.artwork = g.paint) ∧
    g.paint.markers = g.entities.flatMap (fun b => b.connectors.map (Figure.markerOf b)) ∧
    ∀ e ∈ g.edges,
      g.Meets (Decimal.nearestInt m.connectorRadius) .client e.source e.sourceConnector e.start ∧
      g.Meets (Decimal.nearestInt m.connectorRadius) .server e.target e.targetConnector
        e.finish := by
  refine ⟨fun _ => Drawing.artwork_of_figure, g.markers_paint, fun e he => ?_⟩
  have hsound : d.Sound := by
    rw [defects_of_check hcheck] at hdefects
    exact defects_eq_nil_iff.1 hdefects
  rw [eq_drawWith_of_draw hdraw] at he ⊢
  obtain ⟨source, target, start, finish, hsource, htarget, hattaches, rfl⟩ := exists_between he
  have hsource := PlacedEntity.mem_of_lastNamed? hsource
  have htarget := PlacedEntity.mem_of_lastNamed? htarget
  obtain ⟨hstart, hfinish⟩ := hsound.roles_of_attaches
    (misdirectedLinks_eq_nil_of_check hcheck hlinks) hsource htarget hattaches
  exact ⟨hsound.meets hsource hstart _, hsound.meets htarget hfinish _⟩

/-- In the instance view of the shop, a client meets a translation, which has no connectors, and
a server. -/
theorem shop_meets_markers : ∃ r g, shop.check = .ok r ∧ r.defects = [] ∧
    (∀ x ∈ r.suspicions, ¬ x.IsOfDirection) ∧ shop.draw {} .instances = .ok g ∧
    g.edges.map (fun e => (e.source, e.target)) = [("b", "n"), ("b", "s")] ∧
    ∀ e ∈ g.edges,
      g.Meets (Decimal.nearestInt 6) .client e.source e.sourceConnector e.start ∧
      g.Meets (Decimal.nearestInt 6) .server e.target e.targetConnector e.finish := by
  have hcheck : shop.check = .ok ⟨[], []⟩ := by decide +kernel
  have hdraw : shop.draw {} .instances = .ok (shop.drawWith Decimal.nearestInt {} .instances) :=
    draw_returns (by decide) .instances
  have hends : ∀ c ∈ shop.connections, shop.HasEndpoint c.source ∧ shop.HasEndpoint c.target := by
    decide
  exact ⟨_, _, hcheck, rfl, nofun, hdraw, instance_edges_iff.2 hends,
    (ends_meet_markers hcheck rfl nofun hdraw).2.2⟩

end Document

end SystemMap
