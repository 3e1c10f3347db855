/-
How the edges of a drawing attach. In both views an edge leads from the last box of one name to
the last box of another, and its ends are fixed by the two boxes and by the connectors that were
found on them: in the schema view those that a link class names, in the view of instances the
first client and the first server.

In a sound document without misdirected links the connectors of a start are clients and those of
an end are servers, and every name belongs to one box and one connector on it.
-/
import SystemMap.Proofs.Drawing.Complete

namespace SystemMap

namespace Document

variable {α : Type} (d : Document)

/-- The nodes of a view. -/
def nodesOf : View → List Node
  | .schema => d.schemaNodes
  | .instances => d.instanceNodes ++ d.translationNodes

/-- The edges of a view, between names. -/
def edgesOf : View → List (String × String)
  | .schema => d.schemaEdges
  | .instances => d.instanceEdges

/-- Each view places its own nodes along its own edges. -/
theorem place_eq_ofNodes (m : Metrics) (view : View) :
    d.place m view = .ofNodes (d.nodesOf view) (d.edgesOf view) view m := by
  cases view <;> rfl

/-- The boxes that edges of a view attach to. -/
def boxesOf (store : Int → α) (m : Metrics) (view : View) : List (PlacedEntity α) :=
  (d.place m view).entities.map (·.map store)

/-- Two boxes and connectors on them are those of a declaration that makes an edge. -/
def Attaches : View → PlacedEntity α → PlacedEntity α → Option (PlacedConnector α) →
    Option (PlacedConnector α) → Prop
  | .schema, source, target, start, finish => ∃ l ∈ d.linkClasses,
    source.name = l.source.nodeClass ∧ target.name = l.target.nodeClass ∧
    (∃ c, start = some c ∧ source.connector? l.source.connector = some c) ∧
    ∃ c, finish = some c ∧ target.connector? l.target.connector = some c
  | .instances, source, target, start, finish => ∃ c ∈ d.connections,
    source.name = c.source ∧ target.name = c.target ∧
    start = source.firstOf? .client ∧ finish = target.firstOf? .server

/-- The boxes of a view are those of its nodes, in order. -/
theorem exists_boxesOf (store : Int → α) (m : Metrics) (view : View) :
    ∃ box : Node → PlacedEntity α, d.boxesOf store m view = (d.nodesOf view).map box ∧
      ∀ n, (box n).Stands n := by
  unfold boxesOf
  rw [place_eq_ofNodes]
  exact exists_boxes (d.nodesOf view) (d.edgesOf view) view m store

variable {d}

/-- What attaches two boxes is an edge between their names. -/
theorem Attaches.mem_edgesOf {view : View} {source target : PlacedEntity α}
    {start finish : Option (PlacedConnector α)}
    (h : d.Attaches view source target start finish) :
    (source.name, target.name) ∈ d.edgesOf view := by
  cases view with
  | schema =>
      obtain ⟨l, hl, hsource, htarget, -, -⟩ := h
      rw [hsource, htarget]
      exact List.mem_map.2 ⟨l, hl, rfl⟩
  | instances =>
      obtain ⟨c, hc, hsource, htarget, -, -⟩ := h
      rw [hsource, htarget]
      exact List.mem_map.2 ⟨c, hc, rfl⟩

-- ==================================================================== edges

section Edges

variable [Add α] [Sub α] [Div α] [OfNat α 2] {store : Int → α} {m : Metrics}

/-- Each edge leads from the last box of its name to the last box of the other. -/
theorem exists_between {view : View} {e : PlacedEdge α}
    (he : e ∈ (d.drawWith store m view).edges) :
    ∃ source target start finish,
      PlacedEntity.lastNamed? (d.boxesOf store m view) source.name = some source ∧
      PlacedEntity.lastNamed? (d.boxesOf store m view) target.name = some target ∧
      d.Attaches view source target start finish ∧
      e = .between (store m.connectorRadius) source target start finish := by
  cases view with
  | schema =>
      obtain ⟨l, hl, hdraw⟩ := List.mem_filterMap.1 he
      unfold LinkClass.draw? at hdraw
      simp only [Option.bind_eq_bind, Option.bind_eq_some_iff, Option.pure_def] at hdraw
      obtain ⟨source, hsource, target, htarget, start, hstart, finish, hfinish, hedge⟩ := hdraw
      have hname := PlacedEntity.name_of_lastNamed? hsource
      have hname' := PlacedEntity.name_of_lastNamed? htarget
      refine ⟨source, target, some start, some finish, ?_, ?_, ⟨l, hl, hname, hname',
        ⟨start, rfl, hstart⟩, finish, rfl, hfinish⟩, (Option.some.inj hedge).symm⟩
      · rw [hname]
        exact hsource
      · rw [hname']
        exact htarget
  | instances =>
      obtain ⟨c, hc, hdraw⟩ := List.mem_filterMap.1 he
      unfold Connection.draw? at hdraw
      simp only [Option.bind_eq_bind, Option.bind_eq_some_iff, Option.pure_def] at hdraw
      obtain ⟨source, hsource, target, htarget, hedge⟩ := hdraw
      have hname := PlacedEntity.name_of_lastNamed? hsource
      have hname' := PlacedEntity.name_of_lastNamed? htarget
      refine ⟨source, target, source.firstOf? .client, target.firstOf? .server, ?_, ?_,
        ⟨c, hc, hname, hname', rfl, rfl⟩, (Option.some.inj hedge).symm⟩
      · rw [hname]
        exact hsource
      · rw [hname']
        exact htarget

end Edges

end Document

-- =========================================================== boxes of a name

section Named

variable {α : Type}

/-- The boxes of a drawing that bear a name. -/
def Drawing.boxesNamed (g : Drawing α) (name : String) : List (Box α) :=
  (g.entities.filter (·.name = name)).map (·.box) ++
    (g.translations.filter (·.name = name)).map (·.box)

/-- A box that is found by name is one of those there are. -/
theorem PlacedEntity.mem_of_lastNamed? {entities : List (PlacedEntity α)} {name : String}
    {b : PlacedEntity α} (h : lastNamed? entities name = some b) : b ∈ entities :=
  List.mem_reverse.1 (List.mem_of_find?_eq_some h)

namespace Document

variable [Add α] [Sub α] [Div α] [OfNat α 2] {store : Int → α} {m : Metrics} {d : Document}

/-- A drawing shows the boxes that its edges attach to and no others. -/
theorem boxesNamed_drawWith (view : View) (name : String) :
    (d.drawWith store m view).boxesNamed name
      = ((d.boxesOf store m view).filter (·.name = name)).map (·.box) := by
  cases view with
  | schema => exact List.append_nil _
  | instances =>
      obtain ⟨box, hboxes, hbox⟩ := d.exists_boxesOf store m .instances
      obtain ⟨hentities, htranslations⟩ := boxes_drawInstances (d := d) hboxes
      have hall : d.boxesOf store m .instances = d.instanceNodes.map box ++
          d.translations.map fun t => box ⟨t.name, .translation, [], none, none⟩ := by
        rw [hboxes, nodesOf, List.map_append, translationNodes, List.map_map]
        rfl
      have hname : ∀ t : Translation,
          (box ⟨t.name, .translation, [], none, none⟩).name = t.name := fun t => (hbox _).name
      unfold Drawing.boxesNamed drawWith
      dsimp only
      rw [hall, hentities, htranslations, List.filter_append, List.map_append, List.filter_map,
        List.filter_map, List.filter_map, List.map_map, List.map_map, List.map_map]
      simp only [Function.comp_def, Translation.inCell, hname]

end Document

end Named

end SystemMap
