/-
Edges run to the right. A box stands in the column of its layer, and an edge leaves it a radius
behind its right side and enters the next one a radius before its left side; so what is between
the two ends is told by the two layers. Layers rise along edges that are on no cycle, and there
the ends are at least as far apart as the columns leave room.

The layers are those of all edges of the view, drawn or not, and of names: boxes of one name are
in one column. Coordinates are doubles, and what is said of them is said of exact whole numbers
as long as none of them exceeds `2^53`; that is so where a row of all boxes would end before it
(`exactAcross_place`).
-/
import SystemMap.Proofs.Decimal.Whole
import SystemMap.Proofs.Drawing.Cells
import SystemMap.Proofs.Drawing.Edges

namespace SystemMap

open Decimal (nearestInt whole?)

/-- The sides of a box, and the ends of edges at them, are exact in doubles. -/
def PlacedEntity.ExactAcross (radius : Int) (b : PlacedEntity Int) : Prop :=
  ∀ x ∈ [b.box.x, b.box.right, b.box.x - radius, b.box.right + radius], x.natAbs ≤ 2 ^ 53

instance (radius : Int) (b : PlacedEntity Int) : Decidable (b.ExactAcross radius) :=
  inferInstanceAs (Decidable (∀ x ∈ [b.box.x, b.box.right, b.box.x - radius, b.box.right + radius],
    x.natAbs ≤ 2 ^ 53))

/-- The ends of edges at an exact box are those of exact arithmetic. -/
theorem PlacedEntity.ExactAcross.ends {radius : Int} {b : PlacedEntity Int}
    (h : b.ExactAcross radius) (hx : 0 < b.box.x) (hwidth : 0 < b.box.width) :
    (b.map nearestInt).box.right + nearestInt radius = nearestInt (b.box.right + radius) ∧
      (b.map nearestInt).box.x - nearestInt radius = nearestInt (b.box.x - radius) := by
  have hsides : b.box.right = b.box.x + b.box.width := rfl
  obtain ⟨hleft, hright, hbefore, hbehind⟩ : b.box.x.natAbs ≤ 2 ^ 53 ∧
      b.box.right.natAbs ≤ 2 ^ 53 ∧ (b.box.x - radius).natAbs ≤ 2 ^ 53 ∧
      (b.box.right + radius).natAbs ≤ 2 ^ 53 :=
    ⟨h _ (by simp), h _ (by simp), h _ (by simp), h _ (by simp)⟩
  -- the width and the radius are differences of coordinates that bound them
  have hwide : b.box.width.natAbs ≤ 2 ^ 53 := by omega
  have hradius : radius.natAbs ≤ 2 ^ 53 := by omega
  constructor
  · show nearestInt b.box.x + nearestInt b.box.width + nearestInt radius = _
    rw [Decimal.nearestInt_add hleft hwide hright]
    exact Decimal.nearestInt_add hright hradius hbehind
  · exact Decimal.nearestInt_sub hleft hradius hbefore

-- ================================================================== columns

/-- No box is at the left border. -/
theorem Node.place_x_pos {m : Metrics} (hwidth : 0 < m.nodeWidth) (hpadding : 0 < m.padding)
    (n : Node) (view : View) (layer row : Nat) : 0 < (n.place m view layer row).box.x := by
  have hcolumn : 0 ≤ (layer : Int) * m.columnSpacing := by
    refine Int.mul_nonneg (Int.natCast_nonneg layer) ?_
    unfold Metrics.columnSpacing
    omega
  show 0 < m.padding + layer * m.columnSpacing
  omega

/-- The way from behind a box to before another one is told by their columns. -/
theorem Node.place_across (n n' : Node) (m : Metrics) (view : View)
    (layer row layer' row' : Nat) (radius : Int) :
    (n'.place m view layer' row').box.x - radius - ((n.place m view layer row).box.right + radius)
      = ((layer' : Int) - layer) * (m.nodeWidth + 3 * m.padding) - m.nodeWidth - 2 * radius := by
  have hright : (n.place m view layer row).box.right
      = m.padding + layer * (m.nodeWidth + 3 * m.padding) + m.nodeWidth := rfl
  have hleft : (n'.place m view layer' row').box.x
      = m.padding + layer' * (m.nodeWidth + 3 * m.padding) := rfl
  rw [Int.sub_mul]
  omega

namespace Document

/-- The graph of a view. -/
def graphOf (d : Document) (view : View) : Graph :=
  Placement.graph (d.nodesOf view) (d.edgesOf view)

variable {d : Document} {m : Metrics} {view : View}

/-- The boxes of a view stand in the columns of their layers. -/
theorem boxesOf_eq {α : Type} (d : Document) (store : Int → α) (m : Metrics) (view : View) :
    d.boxesOf store m view = (d.nodesOf view).map fun n =>
      (n.place m view ((d.graphOf view).layer n.name)
        (Placement.row (d.nodesOf view) (d.edgesOf view) n.name)).map store := by
  unfold boxesOf
  rw [place_eq_ofNodes, Placement.entities_ofNodes, List.map_map]
  rfl

/-- Each box of a view is a node of it, placed in its layer and rounded. -/
theorem exists_place {α : Type} {store : Int → α} {b : PlacedEntity α}
    (hb : b ∈ d.boxesOf store m view) : ∃ n ∈ d.nodesOf view, ∃ row,
      b = (n.place m view ((d.graphOf view).layer n.name) row).map store ∧
      n.place m view ((d.graphOf view).layer n.name) row ∈ (d.place m view).entities := by
  rw [boxesOf_eq] at hb
  obtain ⟨n, hn, rfl⟩ := List.mem_map.1 hb
  refine ⟨n, hn, _, rfl, ?_⟩
  rw [place_eq_ofNodes, Placement.entities_ofNodes]
  exact List.mem_map.2 ⟨n, hn, rfl⟩

/-- All sides are exact where a row of all boxes, each in a column of its own, ends before
`2^53`. -/
theorem exactAcross_place {radius : Int} (hwidth : 0 < m.nodeWidth) (hpadding : 0 < m.padding)
    (hradius : 0 ≤ radius) (hsmall : m.padding + (d.nodesOf view).length * m.columnSpacing +
      m.nodeWidth + radius ≤ 2 ^ 53) :
    ∀ b ∈ (d.place m view).entities, b.ExactAcross radius := by
  rw [place_eq_ofNodes, Placement.entities_ofNodes]
  intro b hb x hx
  obtain ⟨n, -, rfl⟩ := List.mem_map.1 hb
  have hleft := n.place_x_pos hwidth hpadding view
    (Placement.layer (d.nodesOf view) (d.edgesOf view) n.name)
    (Placement.row (d.nodesOf view) (d.edgesOf view) n.name)
  generalize hlayer : Placement.layer (d.nodesOf view) (d.edgesOf view) n.name = layer at hx hleft
  generalize Placement.row (d.nodesOf view) (d.edgesOf view) n.name = row at hx hleft
  have hcount : layer ≤ (d.nodesOf view).length := by
    rw [← hlayer]
    exact Nat.le_trans (Graph.layer_le_length (Placement.proper_graph _ _) _)
      Placement.length_names_graph_le
  have hcolumn : (layer : Int) * m.columnSpacing ≤ (d.nodesOf view).length * m.columnSpacing := by
    refine Int.mul_le_mul_of_nonneg_right (Int.ofNat_le.2 hcount) ?_
    unfold Metrics.columnSpacing
    omega
  have hbox : (n.place m view layer row).box.x = m.padding + layer * m.columnSpacing := rfl
  have hright : (n.place m view layer row).box.right
      = (n.place m view layer row).box.x + m.nodeWidth := rfl
  simp only [List.mem_cons, List.not_mem_nil, or_false] at hx
  rcases hx with rfl | rfl | rfl | rfl <;> omega

/-- What is drawn has the layer of its name. -/
theorem layers_drawWith {α : Type} [Add α] [Sub α] [Div α] [OfNat α 2] (d : Document)
    (store : Int → α) (m : Metrics) (view : View) :
    (∀ b ∈ (d.drawWith store m view).entities, b.layer = (d.graphOf view).layer b.name) ∧
      ∀ t ∈ (d.drawWith store m view).translations, t.layer = (d.graphOf view).layer t.name := by
  have hboxes : ∀ b ∈ d.boxesOf store m view, b.layer = (d.graphOf view).layer b.name := by
    intro b hb
    obtain ⟨n, -, row, rfl, -⟩ := exists_place hb
    rfl
  cases view with
  | schema => exact ⟨hboxes, nofun⟩
  | instances =>
      obtain ⟨-, htranslations⟩ := boxes_drawInstances (d := d) (boxesOf_eq d store m .instances)
      refine ⟨fun b hb => hboxes b (List.mem_of_mem_take hb), fun t ht => ?_⟩
      rw [show (d.drawWith store m .instances).translations = _ from htranslations] at ht
      obtain ⟨t, -, rfl⟩ := List.mem_map.1 ht
      rfl

/-- Edges run to the right. In either view, with a positive width of boxes and a positive
padding, and as long as the coordinates are exact, an edge is as long across as the columns of
its ends lie apart, less the width of a box and the two radii; if it is on no cycle of the view,
then at least as long as three paddings less the two radii. -/
theorem edges_run_right (hwidth : 0 < m.nodeWidth) (hpadding : 0 < m.padding)
    (hexact : ∀ b ∈ (d.place m view).entities, b.ExactAcross m.connectorRadius)
    {g : Drawing Float} (hdraw : d.draw m view = .ok g) :
    (∀ b ∈ g.entities, b.layer = (d.graphOf view).layer b.name) ∧
    (∀ t ∈ g.translations, t.layer = (d.graphOf view).layer t.name) ∧
    ∀ e ∈ g.edges, (e.source, e.target) ∈ (d.graphOf view).edges ∧ ∃ start finish : Int,
      whole? e.start.x = some start ∧ whole? e.finish.x = some finish ∧
      finish - start = (((d.graphOf view).layer e.target : Int) - (d.graphOf view).layer e.source) *
        (m.nodeWidth + 3 * m.padding) - m.nodeWidth - 2 * m.connectorRadius ∧
      ((finish - start).natAbs ≤ 2 ^ 53 →
        e.finish.x - e.start.x = nearestInt (finish - start)) ∧
      (¬ Graph.OnCycle (d.graphOf view).edges (e.source, e.target) →
        3 * m.padding - 2 * m.connectorRadius ≤ finish - start) := by
  rw [eq_drawWith_of_draw hdraw]
  obtain ⟨hentities, htranslations⟩ := layers_drawWith d nearestInt m view
  refine ⟨hentities, htranslations, fun e he => ?_⟩
  obtain ⟨source, target, start, finish, hsource, htarget, hattaches, rfl⟩ := exists_between he
  have hedge := hattaches.mem_edgesOf
  obtain ⟨n, hn, row, rfl, hplaced⟩ := exists_place (PlacedEntity.mem_of_lastNamed? hsource)
  obtain ⟨n', hn', row', rfl, hplaced'⟩ := exists_place (PlacedEntity.mem_of_lastNamed? htarget)
  have hmem : (n.name, n'.name) ∈ (d.graphOf view).edges :=
    (Placement.mem_edges_graph ⟨n', hn', rfl⟩).2 ⟨hedge, n, hn, rfl⟩
  have hsides := hexact _ hplaced
  have hsides' := hexact _ hplaced'
  have hstart := (hsides.ends (n.place_x_pos hwidth hpadding ..) hwidth).1
  have hfinish := (hsides'.ends (n'.place_x_pos hwidth hpadding ..) hwidth).2
  generalize hbehind : (n.place m view ((d.graphOf view).layer n.name) row).box.right
    + m.connectorRadius = behind at hstart
  generalize hbefore : (n'.place m view ((d.graphOf view).layer n'.name) row').box.x
    - m.connectorRadius = before at hfinish
  have hsmall : behind.natAbs ≤ 2 ^ 53 := hbehind ▸ hsides _ (by simp)
  have hsmall' : before.natAbs ≤ 2 ^ 53 := hbefore ▸ hsides' _ (by simp)
  have hacross : before - behind = (((d.graphOf view).layer n'.name : Int) -
      (d.graphOf view).layer n.name) * (m.nodeWidth + 3 * m.padding) - m.nodeWidth -
      2 * m.connectorRadius := by
    rw [← hbehind, ← hbefore]
    exact Node.place_across n n' m view ..
  refine ⟨hmem, behind, before, ?_, ?_, hacross, fun hdistance => ?_, fun hcycle => ?_⟩
  · exact (congrArg whole? hstart).trans (Decimal.whole?_nearestInt hsmall)
  · exact (congrArg whole? hfinish).trans (Decimal.whole?_nearestInt hsmall')
  · rw [← Decimal.nearestInt_sub hsmall' hsmall hdistance, ← hstart, ← hfinish]
    rfl
  · have hlayers : (d.graphOf view).layer n.name < (d.graphOf view).layer n'.name :=
      Graph.layer_lt_of_not_onCycle (Placement.proper_graph _ _) hmem hcycle
    have hcolumn : m.nodeWidth + 3 * m.padding ≤ (((d.graphOf view).layer n'.name : Int) -
        (d.graphOf view).layer n.name) * (m.nodeWidth + 3 * m.padding) := by
      conv => lhs; rw [← Int.one_mul (m.nodeWidth + 3 * m.padding)]
      exact Int.mul_le_mul_of_nonneg_right (by omega) (by omega)
    omega

/-- Two links of three are drawn; the one that names no connector still keeps its ends in
different columns. A class declared twice is drawn twice, in one column. -/
def relay : Document := { Document.empty with
  nodeClasses := [⟨"front", [⟨"out", .client, [], none⟩], none⟩,
    ⟨"middle", [⟨"in", .server, [], none⟩], none⟩,
    ⟨"back", [⟨"in", .server, [], none⟩], none⟩, ⟨"back", [⟨"in", .server, [], none⟩], none⟩]
  linkClasses := [⟨⟨"front", "out"⟩, ⟨"middle", "in"⟩, none⟩,
    ⟨⟨"middle", "out"⟩, ⟨"back", "in"⟩, none⟩, ⟨⟨"front", "out"⟩, ⟨"back", "in"⟩, none⟩] }

/-- Three classes in a chain, with an edge that skips the middle one. -/
theorem relay_runs_right : 0 < (Metrics.nodeWidth {}) ∧ 0 < (Metrics.padding {}) ∧
    (∀ b ∈ (relay.place {} .schema).entities, b.ExactAcross 6) ∧
    ∃ g, relay.draw {} .schema = .ok g ∧
      g.edges.map (fun e => (e.source, e.target)) = [("front", "middle"), ("front", "back")] ∧
      ∀ e ∈ g.edges, ∃ start finish : Int,
        whole? e.start.x = some start ∧ whole? e.finish.x = some finish ∧
        finish - start = (((relay.graphOf .schema).layer e.target : Int) -
          (relay.graphOf .schema).layer e.source) * (200 + 3 * 40) - 200 - 2 * 6 ∧
        3 * 40 - 2 * 6 ≤ finish - start := by
  have hexact : ∀ b ∈ (relay.place {} .schema).entities, b.ExactAcross 6 :=
    exactAcross_place (by decide) (by decide) (by decide) (by decide)
  have hdraw : relay.draw {} .schema = .ok (relay.drawWith nearestInt {} .schema) :=
    draw_returns (by decide) .schema
  have hacyclic : Graph.Acyclic (relay.graphOf .schema).edges :=
    Graph.acyclic_of_rank (["front", "middle", "back"].idxOf ·) (by decide +kernel)
  obtain ⟨-, -, hedges⟩ := edges_run_right (by decide) (by decide) hexact hdraw
  refine ⟨by decide, by decide, hexact, _, hdraw, by decide +kernel, fun e he => ?_⟩
  obtain ⟨-, start, finish, hstart, hfinish, hacross, -, hleast⟩ := hedges e he
  exact ⟨start, finish, hstart, hfinish, hacross, hleast (hacyclic.not_onCycle _)⟩

end Document

end SystemMap
