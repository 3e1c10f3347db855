/-
The cells of a placement. Nodes take their layers and rows from the graph of their names, so two
nodes are in one cell only if they go by one name, and the grid has no holes: each layer from one
up to the last is in use, and in each layer the rows from zero up to the last. Layer zero is left
out only where an edge leads to every name. So a placement has at most as many layers as names,
not counting layer zero, and with it if layer zero is in use.
-/
import SystemMap.Drawing.Placement
import SystemMap.Proofs.Graph.Layering
import SystemMap.Proofs.Graph.Numbering

namespace SystemMap

/-- What stands further along a grid is at least a distance away. -/
theorem add_distance_le {i j : Nat} (h : i < j) {distance : Int} (hpos : 0 ≤ distance) :
    i * distance + distance ≤ j * distance := by
  have hstep : ((i : Int) + 1) * distance ≤ j * distance :=
    Int.mul_le_mul_of_nonneg_right (by omega) hpos
  rwa [Int.add_mul, Int.one_mul] at hstep

namespace Placement

/-- The graph that nodes are placed by. -/
def graph (nodes : List Node) (edges : List (String × String)) : Graph :=
  Graph.build (nodes.map (·.name)) edges

/-- The layer of a name. -/
def layer (nodes : List Node) (edges : List (String × String)) (name : String) : Nat :=
  (graph nodes edges).layer name

/-- The row of a name. -/
def row (nodes : List Node) (edges : List (String × String)) (name : String) : Nat :=
  ((graph nodes edges).rows fun name => layer nodes edges name).row name

section Cells

variable {nodes : List Node} {edges : List (String × String)}

/-- Each node is placed in the layer and the row of its name. -/
theorem entities_ofNodes (nodes : List Node) (edges : List (String × String)) (view : View)
    (m : Metrics) : (ofNodes nodes edges view m).entities
      = nodes.map fun n => n.place m view (layer nodes edges n.name) (row nodes edges n.name) := rfl

theorem proper_graph (nodes : List Node) (edges : List (String × String)) :
    (graph nodes edges).Proper := Graph.proper_build _ _

/-- The names of the graph are those of the nodes. -/
theorem mem_names_graph {name : String} :
    name ∈ (graph nodes edges).names ↔ ∃ n ∈ nodes, n.name = name := by
  show name ∈ (nodes.map (·.name)).eraseDups ↔ _
  rw [List.mem_eraseDups, List.mem_map]

/-- An edge counts if both its ends are nodes. -/
theorem mem_edges_graph {u v : String} (hv : ∃ n ∈ nodes, n.name = v) :
    (u, v) ∈ (graph nodes edges).edges ↔ (u, v) ∈ edges ∧ ∃ n ∈ nodes, n.name = u := by
  unfold graph
  rw [Graph.mem_edges_build, List.mem_map, List.mem_map]
  exact and_congr_right fun _ => and_iff_left hv

/-- Different names are in different cells. -/
theorem cells_ne {n k : Node} (hn : n ∈ nodes) (hk : k ∈ nodes) (hne : n.name ≠ k.name) :
    layer nodes edges n.name ≠ layer nodes edges k.name ∨
      row nodes edges n.name ≠ row nodes edges k.name := by
  by_contra hcell
  push Not at hcell
  obtain ⟨hlayer, hrow⟩ := hcell
  exact hne (Graph.eq_of_row_eq (proper_graph nodes edges).nodup (mem_names_graph.2 ⟨n, hn, rfl⟩)
    (mem_names_graph.2 ⟨k, hk, rfl⟩) (congrArg Int.ofNat hlayer) hrow)

/-- Every row above a node is in use. -/
theorem exists_row_eq {n : Node} (hn : n ∈ nodes) {i : Nat} (hi : i < row nodes edges n.name) :
    ∃ k ∈ nodes, layer nodes edges k.name = layer nodes edges n.name ∧
      row nodes edges k.name = i := by
  obtain ⟨w, hw, hlayer, hrow⟩ := Graph.exists_of_lt_row (proper_graph nodes edges).nodup
    (mem_names_graph.2 ⟨n, hn, rfl⟩) hi
  obtain ⟨k, hk, rfl⟩ := mem_names_graph.1 hw
  exact ⟨k, hk, Int.ofNat.inj hlayer, hrow⟩

/-- Every layer from one up to that of a name is in use. -/
theorem exists_layer_eq {name : String} {k : Nat} (hk : 0 < k)
    (hle : k ≤ layer nodes edges name) : ∃ n ∈ nodes, layer nodes edges n.name = k := by
  obtain ⟨u, hu, hlayer⟩ := Graph.exists_layer_eq (proper_graph nodes edges) hk hle
  obtain ⟨n, hn, rfl⟩ := mem_names_graph.1 hu
  exact ⟨n, hn, hlayer⟩

/-- Layer zero has the nodes that no edge leads to from a node. -/
theorem layer_eq_zero_iff {n : Node} (hn : n ∈ nodes) :
    layer nodes edges n.name = 0 ↔ ∀ k ∈ nodes, (k.name, n.name) ∉ edges := by
  unfold layer
  rw [Graph.layer_eq_zero_iff (proper_graph nodes edges) (mem_names_graph.2 ⟨n, hn, rfl⟩)]
  constructor
  · intro hnone k hk he
    exact hnone k.name ((mem_edges_graph ⟨n, hn, rfl⟩).2 ⟨he, k, hk, rfl⟩)
  · intro hnone u hu
    obtain ⟨he, k, hk, rfl⟩ := (mem_edges_graph ⟨n, hn, rfl⟩).1 hu
    exact hnone k hk he

/-- Nodes that no edge joins are in layer zero, in the order of their names. -/
theorem entities_unlinked (hsome : nodes ≠ []) (view : View) (m : Metrics) :
    (ofNodes nodes [] view m).entities = nodes.map fun n =>
      n.place m view 0 (Graph.Rows.row (Graph.sortNames (graph nodes []).names).zipIdx n.name) := by
  have hlayer : ∀ name ∈ (graph nodes []).names, layer nodes [] name = 0 := by
    intro name hname
    obtain ⟨n, hn, rfl⟩ := mem_names_graph.1 hname
    exact (layer_eq_zero_iff hn).2 fun _ _ => List.not_mem_nil
  obtain ⟨n, hn⟩ := List.exists_mem_of_ne_nil _ hsome
  have hnames : (graph nodes []).names ≠ [] :=
    List.ne_nil_of_mem (mem_names_graph.2 ⟨n, hn, rfl⟩)
  rw [entities_ofNodes]
  refine List.map_congr_left fun n hn => ?_
  unfold row
  rw [(layer_eq_zero_iff hn).2 fun _ _ => List.not_mem_nil,
    Graph.rows_of_layer_zero hnames fun name hname => Int.natCast_eq_zero.2 (hlayer name hname)]

/-- A node alone is in the first cell. -/
theorem entities_alone (n : Node) (view : View) (m : Metrics) :
    (ofNodes [n] [] view m).entities = [n.place m view 0 0] := by
  have hnames : Graph.sortNames (graph [n] []).names = [n.name] := List.mergeSort_singleton _
  have hrow : Graph.Rows.row [n.name].zipIdx n.name = 0 := by
    unfold Graph.Rows.row
    rw [List.zipIdx_cons, List.lookup_cons_self]
    rfl
  rw [entities_unlinked (List.cons_ne_nil _ _), List.map_singleton, hnames, hrow]

/-- Nodes of one name are one. -/
theorem length_names_graph :
    (graph nodes edges).names.length = (nodes.map (·.name)).toFinset.card := by
  rw [← List.toFinset_card_of_nodup (proper_graph nodes edges).nodup]
  congr 1
  ext name
  rw [List.mem_toFinset, List.mem_toFinset, mem_names_graph, List.mem_map]

/-- There are no more names than nodes. -/
theorem length_names_graph_le : (graph nodes edges).names.length ≤ nodes.length := by
  have herase := length_eraseDups_le (nodes.map (·.name))
  rwa [List.length_map] at herase

end Cells

end Placement

/-- The grid has no holes. Each node has one entity, in the order of the nodes. Layer zero has the
entities that no edge between nodes leads to; every layer from one up to the last is in use; the
last is at most the number of names, and less if some node has no predecessor. Entities of
different names are in different cells, and in each layer the rows from zero on are in use. -/
theorem grid_without_holes (nodes : List Node) (edges : List (String × String)) (view : View)
    (m : Metrics) :
    let placed := (Placement.ofNodes nodes edges view m).entities
    let names := nodes.map (·.name)
    List.Forall₂ (fun n e => e.name = n.name ∧ e.subject = n.subject ∧
      e.nodeClass = n.nodeClass ∧ e.address = n.address) nodes placed ∧
    (∀ e ∈ placed, 0 ≤ e.layer ∧ 0 ≤ e.row) ∧
    (∀ e ∈ placed, e.layer = 0 ↔ ∀ u ∈ names, (u, e.name) ∉ edges) ∧
    (∀ e ∈ placed, ∀ k, 1 ≤ k → k ≤ e.layer → ∃ a ∈ placed, a.layer = k) ∧
    (∀ e ∈ placed, e.layer ≤ names.toFinset.card) ∧
    ((∃ v ∈ names, ∀ u ∈ names, (u, v) ∉ edges) → ∀ e ∈ placed, e.layer < names.toFinset.card) ∧
    (∀ a ∈ placed, ∀ b ∈ placed, a.name ≠ b.name → a.layer ≠ b.layer ∨ a.row ≠ b.row) ∧
    ∀ e ∈ placed, ∀ i, 0 ≤ i → i ≤ e.row → ∃ a ∈ placed, a.layer = e.layer ∧ a.row = i := by
  let cell : Node → PlacedEntity Int := fun n =>
    n.place m view (Placement.layer nodes edges n.name) (Placement.row nodes edges n.name)
  intro placed names
  have hplaced : placed = nodes.map cell := Placement.entities_ofNodes nodes edges view m
  rw [hplaced]
  refine ⟨?_, ?_, ?_, ?_, ?_, ?_, ?_, ?_⟩
  · rw [List.forall₂_map_right_iff, List.forall₂_same]
    exact fun n _ => ⟨rfl, rfl, rfl, rfl⟩
  · exact List.forall_mem_map.2 fun n _ => ⟨Int.natCast_nonneg _, Int.natCast_nonneg _⟩
  · refine List.forall_mem_map.2 fun n hn => ?_
    refine Int.natCast_eq_zero.trans ((Placement.layer_eq_zero_iff hn).trans ?_)
    exact (List.forall_mem_map (P := fun u => (u, n.name) ∉ edges)).symm
  · refine List.forall_mem_map.2 fun n hn k hk hle => ?_
    lift k to Nat using by omega
    obtain ⟨a, ha, hlayer⟩ := Placement.exists_layer_eq (Int.ofNat_lt.1 hk) (Int.ofNat_le.1 hle)
    exact ⟨cell a, List.mem_map_of_mem ha, congrArg Int.ofNat hlayer⟩
  · refine List.forall_mem_map.2 fun n hn => Int.ofNat_le.2 ?_
    rw [← Placement.length_names_graph]
    exact Graph.layer_le_length (Placement.proper_graph nodes edges) n.name
  · rintro ⟨v, hv, hnone⟩
    obtain ⟨first, hfirst, rfl⟩ := List.mem_map.1 hv
    have hzero : Placement.layer nodes edges first.name = 0 :=
      (Placement.layer_eq_zero_iff hfirst).2 fun k hk => hnone k.name (List.mem_map_of_mem hk)
    refine List.forall_mem_map.2 fun n hn => Int.ofNat_lt.2 ?_
    rw [← Placement.length_names_graph]
    exact Graph.layer_lt_length (Placement.proper_graph nodes edges)
      (Placement.mem_names_graph.2 ⟨first, hfirst, rfl⟩) hzero n.name
  · refine List.forall_mem_map.2 fun n hn => List.forall_mem_map.2 fun k hk hne => ?_
    exact (Placement.cells_ne hn hk hne).imp (fun h heq => h (Int.ofNat.inj heq))
      fun h heq => h (Int.ofNat.inj heq)
  · refine List.forall_mem_map.2 fun n hn i hi hle => ?_
    lift i to Nat using hi
    rcases Nat.lt_or_eq_of_le (Int.ofNat_le.1 hle) with hless | heq
    · obtain ⟨k, hk, hlayer, hrow⟩ := Placement.exists_row_eq hn hless
      exact ⟨cell k, List.mem_map_of_mem hk, congrArg Int.ofNat hlayer, congrArg Int.ofNat hrow⟩
    · exact ⟨cell n, List.mem_map_of_mem hn, rfl, congrArg Int.ofNat heq.symm⟩

end SystemMap
