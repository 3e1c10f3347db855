/-
Which documents can be drawn. Drawing a document breaks off only at a coordinate too large for
a double. With the default measures a coordinate is at most a few hundred times the size of
the document, so every document that could ever be held in a memory is drawn (`draw_returns`).
-/
import SystemMap.Drawing.Storage
import SystemMap.Proofs.Decimal.Whole
import SystemMap.Proofs.Drawing.Cells

namespace SystemMap

namespace Decimal

-- ======================================================== numbers in a double

/-- Rounding adds one at most. -/
theorem roundDiv_le (num den : Nat) : roundDiv num den ≤ num / den + 1 := by
  unfold roundDiv
  dsimp only
  have hparity : num / den % 2 < 2 := Nat.mod_lt _ (by decide)
  split
  · omega
  · split <;> omega

/-- The mantissa that a length asks for has one bit more than the shift between the two. -/
private theorem mantissa_lt (n j k : Nat) :
    n * Nat.pow 2 (j + k) / (1 * Nat.pow 2 (n.log2 + j)) < Nat.pow 2 (k + 1) := by
  have hlength : n < Nat.pow 2 (n.log2 + 1) := Nat.lt_log2_self
  have hpos : 0 < Nat.pow 2 (j + k) := Nat.two_pow_pos _
  refine Nat.div_lt_of_lt_mul ?_
  calc n * Nat.pow 2 (j + k) < Nat.pow 2 (n.log2 + 1) * Nat.pow 2 (j + k) :=
        Nat.mul_lt_mul_of_pos_right hlength hpos
    _ = Nat.pow 2 (n.log2 + 1 + (j + k)) := (Nat.pow_add 2 _ _).symm
    _ = Nat.pow 2 (n.log2 + j + (k + 1)) := by congr 1; omega
    _ = 1 * Nat.pow 2 (n.log2 + j) * Nat.pow 2 (k + 1) := by
        rw [Nat.one_mul]
        exact Nat.pow_add 2 _ _

/-- A whole number of less than 1024 bits can be stored. -/
theorem isStorable_of_lt {n : Int} (h : n.natAbs.log2 < 1023) : isStorable n = true := by
  unfold isStorable nearestBits
  rw [decide_eq_true_eq]
  by_cases hn : n.natAbs = 0
  · rw [if_pos hn]
    decide
  · rw [if_neg hn, exponentOf_one hn]
    refine lt_of_le_of_lt (Nat.min_le_right _ _) ?_
    have hmantissa := mantissa_lt n.natAbs 1022 52
    have hround := roundDiv_le (n.natAbs * Nat.pow 2 (1022 + 52))
      (1 * Nat.pow 2 (n.natAbs.log2 + 1022))
    have hdouble : Nat.pow 2 (52 + 1) = 2 * Nat.pow 2 52 := by decide
    have hexponent : (n.natAbs.log2 + 1022) * Nat.pow 2 52 ≤ 2044 * Nat.pow 2 52 :=
      Nat.mul_le_mul_right _ (by omega)
    have hshift : (1074 : Nat) = 1022 + 52 := rfl
    unfold infinityBits
    rw [hshift]
    have hpos : 0 < Nat.pow 2 52 := by decide
    generalize Nat.pow 2 52 = p at *
    omega

/-- A whole number that a double holds exactly can be stored. -/
theorem isStorable_of_exact {n : Int} (h : n.natAbs ≤ 2 ^ 53) : isStorable n = true :=
  isStorable_of_lt (Nat.lt_of_le_of_lt (log2_le_of_le h) (by decide))

/-- A number that is not much more than `k` has at most nine bits more. -/
theorem isStorable_of_le {n : Int} {k : Nat} (hk : k.log2 < 1000)
    (hn : n.natAbs ≤ 400 * k + 400) : isStorable n = true := by
  have hbits : ∀ bits, k.log2 < bits → n.natAbs.log2 < bits + 9 := by
    intro bits hbits
    have hless : k < 2 ^ bits :=
      Nat.lt_of_lt_of_le Nat.lt_log2_self (Nat.pow_le_pow_right (by decide) hbits)
    by_cases hzero : n.natAbs = 0
    · rw [hzero]
      exact Nat.lt_of_lt_of_le (by decide) (Nat.le_add_left 9 bits)
    · rw [Nat.log2_lt hzero, Nat.pow_add]
      omega
  exact isStorable_of_lt (Nat.lt_trans (hbits 1000 hk) (by decide))

end Decimal

-- ================================================================= one box

/-- No side has more connectors than the fuller one. -/
theorem Node.length_side_le (n : Node) (role : Role) : (n.side role).length ≤ n.perSide := by
  cases role with
  | server => exact Nat.le_max_left ..
  | client => exact Nat.le_max_right ..

/-- A connector stands as many steps down as there are connectors before it on its side. -/
theorem Node.exists_step {n : Node} {start spacing : Int} {c : PlacedConnector Int}
    (hc : c ∈ n.placeConnectors start spacing) :
    ∃ i : Nat, i < n.perSide ∧ c.y = start + i * spacing := by
  have hside : ∀ role, c ∈ n.placeSide start spacing role →
      ∃ i : Nat, i < n.perSide ∧ c.y = start + i * spacing := by
    intro role hc
    obtain ⟨⟨connector, i⟩, hi, rfl⟩ := List.mem_map.1 hc
    have hlt : i < (n.side role).length := List.snd_lt_of_mem_zipIdx hi
    exact ⟨i, Nat.lt_of_lt_of_le hlt (n.length_side_le role), rfl⟩
  rcases List.mem_append.1 hc with hc | hc
  · exact hside .server hc
  · exact hside .client hc

/-- The fuller side has no more connectors than the node. -/
theorem Node.perSide_le (n : Node) : n.perSide ≤ n.connectors.length :=
  Nat.max_le.2 ⟨List.length_filter_le .., List.length_filter_le ..⟩

/-- A box can be stored if its connectors and its sides can. -/
theorem PlacedEntity.unstorable?_eq_none {b : PlacedEntity Int}
    (hconnectors : ∀ c ∈ b.connectors, Decimal.isStorable c.y = true)
    (hsides : ∀ side ∈ b.box.sides, Decimal.isStorable side.2 = true) : b.unstorable? = none := by
  unfold unstorable?
  rw [if_pos (List.all_eq_true.2 hconnectors),
    List.filter_eq_nil_iff.2 fun side hside => by simp [hsides side hside]]
  rfl

/-- A box with the default measures can be stored where its cell and its connectors are not
too many. -/
theorem unstorable?_place {n : Node} {view : View} {layer row k : Nat} (hk : k.log2 < 1000)
    (hlayer : layer ≤ k) (hrow : row ≤ k) (hn : n.connectors.length ≤ k) :
    (n.place {} view layer row).unstorable? = none := by
  have hstart : 0 ≤ ({} : Metrics).contentStart view ∧ ({} : Metrics).contentStart view ≤ 55 := by
    cases view <;> decide
  have hperSide := n.perSide_le
  have hconnectors : ∀ c ∈ (n.place {} view layer row).connectors,
      Decimal.isStorable c.y = true := by
    intro c hc
    obtain ⟨i, hi, hy⟩ := Node.exists_step hc
    refine Decimal.isStorable_of_le hk ?_
    dsimp only at hy
    omega
  have hsides : ∀ side ∈ (n.place {} view layer row).box.sides,
      Decimal.isStorable side.2 = true := by
    intro side hside
    refine Decimal.isStorable_of_le hk ?_
    simp only [Box.sides, Node.place, Node.height, Metrics.columnSpacing, Metrics.rowSpacing,
      List.mem_cons, List.not_mem_nil, or_false] at hside
    rcases hside with rfl | rfl | rfl | rfl <;> dsimp only <;> omega
  exact PlacedEntity.unstorable?_eq_none hconnectors hsides

-- ============================================================ all boxes of a view

/-- Boxes on the grid of their names can be stored. -/
theorem unstorable?_ofNodes {nodes : List Node} {edges : List (String × String)} {view : View}
    {k : Nat} (hk : k.log2 < 1000) (hlength : nodes.length ≤ k)
    (hnodes : ∀ n ∈ nodes, n.connectors.length ≤ k) :
    ∀ e ∈ (Placement.ofNodes nodes edges view {}).entities, e.unstorable? = none := by
  intro e he
  obtain ⟨n, hn, rfl⟩ := List.mem_map.1 he
  have hgrid : (Placement.graph nodes edges).names.length ≤ k :=
    Nat.le_trans Placement.length_names_graph_le hlength
  refine unstorable?_place hk ?_ ?_ (hnodes n hn)
  · exact Nat.le_trans (Graph.layer_le_length (Placement.proper_graph ..) _) hgrid
  · exact Nat.le_trans (Graph.row_le_length ..) hgrid

namespace Document

/-- The number of things that a document makes boxes and connectors of. -/
def size (d : Document) : Nat :=
  d.nodeClasses.length + d.deployed.length + d.translations.length +
    (d.nodeClasses.map (·.connectors.length)).sum

variable {d : Document}

/-- A class has no more connectors than its document is large. -/
theorem length_connectors_le_size {c : NodeClass} (hc : c ∈ d.nodeClasses) :
    c.connectors.length ≤ d.size := by
  obtain ⟨before, after, hsplit⟩ := List.append_of_mem hc
  have hsum : (d.nodeClasses.map (·.connectors.length)).sum =
      (before.map (·.connectors.length)).sum +
        (c.connectors.length + (after.map (·.connectors.length)).sum) := by
    rw [hsplit, List.map_append, List.sum_append, List.map_cons, List.sum_cons]
  unfold size
  omega

/-- Nor does an instance have more. -/
theorem length_connectorsOf_le_size (name : String) : (d.connectorsOf name).length ≤ d.size := by
  unfold connectorsOf
  split
  · next c hfind => exact length_connectors_le_size (List.mem_of_find?_eq_some hfind)
  · exact Nat.zero_le _

/-- No coordinate of a document of usual size is too large, by the usual measures. -/
theorem unstorable?_place_view (hsize : d.size.log2 < 1000) (view : View) :
    ∀ e ∈ (d.place {} view).entities, e.unstorable? = none := by
  cases view with
  | schema =>
      refine unstorable?_ofNodes hsize ?_ fun n hn => ?_
      · unfold schemaNodes size
        rw [List.length_map]
        omega
      · obtain ⟨c, hc, rfl⟩ := List.mem_map.1 hn
        exact length_connectors_le_size hc
  | instances =>
      refine unstorable?_ofNodes hsize ?_ fun n hn => ?_
      · unfold instanceNodes translationNodes size
        rw [List.length_append, List.length_map, List.length_map]
        omega
      · rcases List.mem_append.1 hn with hn | hn
        · obtain ⟨e, -, rfl⟩ := List.mem_map.1 hn
          exact length_connectorsOf_le_size _
        · obtain ⟨t, -, rfl⟩ := List.mem_map.1 hn
          exact Nat.zero_le _

/-- A document is drawn with the default measures unless its size has a thousand bits. -/
theorem draw_returns (hsize : d.size.log2 < 1000) (view : View) :
    d.draw {} view = .ok (d.drawWith Decimal.nearestInt {} view) := by
  have hboxes : (d.place {} view).entities.findSome? (·.unstorable?) = none :=
    List.findSome?_eq_none_iff.2 (unstorable?_place_view hsize view)
  have hradius : Decimal.isStorable ({} : Metrics).connectorRadius = true :=
    Decimal.isStorable_of_le hsize (show 6 ≤ 400 * d.size + 400 by omega)
  unfold draw unstorable?
  rw [hboxes, hradius]
  rfl

end Document

end SystemMap
