/-
Which boxes are apart. The grid gives each name a cell of its own, and columns are wider apart
than boxes are wide; but rows are at a fixed distance, whereas a box grows with the connectors
on its fuller side. So two boxes touch only in one column, and there exactly if the upper one
is at least as high as the rows between the two allow. Since no row above a box is empty, it
is enough that every box with another one below it ends before the next row.
-/
import SystemMap.Drawing.Placement
import SystemMap.Proofs.Drawing.Cells
import SystemMap.Proofs.Settings.Measures

namespace SystemMap

-- =============================================================== rectangles

/-- A point lies in a box or on its border. -/
def Box.Contains (b : Box Int) (p : Point Int) : Prop :=
  b.x ≤ p.x ∧ p.x ≤ b.right ∧ b.y ≤ p.y ∧ p.y ≤ b.bottom

/-- Two boxes have no point in common. -/
def Box.Disjoint (a b : Box Int) : Prop := ∀ p, ¬ (a.Contains p ∧ b.Contains p)

theorem Box.Disjoint.symm {a b : Box Int} (h : a.Disjoint b) : b.Disjoint a :=
  fun p hp => h p hp.symm

/-- Boxes that are not empty are disjoint if one ends before the other in some direction. -/
theorem Box.disjoint_iff {a b : Box Int} (ha : 0 ≤ a.width ∧ 0 ≤ a.height)
    (hb : 0 ≤ b.width ∧ 0 ≤ b.height) : a.Disjoint b ↔
      (a.right < b.x ∨ b.right < a.x) ∨ (a.bottom < b.y ∨ b.bottom < a.y) := by
  unfold Disjoint Contains right bottom
  constructor
  · intro h
    -- the corner that both would share
    have hcorner := h ⟨max a.x b.x, max a.y b.y⟩
    dsimp only at hcorner
    omega
  · intro h p hp
    omega

-- ================================================================ the grid

/-- A box is so high that it reaches another one, further down in its layer. -/
def PlacedEntity.Reaches (m : Metrics) (a b : PlacedEntity Int) : Prop :=
  a.layer = b.layer ∧ a.row < b.row ∧ (b.row - a.row) * m.rowSpacing ≤ a.box.height

/-- What starts in one line of a grid and is smaller than the distance of lines ends before
any later line. -/
theorem lt_of_line_lt {i j : Nat} (h : i < j) (start : Int) {size distance : Int}
    (hsize : size < distance) (hpos : 0 < size) :
    start + i * distance + size < start + j * distance := by
  have hstep := add_distance_le h (show 0 ≤ distance by omega)
  omega

section Cells

variable {m : Metrics} {view : View} {a b : Node}

/-- Columns are further apart than boxes are wide. -/
theorem Metrics.Configured.nodeWidth_lt (hm : m.Configured) : m.nodeWidth < m.columnSpacing := by
  have hpadding := hm.padding
  unfold columnSpacing
  omega

/-- Rows are further apart than boxes are high at least. -/
theorem Metrics.Configured.nodeHeight_lt (hm : m.Configured) : m.nodeHeight < m.rowSpacing := by
  have hpadding := hm.padding
  unfold rowSpacing
  omega

/-- Rows go downwards. -/
theorem Metrics.Configured.rowSpacing_nonneg (hm : m.Configured) : 0 ≤ m.rowSpacing :=
  Int.le_of_lt (Int.lt_trans hm.nodeHeight hm.nodeHeight_lt)

/-- No box is lower than boxes are at least. -/
theorem Node.nodeHeight_le_height (n : Node) (m : Metrics) (start : Int) :
    m.nodeHeight ≤ n.height m start := by
  unfold height
  omega

/-- A box ends before any later column begins. -/
theorem right_lt_of_layer_lt (hm : m.Configured) (a b : Node) (view : View) {i j : Nat}
    (h : i < j) (row row' : Nat) :
    (a.place m view i row).box.right < (b.place m view j row').box.x :=
  lt_of_line_lt h m.padding hm.nodeWidth_lt hm.nodeWidth

/-- Boxes of different columns are apart. -/
theorem disjoint_of_layer_lt (hm : m.Configured) {i j : Nat} (h : i < j) (row row' : Nat) :
    (a.place m view i row).box.Disjoint (b.place m view j row').box := by
  have hright : (a.place m view i row).box.right < (b.place m view j row').box.x :=
    right_lt_of_layer_lt hm a b view h row row'
  intro p hp
  unfold Box.Contains at hp
  omega

/-- In one column a box is apart from a lower one exactly if it does not reach it. -/
theorem disjoint_iff_of_row_lt (hm : m.Configured) (layer : Nat) {i j : Nat} (h : i < j) :
    (a.place m view layer i).box.Disjoint (b.place m view layer j).box ↔
      ¬ (a.place m view layer i).Reaches m (b.place m view layer j) := by
  have hwidth := hm.nodeWidth
  have hheight := hm.nodeHeight
  have ha := a.nodeHeight_le_height m (m.contentStart view)
  have hb := b.nodeHeight_le_height m (m.contentStart view)
  have hrows : (i : Int) * m.rowSpacing ≤ j * m.rowSpacing :=
    Int.mul_le_mul_of_nonneg_right (by omega) hm.rowSpacing_nonneg
  rw [Box.disjoint_iff]
  · unfold PlacedEntity.Reaches Box.right Box.bottom Node.place
    dsimp only
    rw [Int.sub_mul]
    omega
  · exact ⟨by unfold Node.place; dsimp only; omega, by unfold Node.place; dsimp only; omega⟩
  · exact ⟨by unfold Node.place; dsimp only; omega, by unfold Node.place; dsimp only; omega⟩

/-- What is in another layer or further up is not reached. -/
theorem not_reaches_of_layer_ne {i j : Nat} (h : i ≠ j) (row row' : Nat) :
    ¬ (a.place m view i row).Reaches m (b.place m view j row') := by
  rintro ⟨hlayer, -⟩
  exact h (Int.ofNat.inj hlayer)

/-- A box reaches no box that is not below it. -/
theorem not_reaches_of_row_le {i j : Nat} (h : j ≤ i) (layer layer' : Nat) :
    ¬ (a.place m view layer i).Reaches m (b.place m view layer' j) := by
  rintro ⟨-, hrow, -⟩
  exact absurd (Int.ofNat_lt.1 hrow) (Nat.not_lt.2 h)

/-- A box that is as high as a row reaches the next one. -/
theorem reaches_next {layer row : Nat} (b : Node)
    (h : ¬ (a.place m view layer row).box.height < m.rowSpacing) :
    (a.place m view layer row).Reaches m (b.place m view layer (row + 1)) := by
  have hdistance : (((row + 1 : Nat) : Int) - row) = 1 := by omega
  refine ⟨rfl, Int.ofNat_lt.2 (Nat.lt_succ_self row), ?_⟩
  show (((row + 1 : Nat) : Int) - row) * m.rowSpacing ≤ _
  rw [hdistance, Int.one_mul]
  exact Int.not_lt.1 h

/-- A box that ends before the next row reaches no other. -/
theorem PlacedEntity.not_reaches_of_height_lt (hm : m.Configured) {a b : PlacedEntity Int}
    (h : a.box.height < m.rowSpacing) : ¬ a.Reaches m b := by
  rintro ⟨-, hrow, hhigh⟩
  have hspacing := hm.rowSpacing_nonneg
  have hone : 1 * m.rowSpacing ≤ (b.row - a.row) * m.rowSpacing :=
    Int.mul_le_mul_of_nonneg_right (by omega) hspacing
  omega

/-- Boxes of two cells are apart exactly if neither reaches the other. -/
theorem disjoint_iff_not_reaches (hm : m.Configured) {layer layer' row row' : Nat}
    (h : layer ≠ layer' ∨ row ≠ row') :
    (a.place m view layer row).box.Disjoint (b.place m view layer' row').box ↔
      ¬ (a.place m view layer row).Reaches m (b.place m view layer' row') ∧
      ¬ (b.place m view layer' row').Reaches m (a.place m view layer row) := by
  by_cases hlayer : layer = layer'
  · subst hlayer
    have hrow : row ≠ row' := h.resolve_left (fun hne => hne rfl)
    rcases Nat.lt_or_gt_of_ne hrow with hlt | hlt
    · rw [disjoint_iff_of_row_lt hm layer hlt,
        and_iff_left (not_reaches_of_row_le (Nat.le_of_lt hlt) layer layer)]
    · have hcomm : (b.place m view layer row').box.Disjoint (a.place m view layer row).box ↔ _ :=
        disjoint_iff_of_row_lt hm layer hlt
      rw [and_iff_right (not_reaches_of_row_le (Nat.le_of_lt hlt) layer layer), ← hcomm]
      exact ⟨Box.Disjoint.symm, Box.Disjoint.symm⟩
  · refine iff_of_true ?_ ⟨not_reaches_of_layer_ne hlayer row row',
      not_reaches_of_layer_ne (Ne.symm hlayer) row' row⟩
    rcases Nat.lt_or_gt_of_ne hlayer with hlt | hlt
    · exact disjoint_of_layer_lt hm hlt row row'
    · exact (disjoint_of_layer_lt hm hlt row' row).symm

end Cells

-- ============================================================= a placement

section Placed

variable {nodes : List Node} {edges : List (String × String)} {view : View} {m : Metrics}

/-- Where a cell has another one below it, the next cell is in use. -/
theorem Placement.exists_next {n k : Node} (hk : k ∈ nodes)
    (hlayer : layer nodes edges k.name = layer nodes edges n.name)
    (hrow : row nodes edges n.name < row nodes edges k.name) :
    ∃ next ∈ nodes, layer nodes edges next.name = layer nodes edges n.name ∧
      row nodes edges next.name = row nodes edges n.name + 1 := by
  rcases Nat.lt_or_eq_of_le (Nat.succ_le_of_lt hrow) with hlt | heq
  · obtain ⟨next, hnext, hsame, hone⟩ := exists_row_eq hk hlt
    exact ⟨next, hnext, hsame.trans hlayer, hone⟩
  · exact ⟨k, hk, hlayer, heq.symm⟩

/-- Boxes of different names are apart exactly if neither reaches the other, and all are apart
exactly if every box with another one below it in its layer ends before the next row. -/
theorem disjoint_iff_rows_suffice (hm : m.Configured) :
    let placed := (Placement.ofNodes nodes edges view m).entities
    List.Forall₂ (fun n b => b.name = n.name ∧ b.box.height = n.height m (m.contentStart view))
      nodes placed ∧
    (∀ a ∈ placed, ∀ b ∈ placed, a.name ≠ b.name →
      (a.box.Disjoint b.box ↔ ¬ a.Reaches m b ∧ ¬ b.Reaches m a)) ∧
    ((∀ a ∈ placed, ∀ b ∈ placed, a.name ≠ b.name → a.box.Disjoint b.box) ↔
      ∀ a ∈ placed, (∃ b ∈ placed, b.layer = a.layer ∧ a.row < b.row) →
        a.box.height < m.rowSpacing) := by
  let box : Node → PlacedEntity Int := fun n =>
    n.place m view (Placement.layer nodes edges n.name) (Placement.row nodes edges n.name)
  have hpair : ∀ n ∈ nodes, ∀ k ∈ nodes, n.name ≠ k.name →
      ((box n).box.Disjoint (box k).box ↔
        ¬ (box n).Reaches m (box k) ∧ ¬ (box k).Reaches m (box n)) := by
    intro n hn k hk hne
    exact disjoint_iff_not_reaches hm (Placement.cells_ne hn hk hne)
  dsimp only
  rw [Placement.entities_ofNodes]
  refine ⟨?_, List.forall_mem_map.2 fun n hn => List.forall_mem_map.2 (hpair n hn), ?_, ?_⟩
  · rw [List.forall₂_map_right_iff, List.forall₂_same]
    exact fun n _ => ⟨rfl, rfl⟩
  · intro hall a ha hbelow
    obtain ⟨n, hn, rfl⟩ := List.mem_map.1 ha
    obtain ⟨b, hb, hlayer, hrow⟩ := hbelow
    obtain ⟨k, hk, rfl⟩ := List.mem_map.1 hb
    -- a box that is too high reaches the one in the very next row
    obtain ⟨low, hlow, hsame, hone⟩ :=
      Placement.exists_next hk (Int.ofNat.inj hlayer) (Int.ofNat_lt.1 hrow)
    have hne : n.name ≠ low.name := by
      intro heq
      rw [← heq] at hone
      omega
    by_contra hhigh
    have hreach : (box n).Reaches m (box low) := by
      show (n.place m view _ _).Reaches m (low.place m view _ _)
      rw [hsame, hone]
      exact reaches_next low hhigh
    exact ((hpair n hn low hlow hne).1 (hall _ ha _ (List.mem_map_of_mem hlow) hne)).1 hreach
  · intro hlow a ha b hb hne
    have hnot : ∀ a ∈ nodes.map box, ∀ b ∈ nodes.map box, ¬ a.Reaches m b := by
      intro a ha b hb hreach
      exact PlacedEntity.not_reaches_of_height_lt hm
        (hlow a ha ⟨b, hb, hreach.1.symm, hreach.2.1⟩) hreach
    obtain ⟨n, hn, rfl⟩ := List.mem_map.1 ha
    obtain ⟨k, hk, rfl⟩ := List.mem_map.1 hb
    exact (hpair n hn k hk hne).2 ⟨hnot _ ha _ hb, hnot _ hb _ ha⟩

end Placed

/-- A node with some servers, and one without connectors, that no edge joins. -/
def twoNodes (servers : List String) : List Node :=
  [⟨"A", .nodeClass, servers.map (⟨·, .server, [], none⟩), none, none⟩,
    ⟨"B", .nodeClass, [], none, none⟩]

/-- Five servers fit above the next row, -/
theorem five_servers_fit : Metrics.Configured {} ∧
    ∀ a ∈ (Placement.ofNodes (twoNodes ["a", "b", "c", "d", "e"]) [] .schema {}).entities,
      ∀ b ∈ (Placement.ofNodes (twoNodes ["a", "b", "c", "d", "e"]) [] .schema {}).entities,
        a.name ≠ b.name → a.box.Disjoint b.box := by
  refine ⟨Metrics.configured_usual, ?_⟩
  apply (disjoint_iff_rows_suffice Metrics.configured_usual).2.2.2
  have hlow : ∀ a ∈ (Placement.ofNodes (twoNodes ["a", "b", "c", "d", "e"]) [] .schema {}).entities,
      a.box.height < ({} : Metrics).rowSpacing := by decide +kernel
  exact fun a ha _ => hlow a ha

/-- but six do not. -/
theorem six_servers_overlap : ¬ ∀ nodes edges view m, Metrics.Configured m →
    (nodes.map (·.name)).Nodup →
    ∀ a ∈ (Placement.ofNodes nodes edges view m).entities,
      ∀ b ∈ (Placement.ofNodes nodes edges view m).entities,
        a.name ≠ b.name → a.box.Disjoint b.box := by
  intro h
  let nodes := twoNodes ["a", "b", "c", "d", "e", "f"]
  have hdisjoint := h nodes [] .schema {} Metrics.configured_usual (by decide)
  have hnames : Graph.sortNames (Placement.graph nodes []).names = ["A", "B"] :=
    List.mergeSort_of_pairwise (by decide)
  have hboxes : (Placement.ofNodes nodes [] .schema {}).entities.map (fun a => (a.name, a.box))
      = [("A", ⟨40, 40, 200, 199⟩), ("B", ⟨40, 220, 200, 100⟩)] := by
    rw [Placement.entities_unlinked (show nodes ≠ [] from List.cons_ne_nil _ _), hnames]
    rfl
  have hmem : ∀ shown ∈ [("A", (⟨40, 40, 200, 199⟩ : Box Int)), ("B", ⟨40, 220, 200, 100⟩)],
      ∃ a ∈ (Placement.ofNodes nodes [] .schema {}).entities, (a.name, a.box) = shown := by
    intro shown hshown
    rw [← hboxes] at hshown
    exact List.mem_map.1 hshown
  obtain ⟨a, ha, haeq⟩ := hmem _ List.mem_cons_self
  obtain ⟨b, hb, hbeq⟩ := hmem _ (List.mem_cons_of_mem _ List.mem_cons_self)
  obtain ⟨haname, habox⟩ := Prod.mk.inj haeq
  obtain ⟨hbname, hbbox⟩ := Prod.mk.inj hbeq
  -- the box of B starts within the box of A
  apply hdisjoint a ha b hb (by simp [haname, hbname]) ⟨40, 220⟩
  rw [habox, hbbox]
  unfold Box.Contains
  decide

end SystemMap
