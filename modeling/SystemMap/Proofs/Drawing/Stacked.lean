/-
Connectors are inside their boxes. A placement sorts the connectors of a node by role and
numbers each side from zero, and it takes the height of the box from the length of the fuller
side, so what it has counted there must be what it places. Each side is a stack from the place
where the view starts its connectors, a spacing apart, and the box is as high as the lower stack
needs, or as high as boxes are at least (`Stacks`).

That is so in exact numbers for all measures, and in doubles for boxes up to `2^53`. Above that a
double is not exact, and neither is the distance of connectors.
-/
import SystemMap.Proofs.Decimal.Whole
import SystemMap.Proofs.Drawing.Complete
import SystemMap.Proofs.Drawing.Stored
import SystemMap.Proofs.Settings.Measures

namespace SystemMap

open Decimal (nearestInt whole?)

/-- The connectors on one side of a box, from top to bottom. -/
def PlacedEntity.ofRole {α : Type} (b : PlacedEntity α) (role : Role) :
    List (PlacedConnector α) := b.connectors.filter (·.role = role)

namespace Node

variable (n : Node) (start spacing : Int)

/-- Each side of a box is stacked by itself. -/
theorem filter_placeConnectors (role : Role) :
    (n.placeConnectors start spacing).filter (·.role = role) = n.placeSide start spacing role := by
  have hrole : ∀ r, ∀ c ∈ n.placeSide start spacing r, c.role = r := by
    intro r c hc
    obtain ⟨-, -, rfl⟩ := List.mem_map.1 hc
    rfl
  have hown : (n.placeSide start spacing role).filter (·.role = role)
      = n.placeSide start spacing role :=
    List.filter_eq_self.2 fun c hc => decide_eq_true (hrole role c hc)
  have hother : ∀ r, r ≠ role → (n.placeSide start spacing r).filter (·.role = role) = [] :=
    fun r hr => List.filter_eq_nil_iff.2 fun c hc h =>
      hr ((hrole r c hc).symm.trans (of_decide_eq_true h))
  unfold placeConnectors
  rw [List.filter_append]
  cases role with
  | server => rw [hown, hother .client (by decide), List.append_nil]
  | client => rw [hown, hother .server (by decide), List.nil_append]

/-- A connector of one side stands as many steps down as there are others of it above. -/
theorem getElem?_placeSide (role : Role) (i : Nat) :
    (n.placeSide start spacing role)[i]? =
      ((n.side role)[i]?).map fun c => ⟨c.name, role, start + i * spacing⟩ := by
  unfold placeSide
  rw [List.getElem?_map, List.getElem?_zipIdx, Option.map_map]
  cases (n.side role)[i]? with
  | none => rfl
  | some c => simp

variable {n start spacing}

/-- Each connector is a spacing below the one before. -/
theorem y_of_getElem?_placeSide {role : Role} {i : Nat} {c : PlacedConnector Int}
    (h : (n.placeSide start spacing role)[i]? = some c) : c.y = start + i * spacing := by
  rw [getElem?_placeSide] at h
  obtain ⟨k, -, rfl⟩ := Option.map_eq_some_iff.1 h
  rfl

variable (n start spacing) in
/-- The fuller side has a connector at its lowest place. -/
theorem exists_lowest (h : 0 < n.perSide) :
    ∃ c ∈ n.placeConnectors start spacing, c.y = start + (n.perSide - 1 : Nat) * spacing := by
  have hside : ∃ role, (n.side role).length = n.perSide := by
    unfold perSide
    rcases Nat.le_total (n.side .server).length (n.side .client).length with hle | hle
    · exact ⟨.client, (Nat.max_eq_right hle).symm⟩
    · exact ⟨.server, (Nat.max_eq_left hle).symm⟩
  obtain ⟨role, hlength⟩ := hside
  have hlast : n.perSide - 1 < (n.side role).length := by omega
  refine ⟨⟨(n.side role)[n.perSide - 1].name, role, _⟩, ?_, rfl⟩
  have hplaced : (n.placeSide start spacing role)[n.perSide - 1]? =
      some ⟨(n.side role)[n.perSide - 1].name, role, start + (n.perSide - 1 : Nat) * spacing⟩ := by
    rw [getElem?_placeSide, List.getElem?_eq_getElem hlast]
    rfl
  rw [← filter_placeConnectors] at hplaced
  exact (List.mem_filter.1 (List.mem_of_getElem? hplaced)).1

/-- The connectors of one side stand one below the other. -/
theorem pairwise_placeSide (hspacing : 0 < spacing) (role : Role) :
    (n.placeSide start spacing role).Pairwise fun c c' => c.y < c'.y := by
  rw [List.pairwise_iff_getElem]
  intro i j hi hj hij
  have hfirst := y_of_getElem?_placeSide (List.getElem?_eq_getElem hi)
  have hsecond := y_of_getElem?_placeSide (List.getElem?_eq_getElem hj)
  have hstep := add_distance_le hij (Int.le_of_lt hspacing)
  omega

/-- A box is as high as boxes are at least and its connectors need, and no higher. -/
theorem isLeast_height {m : Metrics} (hspacing : 0 < m.connectorSpacing) :
    IsLeast {h | m.nodeHeight ≤ h ∧ start + m.contentBottomMargin ≤ h ∧
      ∀ c ∈ n.placeConnectors start m.connectorSpacing,
        c.y + m.connectorSpacing + m.contentBottomMargin ≤ h} (n.height m start) := by
  have hheight : n.height m start =
      max m.nodeHeight (start + n.perSide * m.connectorSpacing + m.contentBottomMargin) := rfl
  refine ⟨⟨?_, ?_, fun c hc => ?_⟩, ?_⟩
  · exact Int.le_max_left ..
  · have hnonneg : 0 ≤ (n.perSide : Int) * m.connectorSpacing :=
      Int.mul_nonneg (Int.natCast_nonneg _) (Int.le_of_lt hspacing)
    omega
  · obtain ⟨i, hlt, hy⟩ := exists_step hc
    have hstep := add_distance_le hlt (Int.le_of_lt hspacing)
    omega
  · rintro h ⟨hlow, hmargin, hroom⟩
    rw [hheight]
    refine Int.max_le.2 ⟨hlow, ?_⟩
    -- without connectors there is only the margin, else the lowest one is the last of a side
    cases hcount : n.perSide with
    | zero => omega
    | succ k =>
        obtain ⟨c, hc, hy⟩ := n.exists_lowest start m.connectorSpacing (by omega)
        have hle := hroom c hc
        rw [hcount, Nat.add_sub_cancel] at hy
        rw [Int.natCast_succ, Int.add_mul, Int.one_mul]
        omega

end Node

section Stacks

variable {α : Type}

/-- The connectors of a box are stacked on its sides, each side by itself: from `start` down, a
spacing apart. The height of the box is the least one that leaves a spacing and the margin below
each of them, that leaves the margin below `start`, and that boxes have at least. What the
coordinates are as whole numbers is told by `value`. -/
structure PlacedEntity.Stacks (value : α → Option Int) (m : Metrics) (start : Int)
    (b : PlacedEntity α) : Prop where
  spaced : ∀ role (i : Nat) (c : PlacedConnector α), (b.ofRole role)[i]? = some c →
    value c.y = some (start + i * m.connectorSpacing)
  apart : ∀ role, (b.ofRole role).Pairwise fun c c' => value c.y ≠ value c'.y
  below : ∀ c ∈ b.connectors, ∃ y, value c.y = some y ∧ start ≤ y
  least : ∃ height, value b.box.height = some height ∧
    IsLeast {h | m.nodeHeight ≤ h ∧ start + m.contentBottomMargin ≤ h ∧
      ∀ c ∈ b.connectors, ∀ y, value c.y = some y →
        y + m.connectorSpacing + m.contentBottomMargin ≤ h} height

/-- Rounding coordinates changes no roles. -/
theorem PlacedEntity.ofRole_map (store : Int → α) (b : PlacedEntity Int) (role : Role) :
    (b.map store).ofRole role = (b.ofRole role).map (·.map store) := List.filter_map ..

/-- Boxes are stacked in other coordinates too, if these have the same values. -/
theorem PlacedEntity.Stacks.map {value : α → Option Int} {store : Int → α} {m : Metrics}
    {start : Int} {b : PlacedEntity Int} (h : b.Stacks some m start)
    (hconnectors : ∀ c ∈ b.connectors, value (store c.y) = some c.y)
    (hheight : value (store b.box.height) = some b.box.height) :
    (b.map store).Stacks value m start := by
  have hvalue : ∀ role, ∀ c ∈ b.ofRole role, value (store c.y) = some c.y :=
    fun role c hc => hconnectors c (List.mem_filter.1 hc).1
  constructor
  · intro role i c hc
    rw [ofRole_map, List.getElem?_map] at hc
    obtain ⟨k, hk, rfl⟩ := Option.map_eq_some_iff.1 hc
    exact (hvalue role k (List.mem_of_getElem? hk)).trans (h.spaced role i k hk)
  · intro role
    rw [ofRole_map, List.pairwise_map]
    refine (h.apart role).imp_of_mem fun {c c'} hc hc' hne => ?_
    show value (store c.y) ≠ value (store c'.y)
    rw [hvalue role c hc, hvalue role c' hc']
    exact hne
  · refine List.forall_mem_map.2 fun c hc => ?_
    obtain ⟨y, hy, hle⟩ := h.below c hc
    exact ⟨y, (hconnectors c hc).trans hy, hle⟩
  · obtain ⟨height, heq, ⟨hlow, hmargin, hroom⟩, hleast⟩ := h.least
    cases heq
    refine ⟨b.box.height, hheight, ⟨hlow, hmargin, ?_⟩, ?_⟩
    · refine List.forall_mem_map.2 fun c hc y hy => hroom c hc y ?_
      exact (hconnectors c hc).symm.trans hy
    · rintro h ⟨hlow, hmargin, hroom⟩
      refine hleast ⟨hlow, hmargin, fun c hc y hy => ?_⟩
      exact hroom _ (List.mem_map_of_mem hc) y ((hconnectors c hc).trans hy)

end Stacks

/-- A placement places each side by itself. -/
theorem Node.ofRole_place (n : Node) (m : Metrics) (view : View) (layer row : Nat) (role : Role) :
    (n.place m view layer row).ofRole role
      = n.placeSide (m.contentStart view) m.connectorSpacing role :=
  n.filter_placeConnectors ..

/-- A placed box is stacked, in exact numbers. -/
theorem Node.stacks_place {m : Metrics} (hspacing : 0 < m.connectorSpacing) (n : Node) (view : View)
    (layer row : Nat) : (n.place m view layer row).Stacks some m (m.contentStart view) := by
  constructor
  · intro role i c hc
    rw [n.ofRole_place] at hc
    exact congrArg some (y_of_getElem?_placeSide hc)
  · intro role
    rw [n.ofRole_place]
    exact (pairwise_placeSide hspacing role).imp fun hlt heq => hlt.ne (Option.some.inj heq)
  · intro c hc
    obtain ⟨i, -, hy⟩ := exists_step hc
    have hnonneg : 0 ≤ (i : Int) * m.connectorSpacing :=
      Int.mul_nonneg (Int.natCast_nonneg i) (Int.le_of_lt hspacing)
    exact ⟨c.y, rfl, by omega⟩
  · refine ⟨_, rfl, ?_⟩
    simp only [Option.some.injEq, forall_eq']
    exact isLeast_height hspacing

-- ================================================================= in doubles

namespace PlacedEntity

variable {b : PlacedEntity Int} {s : PlacedEntity Float}

/-- Rounding coordinates changes no connectors. -/
theorem carries_map {α : Type} {store : Int → α} {connectors : List Connector} :
    (b.map store).Carries connectors ↔ b.Carries connectors := by
  unfold Carries PlacedEntity.map
  dsimp only
  rw [List.map_map]
  rfl

/-- What is stored has each coordinate rounded. -/
theorem eq_map_of_store (h : b.store = .ok s) : s = b.map nearestInt := by
  unfold store at h
  split at h
  · cases h
  · exact (Except.ok.inj h).symm

/-- A box is stored if its numbers and those of its connectors can be. -/
theorem store_eq_ok (hconnectors : ∀ c ∈ b.connectors, Decimal.isStorable c.y = true)
    (hsides : ∀ side ∈ b.box.sides, Decimal.isStorable side.2 = true) :
    b.store = .ok (b.map nearestInt) := by
  unfold store
  rw [unstorable?_eq_none hconnectors hsides]

/-- The connectors of a stacked box are above its bottom. -/
theorem Stacks.le_height {m : Metrics} {start : Int} (h : b.Stacks some m start)
    (hspacing : 0 ≤ m.connectorSpacing) (hmargin : 0 ≤ m.contentBottomMargin) (hstart : 0 ≤ start) :
    0 ≤ b.box.height ∧ ∀ c ∈ b.connectors, 0 ≤ c.y ∧ c.y ≤ b.box.height := by
  obtain ⟨height, heq, ⟨-, hempty, hroom⟩, -⟩ := h.least
  cases heq
  refine ⟨by omega, fun c hc => ?_⟩
  obtain ⟨y, hy, hbelow⟩ := h.below c hc
  cases hy
  have hle := hroom c hc c.y rfl
  omega

end PlacedEntity

/-- Margins are not below zero. -/
theorem Metrics.Configured.margins {m : Metrics} (hm : m.Configured) (view : View) :
    0 ≤ m.contentBottomMargin ∧ 0 ≤ m.contentStart view := by
  rw [hm.usual]
  refine ⟨show (0 : Int) ≤ 15 by decide, ?_⟩
  cases view with
  | schema => exact show (0 : Int) ≤ 40 by decide
  | instances => exact show (0 : Int) ≤ 55 by decide

/-- Connectors are stacked inside their boxes. Whatever the measures that settings can make, each
node has a box, in order, with its servers and then its clients; in exact numbers both sides are
stacked in it. What is stored of a box keeps the connectors, and is stacked as well if the box is
not higher than `2^53`; and a box with no number above `2^53` can be stored. -/
theorem connectors_stacked {m : Metrics} (hm : m.Configured) (nodes : List Node)
    (edges : List (String × String)) (view : View) :
    List.Forall₂ (fun n b => b.Carries n.connectors ∧ b.Stacks some m (m.contentStart view) ∧
      (∀ s, b.store = .ok s → s.Carries n.connectors ∧
        (b.box.height ≤ 2 ^ 53 → s.Stacks whole? m (m.contentStart view))) ∧
      ((∀ side ∈ b.box.sides, side.2.natAbs ≤ 2 ^ 53) → ∃ s, b.store = .ok s))
    nodes (Placement.ofNodes nodes edges view m).entities := by
  rw [Placement.entities_ofNodes, List.forall₂_map_right_iff, List.forall₂_same]
  intro n _
  have hstands := fun {α : Type} (store : Int → α) => n.stands_place m view
    (Placement.layer nodes edges n.name) (Placement.row nodes edges n.name) store
  have hstacks := n.stacks_place hm.connectorSpacing view
    (Placement.layer nodes edges n.name) (Placement.row nodes edges n.name)
  generalize n.place m view _ _ = b at hstands hstacks
  obtain ⟨hmargin, hstart⟩ := hm.margins view
  obtain ⟨hheight, hinside⟩ := hstacks.le_height (Int.le_of_lt hm.connectorSpacing) hmargin hstart
  have hexact : b.box.height ≤ 2 ^ 53 → ∀ c ∈ b.connectors, c.y.natAbs ≤ 2 ^ 53 := by
    intro hsmall c hc
    have hplace := hinside c hc
    omega
  refine ⟨?_, hstacks, fun s hs => ?_, fun hsides => ?_⟩
  · exact PlacedEntity.carries_map.1 (hstands nearestInt).carries
  · rw [PlacedEntity.eq_map_of_store hs]
    refine ⟨(hstands nearestInt).carries, fun hsmall => hstacks.map (fun c hc => ?_) ?_⟩
    · exact Decimal.whole?_nearestInt (hexact hsmall c hc)
    · exact Decimal.whole?_nearestInt (by omega)
  · have hsmall : b.box.height.natAbs ≤ 2 ^ 53 := hsides ("height", _) (by simp [Box.sides])
    refine ⟨_, PlacedEntity.store_eq_ok (fun c hc => ?_) fun side hside => ?_⟩
    · exact Decimal.isStorable_of_exact (hexact (by omega) c hc)
    · exact Decimal.isStorable_of_exact (hsides side hside)

/-- A node whose two servers stand among three clients. -/
def mixedNode : Node where
  name := "A"
  subject := .nodeClass
  connectors := [⟨"p", .client, [], none⟩, ⟨"a", .server, [], none⟩, ⟨"q", .client, [], none⟩,
    ⟨"b", .server, [], none⟩, ⟨"r", .client, [], none⟩]
  nodeClass := none
  address := none

/-- Its box is stored with both sides stacked, as high as three clients need. -/
theorem mixed_stacked : ({ connectorSpacing := 30 } : Metrics).Configured ∧
    (Placement.ofNodes [mixedNode] [] .instances { connectorSpacing := 30 }).entities.map
      (fun b => (b.box.height, b.connectors.map fun c => (c.name, c.y)))
      = [(160, [("a", 55), ("b", 85), ("p", 55), ("q", 85), ("r", 115)])] ∧
    ∃ b ∈ (Placement.ofNodes [mixedNode] [] .instances { connectorSpacing := 30 }).entities,
      ∃ s, b.store = .ok s ∧ s.Carries mixedNode.connectors ∧
        s.Stacks whole? { connectorSpacing := 30 } 55 := by
  have hm : ({ connectorSpacing := 30 } : Metrics).Configured :=
    ⟨by decide, by decide, by decide, by decide, rfl⟩
  have hplaced : (Placement.ofNodes [mixedNode] [] .instances { connectorSpacing := 30 }).entities
      = [mixedNode.place { connectorSpacing := 30 } .instances 0 0] :=
    Placement.entities_alone ..
  have hall := connectors_stacked hm [mixedNode] [] .instances
  rw [hplaced] at hall ⊢
  obtain ⟨⟨-, -, hstored, hstorable⟩, -⟩ := List.forall₂_cons.1 hall
  obtain ⟨s, hs⟩ := hstorable (by decide)
  obtain ⟨hcarries, hstacks⟩ := hstored s hs
  exact ⟨hm, by decide, _, List.mem_singleton_self _, s, hs, hcarries, hstacks (by decide)⟩

/-- With a spacing of `2^53 + 1` the second of two servers is not where it should be. -/
theorem wide_spacing_rounded : ¬ ∀ m : Metrics, m.Configured → ∀ nodes edges view,
    ∀ b ∈ (Placement.ofNodes nodes edges view m).entities, ∀ s, b.store = .ok s →
      s.Stacks whole? m (m.contentStart view) := by
  intro h
  have hm : ({ connectorSpacing := 2 ^ 53 + 1 } : Metrics).Configured :=
    ⟨by decide, by decide, by decide, by decide, rfl⟩
  let n : Node :=
    ⟨"A", .nodeClass, [⟨"a", .server, [], none⟩, ⟨"b", .server, [], none⟩], none, none⟩
  have hplaced : (Placement.ofNodes [n] [] .schema { connectorSpacing := 2 ^ 53 + 1 }).entities
      = [n.place { connectorSpacing := 2 ^ 53 + 1 } .schema 0 0] :=
    Placement.entities_alone ..
  have hstored : (n.place { connectorSpacing := 2 ^ 53 + 1 } .schema 0 0).store = .ok _ :=
    PlacedEntity.store_eq_ok (by decide +kernel) (by decide +kernel)
  have hstacks := h _ hm [n] [] .schema _ (hplaced ▸ List.mem_singleton_self _) _ hstored
  have hsecond : ((n.place { connectorSpacing := 2 ^ 53 + 1 } .schema 0 0).map nearestInt).ofRole
      .server = [⟨"a", .server, nearestInt 40⟩, ⟨"b", .server, nearestInt 9007199254741033⟩] := by
    rw [PlacedEntity.ofRole_map, Node.ofRole_place]
    rfl
  have hrounded : whole? (nearestInt 9007199254741033) = some 9007199254741032 := by decide +kernel
  have hexact := hstacks.spaced .server 1 _ (by rw [hsecond]; rfl)
  exact absurd (hrounded.symm.trans hexact) (by decide)

end SystemMap
