/-
How far the grid of a graph extends. A name that finishes with some names finished before it
lies at most one layer beyond the last of theirs, or in layer one if it waits for an edge that
returns; so no layer exceeds the number of names. Rows count the names of one layer and so do
not exceed it either.
-/
import SystemMap.Graph.Rows
import SystemMap.Proofs.Graph.Walk

namespace SystemMap.Graph

variable {g : Graph}

-- ================================================================== layers

/-- What a list of layers says of a name stands in it. -/
theorem mem_of_lookup {done : List (String × Nat)} {p : String} {n : Nat}
    (h : done.lookup p = some n) : (p, n) ∈ done := by
  obtain ⟨before, after, rfl, -⟩ := List.lookup_eq_some_iff.1 h
  exact List.mem_append_right _ List.mem_cons_self

/-- Layers rise at most by one from each finished name to the next. -/
theorem Settled.layer_le {done : List (String × Nat)} (h : Settled g done) :
    ∀ entry ∈ done, entry.2 ≤ done.length := by
  induction h with
  | nil => intro entry hentry; cases hentry
  | @cons v earlier h hv hback ih =>
      intro entry hentry
      rw [List.length_cons]
      rcases List.mem_cons.1 hentry with rfl | hentry
      · refine height_le_iff.2 fun p _ => ?_
        unfold asks
        split
        · next n hn =>
          have hle : n ≤ earlier.length := ih (p, n) (mem_of_lookup hn)
          omega
        · omega
      · have hle := ih entry hentry
        omega

/-- There are no more layers than names. -/
theorem layer_le_length (hg : g.Proper) (v : String) : g.layer v ≤ g.names.length := by
  obtain ⟨hsettled, hnames⟩ := settled_layers hg
  have hlength : g.layers.length = g.names.length := by
    rw [← hnames.length_eq, namesOf, List.length_map]
  unfold layer
  cases hlookup : g.layers.lookup v with
  | none => exact Nat.zero_le _
  | some n => exact hlength ▸ hsettled.layer_le (v, n) (mem_of_lookup hlookup)

-- ==================================================================== rows

theorem length_orderLayer (rows : Rows) (layer : Int) (names : List String) :
    (g.orderLayer rows layer names).length = names.length := by
  unfold orderLayer
  split
  · exact List.length_mergeSort names
  · unfold sortByMean
    rw [List.length_map, List.length_mergeSort, List.length_map]

/-- Adding layers, of no more than `k` names each, to rows below `k` gives rows below `k`. -/
theorem rows_lt_of_layers {k : Nat} {placed : List (String × Int)} (hplaced : placed.length ≤ k)
    (layers : List Int) {rows : Rows} (hrows : ∀ entry ∈ rows, entry.2 < k) :
    ∀ entry ∈ layers.foldl (fun rows layer =>
      rows ++ (g.orderLayer rows layer (namesIn placed layer)).zipIdx) rows, entry.2 < k := by
  induction layers generalizing rows with
  | nil => exact hrows
  | cons layer later ih =>
      rw [List.foldl_cons]
      refine ih fun entry hentry => ?_
      rcases List.mem_append.1 hentry with hentry | hentry
      · exact hrows entry hentry
      · obtain ⟨name, row⟩ := entry
        have hrow := List.snd_lt_of_mem_zipIdx hentry
        have hlayer : (namesIn placed layer).length ≤ placed.length := by
          unfold namesIn
          rw [List.length_map]
          exact List.length_filter_le ..
        rw [length_orderLayer] at hrow
        dsimp only at hrow ⊢
        omega

/-- There are no more rows than names. -/
theorem row_le_length (layerOf : String → Int) (name : String) :
    (g.rows layerOf).row name ≤ g.names.length := by
  have hplaced : (g.inLayers layerOf).length ≤ g.names.length := by
    unfold inLayers
    rw [List.length_map]
  have hnone : ∀ entry ∈ ([] : Rows), entry.2 < g.names.length := by
    intro entry hentry
    cases hentry
  have hrows := rows_lt_of_layers (g := g) hplaced (layersInUse (g.inLayers layerOf)) hnone
  unfold Rows.row
  cases hlookup : List.lookup name (g.rows layerOf) with
  | none => exact Nat.zero_le _
  | some row => exact Nat.le_of_lt (hrows (name, row) (mem_of_lookup hlookup))

end SystemMap.Graph
