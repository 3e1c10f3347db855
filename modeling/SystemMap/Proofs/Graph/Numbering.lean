/-
Rows number the names of a layer. Whatever order a layer is brought into, its names take the
rows from zero on, one each and in that order, and the layers before and after it have no say
in that. The sorting itself looks at the rows given so far, but all that matters here is that
it loses no name and takes none in.

So a cell of the grid has one name at most, and above a name stands a name in every row.
-/
import SystemMap.Proofs.Graph.Grid

namespace SystemMap.Graph

variable {g : Graph}

-- ================================================================ one layer

/-- Ordering a layer loses no name. -/
theorem perm_orderLayer (rows : Rows) (layer : Int) (names : List String) :
    (g.orderLayer rows layer names).Perm names := by
  unfold orderLayer
  split
  · exact List.mergeSort_perm names _
  · unfold sortByMean
    -- every name goes with its key through the sorting and comes out without it
    apply (List.Perm.map Prod.snd (List.mergeSort_perm _ _)).trans
    rw [List.map_map]
    exact List.Perm.of_eq (List.map_id' names)

theorem namesOf_zipIdx (names : List String) : namesOf names.zipIdx = names :=
  List.zipIdx_map_fst 0 names

/-- Among numbered names, each looked up by name has its number. -/
theorem lookup_zipIdx_iff {names : List String} (hnames : names.Nodup) {v : String} {i : Nat} :
    List.lookup v names.zipIdx = some i ↔ names[i]? = some v := by
  constructor
  · intro h
    exact List.mem_zipIdx_iff_getElem?.1 (mem_of_lookup h)
  · intro h
    cases hlookup : List.lookup v names.zipIdx with
    | none =>
        have hno := lookup_eq_none_iff.1 hlookup
        rw [namesOf_zipIdx] at hno
        exact absurd (List.mem_of_getElem? h) hno
    | some j =>
        have hj : names[j]? = some v := List.mem_zipIdx_iff_getElem?.1 (mem_of_lookup hlookup)
        obtain ⟨hlt, hget⟩ := List.getElem?_eq_some_iff.1 h
        obtain ⟨hlt', hget'⟩ := List.getElem?_eq_some_iff.1 hj
        rw [(List.Nodup.getElem_inj_iff hnames).1 (hget.trans hget'.symm)]

-- =============================================================== all layers

section Layer

variable {layerOf : String → Int} {layer : Int} {rows : Rows}

/-- The names of a layer that was ordered are on it. -/
theorem layerOf_of_mem_orderLayer {v : String}
    (hv : v ∈ g.orderLayer rows layer (namesIn (g.inLayers layerOf) layer)) :
    layerOf v = layer := by
  have hmem := (perm_orderLayer ..).mem_iff.1 hv
  rw [namesIn_inLayers, List.mem_filter] at hmem
  exact of_decide_eq_true hmem.2

/-- A layer that no name has a row in gives rows to its own names and to no others. -/
theorem lookup_append_layer (hrows : ∀ v ∈ namesOf rows, layerOf v ≠ layer) (v : String) :
    List.lookup v (rows ++ (g.orderLayer rows layer (namesIn (g.inLayers layerOf) layer)).zipIdx)
      = if layerOf v = layer then
          List.lookup v (g.orderLayer rows layer (namesIn (g.inLayers layerOf) layer)).zipIdx
        else List.lookup v rows := by
  rw [List.lookup_append]
  by_cases hv : layerOf v = layer
  · have hnone : List.lookup v rows = none := lookup_eq_none_iff.2 fun hin => hrows v hin hv
    rw [if_pos hv, hnone, Option.none_or]
  · have hskip : List.lookup v
        (g.orderLayer rows layer (namesIn (g.inLayers layerOf) layer)).zipIdx = none := by
      apply lookup_eq_none_iff.2
      rw [namesOf_zipIdx]
      exact fun hin => hv (layerOf_of_mem_orderLayer hin)
    rw [if_neg hv, hskip, Option.or_none]

end Layer

/-- Adding the rows of some layers to rows of other layers. The induction is on the layers to
come; that no name has a row before its layer comes is what it carries. -/
theorem exists_orders_from (layerOf : String → Int) (layers : List Int) (hlayers : layers.Nodup)
    {rows : Rows} (hrows : ∀ v ∈ namesOf rows, layerOf v ∉ layers) :
    ∃ order : Int → List String,
      (∀ layer ∈ layers, (order layer).Perm (namesIn (g.inLayers layerOf) layer)) ∧
      ∀ v, List.lookup v (layers.foldl (fun rows layer =>
        rows ++ (g.orderLayer rows layer (namesIn (g.inLayers layerOf) layer)).zipIdx) rows)
          = if layerOf v ∈ layers then List.lookup v (order (layerOf v)).zipIdx
            else List.lookup v rows := by
  induction layers generalizing rows with
  | nil =>
      refine ⟨fun _ => [], by simp, fun v => ?_⟩
      rw [if_neg List.not_mem_nil]
      rfl
  | cons layer later ih =>
      obtain ⟨hfresh, hlater⟩ := List.nodup_cons.1 hlayers
      have hbefore : ∀ v ∈ namesOf rows, layerOf v ≠ layer := by
        intro v hv heq
        exact hrows v hv (heq ▸ List.mem_cons_self)
      let next := g.orderLayer rows layer (namesIn (g.inLayers layerOf) layer)
      have hrows' : ∀ v ∈ namesOf (rows ++ next.zipIdx), layerOf v ∉ later := by
        intro v hv
        have happend : namesOf (rows ++ next.zipIdx) = namesOf rows ++ namesOf next.zipIdx :=
          List.map_append
        rw [happend, namesOf_zipIdx] at hv
        rcases List.mem_append.1 hv with hv | hv
        · intro hin
          exact hrows v hv (List.mem_cons_of_mem _ hin)
        · have hlayer : layerOf v = layer := layerOf_of_mem_orderLayer hv
          rw [hlayer]
          exact hfresh
      obtain ⟨order, hperm, hlookup⟩ := ih hlater hrows'
      refine ⟨fun l => if l = layer then next else order l, fun l hl => ?_, fun v => ?_⟩
      · by_cases hl' : l = layer
        · subst hl'
          simp only [if_true]
          exact perm_orderLayer ..
        · simp only [if_neg hl']
          exact hperm l ((List.mem_cons.1 hl).resolve_left hl')
      · rw [List.foldl_cons, hlookup v, lookup_append_layer hbefore]
        dsimp only
        by_cases hv : layerOf v = layer
        · rw [if_neg (hv ▸ hfresh), if_pos hv, if_pos hv, if_pos (by simp [hv])]
        · rw [if_neg hv, if_neg hv]
          simp [hv]

/-- The layer of each name is in use. -/
theorem mem_layersInUse {layerOf : String → Int} {v : String} (hv : v ∈ g.names) :
    layerOf v ∈ layersInUse (g.inLayers layerOf) := by
  unfold layersInUse inLayers
  rw [List.mem_mergeSort, List.mem_eraseDups]
  simpa using ⟨v, hv, rfl⟩

/-- Each layer in use is told once. -/
theorem nodup_layersInUse (placed : List (String × Int)) : (layersInUse placed).Nodup := by
  unfold layersInUse
  rw [(List.mergeSort_perm _ _).nodup_iff]
  exact nodup_eraseDups _

/-- If all names are on layer zero, that is the layer in use. -/
theorem layersInUse_eq_zero {layerOf : String → Int} (hsome : g.names ≠ [])
    (hzero : ∀ v ∈ g.names, layerOf v = 0) : layersInUse (g.inLayers layerOf) = [0] := by
  obtain ⟨v, hv⟩ := List.exists_mem_of_ne_nil _ hsome
  have hmem : ∀ layer, layer ∈ layersInUse (g.inLayers layerOf) ↔ layer ∈ [0] := by
    intro layer
    rw [List.mem_singleton]
    constructor
    · intro hlayer
      unfold layersInUse inLayers at hlayer
      rw [List.mem_mergeSort, List.mem_eraseDups, List.map_map] at hlayer
      obtain ⟨u, hu, rfl⟩ := List.mem_map.1 hlayer
      exact hzero u hu
    · rintro rfl
      exact hzero v hv ▸ mem_layersInUse hv
  exact List.perm_singleton.1
    ((List.perm_ext_iff_of_nodup (nodup_layersInUse _) (List.nodup_singleton 0)).2 hmem)

/-- Names that are all on layer zero have the rows of their order. -/
theorem rows_of_layer_zero {layerOf : String → Int} (hsome : g.names ≠ [])
    (hzero : ∀ v ∈ g.names, layerOf v = 0) : g.rows layerOf = (sortNames g.names).zipIdx := by
  have hall : namesIn (g.inLayers layerOf) 0 = g.names := by
    rw [namesIn_inLayers]
    exact List.filter_eq_self.2 fun v hv => decide_eq_true (hzero v hv)
  unfold rows
  dsimp only
  rw [layersInUse_eq_zero hsome hzero, List.foldl_cons, List.foldl_nil, List.nil_append, hall]
  unfold orderLayer
  rw [if_pos rfl]

/-- The rows of a layer number its names in some order. -/
theorem exists_orders (hg : g.names.Nodup) (layerOf : String → Int) :
    ∃ order : Int → List String, ∀ v ∈ g.names,
      (order (layerOf v)).Perm (g.names.filter (layerOf · = layerOf v)) ∧
      ∀ i, List.lookup v (g.rows layerOf) = some i ↔ (order (layerOf v))[i]? = some v := by
  have hrows : ∀ v ∈ namesOf [], layerOf v ∉ layersInUse (g.inLayers layerOf) := nofun
  obtain ⟨order, hperm, hlookup⟩ := exists_orders_from (g := g) layerOf
    (layersInUse (g.inLayers layerOf)) (nodup_layersInUse _) hrows
  refine ⟨order, fun v hv => ?_⟩
  have hlayer := hperm _ (mem_layersInUse hv)
  rw [namesIn_inLayers] at hlayer
  refine ⟨hlayer, fun i => ?_⟩
  have hnodup : (order (layerOf v)).Nodup := hlayer.nodup_iff.2 (hg.filter _)
  rw [← lookup_zipIdx_iff hnodup]
  unfold rows
  dsimp only
  rw [hlookup v, if_pos (mem_layersInUse hv)]

-- ================================================================ the cells

/-- Every name has a row. -/
theorem isSome_lookup_rows (hg : g.names.Nodup) (layerOf : String → Int) {v : String}
    (hv : v ∈ g.names) : ∃ i, List.lookup v (g.rows layerOf) = some i := by
  obtain ⟨order, horder⟩ := exists_orders hg layerOf
  obtain ⟨hperm, hlookup⟩ := horder v hv
  have hmem : v ∈ order (layerOf v) := by
    rw [hperm.mem_iff, List.mem_filter]
    exact ⟨hv, decide_eq_true rfl⟩
  obtain ⟨i, hi⟩ := List.mem_iff_getElem?.1 hmem
  exact ⟨i, (hlookup i).2 hi⟩

theorem Rows.row_of_lookup {rows : Rows} {v : String} {i : Nat}
    (h : List.lookup v rows = some i) : rows.row v = i := by
  unfold Rows.row
  rw [h]
  rfl

/-- A row of a layer has one name. -/
theorem eq_of_row_eq (hg : g.names.Nodup) {layerOf : String → Int} {v w : String}
    (hv : v ∈ g.names) (hw : w ∈ g.names) (hlayer : layerOf v = layerOf w)
    (hrow : (g.rows layerOf).row v = (g.rows layerOf).row w) : v = w := by
  obtain ⟨order, horder⟩ := exists_orders hg layerOf
  obtain ⟨i, hi⟩ := isSome_lookup_rows hg layerOf hv
  obtain ⟨j, hj⟩ := isSome_lookup_rows hg layerOf hw
  rw [Rows.row_of_lookup hi, Rows.row_of_lookup hj] at hrow
  subst hrow
  have hvi := ((horder v hv).2 i).1 hi
  have hwi := ((horder w hw).2 i).1 hj
  rw [hlayer, hwi] at hvi
  exact (Option.some.inj hvi).symm

/-- Above a name, every row of its layer has a name. -/
theorem exists_of_lt_row (hg : g.names.Nodup) {layerOf : String → Int} {v : String}
    (hv : v ∈ g.names) {i : Nat} (hi : i < (g.rows layerOf).row v) :
    ∃ w ∈ g.names, layerOf w = layerOf v ∧ (g.rows layerOf).row w = i := by
  obtain ⟨order, horder⟩ := exists_orders hg layerOf
  obtain ⟨j, hj⟩ := isSome_lookup_rows hg layerOf hv
  rw [Rows.row_of_lookup hj] at hi
  obtain ⟨hperm, hlookup⟩ := horder v hv
  obtain ⟨hlt, -⟩ := List.getElem?_eq_some_iff.1 ((hlookup j).1 hj)
  have hw := List.getElem?_eq_getElem (Nat.lt_trans hi hlt)
  have hmem := hperm.mem_iff.1 (List.mem_of_getElem? hw)
  obtain ⟨hmem, hlayer⟩ := List.mem_filter.1 hmem
  have hlayer := of_decide_eq_true hlayer
  refine ⟨_, hmem, hlayer, Rows.row_of_lookup (((horder _ hmem).2 i).2 ?_)⟩
  rw [hlayer]
  exact hw

end SystemMap.Graph
