/-
Rows follow means. A layer is sorted when only the layers below it have rows, so its keys come
from a table that is not finished. Still they are what the finished table says, as long as a
predecessor elsewhere counts as row zero: the rows of the layers below do not change any more,
and none of the others has a row yet (`exists_table`). The sorting is stable, so names of one
mean stay in the order in which they were given; and in graphs that are not too large a mean and
its nearest double compare alike.

Together: the rows of a layer count its names, and the upper of two names is the one of the
lesser mean, or of the lesser name in layer zero (`row_order`).
-/
import Mathlib.Algebra.Group.Action.Defs
import Mathlib.Algebra.Order.BigOperators.Group.List
import Mathlib.Algebra.Order.Field.Rat
import Mathlib.Algebra.Order.Field.Basic
import Mathlib.Tactic.NormNum
import SystemMap.Proofs.Decimal.Quotients
import SystemMap.Proofs.Graph.Numbering

namespace SystemMap.Graph

variable {g : Graph}

-- ================================================================ sorting

/-- A stable sort is in order, and of two elements that may stand either way the first one was
first before. -/
theorem pairwise_mergeSort_stable {α : Type} {le : α → α → Bool} {R : α → α → Prop}
    (htrans : ∀ a b c, le a b → le b c → le a c) (htotal : ∀ a b, le a b || le b a)
    {l : List α} (hl : l.Pairwise R) :
    (l.mergeSort le).Pairwise fun a b => le a b ∧ (le b a → R a b) := by
  have hsorted := List.pairwise_mergeSort (List.zipIdxLE_trans htrans)
    (List.zipIdxLE_total htotal) l.zipIdx
  have hplaces : (l.zipIdx.mergeSort (List.zipIdxLE le)).Pairwise (·.2 ≠ ·.2) := by
    rw [(List.mergeSort_perm _ _).pairwise_iff fun hne => hne.symm, ← List.pairwise_map,
      List.zipIdx_map_snd]
    exact List.nodup_range'
  rw [← List.mergeSort_zipIdx, List.pairwise_map]
  refine (hsorted.and hplaces).imp_of_mem fun {a b} ha hb hab => ?_
  obtain ⟨hle, hne⟩ := hab
  unfold List.zipIdxLE at hle
  split at hle
  · next hfirst =>
    refine ⟨hfirst, fun hback => ?_⟩
    rw [if_pos hback, decide_eq_true_eq] at hle
    obtain ⟨hi, hgeti⟩ := List.getElem?_eq_some_iff.1
      (List.mem_zipIdx_iff_getElem?.1 (List.mem_mergeSort.1 ha))
    obtain ⟨hj, hgetj⟩ := List.getElem?_eq_some_iff.1
      (List.mem_zipIdx_iff_getElem?.1 (List.mem_mergeSort.1 hb))
    rw [← hgeti, ← hgetj]
    exact List.pairwise_iff_getElem.1 hl _ _ hi hj (Nat.lt_of_le_of_ne hle hne)
  · cases hle

/-- In a list that is strictly in order, places compare as elements do. -/
theorem lt_iff_of_pairwise {α : Type} {R : α → α → Prop} (hR : ∀ a b, R a b → ¬ R b a)
    {l : List α} (hl : l.Pairwise R) {a b : α} {i j : Nat} (ha : l[i]? = some a)
    (hb : l[j]? = some b) : i < j ↔ R a b := by
  obtain ⟨hi, rfl⟩ := List.getElem?_eq_some_iff.1 ha
  obtain ⟨hj, rfl⟩ := List.getElem?_eq_some_iff.1 hb
  have hplaces := List.pairwise_iff_getElem.1 hl
  refine ⟨hplaces i j hi hj, fun hab => ?_⟩
  rcases Nat.lt_trichotomy i j with hless | rfl | hmore
  · exact hless
  · exact absurd hab (hR _ _ hab)
  · exact absurd hab (hR _ _ (hplaces j i hj hi hmore))

/-- Names are sorted by the bits of their means, which are ordered as these are. -/
theorem sortByMean_eq (rows : Rows) (names : List String) :
    g.sortByMean rows names = names.mergeSort fun u v =>
      meanBits rows (g.predecessors u) ≤ meanBits rows (g.predecessors v) := by
  unfold sortByMean
  dsimp only
  rw [← List.map_mergeSort (r := fun u v =>
    meanBits rows (g.predecessors u) ≤ meanBits rows (g.predecessors v)) fun u _ v _ => rfl]
  rw [List.map_map]
  exact List.map_id' _

/-- Names sorted by mean: of two names the upper one has the lesser mean, or the same mean and
the earlier place. -/
theorem pairwise_sortByMean (rows : Rows) {names : List String} {R : String → String → Prop}
    (hnames : names.Pairwise R) :
    (g.sortByMean rows names).Pairwise fun u v =>
      meanBits rows (g.predecessors u) < meanBits rows (g.predecessors v) ∨
        meanBits rows (g.predecessors u) = meanBits rows (g.predecessors v) ∧ R u v := by
  rw [sortByMean_eq]
  refine (pairwise_mergeSort_stable ?_ ?_ hnames).imp fun {u v} huv => ?_
  · intro a b c
    simpa only [decide_eq_true_eq] using Nat.le_trans
  · intro a b
    simpa only [Bool.or_eq_true, decide_eq_true_eq] using Nat.le_total _ _
  · simp only [decide_eq_true_eq] at huv
    obtain ⟨hle, hstable⟩ := huv
    rcases Nat.lt_or_eq_of_le hle with hless | heq
    · exact .inl hless
    · exact .inr ⟨heq, hstable heq.ge⟩

/-- Sorted names are strictly in order if none is there twice. -/
theorem pairwise_sortNames {names : List String} (hnames : names.Nodup) :
    (sortNames names).Pairwise (· < ·) := by
  unfold sortNames
  refine (pairwise_mergeSort_stable ?_ ?_ hnames).imp fun {u v} huv => ?_
  · intro a b c
    simpa only [decide_eq_true_eq] using String.le_trans
  · intro a b
    simpa only [Bool.or_eq_true, decide_eq_true_eq] using String.le_total a b
  · simp only [decide_eq_true_eq] at huv
    obtain ⟨hle, hne⟩ := huv
    by_contra hnot
    exact hne (String.not_lt.1 hnot) (String.le_antisymm hle (String.not_lt.1 hnot))

-- ===================================================== the unfinished table

section Table

variable {layerOf : String → Int}

/-- Rows with one more layer. -/
def addLayer (g : Graph) (layerOf : String → Int) (rows : Rows) (layer : Int) : Rows :=
  rows ++ (g.orderLayer rows layer (namesIn (g.inLayers layerOf) layer)).zipIdx

/-- A layer adds its names behind those of the table. -/
theorem namesOf_addLayer (rows : Rows) (layer : Int) :
    namesOf (g.addLayer layerOf rows layer)
      = namesOf rows ++ g.orderLayer rows layer (namesIn (g.inLayers layerOf) layer) := by
  have happend : ∀ above below : Rows,
      namesOf (above ++ below) = namesOf above ++ namesOf below := fun _ _ => List.map_append
  unfold addLayer
  rw [happend, namesOf_zipIdx]

/-- The table is filled layer by layer. -/
theorem rows_eq_foldl (layerOf : String → Int) :
    g.rows layerOf = (layersInUse (g.inLayers layerOf)).foldl (g.addLayer layerOf) [] := rfl

/-- Layers leave the rows of all others alone. -/
theorem lookup_foldl_of_not_mem {layers : List Int} (hlayers : layers.Nodup) {rows : Rows}
    (hrows : ∀ v ∈ namesOf rows, layerOf v ∉ layers) {v : String} (hv : layerOf v ∉ layers) :
    List.lookup v (layers.foldl (g.addLayer layerOf) rows) = List.lookup v rows := by
  obtain ⟨order, -, hlookup⟩ := exists_orders_from (g := g) layerOf layers hlayers hrows
  exact (hlookup v).trans (if_neg hv)

/-- Names of other layers are not in the table. -/
theorem lookup_foldl_eq_none {layers : List Int} (hlayers : layers.Nodup) {v : String}
    (hv : layerOf v ∉ layers) :
    List.lookup v (layers.foldl (g.addLayer layerOf) []) = none := by
  have hrows : ∀ v ∈ namesOf [], layerOf v ∉ layers := nofun
  exact lookup_foldl_of_not_mem hlayers hrows hv

/-- Layers are in use from the lowest on. -/
theorem pairwise_layersInUse (placed : List (String × Int)) :
    (layersInUse placed).Pairwise (· < ·) := by
  have hne : (layersInUse placed).Pairwise (· ≠ ·) := nodup_layersInUse placed
  have hle : (layersInUse placed).Pairwise fun a b => decide (a ≤ b) := by
    unfold layersInUse
    refine List.pairwise_mergeSort ?_ ?_ _
    · intro a b c
      simpa only [decide_eq_true_eq] using Int.le_trans
    · intro a b
      simpa only [Bool.or_eq_true, decide_eq_true_eq] using Int.le_total a b
  refine (hle.and hne).imp fun hab => ?_
  exact lt_of_le_of_ne (of_decide_eq_true hab.1) hab.2

/-- When a layer is sorted, the table has the rows of the layers below, which stay, and no
others. -/
theorem exists_table {layer : Int} (hlayer : layer ∈ layersInUse (g.inLayers layerOf)) :
    ∃ table : Rows,
      (∀ p, table.row p = if layerOf p < layer then (g.rows layerOf).row p else 0) ∧
      ∀ v, layerOf v = layer → List.lookup v (g.rows layerOf)
        = List.lookup v
            (g.orderLayer table layer (namesIn (g.inLayers layerOf) layer)).zipIdx := by
  obtain ⟨before, after, hsplit⟩ := List.append_of_mem hlayer
  have hsorted := pairwise_layersInUse (g.inLayers layerOf)
  rw [hsplit] at hsorted
  obtain ⟨hsortedBefore, hsortedAfter, hbetween⟩ := List.pairwise_append.1 hsorted
  obtain ⟨hafter, hsortedAfter⟩ := List.pairwise_cons.1 hsortedAfter
  have hbefore : ∀ l ∈ before, l < layer := fun l hl => hbetween l hl layer List.mem_cons_self
  have hnodup : ∀ {layers : List Int}, layers.Pairwise (· < ·) → layers.Nodup := fun h =>
    h.imp fun hab => hab.ne
  let table := before.foldl (g.addLayer layerOf) []
  have htable : ∀ v ∈ namesOf table, layerOf v ∈ before := by
    intro v hv
    by_contra hout
    exact lookup_eq_none_iff.1 (lookup_foldl_eq_none (hnodup hsortedBefore) hout) hv
  have hfresh : ∀ v ∈ namesOf table, layerOf v ≠ layer := fun v hv =>
    (hbefore _ (htable v hv)).ne
  have hrows : g.rows layerOf
      = after.foldl (g.addLayer layerOf) (g.addLayer layerOf table layer) := by
    rw [rows_eq_foldl, hsplit, List.foldl_append, List.foldl_cons]
  have hnext : ∀ v ∈ namesOf (g.addLayer layerOf table layer), layerOf v ∉ after := by
    intro v hv hin
    have hle : layerOf v ≤ layer := by
      rcases List.mem_append.1 ((namesOf_addLayer table layer) ▸ hv) with hv | hv
      · exact (hbefore _ (htable v hv)).le
      · exact (layerOf_of_mem_orderLayer hv).le
    exact absurd (hafter _ hin) (not_lt.2 hle)
  have hlookup : ∀ v, layerOf v ≤ layer → List.lookup v (g.rows layerOf)
      = if layerOf v = layer then List.lookup v
          (g.orderLayer table layer (namesIn (g.inLayers layerOf) layer)).zipIdx
        else List.lookup v table := by
    intro v hv
    have hout : layerOf v ∉ after := fun hin => absurd (hafter _ hin) (not_lt.2 hv)
    rw [hrows, lookup_foldl_of_not_mem (hnodup hsortedAfter) hnext hout]
    exact lookup_append_layer hfresh v
  refine ⟨table, fun p => ?_, fun v hv => ?_⟩
  · unfold Rows.row
    split
    · next hless => rw [hlookup p hless.le, if_neg hless.ne]
    · next hno =>
      rw [lookup_foldl_eq_none (hnodup hsortedBefore) fun hin => hno (hbefore _ hin)]
      rfl
  · rw [hlookup v hv.le, if_pos hv]

end Table

-- ==================================================================== means

/-- The sum of the rows that a name's predecessors have in the layers below it. -/
def weight (g : Graph) (layerOf : String → Int) (name : String) : Nat :=
  ((g.predecessors name).map fun p =>
    if layerOf p < layerOf name then (g.rows layerOf).row p else 0).sum

/-- The mean row of a name's predecessors, where those that are not in a layer below count as
row zero; zero without predecessors. -/
def mean (g : Graph) (layerOf : String → Int) (name : String) : ℚ :=
  g.weight layerOf name / (g.predecessors name).length

section Means

variable {layerOf : String → Int}

/-- Each predecessor weighs less than there are names. -/
theorem weight_le (name : String) :
    g.weight layerOf name ≤ (g.predecessors name).length * g.names.length := by
  unfold weight
  have hrow : ∀ n ∈ (g.predecessors name).map fun p =>
      if layerOf p < layerOf name then (g.rows layerOf).row p else 0, n ≤ g.names.length := by
    intro n hn
    obtain ⟨p, -, rfl⟩ := List.mem_map.1 hn
    split
    · exact row_le_length layerOf p
    · exact Nat.zero_le _
  have hsum := List.sum_le_card_nsmul _ _ hrow
  rw [List.length_map, smul_eq_mul] at hsum
  exact hsum

/-- The count that a mean is divided by, or one for no predecessors, whose weight is zero. -/
def count (g : Graph) (name : String) : Nat := max 1 (g.predecessors name).length

/-- Without predecessors there is nothing to sum up. -/
theorem weight_of_no_predecessors {name : String} (h : g.predecessors name = []) :
    g.weight layerOf name = 0 := by
  unfold weight
  rw [h]
  rfl

/-- The mean may be taken by the count, because a name without predecessors has no weight. -/
theorem mean_eq (name : String) : g.mean layerOf name = g.weight layerOf name / g.count name := by
  unfold mean count
  by_cases hnone : g.predecessors name = []
  · rw [weight_of_no_predecessors hnone, Nat.cast_zero, zero_div, zero_div]
  · rw [Nat.max_eq_right (List.length_pos_iff.2 hnone)]

/-- A table of the layers below gives the mean that the full table does. -/
theorem meanBits_eq {table : Rows} {name : String}
    (htable : ∀ p, table.row p = if layerOf p < layerOf name then (g.rows layerOf).row p else 0) :
    meanBits table (g.predecessors name)
      = Decimal.nearestBits (g.weight layerOf name) (g.count name) := by
  unfold meanBits
  by_cases hnone : g.predecessors name = []
  · rw [weight_of_no_predecessors hnone, Decimal.nearestBits_zero, hnone]
    rfl
  · rw [if_neg (by simpa using hnone)]
    have hsum : (g.predecessors name).foldr (fun p n => table.row p + n) 0
        = g.weight layerOf name := by
      unfold weight
      rw [List.sum_eq_foldr, List.foldr_map]
      simp only [htable]
    rw [hsum, count, Nat.max_eq_right (List.length_pos_iff.2 hnone)]

/-- Each predecessor has an edge of its own. -/
theorem length_predecessors_le (name : String) :
    (g.predecessors name).length ≤ g.edges.length := List.length_filterMap_le ..

theorem count_pos (name : String) : 0 < g.count name := Nat.le_max_left ..

/-- If there are edges, there are at least as many as a name's mean counts. -/
theorem count_le (hsome : g.edges ≠ []) (name : String) : g.count name ≤ g.edges.length :=
  Nat.max_le.2 ⟨List.length_pos_iff.2 hsome, length_predecessors_le name⟩

/-- Means are compared without division. -/
theorem mean_lt_iff {u v : String} : g.mean layerOf u < g.mean layerOf v ↔
    g.weight layerOf u * g.count v < g.weight layerOf v * g.count u := by
  have hcount : ∀ name, (0 : ℚ) < g.count name := fun name => Nat.cast_pos.2 (count_pos name)
  rw [mean_eq, mean_eq, div_lt_div_iff₀ (hcount u) (hcount v)]
  norm_cast

theorem mean_eq_iff {u v : String} : g.mean layerOf u = g.mean layerOf v ↔
    g.weight layerOf u * g.count v = g.weight layerOf v * g.count u := by
  have hcount : ∀ name, (g.count name : ℚ) ≠ 0 := fun name =>
    Nat.cast_ne_zero.2 (count_pos name).ne'
  rw [mean_eq, mean_eq, div_eq_div_iff (hcount u) (hcount v)]
  norm_cast

/-- In a graph that is not too large, means are ordered as their nearest doubles are. -/
theorem nearestBits_lt_of_mean_lt (hsize : g.names.length * g.edges.length ^ 2 < 2 ^ 52)
    {u v : String} (h : g.mean layerOf u < g.mean layerOf v) :
    Decimal.nearestBits (g.weight layerOf u) (g.count u)
      < Decimal.nearestBits (g.weight layerOf v) (g.count v) := by
  have hcross := mean_lt_iff.1 h
  have hweight : g.weight layerOf v ≤ (g.predecessors v).length * g.names.length := weight_le v
  have hpos : 0 < (g.predecessors v).length * g.names.length := by
    refine Nat.lt_of_lt_of_le (Nat.pos_of_ne_zero fun hzero => ?_) hweight
    rw [hzero, Nat.zero_mul] at hcross
    exact Nat.not_lt_zero _ hcross
  have hpredecessors := length_predecessors_le (g := g) v
  have hsome : g.edges ≠ [] := by
    rintro hnone
    rw [hnone] at hpredecessors
    rw [Nat.le_zero.1 hpredecessors, Nat.zero_mul] at hpos
    exact Nat.lt_irrefl 0 hpos
  have hnames : 0 < g.names.length := Nat.pos_of_mul_pos_left hpos
  have hbound : g.weight layerOf v * g.count u < 2 ^ 52 := by
    refine Nat.lt_of_le_of_lt ?_ hsize
    calc g.weight layerOf v * g.count u
        ≤ g.edges.length * g.names.length * g.edges.length :=
          Nat.mul_le_mul (hweight.trans (Nat.mul_le_mul_right _ hpredecessors)) (count_le hsome u)
      _ = g.names.length * g.edges.length ^ 2 := by ring
  have hcount : g.count v < 2 ^ 52 := by
    refine Nat.lt_of_le_of_lt (count_le hsome v) (Nat.lt_of_le_of_lt ?_ hsize)
    exact (Nat.le_self_pow two_ne_zero _).trans (Nat.le_mul_of_pos_left _ hnames)
  exact Decimal.nearestBits_lt (count_pos u).ne' (count_pos v).ne' hcross hbound hcount

/-- Equal means are rounded alike. -/
theorem nearestBits_eq_of_mean_eq {u v : String} (h : g.mean layerOf u = g.mean layerOf v) :
    Decimal.nearestBits (g.weight layerOf u) (g.count u)
      = Decimal.nearestBits (g.weight layerOf v) (g.count v) :=
  Decimal.nearestBits_congr (count_pos u).ne' (count_pos v).ne' (mean_eq_iff.1 h)

end Means

-- ===================================================================== rows

section Order

variable {layerOf : String → Int}

/-- The layer of a name, zero if it has none. -/
def layerIn (layers : List (String × Int)) (name : String) : Int := (layers.lookup name).getD 0

/-- The rows of a layer count its names. -/
theorem perm_lookup_rows (hg : g.names.Nodup) (layer : Int) :
    ((g.names.filter (layerOf · = layer)).map (List.lookup · (g.rows layerOf))).Perm
      ((List.range (g.names.filter (layerOf · = layer)).length).map some) := by
  obtain ⟨order, horder⟩ := exists_orders hg layerOf
  by_cases hsome : g.names.filter (layerOf · = layer) = []
  · rw [hsome]
    rfl
  obtain ⟨v, hmem⟩ := List.exists_mem_of_ne_nil _ hsome
  obtain ⟨hv, hlayer⟩ := List.mem_filter.1 hmem
  obtain rfl := of_decide_eq_true hlayer
  obtain ⟨hperm, -⟩ := horder v hv
  refine (hperm.map _).symm.trans (List.Perm.of_eq (List.ext_getElem? fun i => ?_))
  rw [← hperm.length_eq, List.getElem?_map, List.getElem?_map]
  cases hget : (order (layerOf v))[i]? with
  | none =>
      rw [List.getElem?_eq_none (by simpa using List.getElem?_eq_none_iff.1 hget)]
      rfl
  | some w =>
      obtain ⟨hlt, -⟩ := List.getElem?_eq_some_iff.1 hget
      rw [List.getElem?_range hlt, Option.map_some, Option.map_some]
      obtain ⟨hw, hsame⟩ := List.mem_filter.1 (hperm.mem_iff.1 (List.mem_of_getElem? hget))
      have hsame := of_decide_eq_true hsame
      rw [((horder w hw).2 i).2 (hsame ▸ hget)]

/-- Rows compare as the places in the order that the layer was brought into. -/
theorem row_lt_iff (hg : g.names.Nodup) {layer : Int} {table : Rows}
    (hrows : ∀ v, layerOf v = layer → List.lookup v (g.rows layerOf)
      = List.lookup v (g.orderLayer table layer (namesIn (g.inLayers layerOf) layer)).zipIdx)
    {R : String → String → Prop} (hR : ∀ u v, R u v → ¬ R v u)
    (hsorted : (g.orderLayer table layer (namesIn (g.inLayers layerOf) layer)).Pairwise R)
    {u v : String} (hu : u ∈ g.names) (hv : v ∈ g.names) (hlu : layerOf u = layer)
    (hlv : layerOf v = layer) :
    (g.rows layerOf).row u < (g.rows layerOf).row v ↔ R u v := by
  have hperm := perm_orderLayer (g := g) table layer (namesIn (g.inLayers layerOf) layer)
  have hnodup := hperm.nodup_iff.2 ((namesIn_inLayers g layerOf layer) ▸ hg.filter _)
  have hplace : ∀ w ∈ g.names, layerOf w = layer → ∃ i,
      (g.orderLayer table layer (namesIn (g.inLayers layerOf) layer))[i]? = some w ∧
        (g.rows layerOf).row w = i := by
    intro w hw hlw
    have hmem : w ∈ g.orderLayer table layer (namesIn (g.inLayers layerOf) layer) := by
      rw [hperm.mem_iff, namesIn_inLayers, List.mem_filter]
      exact ⟨hw, decide_eq_true hlw⟩
    obtain ⟨i, hi⟩ := List.mem_iff_getElem?.1 hmem
    refine ⟨i, hi, Rows.row_of_lookup ?_⟩
    rw [hrows w hlw]
    exact (lookup_zipIdx_iff hnodup).2 hi
  obtain ⟨i, hi, hrowu⟩ := hplace u hu hlu
  obtain ⟨j, hj, hrowv⟩ := hplace v hv hlv
  rw [hrowu, hrowv]
  exact lt_iff_of_pairwise hR hsorted hi hj

/-- The order of names in layer zero. -/
theorem row_lt_iff_of_layer_zero (hg : g.names.Nodup) {u v : String} (hu : u ∈ g.names)
    (hv : v ∈ g.names) (hlu : layerOf u = 0) (hlv : layerOf v = 0) :
    (g.rows layerOf).row u < (g.rows layerOf).row v ↔ u < v := by
  have huse : layerOf u ∈ layersInUse (g.inLayers layerOf) := mem_layersInUse hu
  obtain ⟨table, -, hrows⟩ := exists_table (hlu ▸ huse)
  have hnodup : (namesIn (g.inLayers layerOf) 0).Nodup :=
    (namesIn_inLayers g layerOf 0) ▸ hg.filter _
  refine row_lt_iff (R := (· < ·)) hg hrows (fun _ _ => String.lt_asymm) ?_ hu hv hlu hlv
  exact pairwise_sortNames hnodup

/-- A list that repeats no element has its elements in the order of their places. -/
theorem pairwise_idxOf {names : List String} (hnames : names.Nodup) :
    names.Pairwise fun u v => names.idxOf u < names.idxOf v := by
  refine List.pairwise_iff_getElem.2 fun i j hi hj hij => ?_
  rw [hnames.idxOf_getElem i hi, hnames.idxOf_getElem j hj]
  exact hij

/-- Whether a name comes above another one in a layer that is ordered by means. -/
def Above (g : Graph) (layerOf : String → Int) (u v : String) : Prop :=
  g.mean layerOf u < g.mean layerOf v ∨
    g.mean layerOf u = g.mean layerOf v ∧ g.names.idxOf u < g.names.idxOf v

/-- Of two names only one comes above the other. -/
theorem Above.asymm {u v : String} (h : g.Above layerOf u v) : ¬ g.Above layerOf v u := by
  rintro (hless | ⟨heq, hplace⟩)
  · rcases h with hless' | ⟨heq', -⟩
    · exact lt_asymm hless hless'
    · exact hless.ne heq'.symm
  · rcases h with hless' | ⟨-, hplace'⟩
    · exact hless'.ne heq.symm
    · exact Nat.lt_asymm hplace hplace'

/-- The order of names in any other layer of a graph that is not too large. -/
theorem row_lt_iff_above (hg : g.names.Nodup)
    (hsize : g.names.length * g.edges.length ^ 2 < 2 ^ 52) {u v : String} (hu : u ∈ g.names)
    (hv : v ∈ g.names) (hlayer : layerOf u = layerOf v) (hne : layerOf u ≠ 0) :
    (g.rows layerOf).row u < (g.rows layerOf).row v ↔ g.Above layerOf u v := by
  have huse : layerOf u ∈ layersInUse (g.inLayers layerOf) := mem_layersInUse hu
  obtain ⟨table, htable, hrows⟩ := exists_table huse
  refine row_lt_iff (R := g.Above layerOf) hg hrows (fun _ _ => Above.asymm) ?_ hu hv rfl
    hlayer.symm
  have hnames : (namesIn (g.inLayers layerOf) (layerOf u)).Pairwise fun u v =>
      g.names.idxOf u < g.names.idxOf v :=
    (namesIn_inLayers g layerOf (layerOf u)) ▸ (pairwise_idxOf hg).filter _
  unfold orderLayer
  rw [if_neg hne]
  refine (pairwise_sortByMean table hnames).imp_of_mem fun {a b} ha hb hab => ?_
  have hbits : ∀ w ∈ g.sortByMean table (namesIn (g.inLayers layerOf) (layerOf u)),
      meanBits table (g.predecessors w)
        = Decimal.nearestBits (g.weight layerOf w) (g.count w) := by
    intro w hw
    have hlw : layerOf w = layerOf u := by
      have hmem : w ∈ g.orderLayer table (layerOf u)
          (namesIn (g.inLayers layerOf) (layerOf u)) := by
        unfold orderLayer
        rwa [if_neg hne]
      exact layerOf_of_mem_orderLayer hmem
    exact meanBits_eq (hlw ▸ htable)
  rw [hbits a ha, hbits b hb] at hab
  rcases lt_trichotomy (g.mean layerOf a) (g.mean layerOf b) with hless | heq | hmore
  · exact .inl hless
  · have hsame := nearestBits_eq_of_mean_eq heq
    rcases hab with hbelow | ⟨-, hplace⟩
    · exact absurd hsame hbelow.ne
    · exact .inr ⟨heq, hplace⟩
  · have hback := nearestBits_lt_of_mean_lt hsize hmore
    rcases hab with hbelow | ⟨hsame, -⟩
    · exact absurd hback hbelow.not_gt
    · exact absurd hsame hback.ne'

end Order

/-- Rows are barycentric. The rows of a layer count its names, layer zero is in the order of
names, and in any other layer of a graph that is not too large a name comes above another one
exactly if it has the lesser mean, or the same mean and the earlier place. -/
theorem row_order (names : List String) (edges : List (String × String))
    (layers : List (String × Int)) :
    let g := build names edges
    let rows := g.rows (layerIn layers)
    (∀ layer, ((g.names.filter (layerIn layers · = layer)).map (List.lookup · rows)).Perm
      ((List.range (g.names.filter (layerIn layers · = layer)).length).map some)) ∧
    (∀ u ∈ g.names, ∀ v ∈ g.names, layerIn layers u = 0 → layerIn layers v = 0 →
      (rows.row u < rows.row v ↔ u < v)) ∧
    (g.names.length * g.edges.length ^ 2 < 2 ^ 52 →
      ∀ u ∈ g.names, ∀ v ∈ g.names, layerIn layers u = layerIn layers v → layerIn layers u ≠ 0 →
        (rows.row u < rows.row v ↔
          g.mean (layerIn layers) u < g.mean (layerIn layers) v ∨
            g.mean (layerIn layers) u = g.mean (layerIn layers) v ∧
              g.names.idxOf u < g.names.idxOf v)) := by
  intro g rows
  have hg : g.names.Nodup := nodup_eraseDups names
  refine ⟨perm_lookup_rows hg, fun u hu v hv hlu hlv => ?_, fun hsize u hu v hv hlayer hne => ?_⟩
  · exact row_lt_iff_of_layer_zero hg hu hv hlu hlv
  · exact row_lt_iff_above hg hsize hu hv hlayer hne

/-- Two names of layer one whose predecessors stand the other way round in layer zero. -/
theorem row_order_crossed :
    let names := ["b", "a", "c", "d"]
    let edges := [("b", "c"), ("a", "d")]
    let layers : List (String × Int) := [("c", 1), ("d", 1)]
    let g := build names edges
    g.names.length * g.edges.length ^ 2 < 2 ^ 52 ∧ "c" ∈ g.names ∧ "d" ∈ g.names ∧
      "b" ∈ g.names ∧ "a" ∈ g.names ∧
      layerIn layers "a" = 0 ∧ layerIn layers "b" = 0 ∧
      layerIn layers "c" = layerIn layers "d" ∧ layerIn layers "d" ≠ 0 ∧
      (g.rows (layerIn layers)).row "d" < (g.rows (layerIn layers)).row "c" := by
  intro names edges layers g
  obtain ⟨-, hzero, hmeans⟩ := row_order names edges layers
  have hsize : g.names.length * g.edges.length ^ 2 < 2 ^ 52 := by decide
  refine ⟨hsize, by decide, by decide, by decide, by decide, by decide, by decide, by decide,
    by decide, ?_⟩
  have hbelow := (hzero "a" (by decide) "b" (by decide) (by decide) (by decide)).2 (by decide)
  refine (hmeans hsize "d" (by decide) "c" (by decide) (by decide) (by decide)).2 (.inl ?_)
  have hd : g.weight (layerIn layers) "d" = (g.rows (layerIn layers)).row "a" := rfl
  have hc : g.weight (layerIn layers) "c" = (g.rows (layerIn layers)).row "b" := rfl
  have hcount : g.count "c" = 1 ∧ g.count "d" = 1 := by decide
  rw [mean_lt_iff, hd, hc, hcount.1, hcount.2, Nat.mul_one, Nat.mul_one]
  exact hbelow

end SystemMap.Graph
