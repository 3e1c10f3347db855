/-
What the layers of a graph are, cycles or not. The order in which the walk finishes names
splits the edges in two: an edge whose source is finished before its target raises the
layer, any other one returns to a name under way and so closes a cycle (`returning`). The
edges that raise have no cycle, because the place in that order is a rank; and over them a
layer is the height of its name, with layer one asked for where a returning edge enters.

Without cycles no edge returns, so a layer is the length of a longest way and depends on
the names and the edges as sets only.
-/
import Mathlib.Order.Nat
import SystemMap.Proofs.Graph.Walk

namespace SystemMap.Graph

-- ================================================ the order of finishing

/-- What was finished before a name. -/
def before : List (String × Nat) → String → List (String × Nat)
  | [], _ => []
  | entry :: earlier, v => if entry.1 = v then earlier else before earlier v

theorem before_head (v : String) (n : Nat) (earlier : List (String × Nat)) :
    before ((v, n) :: earlier) v = earlier := if_pos rfl

theorem before_tail {x v : String} {n : Nat} {earlier : List (String × Nat)} (h : x ≠ v) :
    before ((x, n) :: earlier) v = before earlier v := if_neg h

/-- What was finished before a name is finished. -/
theorem namesOf_before_subset (done : List (String × Nat)) (v : String) :
    ∀ p ∈ namesOf (before done v), p ∈ namesOf done := by
  induction done with
  | nil => intro p hp; exact hp
  | cons entry earlier ih =>
      obtain ⟨x, n⟩ := entry
      intro p hp
      by_cases hx : x = v
      · subst hx
        rw [before_head] at hp
        exact List.mem_cons_of_mem _ hp
      · rw [before_tail hx] at hp
        exact List.mem_cons_of_mem _ (ih p hp)

/-- There is less finished before a name than with it. -/
theorem length_before_lt {done : List (String × Nat)} {v : String} (h : v ∈ namesOf done) :
    (before done v).length < done.length := by
  induction done with
  | nil => cases h
  | cons entry earlier ih =>
      obtain ⟨x, n⟩ := entry
      rw [List.length_cons]
      by_cases hx : x = v
      · subst hx
        rw [before_head]
        exact Nat.lt_succ_self _
      · rw [before_tail hx]
        have hv : v ∈ namesOf earlier := (List.mem_cons.1 h).resolve_left fun hv => hx hv.symm
        exact Nat.lt_succ_of_lt (ih hv)

variable {g : Graph} {done : List (String × Nat)}

/-- The place in the order of finishing is a rank. -/
theorem Settled.rank_lt (h : Settled g done) {p v : String}
    (hp : p ∈ namesOf (before done v)) :
    (before done p).length < (before done v).length := by
  induction h with
  | nil => cases hp
  | @cons x earlier h hx hback ih =>
      have hpe : p ∈ namesOf earlier := by
        by_cases hv : x = v
        · subst hv
          rwa [before_head] at hp
        · rw [before_tail hv] at hp
          exact namesOf_before_subset _ _ p hp
      have hpx : x ≠ p := fun hxp => hx (hxp ▸ hpe)
      rw [before_tail hpx]
      by_cases hv : x = v
      · subst hv
        rw [before_head]
        exact length_before_lt hpe
      · rw [before_tail hv] at hp ⊢
        exact ih hp

/-- The layer of a name that was finished earlier is the same in every later view. -/
theorem Settled.lookup_before (h : Settled g done) {p v : String}
    (hp : p ∈ namesOf (before done v)) : (before done v).lookup p = done.lookup p := by
  induction h with
  | nil => cases hp
  | @cons x earlier h hx hback ih =>
      have hskip : ∀ {n : Nat}, p ∈ namesOf earlier →
          ((x, n) :: earlier).lookup p = earlier.lookup p := by
        intro n hpe
        have hne : p ≠ x := fun hpx => hx (hpx ▸ hpe)
        rw [List.lookup_cons, beq_false_of_ne hne]
      by_cases hv : x = v
      · subst hv
        rw [before_head] at hp ⊢
        exact (hskip hp).symm
      · rw [before_tail hv] at hp ⊢
        rw [ih hp, hskip (namesOf_before_subset _ _ p hp)]

/-- What settled names say of each of them: its layer, and the ways back. -/
theorem Settled.at (h : Settled g done) {v : String} (hv : v ∈ namesOf done) :
    done.lookup v = some (height (before done v) (g.predecessors v)) ∧
      ∀ p ∈ g.predecessors v, p ∉ namesOf (before done v) → ∃ n, Way g.edges n v p := by
  induction h with
  | nil => cases hv
  | @cons x earlier h hx hback ih =>
      by_cases hxv : x = v
      · subst hxv
        rw [before_head]
        exact ⟨by rw [List.lookup_cons_self], hback⟩
      · have hve : v ∈ namesOf earlier := (List.mem_cons.1 hv).resolve_left fun h => hxv h.symm
        have hne : v ≠ x := fun h => hxv h.symm
        rw [before_tail hxv, List.lookup_cons, beq_false_of_ne hne]
        exact ih hve

-- ==================================================== edges that return

/-- The edges of a graph whose source is not finished before their target. -/
def returning (g : Graph) : List (String × String) :=
  g.edges.filter fun e => e.1 ∉ namesOf (before g.layers e.2)

/-- An edge returns if its source is not finished before its target. -/
theorem mem_returning {e : String × String} :
    e ∈ g.returning ↔ e ∈ g.edges ∧ e.1 ∉ namesOf (before g.layers e.2) := by
  unfold returning
  rw [List.mem_filter, decide_eq_true_eq]

/-- The other edges come from names that are. -/
theorem mem_raising {e : String × String} :
    e ∈ g.edges.filter (· ∉ g.returning)
      ↔ e ∈ g.edges ∧ e.1 ∈ namesOf (before g.layers e.2) := by
  rw [List.mem_filter, decide_eq_true_eq, mem_returning]
  constructor
  · intro hall
    obtain ⟨he, h⟩ := hall
    exact ⟨he, Decidable.not_not.1 fun hn => h ⟨he, hn⟩⟩
  · intro hall
    obtain ⟨he, h⟩ := hall
    exact ⟨he, fun hn => hn.2 h⟩

/-- An edge that returns lies on a cycle. -/
theorem onCycle_of_returning (hg : g.Proper) {e : String × String} (he : e ∈ g.returning) :
    OnCycle g.edges e := by
  obtain ⟨hsettled, hnames⟩ := settled_layers hg
  obtain ⟨hedge, hlate⟩ := mem_returning.1 he
  have hv : e.2 ∈ namesOf g.layers := hnames.mem_iff.2 (hg.ends e hedge).2
  exact ⟨hedge, (hsettled.at hv).2 _ (mem_predecessors.2 hedge) hlate⟩

/-- The edges that do not return have no cycle. -/
theorem acyclic_raising (hg : g.Proper) : Acyclic (g.edges.filter (· ∉ g.returning)) :=
  acyclic_of_rank (fun v => (before g.layers v).length) fun _ he =>
    (settled_layers hg).1.rank_lt (mem_raising.1 he).2

-- =========================================================== the layers

/-- The layer that the edges into a name ask for when those in `back` return: one beyond the
source of every edge not in `back`, and one if an edge of `back` enters the name. -/
def demanded (edges back : List (String × String)) (layer : String → Nat) (v : String) : Nat :=
  max (((edges.filter fun e => e.2 = v ∧ e ∉ back).map fun e => layer e.1 + 1).foldr max 0)
    (if ∃ e ∈ back, e.2 = v then 1 else 0)

theorem foldr_max_le_iff {ns : List Nat} {k : Nat} : ns.foldr max 0 ≤ k ↔ ∀ n ∈ ns, n ≤ k := by
  induction ns with
  | nil => simp
  | cons n ns ih =>
      rw [List.foldr_cons, Nat.max_le, ih]
      simp

/-- What is asked of a name is the least that each edge into it allows. -/
theorem demanded_le_iff {edges back : List (String × String)} {layer : String → Nat}
    {v : String} {k : Nat} :
    demanded edges back layer v ≤ k
      ↔ (∀ e ∈ edges, e.2 = v → e ∉ back → layer e.1 + 1 ≤ k) ∧
        ((∃ e ∈ back, e.2 = v) → 1 ≤ k) := by
  unfold demanded
  rw [Nat.max_le, foldr_max_le_iff]
  refine and_congr ?_ ?_
  · constructor
    · intro h e he hv hb
      refine h _ (List.mem_map_of_mem (List.mem_filter.2 ⟨he, ?_⟩))
      exact decide_eq_true ⟨hv, hb⟩
    · intro h n hn
      obtain ⟨e, he, rfl⟩ := List.mem_map.1 hn
      obtain ⟨he, hcond⟩ := List.mem_filter.1 he
      obtain ⟨hv, hb⟩ := of_decide_eq_true hcond
      exact h e he hv hb
  · split
    · next hback => exact ⟨fun h _ => h, fun h => h hback⟩
    · next hback => exact ⟨fun _ h => absurd h hback, fun _ => Nat.zero_le _⟩

/-- A predecessor finished before asks for one beyond its layer, any other for one. -/
theorem asks_before (hg : g.Proper) {p v : String} :
    asks (before g.layers v) p
      = if p ∈ namesOf (before g.layers v) then g.layer p + 1 else 1 := by
  unfold asks
  split
  · next n hn =>
    have hp : p ∈ namesOf (before g.layers v) := by
      by_contra hno
      rw [lookup_eq_none_iff.2 hno] at hn
      cases hn
    rw [if_pos hp]
    unfold layer
    rw [← (settled_layers hg).1.lookup_before hp, hn]
    rfl
  · next hn => rw [if_neg (lookup_eq_none_iff.1 hn)]

/-- The layer of a name is what its edges ask for. Both are compared with every bound. -/
theorem layer_eq_demanded (hg : g.Proper) {v : String} (hv : v ∈ g.names) :
    g.layers.lookup v = some (demanded g.edges g.returning g.layer v) := by
  obtain ⟨hsettled, hnames⟩ := settled_layers hg
  rw [(hsettled.at (hnames.mem_iff.2 hv)).1]
  refine congrArg some (eq_of_forall_ge_iff fun k => ?_)
  rw [height_le_iff, demanded_le_iff]
  constructor
  · intro h
    refine ⟨fun e he hev hback => ?_, fun ⟨e, he, hev⟩ => ?_⟩
    · obtain ⟨u, w⟩ := e
      cases (show w = v from hev)
      have hearly : u ∈ namesOf (before g.layers v) := by
        by_contra hno
        exact hback (mem_returning.2 ⟨he, hno⟩)
      have := h u (mem_predecessors.2 he)
      rwa [asks_before hg, if_pos hearly] at this
    · obtain ⟨u, w⟩ := e
      cases (show w = v from hev)
      obtain ⟨he, hlate⟩ := mem_returning.1 he
      have := h u (mem_predecessors.2 he)
      rwa [asks_before hg, if_neg hlate] at this
  · intro hall p hp
    obtain ⟨hraise, hback⟩ := hall
    have he := mem_predecessors.1 hp
    rw [asks_before hg]
    split
    · next hearly =>
      exact hraise (p, v) he rfl fun hret => (mem_returning.1 hret).2 hearly
    · next hlate => exact hback ⟨(p, v), mem_returning.2 ⟨he, hlate⟩, rfl⟩

/-- A name has the layer that is asked of it. -/
theorem layer_of_mem (hg : g.Proper) {v : String} (hv : v ∈ g.names) :
    g.layer v = demanded g.edges g.returning g.layer v := by
  conv_lhs => unfold layer
  rw [layer_eq_demanded hg hv]
  rfl

/-- An edge on no cycle raises the layer. -/
theorem layer_lt_of_not_onCycle (hg : g.Proper) {e : String × String} (he : e ∈ g.edges)
    (hcycle : ¬ OnCycle g.edges e) : g.layer e.1 < g.layer e.2 := by
  have hback : e ∉ g.returning := fun h => hcycle (onCycle_of_returning hg h)
  have hle := (demanded_le_iff.1 (Nat.le_of_eq (layer_of_mem hg (hg.ends e he).2).symm)).1
  exact hle e he rfl hback

/-- What is no name is on layer zero. -/
theorem mem_names_of_layer_pos (hg : g.Proper) {v : String} (hv : 0 < g.layer v) :
    v ∈ g.names := by
  by_contra hno
  have hlookup : g.layers.lookup v = none := by
    rw [lookup_eq_none_iff, (settled_layers hg).2.mem_iff]
    exact hno
  unfold layer at hv
  rw [hlookup] at hv
  exact Nat.lt_irrefl 0 hv

/-- Where a layer above zero comes from: some predecessor lies one layer below, or an edge that
returns asks for layer one. -/
theorem exists_asking (hg : g.Proper) {v : String} (hv : 0 < g.layer v) :
    (∃ u, (u, v) ∈ g.edges ∧ g.layer v = g.layer u + 1) ∨
      g.layer v = 1 ∧ ∃ e ∈ g.returning, e.2 = v := by
  have hmem := mem_names_of_layer_pos hg hv
  have hasked := layer_of_mem hg hmem
  obtain ⟨hraise, -⟩ := demanded_le_iff.1 (Nat.le_of_eq hasked.symm)
  by_contra hno
  push Not at hno
  obtain ⟨hpred, hback⟩ := hno
  -- else every edge into the name asks for less than its layer
  have hless : demanded g.edges g.returning g.layer v ≤ g.layer v - 1 := by
    refine demanded_le_iff.2 ⟨fun e he hev hkept => ?_, fun hreturn => ?_⟩
    · have hle := hraise e he hev hkept
      have hne := hpred e.1 (hev ▸ he)
      omega
    · obtain ⟨e, he, hev⟩ := hreturn
      have hne : g.layer v ≠ 1 := fun hone => hback hone e he hev
      omega
  omega

/-- Above layer zero, without cycles, some predecessor lies one layer below. -/
theorem exists_predecessor (hg : g.Proper) (hacyclic : Acyclic g.edges) {v : String}
    (hv : 0 < g.layer v) : ∃ u, (u, v) ∈ g.edges ∧ g.layer v = g.layer u + 1 := by
  rcases exists_asking hg hv with hpred | ⟨-, e, he, -⟩
  · exact hpred
  · exact absurd (onCycle_of_returning hg he) (hacyclic.not_onCycle _)

/-- A name has layer zero exactly if no edge leads to it. -/
theorem layer_eq_zero_iff (hg : g.Proper) {v : String} (hv : v ∈ g.names) :
    g.layer v = 0 ↔ ∀ u, (u, v) ∉ g.edges := by
  rw [layer_of_mem hg hv, ← Nat.le_zero, demanded_le_iff]
  constructor
  · rintro ⟨hraise, hback⟩ u he
    by_cases hreturn : (u, v) ∈ g.returning
    · exact absurd (hback ⟨_, hreturn, rfl⟩) (by omega)
    · exact absurd (hraise _ he rfl hreturn) (by omega)
  · intro hnone
    refine ⟨fun e he hev _ => absurd (hev ▸ he) (hnone e.1), fun hreturn => ?_⟩
    obtain ⟨e, he, hev⟩ := hreturn
    exact absurd (hev ▸ (mem_returning.1 he).1) (hnone e.1)

/-- Every layer from one up to that of a name is in use. The way there goes from the name down to
predecessors, one layer with each. -/
theorem exists_layer_eq (hg : g.Proper) {v : String} {k : Nat} (hk : 0 < k)
    (hle : k ≤ g.layer v) : ∃ u ∈ g.names, g.layer u = k := by
  induction hn : g.layer v using Nat.strongRecOn generalizing v with
  | ind n ih =>
      rcases Nat.lt_or_eq_of_le hle with hless | heq
      · rcases exists_asking hg (Nat.lt_of_lt_of_le hk hle) with ⟨u, -, hu⟩ | ⟨hone, -⟩
        · exact ih (g.layer u) (by omega) (by omega) rfl
        · omega
      · exact ⟨v, mem_names_of_layer_pos hg (heq ▸ hk), heq.symm⟩

/-- If layer zero is in use, no layer reaches the number of names. -/
theorem layer_lt_length (hg : g.Proper) {u : String} (hu : u ∈ g.names) (hzero : g.layer u = 0)
    (v : String) : g.layer v < g.names.length := by
  have hused : Finset.range (g.layer v + 1) ⊆ g.names.toFinset.image g.layer := by
    intro k hk
    rw [Finset.mem_range, Nat.lt_succ_iff] at hk
    rw [Finset.mem_image]
    rcases Nat.eq_zero_or_pos k with rfl | hpos
    · exact ⟨u, List.mem_toFinset.2 hu, hzero⟩
    · obtain ⟨w, hw, hlayer⟩ := exists_layer_eq hg hpos hk
      exact ⟨w, List.mem_toFinset.2 hw, hlayer⟩
  have hcard := (Finset.card_le_card hused).trans Finset.card_image_le
  rw [Finset.card_range, List.toFinset_card_of_nodup hg.nodup] at hcard
  exact hcard

/-- Without cycles a layer is the length of a longest way to its name. -/
theorem layer_longest (hg : g.Proper) (hacyclic : Acyclic g.edges) (v : String) :
    (∃ u, Way g.edges (g.layer v) u v) ∧ ∀ n u, Way g.edges n u v → n ≤ g.layer v :=
  longest_of_layer (fun e he => layer_lt_of_not_onCycle hg he (hacyclic.not_onCycle e))
    fun _ hw => exists_predecessor hg hacyclic hw

/-- Without cycles layers depend on the edges as a set. -/
theorem layer_congr {g' : Graph} (hg : g.Proper) (hg' : g'.Proper)
    (hacyclic : Acyclic g.edges) (hedges : ∀ e, e ∈ g'.edges ↔ e ∈ g.edges) (v : String) :
    g'.layer v = g.layer v := by
  have hacyclic' : Acyclic g'.edges := fun n v h =>
    hacyclic n v (h.mono fun e he => (hedges e).1 he)
  obtain ⟨⟨u, hway⟩, hmax⟩ := layer_longest hg hacyclic v
  obtain ⟨⟨u', hway'⟩, hmax'⟩ := layer_longest hg' hacyclic' v
  refine Nat.le_antisymm ?_ ?_
  · exact hmax _ _ (hway'.mono fun e he => (hedges e).1 he)
  · exact hmax' _ _ (hway.mono fun e he => (hedges e).2 he)

/-- Layers of any names and edges. Every distinct name has one. Some edges that each lie on
a cycle, without which the others have no cycle, are taken as returning; then a name lies
one layer beyond its farthest other predecessor, and at least in layer one if an edge
returns to it. So an edge on no cycle raises the layer, and without cycles a layer is the
length of a longest way, whatever the order of names and edges. -/
theorem layers_over_cut_cycles (names : List String) (edges : List (String × String)) :
    ((build names edges).layers.map (·.1)).Perm names.eraseDups ∧
      (∃ back : List (String × String), (∀ e ∈ back, OnCycle (build names edges).edges e) ∧
        Acyclic ((build names edges).edges.filter (· ∉ back)) ∧
        ∀ v ∈ names, (build names edges).layers.lookup v
          = some (demanded (build names edges).edges back (build names edges).layer v)) ∧
      (∀ e ∈ (build names edges).edges, ¬ OnCycle (build names edges).edges e →
        (build names edges).layer e.1 < (build names edges).layer e.2) ∧
      (Acyclic (build names edges).edges → ∀ v,
        ((∃ u, Way (build names edges).edges ((build names edges).layer v) u v) ∧
          ∀ n u, Way (build names edges).edges n u v → n ≤ (build names edges).layer v) ∧
        ∀ names' edges', (∀ x, x ∈ names' ↔ x ∈ names) → (∀ e, e ∈ edges' ↔ e ∈ edges) →
          (build names' edges').layer v = (build names edges).layer v) := by
  have hg := proper_build names edges
  refine ⟨(settled_layers hg).2, ⟨(build names edges).returning, ?_, acyclic_raising hg, ?_⟩,
    fun e he => layer_lt_of_not_onCycle hg he,
    fun hacyclic v => ⟨layer_longest hg hacyclic v, ?_⟩⟩
  · exact fun e he => onCycle_of_returning hg he
  · exact fun v hv => layer_eq_demanded hg (List.mem_eraseDups.2 hv)
  · intro names' edges' hnames hedges
    refine layer_congr hg (proper_build names' edges') hacyclic (fun e => ?_) v
    rw [mem_edges_build, mem_edges_build, hedges, hnames, hnames]

end SystemMap.Graph
