/-
Ways through a graph, and the two notions that layers are measured by: an edge lies on a
cycle if a way leads back from its target to its source, and edges without a cycle have no
way of one edge or more from a name to itself.

A rank that every edge raises rules out cycles (`acyclic_of_rank`), and a layer that lies
beyond those of all predecessors and is asked for by one of them is the length of a longest
way (`longest_of_layer`).
-/
import SystemMap.Graph

namespace SystemMap.Graph

/-- A way of so many edges from one name to another. -/
inductive Way (edges : List (String × String)) : Nat → String → String → Prop
  | stay (v : String) : Way edges 0 v v
  | go {n : Nat} {u v w : String} (h : Way edges n u v) (he : (v, w) ∈ edges) :
      Way edges (n + 1) u w

/-- An edge of some edges that a way leads back over. -/
def OnCycle (edges : List (String × String)) (e : String × String) : Prop :=
  e ∈ edges ∧ ∃ n, Way edges n e.2 e.1

/-- No way leads from a name to itself over an edge. -/
def Acyclic (edges : List (String × String)) : Prop := ∀ n v, ¬ Way edges (n + 1) v v

variable {edges : List (String × String)}

/-- Ways in a row make one way. -/
theorem Way.trans {m n : Nat} {u v w : String} (h : Way edges m u v)
    (h' : Way edges n v w) : Way edges (m + n) u w := by
  induction h' with
  | stay v => exact h
  | go h' he ih => exact (ih h).go he

/-- A way that starts with an edge. -/
theorem Way.edge {u v : String} (he : (u, v) ∈ edges) : Way edges 1 u v := (Way.stay u).go he

/-- A way stays one among more edges. -/
theorem Way.mono {edges' : List (String × String)} (hsub : ∀ e ∈ edges, e ∈ edges') {n : Nat}
    {u v : String} (h : Way edges n u v) : Way edges' n u v := by
  induction h with
  | stay v => exact .stay v
  | go h he ih => exact ih.go (hsub _ he)

/-- Without cycles no edge lies on one. -/
theorem Acyclic.not_onCycle (h : Acyclic edges) (e : String × String) :
    ¬ OnCycle edges e := by
  intro h
  obtain ⟨he, n, hback⟩ := h
  exact h n e.2 (hback.go he)

-- ================================================================== ranks

/-- Along a way of edges that all raise a rank, the rank rises. -/
theorem rank_lt_of_way {rank : String → Nat} (hrank : ∀ e ∈ edges, rank e.1 < rank e.2)
    {n : Nat} {u v : String} (h : Way edges n u v) : rank u + n ≤ rank v := by
  induction h with
  | stay v => exact Nat.le_refl _
  | go h he ih =>
      have := hrank _ he
      dsimp only at this
      omega

/-- Where each edge leads to a higher rank, none leads back. -/
theorem acyclic_of_rank (rank : String → Nat) (hrank : ∀ e ∈ edges, rank e.1 < rank e.2) :
    Acyclic edges := by
  intro n v h
  have := rank_lt_of_way hrank h
  omega

-- ============================================================ longest ways

/-- A layer that every edge raises, and that beyond the lowest some edge raises by one, is
the length of a longest way. The way is found backwards, from the name to a predecessor one
layer below. -/
theorem longest_of_layer {layer : String → Nat} {v : String}
    (hlt : ∀ e ∈ edges, layer e.1 < layer e.2)
    (hpred : ∀ w, 0 < layer w → ∃ u, (u, w) ∈ edges ∧ layer w = layer u + 1) :
    (∃ u, Way edges (layer v) u v) ∧ ∀ n u, Way edges n u v → n ≤ layer v := by
  constructor
  · generalize hk : layer v = k
    induction k generalizing v with
    | zero => exact ⟨v, .stay v⟩
    | succ k ih =>
        obtain ⟨u, he, hu⟩ := hpred v (by omega)
        obtain ⟨t, hway⟩ := ih (v := u) (by omega)
        exact ⟨t, hway.go he⟩
  · intro n u h
    have := rank_lt_of_way hlt h
    omega

end SystemMap.Graph
