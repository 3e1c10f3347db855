/-
Layers are local. Take a set of names that no edge enters from outside. While the walk has names
of the set under way, it looks at names of the set only, and it does there what the walk through
the set alone does; while it has other names under way, it changes nothing in the set. For the
second half there must be a reason why no name of the set goes on the stack above others: no edge
leads out of the set, or all its names come first and are done by then (`Walk.Apart`).

So the part of the walk that concerns the set follows the walk through the part of the graph, move
by move or standing still (`within_move`), and the layers of the part are the part of the layers
(`layers_within`).
-/
import Mathlib.Data.Finset.Basic
import Mathlib.Data.Finset.Insert
import SystemMap.Proofs.Graph.Walk

namespace SystemMap.Graph

-- ================================================================= parts

/-- The part of a graph in a set: the names in the set, and the edges between them. -/
def within (S : Finset String) (g : Graph) : Graph where
  names := g.names.filter (· ∈ S)
  edges := g.edges.filter fun e => e.1 ∈ S ∧ e.2 ∈ S

/-- The part of a walk that concerns a set. -/
def Walk.within (S : Finset String) (w : Walk) : Walk where
  fresh := w.fresh.filter (· ∈ S)
  stack := w.stack.filter (·.name ∈ S)
  done := w.done.filter (·.1 ∈ S)

/-- No edge leads into a set from outside. -/
def Sheltered (S : Finset String) (g : Graph) : Prop := ∀ e ∈ g.edges, e.2 ∈ S → e.1 ∈ S

/-- No edge leads out of a set. -/
def Contained (S : Finset String) (g : Graph) : Prop := ∀ e ∈ g.edges, e.1 ∈ S → e.2 ∈ S

section Lists

variable {S : Finset String}

theorem filter_mem_eq_self {α : Type} {f : α → String} {l : List α} (h : ∀ a ∈ l, f a ∈ S) :
    l.filter (f · ∈ S) = l :=
  List.filter_eq_self.2 fun a ha => decide_eq_true (h a ha)

theorem filter_mem_eq_nil {α : Type} {f : α → String} {l : List α} (h : ∀ a ∈ l, f a ∉ S) :
    l.filter (f · ∈ S) = [] :=
  List.filter_eq_nil_iff.2 fun a ha => by simpa using h a ha

/-- Leaving other names out changes no layer. -/
theorem lookup_filter_mem {v : String} (hv : v ∈ S) (done : List (String × Nat)) :
    (done.filter (·.1 ∈ S)).lookup v = done.lookup v := by
  induction done with
  | nil => rfl
  | cons entry earlier ih =>
      obtain ⟨x, n⟩ := entry
      rw [List.filter_cons]
      split
      · rw [List.lookup_cons, List.lookup_cons, ih]
      · next hx =>
        have hne : v ≠ x := fun h => hx (by simpa using h ▸ hv)
        rw [ih, List.lookup_cons, beq_false_of_ne hne]

/-- A set keeps its predecessors if nothing else leads into it. -/
theorem predecessors_within {g : Graph} (hS : g.Sheltered S) {v : String} (hv : v ∈ S) :
    (g.within S).predecessors v = g.predecessors v := by
  unfold predecessors within
  dsimp only
  rw [List.filterMap_filter]
  refine List.filterMap_congr fun e he => ?_
  by_cases hev : e.2 = v
  · have htarget : e.2 ∈ S := hev ▸ hv
    rw [if_pos (decide_eq_true ⟨hS e he htarget, htarget⟩)]
  · rw [if_neg hev, ite_self]

end Lists

-- =============================================================== the walk

/-- How a walk keeps a set apart. The names under way are in the set, all or none, and while none
is, no name of the set can be entered: no edge leads out of the set, or no name of it is fresh.
Fresh names of the set stand before the others unless no edge leads out. -/
structure Walk.Apart (S : Finset String) (g : Graph) (w : Walk) : Prop where
  order : g.Contained S ∨ w.fresh.Pairwise fun a b => b ∈ S → a ∈ S
  side : (∀ f ∈ w.stack, f.name ∈ S) ∨
    (∀ f ∈ w.stack, f.name ∉ S) ∧ (g.Contained S ∨ ∀ v ∈ w.fresh, v ∉ S)

variable {S : Finset String} {g : Graph} {w w' : Walk}

/-- Where names outside the set are under way, what they wait for is outside too. -/
theorem not_mem_of_pending {f : Frame} {p : String} {fresh : List String}
    (hside : g.Contained S ∨ ∀ v ∈ fresh, v ∉ S) (hf : f.name ∉ S) (he : (p, f.name) ∈ g.edges)
    (hfresh : p ∈ fresh) : p ∉ S := by
  rcases hside with hout | hnone
  · exact fun hp => hf (hout _ he hp)
  · exact hnone p hfresh

theorem forall_name_raiseTop {P : String → Prop} {n : Nat} {stack : List Frame}
    (h : ∀ f ∈ stack, P f.name) : ∀ f ∈ Walk.raiseTop n stack, P f.name := by
  cases stack with
  | nil => exact h
  | cons f below => exact List.forall_mem_cons.2 (List.forall_mem_cons.1 h)

/-- Every move keeps the set apart. -/
theorem apart_move (hS : g.Sheltered S) (hi : w.Inv g) (ha : w.Apart S g) (h : w.Move g w') :
    w'.Apart S g := by
  obtain ⟨horder, hside⟩ := ha
  cases h with
  | @root name later done =>
      have hlater : g.Contained S ∨ later.Pairwise fun a b => b ∈ S → a ∈ S :=
        horder.imp_right fun h => (List.pairwise_cons.1 h).2
      refine ⟨hlater, ?_⟩
      dsimp only
      by_cases hname : name ∈ S
      · exact .inl (List.forall_mem_singleton.2 hname)
      · refine .inr ⟨List.forall_mem_singleton.2 hname, horder.imp_right fun h v hv hin => ?_⟩
        exact hname ((List.pairwise_cons.1 h).1 v hv hin)
  | @finish fresh f below done hpending =>
      refine ⟨horder, hside.imp ?_ ?_⟩
      · exact fun hin => forall_name_raiseTop (List.forall_mem_cons.1 hin).2
      · rintro ⟨hout, hfresh⟩
        exact ⟨forall_name_raiseTop (P := (· ∉ S)) (List.forall_mem_cons.1 hout).2, hfresh⟩
  | @wait fresh f below done p later hpending hfresh =>
      have hedge := hi.stacked.edge_of_pending (hpending ▸ List.mem_cons_self)
      refine ⟨horder.imp_right fun h => h.sublist List.erase_sublist, hside.imp ?_ ?_⟩
      · intro hin
        exact List.forall_mem_cons.2 ⟨hS _ hedge (hin f List.mem_cons_self),
          List.forall_mem_cons.2 (List.forall_mem_cons.1 hin)⟩
      · rintro ⟨hout, hnone⟩
        have hp := not_mem_of_pending hnone (hout f List.mem_cons_self) hedge hfresh
        refine ⟨List.forall_mem_cons.2 ⟨hp, List.forall_mem_cons.2 (List.forall_mem_cons.1 hout)⟩,
          hnone.imp_right fun h v hv => h v (List.mem_of_mem_erase hv)⟩
  | @count fresh f below done p later hpending hfresh =>
      exact ⟨horder, hside.imp (fun hin => List.forall_mem_cons.2 (List.forall_mem_cons.1 hin))
        (And.imp_left fun hout => List.forall_mem_cons.2 (List.forall_mem_cons.1 hout))⟩

/-- A move in the set is one of the walk through the part, any other changes nothing there. -/
theorem within_move (hS : g.Sheltered S) (hi : w.Inv g) (ha : w.Apart S g) (h : w.Move g w') :
    (w.within S).Move (g.within S) (w'.within S) ∨ w'.within S = w.within S := by
  have hside := ha.side
  unfold Walk.within
  cases h with
  | @root name later done =>
      by_cases hname : name ∈ S
      · left
        simp only [List.filter_cons, List.filter_nil, hname, decide_true, if_true]
        rw [← predecessors_within hS hname]
        exact .root
      · right
        simp [hname]
  | @finish fresh f below done hpending =>
      rcases hside with hin | ⟨hout, -⟩
      · left
        obtain ⟨hf, hbelow⟩ := List.forall_mem_cons.1 hin
        simp only [List.filter_cons, hf, decide_true, if_true]
        rw [filter_mem_eq_self hbelow, filter_mem_eq_self (forall_name_raiseTop hbelow)]
        exact .finish hpending
      · right
        obtain ⟨hf, hbelow⟩ := List.forall_mem_cons.1 hout
        have hraised := forall_name_raiseTop (P := (· ∉ S)) (n := f.layer + 1) hbelow
        simp only [List.filter_cons, hf, decide_false, Bool.false_eq_true, if_false]
        rw [filter_mem_eq_nil hbelow, filter_mem_eq_nil hraised]
  | @wait fresh f below done p later hpending hfresh =>
      have hedge := hi.stacked.edge_of_pending (hpending ▸ List.mem_cons_self)
      rw [← List.erase_filter]
      rcases hside with hin | ⟨hout, hnone⟩
      · left
        obtain ⟨hf, hbelow⟩ := List.forall_mem_cons.1 hin
        have hp : p ∈ S := hS _ hedge hf
        simp only [List.filter_cons, hf, hp, decide_true, if_true]
        rw [filter_mem_eq_self hbelow, ← predecessors_within hS hp]
        exact .wait hpending (List.mem_filter.2 ⟨hfresh, decide_eq_true hp⟩)
      · right
        obtain ⟨hf, hbelow⟩ := List.forall_mem_cons.1 hout
        have hp : p ∉ S := not_mem_of_pending hnone hf hedge hfresh
        simp only [List.filter_cons, hf, hp, decide_false, Bool.false_eq_true, if_false]
        have hgone : p ∉ fresh.filter (· ∈ S) := fun h =>
          hp (of_decide_eq_true (List.mem_filter.1 h).2)
        rw [List.erase_of_not_mem hgone]
  | @count fresh f below done p later hpending hfresh =>
      have hedge := hi.stacked.edge_of_pending (hpending ▸ List.mem_cons_self)
      rcases hside with hin | ⟨hout, -⟩
      · left
        obtain ⟨hf, hbelow⟩ := List.forall_mem_cons.1 hin
        have hasks : asks done p = asks (done.filter (·.1 ∈ S)) p := by
          unfold asks
          rw [lookup_filter_mem (hS _ hedge hf)]
        simp only [List.filter_cons, hf, decide_true, if_true]
        rw [filter_mem_eq_self hbelow, hasks]
        exact .count hpending fun h => hfresh (List.mem_filter.1 h).1
      · right
        obtain ⟨hf, -⟩ := List.forall_mem_cons.1 hout
        simp [hf]

/-- The part of the whole walk is the whole walk through the part, by induction on the moves. -/
theorem finish_within (hg : g.Proper) (hS : g.Sheltered S) (hi : w.Inv g) (ha : w.Apart S g) :
    (w.within S).finish (g.within S) = (w.finish g).within S := by
  induction w using Walk.finish.induct g with
  | case1 w hstop =>
      obtain ⟨hfresh, hstack⟩ := eq_nil_of_step_none hstop
      rw [Walk.finish_of_stop hstop]
      apply Walk.finish_of_stop
      unfold Walk.within
      rw [hfresh, hstack]
      rfl
  | case2 w w' hstep ih =>
      have hmove := move_of_step hstep
      rw [Walk.finish_of_step hstep, ← ih (inv_move hg hi hmove) (apart_move hS hi ha hmove)]
      rcases within_move hS hi ha hmove with hfollow | hstill
      · exact Walk.finish_of_step (step_of_move hfollow)
      · rw [hstill]

/-- The layers of a part that no edge enters are the part of the layers. -/
theorem layers_within (hg : g.Proper) (hS : g.Sheltered S)
    (horder : g.Contained S ∨ g.names.Pairwise fun a b => b ∈ S → a ∈ S) :
    (g.within S).layers = g.layers.filter (·.1 ∈ S) :=
  congrArg Walk.done (finish_within hg hS (inv_start g) ⟨horder, .inl nofun⟩)

-- ======================================================== graphs as built

/-- A part of a built graph is built from the names and edges in the set. -/
theorem build_within (S : Finset String) (names : List String) (edges : List (String × String)) :
    (build names edges).within S
      = build (names.filter (· ∈ S)) (edges.filter fun e => e.1 ∈ S ∧ e.2 ∈ S) := by
  unfold build within
  dsimp only
  rw [← eraseDups_filter, List.filter_filter, List.filter_filter]
  congr 1
  refine List.filter_congr fun e _ => ?_
  by_cases hsource : e.1 ∈ S <;> by_cases htarget : e.2 ∈ S <;> simp [hsource, htarget]

/-- With more names and edges, of which no edge leads to the old names, the part in the old names
is the old graph. -/
theorem build_append_within {names more : List String} {edges added : List (String × String)}
    (hadded : ∀ e ∈ added, e.1 ∈ names ++ more → e.2 ∉ names) :
    (build (names ++ more) (edges ++ added)).within names.toFinset = build names edges := by
  unfold within build
  congr 1
  · rw [List.eraseDups_append, List.filter_append]
    have hold : names.eraseDups.filter (· ∈ names.toFinset) = names.eraseDups :=
      List.filter_eq_self.2 fun v hv => by simpa using hv
    have hnew : (more.removeAll names).eraseDups.filter (· ∈ names.toFinset) = [] :=
      List.filter_eq_nil_iff.2 fun v hv => by
        simpa [List.removeAll] using (List.mem_filter.1 (List.mem_eraseDups.1 hv)).2
    rw [hold, hnew, List.append_nil]
  · rw [List.filter_filter, List.filter_append]
    have hnew : added.filter (fun e => decide (e.1 ∈ names.toFinset ∧ e.2 ∈ names.toFinset) &&
        ((names ++ more).contains e.1 && (names ++ more).contains e.2)) = [] := by
      refine List.filter_eq_nil_iff.2 fun e he hall => ?_
      simp only [Bool.and_eq_true, decide_eq_true_eq, List.mem_toFinset] at hall
      exact hadded e he (List.mem_append_left _ hall.1.1) hall.1.2
    rw [hnew, List.append_nil]
    refine List.filter_congr fun e _ => ?_
    by_cases hsource : e.1 ∈ names <;> by_cases htarget : e.2 ∈ names <;>
      simp [hsource, htarget]

/-- Each name gets a layer. -/
theorem exists_lookup_layers {names : List String} (edges : List (String × String)) {v : String}
    (hv : v ∈ names) : ∃ n, (build names edges).layers.lookup v = some n := by
  refine Option.ne_none_iff_exists'.1 fun hnone => lookup_eq_none_iff.1 hnone ?_
  rw [(settled_layers (proper_build names edges)).2.mem_iff]
  exact List.mem_eraseDups.2 hv

/-- Names of a set that come first stand before the others in the graph too. -/
theorem pairwise_of_first {names : List String} {S : Finset String}
    (h : ∀ a ∈ names, ∀ b ∈ names, a ∈ S → b ∉ S → names.idxOf a < names.idxOf b) :
    names.eraseDups.Pairwise fun a b => b ∈ S → a ∈ S := by
  refine (pairwise_idxOf_eraseDups names).imp_of_mem fun {a b} ha hb hab hbS => ?_
  by_contra haS
  have hba := h b (List.mem_eraseDups.1 hb) a (List.mem_eraseDups.1 ha) hbS haS
  exact Nat.lt_asymm hab hba

/-- The part of a built graph in a set that no edge enters has the layers that it has alone. -/
theorem lookup_layers_within {names : List String} {edges : List (String × String)}
    {S : Finset String} (hS : (build names edges).Sheltered S)
    (horder : (build names edges).Contained S ∨
      (build names edges).names.Pairwise fun a b => b ∈ S → a ∈ S) {v : String} (hv : v ∈ names)
    (hvS : v ∈ S) : ∃ n, (build names edges).layers.lookup v = some n ∧
      ((build names edges).within S).layers.lookup v = some n := by
  obtain ⟨n, hn⟩ := exists_lookup_layers edges hv
  refine ⟨n, hn, ?_⟩
  rw [layers_within (proper_build names edges) hS horder, lookup_filter_mem hvS, hn]

/-- Layers are local. If no edge between the names of a graph enters a set, and its names all come
before the others or no edge leaves it either, then its names have the layers that they have alone,
with the edges between them. So names and edges that are added at the end do not move any name,
unless an edge now leads to one of the old names from a new name or along a new edge. -/
theorem layers_local :
    (∀ (names : List String) (edges : List (String × String)) (S : Finset String),
      (∀ e ∈ edges, e.1 ∈ names → e.2 ∈ names → e.2 ∈ S → e.1 ∈ S) →
      ((∀ a ∈ names, ∀ b ∈ names, a ∈ S → b ∉ S → names.idxOf a < names.idxOf b) ∨
        ∀ e ∈ edges, e.1 ∈ names → e.2 ∈ names → e.1 ∈ S → e.2 ∈ S) →
      ∀ v ∈ names, v ∈ S → ∃ n, (build names edges).layers.lookup v = some n ∧
        (build (names.filter (· ∈ S))
          (edges.filter fun e => e.1 ∈ S ∧ e.2 ∈ S)).layers.lookup v = some n) ∧
    ∀ (names more : List String) (edges added : List (String × String)),
      (∀ e ∈ edges, e.1 ∈ names ++ more → e.2 ∈ names → e.1 ∈ names) →
      (∀ e ∈ added, e.1 ∈ names ++ more → e.2 ∉ names) →
      ∀ v ∈ names, ∃ n, (build (names ++ more) (edges ++ added)).layers.lookup v = some n ∧
        (build names edges).layers.lookup v = some n := by
  constructor
  · intro names edges S hin hside v hv hvS
    rw [← build_within]
    refine lookup_layers_within (fun e he => ?_) (hside.symm.imp (fun hout e he => ?_) ?_) hv hvS
    · obtain ⟨he, hsource, htarget⟩ := mem_edges_build.1 he
      exact hin e he hsource htarget
    · obtain ⟨he, hsource, htarget⟩ := mem_edges_build.1 he
      exact hout e he hsource htarget
    · exact pairwise_of_first
  · intro names more edges added hedges hadded v hv
    rw [← build_append_within hadded]
    refine lookup_layers_within (fun e he htarget => ?_) (.inr (pairwise_of_first ?_))
      (List.mem_append_left _ hv) (List.mem_toFinset.2 hv)
    · obtain ⟨he, hsource, -⟩ := mem_edges_build.1 he
      rw [List.mem_toFinset] at htarget ⊢
      rcases List.mem_append.1 he with he | he
      · exact hedges e he hsource htarget
      · exact absurd htarget (hadded e he hsource)
    · intro a _ b _ ha hb
      rw [List.mem_toFinset] at ha hb
      rw [List.idxOf_append_of_mem ha, List.idxOf_append_of_notMem hb]
      exact Nat.lt_add_right _ (List.idxOf_lt_length_iff.2 ha)

/-- Two circles whose names are given in turns, and one of them with a name added behind it. -/
theorem circles_local :
    let names := ["x", "a", "y", "b"]
    let circle := [("a", "b"), ("b", "a")]
    let edges := circle ++ [("x", "y"), ("y", "x")]
    let S : Finset String := {"a", "b"}
    (∀ e ∈ edges, e.1 ∈ names → e.2 ∈ names → e.2 ∈ S → e.1 ∈ S) ∧
      (∀ e ∈ edges, e.1 ∈ names → e.2 ∈ names → e.1 ∈ S → e.2 ∈ S) ∧
      (∃ n, (build names edges).layers.lookup "b" = some n ∧
        (build ["a", "b"] circle).layers.lookup "b" = some n) ∧
      (∀ e ∈ circle, e.1 ∈ ["a", "b"] ++ ["c"] → e.2 ∈ ["a", "b"] → e.1 ∈ ["a", "b"]) ∧
      (∀ e ∈ [("b", "c")], e.1 ∈ ["a", "b"] ++ ["c"] → e.2 ∉ ["a", "b"]) ∧
      ∃ n, (build (["a", "b"] ++ ["c"]) (circle ++ [("b", "c")])).layers.lookup "b" = some n ∧
        (build ["a", "b"] circle).layers.lookup "b" = some n := by
  intro names circle edges S
  have hin : ∀ e ∈ edges, e.1 ∈ names → e.2 ∈ names → e.2 ∈ S → e.1 ∈ S := by decide
  have hout : ∀ e ∈ edges, e.1 ∈ names → e.2 ∈ names → e.1 ∈ S → e.2 ∈ S := by decide
  have hcircle : ∀ e ∈ circle, e.1 ∈ ["a", "b"] ++ ["c"] → e.2 ∈ ["a", "b"] →
      e.1 ∈ ["a", "b"] := by decide
  have hbehind : ∀ e ∈ [("b", "c")], e.1 ∈ ["a", "b"] ++ ["c"] → e.2 ∉ ["a", "b"] := by decide
  refine ⟨hin, hout, ?_, hcircle, hbehind, ?_⟩
  · exact layers_local.1 names edges S hin (.inr hout) "b" (by decide) (by decide)
  · exact layers_local.2 ["a", "b"] ["c"] circle [("b", "c")] hcircle hbehind "b" (by decide)

end SystemMap.Graph
