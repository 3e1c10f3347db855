/-
The walk for layers and the recursion that it stands for. The recursion visits the names in
their order, each once. A name being visited is in progress while its predecessors are looked
at in the order of their edges: one that is not visited yet is visited first, and then, as one
that was done before, it asks for one layer beyond its own; one that is still in progress asks
for layer one. The name is done with the highest layer asked for.

The walk keeps on a stack what the recursion keeps in its pending calls. A frame is a call that
has looked at a part of its predecessors, and a frame that waits for the one above it is a call
that waits for the visit of a predecessor. So a visit, in whatever calls it is made, is a piece
of the walk with the frames of those calls below (`finish_look`), and the recursion as a whole
is the whole walk (`finish_visitAll`).

How long the walk takes is counted on its moves, one by one. Every move of a walk with names
under way leaves one thing less to do (`toDo_of_move`), and a name goes on the stack just when it
leaves the fresh names (`pushed_of_move`).
-/
import Mathlib.Algebra.BigOperators.Group.List.Basic
import Mathlib.Algebra.Ring.Nat
import SystemMap.Proofs.Graph.Walk

namespace SystemMap.Graph

-- =========================================================== the recursion

/-- What a recursion knows of a name. -/
inductive Mark where
  | unvisited
  | inProgress
  | done (layer : Nat)
deriving DecidableEq

/-- How far a recursion has come: the names that it has not visited, and the layers of those
that it is done with. The others are in progress. -/
structure Marks where
  unvisited : List String
  layers : List (String × Nat)
deriving DecidableEq

namespace Marks

/-- The mark of a name. -/
def mark (m : Marks) (v : String) : Mark :=
  if v ∈ m.unvisited then .unvisited
  else match m.layers.lookup v with
    | some n => .done n
    | none => .inProgress

/-- A visit of a name begins. -/
def enter (v : String) (m : Marks) : Marks := { m with unvisited := m.unvisited.erase v }

/-- A visit of a name ends. -/
def leave (v : String) (layer : Nat) (m : Marks) : Marks :=
  { m with layers := (v, layer) :: m.layers }

/-- A name without a mark is still to be visited. -/
theorem mem_of_mark {m : Marks} {v : String} (h : m.mark v = .unvisited) : v ∈ m.unvisited := by
  unfold mark at h
  split at h
  · assumption
  · split at h <;> cases h

/-- Entering a name leaves fewer to be visited. -/
theorem length_enter {m : Marks} {v : String} (h : v ∈ m.unvisited) :
    (m.enter v).unvisited.length < m.unvisited.length := by
  have hpos := List.length_pos_of_mem h
  unfold enter
  dsimp only
  rw [List.length_erase_of_mem h]
  omega

end Marks

mutual

/-- Visits a name: its layer, and the marks after the visit. -/
def visit (g : Graph) (v : String) (m : Marks) (_hv : v ∈ m.unvisited) :
    { r : Nat × Marks // r.2.unvisited.Sublist (m.unvisited.erase v) } :=
  let r := look g (g.predecessors v) 0 (m.enter v)
  ⟨(r.1.1, r.1.2.leave v r.1.1), r.2⟩
termination_by (m.unvisited.length, 0)
decreasing_by exact Prod.Lex.left _ _ (Marks.length_enter _hv)

/-- Looks at predecessors of a name, `layer` being what those before them ask for. -/
def look (g : Graph) (ps : List String) (layer : Nat) (m : Marks) :
    { r : Nat × Marks // r.2.unvisited.Sublist m.unvisited } :=
  match ps with
  | [] => ⟨(layer, m), List.Sublist.refl _⟩
  | p :: later =>
    match hp : m.mark p with
    | .unvisited =>
      let visited := visit g p m (Marks.mem_of_mark hp)
      let r := look g later (max layer (visited.1.1 + 1)) visited.1.2
      ⟨r.1, r.2.trans (visited.2.trans List.erase_sublist)⟩
    | .done n => look g later (max layer (n + 1)) m
    | .inProgress => look g later (max layer 1) m
termination_by (m.unvisited.length, ps.length)
decreasing_by
  · exact Prod.Lex.right _ (Nat.succ_pos _)
  · refine Prod.Lex.left _ _ (Nat.lt_of_le_of_lt visited.2.length_le ?_)
    exact Marks.length_enter (Marks.mem_of_mark hp)
  · exact Prod.Lex.right _ (Nat.lt_succ_self _)
  · exact Prod.Lex.right _ (Nat.lt_succ_self _)

end

/-- Visits those among some names that are not visited yet, in their order. -/
def visitAll (g : Graph) : List String → Marks → Marks
  | [], m => m
  | v :: later, m =>
    if hv : v ∈ m.unvisited then visitAll g later (visit g v m hv).1.2 else visitAll g later m

/-- The layers of a graph by recursion, the last finished first. -/
def recursiveLayers (g : Graph) : List (String × Nat) := (g.visitAll g.names ⟨g.names, []⟩).layers

-- ================================================== pieces of the walk

/-- The walk that has come as far as a recursion, with the calls that are pending. -/
def Marks.walk (m : Marks) (stack : List Frame) : Walk := ⟨m.unvisited, stack, m.layers⟩

section Steps

variable {g : Graph} {m : Marks} {v : String} {later : List String} {layer : Nat}
  {below : List Frame}

/-- With nothing under way, the walk takes up the next name. -/
theorem step_root (h : m.unvisited = v :: later) :
    (m.walk []).step g = some ((m.enter v).walk [⟨v, g.predecessors v, 0⟩]) := by
  obtain ⟨unvisited, layers⟩ := m
  cases h
  rfl

/-- With no predecessor left, the name on top is done, and the one below asks for one layer more.
-/
theorem step_leave :
    (m.walk (⟨v, [], layer⟩ :: below)).step g
      = some ((m.leave v layer).walk (Walk.raiseTop (layer + 1) below)) := rfl

end Steps

/-- At a predecessor the walk does what the mark of it says. -/
theorem step_look (g : Graph) (m : Marks) (v p : String) (later : List String) (layer : Nat)
    (below : List Frame) :
    (m.walk (⟨v, p :: later, layer⟩ :: below)).step g = some (match m.mark p with
      | .unvisited => (m.enter p).walk (⟨p, g.predecessors p, 0⟩ :: ⟨v, later, layer⟩ :: below)
      | .done n => m.walk (⟨v, later, max layer (n + 1)⟩ :: below)
      | .inProgress => m.walk (⟨v, later, max layer 1⟩ :: below)) := by
  unfold Walk.step Marks.walk Marks.mark
  dsimp only
  by_cases hp : p ∈ m.unvisited
  · rw [if_pos hp, if_pos hp]
    rfl
  · rw [if_neg hp, if_neg hp]
    cases List.lookup p m.layers <;> rfl

/-- A visit is a piece of the walk: from where its name has been put on the stack to where the
frame below has been told its layer. Looking at predecessors is a part of that piece. The
induction is that of the recursion, and the frames below are those of any pending calls. -/
theorem finish_look (g : Graph) :
    (∀ v m (hv : v ∈ m.unvisited) below,
      ((m.enter v).walk (⟨v, g.predecessors v, 0⟩ :: below)).finish g
        = ((g.visit v m hv).1.2.walk
            (Walk.raiseTop ((g.visit v m hv).1.1 + 1) below)).finish g) ∧
      ∀ ps layer m v below, (m.walk (⟨v, ps, layer⟩ :: below)).finish g
        = ((g.look ps layer m).1.2.walk (⟨v, [], (g.look ps layer m).1.1⟩ :: below)).finish g := by
  apply visit.mutual_induct_unfolding g
    (fun v m _ r => ∀ below, ((m.enter v).walk (⟨v, g.predecessors v, 0⟩ :: below)).finish g
      = (r.1.2.walk (Walk.raiseTop (r.1.1 + 1) below)).finish g)
    (fun ps layer m r => ∀ v below, (m.walk (⟨v, ps, layer⟩ :: below)).finish g
      = (r.1.2.walk (⟨v, [], r.1.1⟩ :: below)).finish g)
  · intro v m hv r ih below
    rw [ih v below]
    exact Walk.finish_of_step step_leave
  · intro layer m v below
    rfl
  · intro layer m p later hp visited r ihvisit ihlater _ v below
    have hstep := step_look g m v p later layer below
    rw [hp] at hstep
    rw [Walk.finish_of_step hstep, ihvisit (⟨v, later, layer⟩ :: below)]
    exact ihlater v below
  · intro layer m p later n hp ih v below
    have hstep := step_look g m v p later layer below
    rw [hp] at hstep
    exact (Walk.finish_of_step hstep).trans (ih v below)
  · intro layer m p later hp ih v below
    have hstep := step_look g m v p later layer below
    rw [hp] at hstep
    exact (Walk.finish_of_step hstep).trans (ih v below)

/-- The whole recursion is the whole walk. A name that is still unvisited is the first of the
fresh ones when its turn comes, since the fresh names are in the order of the names to come. -/
theorem finish_visitAll {g : Graph} {names : List String} (hnames : names.Nodup) {m : Marks}
    (hm : m.unvisited.Sublist names) :
    (m.walk []).finish g = (g.visitAll names m).walk [] := by
  induction names generalizing m with
  | nil =>
      obtain ⟨unvisited, layers⟩ := m
      cases hm
      exact Walk.finish_of_stop rfl
  | cons v later ih =>
      obtain ⟨hv, hlater⟩ := List.nodup_cons.1 hnames
      obtain ⟨unvisited, layers⟩ := m
      rw [visitAll]
      cases hm with
      | cons _ hsub =>
          rw [dif_neg fun hin => hv (hsub.subset hin)]
          exact ih hlater hsub
      | @cons_cons rest _ _ hsub =>
          have hfirst : v ∈ v :: rest := List.mem_cons_self
          have hleft : ((v :: rest).erase v).Sublist later := by
            rw [List.erase_cons_head]
            exact hsub
          rw [dif_pos hfirst, Walk.finish_of_step (step_root rfl), (finish_look g).1 v _ hfirst []]
          exact ih hlater ((g.visit v ⟨v :: rest, layers⟩ hfirst).2.trans hleft)

/-- The walk comes to what the recursion comes to. -/
theorem layers_eq_recursiveLayers {g : Graph} (hg : g.names.Nodup) :
    g.layers = g.recursiveLayers := by
  have hwhole := finish_visitAll (g := g) (m := ⟨g.names, []⟩) hg (List.Sublist.refl _)
  exact congrArg Walk.done hwhole

-- ============================================================ the moves

namespace Walk

/-- The moves of a walk, each from one state to the next. -/
def moves (g : Graph) (w : Walk) : List (Walk × Walk) :=
  match _h : w.step g with
  | none => []
  | some w' => (w, w') :: moves g w'
termination_by (w.fresh.length, work w.stack)
decreasing_by exact step_decreases _h

/-- The name that a move puts on the stack, if it puts one there. -/
def pushed? (move : Walk × Walk) : Option String :=
  if move.1.stack.length < move.2.stack.length then move.2.stack.head?.map (·.name) else none

/-- Whether a move is made with names under way. The others only begin with a name. -/
def isInner (move : Walk × Walk) : Bool := !move.1.stack.isEmpty

/-- What a walk has still to do with names under way: to look at each predecessor, and to take
each name off the stack. -/
def toDo (g : Graph) (w : Walk) : Nat :=
  (w.fresh.map fun v => (g.predecessors v).length + 1).sum + work w.stack

variable {g : Graph} {w w' : Walk}

/-- A move with names under way leaves one thing less to do, any other as much. -/
theorem toDo_of_move (h : w.Move g w') :
    w.toDo g = w'.toDo g + if isInner (w, w') then 1 else 0 := by
  cases h with
  | @root name later done =>
      show (List.map _ (name :: later)).sum + work [] = (List.map _ later).sum + work [_] + 0
      simp only [List.map_cons, List.sum_cons, work_cons]
      omega
  | @finish fresh f below done hpending =>
      show (List.map _ fresh).sum + work (f :: below)
        = (List.map _ fresh).sum + work (raiseTop _ below) + 1
      simp only [work_raiseTop, work_cons, hpending, List.length_nil]
      omega
  | @wait fresh f below done p later hpending hfresh =>
      have hsum := ((List.perm_cons_erase hfresh).map
        fun v => (g.predecessors v).length + 1).sum_nat
      show (List.map _ fresh).sum + work (f :: below)
        = (List.map _ (fresh.erase p)).sum + work (_ :: _ :: below) + 1
      simp only [work_cons, hpending, List.length_cons, List.map_cons, List.sum_cons] at hsum ⊢
      omega
  | @count fresh f below done p later hpending hfresh =>
      show (List.map _ fresh).sum + work (f :: below)
        = (List.map _ fresh).sum + work (_ :: below) + 1
      simp only [work_cons, hpending, List.length_cons]
      omega

theorem length_raiseTop (n : Nat) (stack : List Frame) :
    (raiseTop n stack).length = stack.length := by
  cases stack <;> rfl

/-- A move puts a name on the stack exactly if it takes it from the fresh names. -/
theorem pushed_of_move (h : w.Move g w') :
    ((pushed? (w, w')).toList ++ w'.fresh).Perm w.fresh := by
  cases h with
  | root => exact .refl _
  | @finish fresh f below done hpending =>
      have hshorter : ¬ (f :: below).length < (raiseTop (f.layer + 1) below).length := by
        rw [length_raiseTop, List.length_cons]
        omega
      unfold pushed?
      rw [if_neg hshorter]
      exact .refl _
  | @wait fresh f below done p later hpending hfresh =>
      have hlonger : (f :: below).length < (⟨p, g.predecessors p, 0⟩ ::
          { f with pending := later } :: below : List Frame).length := Nat.lt_succ_self _
      unfold pushed?
      rw [if_pos hlonger]
      exact (List.perm_cons_erase hfresh).symm
  | @count fresh f below done p later hpending hfresh =>
      have hsame : ¬ (f :: below).length < (⟨f.name, later, max f.layer (asks done p)⟩ ::
          below : List Frame).length := Nat.lt_irrefl _
      unfold pushed?
      rw [if_neg hsame]
      exact .refl _

/-- The moves of a walk are its first one and those of what that leads to. -/
theorem moves_of_step (h : w.step g = some w') : w.moves g = (w, w') :: w'.moves g := by
  conv_lhs => rw [moves]
  split
  · next hstop => cases hstop.symm.trans h
  · next next hnext =>
    cases hnext.symm.trans h
    rfl

/-- A walk that is over has no moves. -/
theorem moves_of_stop (h : w.step g = none) : w.moves g = [] := by
  rw [moves]
  split
  · rfl
  · next next hnext => cases h.symm.trans hnext

/-- From its start to its end a walk does what it has to do, one thing with each move that is
made with names under way, and puts each fresh name on the stack once. -/
theorem moves_account (w : Walk) :
    ((w.moves g).filterMap pushed?).Perm w.fresh ∧
      ((w.moves g).filter isInner).length = w.toDo g := by
  induction w using Walk.finish.induct g with
  | case1 w hstop =>
      obtain ⟨hfresh, hstack⟩ := eq_nil_of_step_none hstop
      rw [moves_of_stop hstop, toDo, hfresh, hstack]
      exact ⟨.refl _, rfl⟩
  | case2 w w' hstep ih =>
      obtain ⟨hpushed, hinner⟩ := ih
      have hmove := move_of_step hstep
      rw [moves_of_step hstep]
      constructor
      · have hfirst : ((w, w') :: w'.moves g).filterMap pushed?
            = (pushed? (w, w')).toList ++ (w'.moves g).filterMap pushed? := by
          rw [List.filterMap_cons]
          cases pushed? (w, w') <;> rfl
        rw [hfirst]
        exact (hpushed.append_left _).trans (pushed_of_move hmove)
      · rw [toDo_of_move hmove, ← hinner, List.filter_cons]
        split <;> rfl

/-- The last move of a walk ends where the walk ends. -/
theorem getLast_moves (w : Walk) :
    ((w.moves g).map (·.2)).getLast?.getD w = w.finish g := by
  induction w using Walk.finish.induct g with
  | case1 w hstop =>
      rw [moves_of_stop hstop, finish_of_stop hstop]
      rfl
  | case2 w w' hstep ih =>
      rw [moves_of_step hstep, finish_of_step hstep, List.map_cons, List.getLast?_cons, ih]
      rfl

end Walk

-- ============================================================ the whole

/-- Every edge makes one predecessor of one name. -/
theorem sum_length_predecessors {g : Graph} (hg : g.Proper) :
    (g.names.map fun v => (g.predecessors v).length).sum = g.edges.length := by
  obtain ⟨hnodup, hends⟩ := hg
  obtain ⟨names, edges⟩ := g
  dsimp only at hnodup hends ⊢
  induction edges with
  | nil => simp [predecessors]
  | cons e later ih =>
      obtain ⟨he, hlater⟩ := List.forall_mem_cons.1 hends
      have hsplit : ∀ v, (predecessors ⟨names, e :: later⟩ v).length
          = (if e.2 = v then 1 else 0) + (predecessors ⟨names, later⟩ v).length := by
        intro v
        unfold predecessors
        dsimp only
        rw [List.filterMap_cons]
        split <;> simp_all [Nat.add_comm]
      have hone : (names.map fun v => if e.2 = v then 1 else 0).sum = 1 := by
        rw [List.sum_map_eq_nsmul_single e.2 _ fun v hv _ => if_neg fun h => hv h.symm,
          List.count_eq_one_of_mem hnodup he.2]
        simp
      simp only [hsplit, List.sum_map_add, hone, ih hlater, List.length_cons]
      omega

/-- At its start a walk has each name to take off the stack, and each edge to look at. -/
theorem toDo_start {g : Graph} (hg : g.Proper) :
    (Walk.start g).toDo g = g.names.length + g.edges.length := by
  show (g.names.map fun v => (g.predecessors v).length + 1).sum + 0 = _
  rw [List.sum_map_add, sum_length_predecessors hg, List.map_const', List.sum_replicate_nat]
  omega

/-- The moves of the walk for the layers of a graph. -/
def layerMoves (g : Graph) : List (Walk × Walk) := (Walk.start g).moves g

/-- The walk comes to the layers of the recursion. It ends where it cannot move; by then it has
put each distinct name on the stack once, and with names under way it has made one move for
each of these and one for each edge between them. -/
theorem walk_refines_recursion (names : List String) (edges : List (String × String)) :
    (build names edges).layers = (build names edges).recursiveLayers ∧
      (((build names edges).layerMoves.map (·.2)).getLast?.getD
        (Walk.start (build names edges))).step (build names edges) = none ∧
      ((build names edges).layerMoves.filterMap Walk.pushed?).Perm names.eraseDups ∧
      ((build names edges).layerMoves.filter Walk.isInner).length
        = names.eraseDups.length
          + (edges.filter fun e => names.contains e.1 && names.contains e.2).length := by
  have hg := proper_build names edges
  have haccount := (Walk.start (build names edges)).moves_account (g := build names edges)
  refine ⟨layers_eq_recursiveLayers hg.nodup, ?_, haccount.1, ?_⟩
  · unfold layerMoves
    rw [Walk.getLast_moves]
    exact (inv_finish hg (inv_start _)).2
  · exact haccount.2.trans (toDo_start hg)

end SystemMap.Graph
