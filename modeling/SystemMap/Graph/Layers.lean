/-
Layers of a graph. A name without predecessors has layer zero, any other lies one layer
beyond its farthest predecessor; where edges run in a circle, the one that closes it counts
as if it came from layer zero.

The walk goes from names to predecessors, depth first, with the names under way on a stack.
A name is fresh until it is put on the stack and done once all its predecessors have been
looked at. `Walk.step` is one move: it puts a name on the stack, looks at one predecessor,
or takes a finished name off. A move leaves either fewer fresh names, or as many and less to
look at on the stack (`step_decreases`), so the walk ends.
-/
import SystemMap.Graph

namespace SystemMap.Graph

/-- A name under way: the predecessors still to look at, and its layer so far. -/
structure Frame where
  name : String
  pending : List String
  layer : Nat
deriving DecidableEq

/-- A frame with a layer of at least `n`. -/
def Frame.raise (f : Frame) (n : Nat) : Frame := { f with layer := max f.layer n }

/-- The state of a walk: names not yet entered, names under way with the innermost first,
and finished names with their layers, the latest first. -/
structure Walk where
  fresh : List String
  stack : List Frame
  done : List (String × Nat)
deriving DecidableEq

namespace Walk

/-- Puts a fresh name on the stack. -/
def enter (g : Graph) (name : String) (w : Walk) : Walk where
  fresh := w.fresh.erase name
  stack := ⟨name, g.predecessors name, 0⟩ :: w.stack
  done := w.done

/-- Tells the name below a finished one how far it has to lie beyond it. -/
def raiseTop (n : Nat) : List Frame → List Frame
  | [] => []
  | f :: below => f.raise n :: below

/-- One move of the walk, if it is not over. -/
def step (g : Graph) (w : Walk) : Option Walk :=
  match w.stack with
  | [] =>
    match w.fresh with
    | [] => none
    | name :: _ => some (w.enter g name)
  | f :: below =>
    match f.pending with
    | [] =>
      some { w with stack := raiseTop (f.layer + 1) below, done := (f.name, f.layer) :: w.done }
    | p :: later =>
      let f := { f with pending := later }
      if p ∈ w.fresh then some ({ w with stack := f :: below }.enter g p)
      else match w.done.lookup p with
        | some layer => some { w with stack := f.raise (layer + 1) :: below }
        | none => some { w with stack := f.raise 1 :: below }

/-- What is left to look at on a stack. -/
def work (stack : List Frame) : Nat := stack.foldr (fun f n => f.pending.length + 1 + n) 0

theorem work_cons (f : Frame) (below : List Frame) :
    work (f :: below) = f.pending.length + 1 + work below := by
  simp [work]

theorem work_raiseTop (n : Nat) (stack : List Frame) : work (raiseTop n stack) = work stack := by
  cases stack <;> simp [work, raiseTop, Frame.raise]

/-- Every move leaves fewer fresh names, or as many and less work. -/
theorem step_decreases {g : Graph} {w w' : Walk} (h : w.step g = some w') :
    Prod.Lex (· < ·) (· < ·) (w'.fresh.length, work w'.stack)
      (w.fresh.length, work w.stack) := by
  unfold step at h
  split at h
  · split at h
    · cases h
    · next name rest hfresh =>
      cases h
      refine Prod.Lex.left _ _ ?_
      simp [enter, hfresh]
  · next f below hstack =>
    split at h
    · next hpending =>
      cases h
      refine Prod.Lex.right _ ?_
      rw [work_raiseTop, hstack, work_cons]
      omega
    · next p later hpending =>
      dsimp only at h
      split at h
      · next hmem =>
        cases h
        refine Prod.Lex.left _ _ ?_
        have hpos := List.length_pos_of_mem hmem
        simp only [enter, List.length_erase_of_mem hmem]
        omega
      · split at h <;> cases h <;> refine Prod.Lex.right _ ?_ <;>
          simp [hstack, hpending, work, Frame.raise]

/-- The walk to its end. -/
def finish (g : Graph) (w : Walk) : Walk :=
  match _h : w.step g with
  | none => w
  | some w' => finish g w'
termination_by (w.fresh.length, work w.stack)
decreasing_by exact step_decreases _h

/-- The walk before its first move. -/
def start (g : Graph) : Walk := ⟨g.names, [], []⟩

end Walk

/-- The names of a graph with their layers, the last finished first. -/
def layers (g : Graph) : List (String × Nat) := (Walk.start g).finish g |>.done

/-- The layer of a name; zero for a name that the graph does not have. -/
def layer (g : Graph) (name : String) : Nat := (g.layers.lookup name).getD 0

end SystemMap.Graph
