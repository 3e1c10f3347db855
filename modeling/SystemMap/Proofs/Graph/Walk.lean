/-
What the walk for layers keeps true, move by move.

A finished name is final: its layer is the one that its predecessors ask for, where those
finished before it ask for one layer beyond theirs and all others for layer one. The others
are the names that were under way at that time, and from the finished name a way leads to
each of them. `Settled` says this of a list of finished names, each in view of the earlier
ones alone.

A name under way stands on the stack because it is a predecessor of the name below it, so
its way leads down the stack (`Stacked.way`). The predecessors that a frame has looked at
are finished or stand at or below it, which is why a layer once counted stays as it was
counted: a name that finishes later was fresh or above when the frame looked (`Stacked.mono`).

`Walk.Inv` puts the two beside the partition of the names into fresh, under way and
finished; `inv_step` is the step and `inv_finish` the whole walk.
-/
import Mathlib.Data.List.Perm.Basic
import SystemMap.Graph.Layers
import SystemMap.Proofs.Graph.Way
import SystemMap.Proofs.Names

namespace SystemMap.Graph

-- ========================================================= graphs as built

/-- Each name stands once, and edges lead between names of the graph. -/
structure Proper (g : Graph) : Prop where
  nodup : g.names.Nodup
  ends : ∀ e ∈ g.edges, e.1 ∈ g.names ∧ e.2 ∈ g.names

/-- Edges are kept if both their ends are names. -/
theorem mem_edges_build {names : List String} {edges : List (String × String)}
    {e : String × String} :
    e ∈ (build names edges).edges ↔ e ∈ edges ∧ e.1 ∈ names ∧ e.2 ∈ names := by
  unfold build
  rw [List.mem_filter, Bool.and_eq_true, List.contains_iff_mem, List.contains_iff_mem]

theorem proper_build (names : List String) (edges : List (String × String)) :
    (build names edges).Proper where
  nodup := nodup_eraseDups names
  ends := by
    intro e he
    obtain ⟨-, hsource, htarget⟩ := mem_edges_build.1 he
    exact ⟨List.mem_eraseDups.2 hsource, List.mem_eraseDups.2 htarget⟩

/-- The predecessors of a name are where its edges come from. -/
theorem mem_predecessors {g : Graph} {u v : String} :
    u ∈ g.predecessors v ↔ (u, v) ∈ g.edges := by
  unfold predecessors
  rw [List.mem_filterMap]
  constructor
  · intro hall
    obtain ⟨⟨a, b⟩, he, h⟩ := hall
    split at h
    · next hb =>
        cases h
        cases (show b = v from hb)
        exact he
    · cases h
  · intro he
    exact ⟨(u, v), he, if_pos rfl⟩

-- ======================================================== layers asked for

/-- The names of a list of layers. -/
def namesOf (done : List (String × Nat)) : List String := done.map (·.1)

/-- The layer that a predecessor asks for: one beyond its own if it is finished, else one. -/
def asks (done : List (String × Nat)) (p : String) : Nat :=
  match done.lookup p with
  | some n => n + 1
  | none => 1

/-- The layer that some predecessors ask for together, counted in their order. -/
def height (done : List (String × Nat)) (ps : List String) : Nat :=
  ps.foldl (fun n p => max n (asks done p)) 0

/-- One more predecessor raises the height to what it asks for. -/
theorem height_snoc (done : List (String × Nat)) (ps : List String) (p : String) :
    height done (ps ++ [p]) = max (height done ps) (asks done p) := by
  unfold height
  rw [List.foldl_append]
  rfl

/-- The height is the least that all predecessors ask for. -/
theorem height_le_iff {done : List (String × Nat)} {ps : List String} {k : Nat} :
    height done ps ≤ k ↔ ∀ p ∈ ps, asks done p ≤ k := by
  suffices key : ∀ r : List String,
      height done r.reverse ≤ k ↔ ∀ p ∈ r.reverse, asks done p ≤ k by
    have := key ps.reverse
    rwa [List.reverse_reverse] at this
  intro r
  induction r with
  | nil => simp [height]
  | cons p r ih =>
      rw [List.reverse_cons, height_snoc, Nat.max_le, ih]
      simp only [List.mem_append, List.mem_singleton, or_imp, forall_and, forall_eq]

/-- A name that is not done is not looked up. -/
theorem lookup_eq_none_iff {done : List (String × Nat)} {p : String} :
    done.lookup p = none ↔ p ∉ namesOf done := by
  rw [List.lookup_eq_none_iff]
  constructor
  · intro h hp
    obtain ⟨entry, he, rfl⟩ := List.mem_map.1 hp
    exact absurd (h entry he) (by simp)
  · intro h entry he
    have hne : p ≠ entry.1 := fun hp => h (hp ▸ List.mem_map_of_mem he)
    simpa using hne

/-- A name that finishes changes nothing for predecessors other than it. -/
theorem height_cons {done : List (String × Nat)} {x : String} {n : Nat} {ps : List String}
    (hx : x ∉ ps) : height ((x, n) :: done) ps = height done ps := by
  unfold height
  refine List.foldl_ext _ _ _ fun m p hp => ?_
  have hne : p ≠ x := fun h => hx (h ▸ hp)
  unfold asks
  rw [List.lookup_cons, beq_false_of_ne hne]

-- ======================================================= finished names

/-- Finished names whose layers are final: each has the layer that its predecessors ask for
in view of the names finished before it, and a way leads from it to every predecessor that
was not finished by then. -/
inductive Settled (g : Graph) : List (String × Nat) → Prop
  | nil : Settled g []
  | cons {v : String} {earlier : List (String × Nat)} (h : Settled g earlier)
      (hv : v ∉ namesOf earlier)
      (hback : ∀ p ∈ g.predecessors v, p ∉ namesOf earlier → ∃ n, Way g.edges n v p) :
      Settled g ((v, height earlier (g.predecessors v)) :: earlier)

-- ====================================================== names under way

/-- The names of the frames of a stack. -/
def standing (stack : List Frame) : List String := stack.map (·.name)

/-- `Stacked g done above stack`: each frame has looked at a part of its predecessors, has
the layer that they ask for, and has them finished or standing at or below it. The name in
`above`, if there is one, is the predecessor that the top frame waits for. -/
inductive Stacked (g : Graph) (done : List (String × Nat)) :
    List String → List Frame → Prop
  | nil {above : List String} : Stacked g done above []
  | cons {above : List String} {f : Frame} {below : List Frame} (seen : List String)
      (hpred : g.predecessors f.name = seen ++ (above ++ f.pending))
      (hlayer : f.layer = height done seen)
      (hseen : ∀ p ∈ seen, p ∈ namesOf done ∨ p ∈ standing (f :: below))
      (hbelow : Stacked g done [f.name] below) :
      Stacked g done above (f :: below)

variable {g : Graph} {done : List (String × Nat)} {above : List String}

/-- From the top of a stack a way leads to every name on it. -/
theorem Stacked.way {f : Frame} {below : List Frame} (h : Stacked g done above (f :: below)) :
    ∀ x ∈ standing (f :: below), ∃ n, Way g.edges n f.name x := by
  induction below generalizing above f with
  | nil =>
      intro x hx
      rw [List.mem_singleton.1 hx]
      exact ⟨0, .stay _⟩
  | cons b below ih =>
      intro x hx
      rcases List.mem_cons.1 hx with rfl | hx
      · exact ⟨0, .stay _⟩
      · cases h with
        | cons seen hpred hlayer hseen hbelow =>
            obtain ⟨n, hway⟩ := ih hbelow x hx
            cases hbelow with
            | cons seen' hpred' _ _ _ =>
                have hedge : (f.name, b.name) ∈ g.edges := by
                  rw [← mem_predecessors, hpred']
                  simp
                exact ⟨1 + n, (Way.edge hedge).trans hway⟩

/-- What a frame has still to look at are predecessors of its name. -/
theorem Stacked.edge_of_pending {f : Frame} {below : List Frame} {p : String}
    (h : Stacked g done above (f :: below)) (hp : p ∈ f.pending) : (p, f.name) ∈ g.edges := by
  cases h with
  | cons seen hpred _ _ _ =>
      rw [← mem_predecessors, hpred]
      exact List.mem_append_right _ (List.mem_append_right _ hp)

/-- A name that finishes and neither stood on the stack nor was finished changes nothing
for the frames. -/
theorem Stacked.mono {x : String} {n : Nat} {stack : List Frame}
    (h : Stacked g done above stack) (hdone : x ∉ namesOf done)
    (hstack : x ∉ standing stack) : Stacked g ((x, n) :: done) above stack := by
  induction h with
  | nil => exact .nil
  | @cons _ f below seen hpred hlayer hseen hbelow ih =>
      have hx : x ∉ seen := by
        intro hp
        rcases hseen x hp with hp | hp
        · exact hdone hp
        · exact hstack hp
      refine .cons seen hpred ?_ (fun p hp => ?_) (ih fun hp => hstack ?_)
      · rw [height_cons hx]
        exact hlayer
      · rcases hseen p hp with hp | hp
        · exact Or.inl (List.mem_cons_of_mem _ hp)
        · exact Or.inr hp
      · exact List.mem_cons_of_mem _ hp

/-- A frame that has looked at one more predecessor, finished or standing. -/
theorem Stacked.look {f : Frame} {below : List Frame} {p : String} {later : List String}
    (h : Stacked g done [] (f :: below)) (hpending : f.pending = p :: later)
    (hp : p ∈ namesOf done ∨ p ∈ standing (f :: below)) :
    Stacked g done []
      ({ f with pending := later, layer := max f.layer (asks done p) } :: below) := by
  cases h with
  | cons seen hpred hlayer hseen hbelow =>
      refine .cons (seen ++ [p]) ?_ ?_ (fun q hq => ?_) hbelow
      · rw [hpred, hpending]
        simp
      · rw [height_snoc, ← hlayer]
      · rcases List.mem_append.1 hq with hq | hq
        · exact hseen q hq
        · rw [List.mem_singleton.1 hq]
          exact hp

/-- A frame that waits for a name that has just finished counts it. -/
theorem Stacked.raise {x : String} {n : Nat} {below : List Frame}
    (h : Stacked g done [x] below) (hdone : x ∉ namesOf done)
    (hstack : x ∉ standing below) :
    Stacked g ((x, n) :: done) [] (Walk.raiseTop (n + 1) below) := by
  cases h.mono (n := n) hdone hstack with
  | nil => exact .nil
  | @cons _ f below seen hpred hlayer hseen hbelow =>
      refine .cons (seen ++ [x]) ?_ ?_ (fun p hp => ?_) hbelow
      · show g.predecessors f.name = _ ++ ([] ++ f.pending)
        rw [hpred]
        simp
      · show max f.layer (n + 1) = _
        have hasks : asks ((x, n) :: done) x = n + 1 := by simp [asks]
        rw [height_snoc, ← hlayer, hasks]
      · rcases List.mem_append.1 hp with hp | hp
        · exact hseen p hp
        · rw [List.mem_singleton.1 hp]
          exact Or.inl (List.mem_cons_self ..)

/-- Raising a name leaves it under way. -/
theorem standing_raiseTop (n : Nat) (stack : List Frame) :
    standing (Walk.raiseTop n stack) = standing stack := by
  cases stack <;> rfl

-- ================================================================= moves

/-- The moves of the walk: a fresh name goes on the empty stack, a finished one comes off,
and the top frame sees a predecessor that is fresh, which it then waits for, or that is not,
which it counts at once. -/
inductive Walk.Move (g : Graph) : Walk → Walk → Prop
  | root {name : String} {later : List String} {done : List (String × Nat)} :
      Move g ⟨name :: later, [], done⟩ ⟨later, [⟨name, g.predecessors name, 0⟩], done⟩
  | finish {fresh : List String} {f : Frame} {below : List Frame} {done : List (String × Nat)}
      (hpending : f.pending = []) :
      Move g ⟨fresh, f :: below, done⟩
        ⟨fresh, Walk.raiseTop (f.layer + 1) below, (f.name, f.layer) :: done⟩
  | wait {fresh : List String} {f : Frame} {below : List Frame} {done : List (String × Nat)}
      {p : String} {later : List String} (hpending : f.pending = p :: later)
      (hfresh : p ∈ fresh) :
      Move g ⟨fresh, f :: below, done⟩
        ⟨fresh.erase p, ⟨p, g.predecessors p, 0⟩ :: { f with pending := later } :: below, done⟩
  | count {fresh : List String} {f : Frame} {below : List Frame} {done : List (String × Nat)}
      {p : String} {later : List String} (hpending : f.pending = p :: later)
      (hfresh : p ∉ fresh) :
      Move g ⟨fresh, f :: below, done⟩
        ⟨fresh, { f with pending := later, layer := max f.layer (asks done p) } :: below, done⟩

/-- Each step of the walk is one of its moves. -/
theorem move_of_step {w w' : Walk} (h : w.step g = some w') : w.Move g w' := by
  obtain ⟨fresh, stack, done⟩ := w
  unfold Walk.step at h
  dsimp only at h
  split at h
  · split at h
    · cases h
    · next name later =>
      cases h
      unfold Walk.enter
      rw [List.erase_cons_head]
      exact .root
  · next f below =>
    split at h
    · next hpending =>
      cases h
      exact .finish hpending
    · next p later hpending =>
      split at h
      · next hfresh =>
        cases h
        exact .wait hpending hfresh
      · next hfresh =>
        have hcount := @Walk.Move.count g _ _ below done _ _ hpending hfresh
        unfold asks at hcount
        split at h
        · next layer hl =>
          cases h
          rwa [hl] at hcount
        · next hl =>
          cases h
          rwa [hl] at hcount

/-- Each move is what the walk does next. -/
theorem step_of_move {w w' : Walk} (h : w.Move g w') : w.step g = some w' := by
  cases h with
  | root => simp [Walk.step, Walk.enter]
  | finish hpending => simp [Walk.step, hpending]
  | wait hpending hfresh => simp [Walk.step, Walk.enter, hpending, hfresh]
  | @count fresh f below done p later hpending hfresh =>
      unfold Walk.step asks
      dsimp only
      rw [hpending]
      dsimp only
      rw [if_neg hfresh]
      cases done.lookup p <;> rfl

/-- The walk stops only where nothing is fresh and nothing under way. -/
theorem eq_nil_of_step_none {w : Walk} (h : w.step g = none) :
    w.fresh = [] ∧ w.stack = [] := by
  unfold Walk.step at h
  split at h
  · next hstack =>
    split at h
    · next hfresh => exact ⟨hfresh, hstack⟩
    · cases h
  · split at h
    · cases h
    · dsimp only at h
      split at h
      · cases h
      · split at h <;> cases h

-- ========================================================== the invariant

/-- What every state of the walk keeps true. -/
structure Walk.Inv (g : Graph) (w : Walk) : Prop where
  settled : Settled g w.done
  stacked : Stacked g w.done [] w.stack
  parted : (w.fresh ++ (standing w.stack ++ namesOf w.done)).Perm g.names

/-- The walk starts with nothing done and nothing under way. -/
theorem inv_start (g : Graph) : (Walk.start g).Inv g where
  settled := .nil
  stacked := .nil
  parted := by
    show (g.names ++ ([] ++ [])).Perm g.names
    simp

/-- Each name is in one of the three parts only. -/
theorem Walk.Inv.apart {w : Walk} (h : w.Inv g) (hg : g.Proper) :
    (w.fresh ++ (standing w.stack ++ namesOf w.done)).Nodup :=
  h.parted.nodup_iff.2 hg.nodup

/-- Every move keeps the invariant. -/
theorem inv_move (hg : g.Proper) {w w' : Walk} (hi : w.Inv g) (h : w.Move g w') :
    w'.Inv g := by
  have hapart := hi.apart hg
  cases h with
  | @root name later done =>
      refine ⟨hi.settled, .cons [] rfl rfl (by simp) .nil, ?_⟩
      have hmoved : (later ++ name :: namesOf done).Perm (name :: (later ++ namesOf done)) :=
        List.perm_middle
      exact hmoved.trans hi.parted
  | @finish fresh f below done hpending =>
      have hnames := (List.nodup_append.1 hapart).2.1
      obtain ⟨htop, hrest⟩ := List.nodup_cons.1 hnames
      have hdone : f.name ∉ namesOf done := fun hp => htop (List.mem_append_right _ hp)
      have hbelow : f.name ∉ standing below := fun hp => htop (List.mem_append_left _ hp)
      have hway := hi.stacked.way
      cases hi.stacked with
      | cons seen hpred hlayer hseen hb =>
          have hall : g.predecessors f.name = seen := by
            rw [hpred, hpending]
            simp
          refine ⟨?_, hb.raise hdone hbelow, ?_⟩
          · show Settled g ((f.name, f.layer) :: done)
            rw [hlayer, ← hall]
            refine .cons hi.settled hdone fun p hp hnot => hway p ?_
            rw [hall] at hp
            exact (hseen p hp).resolve_left hnot
          · show (fresh ++ (standing (Walk.raiseTop _ below) ++ f.name :: namesOf done)).Perm _
            rw [standing_raiseTop]
            exact ((List.perm_middle).append_left fresh).trans hi.parted
  | @wait fresh f below done p later hpending hfresh =>
      refine ⟨hi.settled, ?_, ?_⟩
      · refine .cons [] rfl rfl (by simp) ?_
        cases hi.stacked with
        | cons seen hpred hlayer hseen hb =>
            refine .cons seen ?_ hlayer hseen hb
            rw [hpred, hpending]
            rfl
      · show (fresh.erase p ++ (p :: standing (f :: below) ++ namesOf done)).Perm _
        refine (List.perm_middle).trans (List.Perm.trans ?_ hi.parted)
        exact ((List.perm_cons_erase hfresh).symm).append_right
          (standing (f :: below) ++ namesOf done)
  | @count fresh f below done p later hpending hfresh =>
      refine ⟨hi.settled, hi.stacked.look hpending ?_, hi.parted⟩
      have hedge := hi.stacked.edge_of_pending (hpending ▸ List.mem_cons_self)
      have hmem := (hi.parted.mem_iff).2 (hg.ends _ hedge).1
      rcases List.mem_append.1 hmem with hp | hp
      · exact absurd hp hfresh
      · exact (List.mem_append.1 hp).symm

/-- The walk comes to what it comes to after one step. -/
theorem Walk.finish_of_step {w w' : Walk} (h : w.step g = some w') :
    w.finish g = w'.finish g := by
  conv_lhs => rw [finish]
  split
  · next hstop => cases hstop.symm.trans h
  · next next hnext =>
    cases hnext.symm.trans h
    rfl

/-- Where no step is left, the walk is over. -/
theorem Walk.finish_of_stop {w : Walk} (h : w.step g = none) : w.finish g = w := by
  rw [finish]
  split
  · rfl
  · next next hnext => cases h.symm.trans hnext

/-- The whole walk keeps the invariant, and stops where it cannot move. -/
theorem inv_finish (hg : g.Proper) {w : Walk} (hi : w.Inv g) :
    (w.finish g).Inv g ∧ (w.finish g).step g = none := by
  induction w using Walk.finish.induct g with
  | case1 w h =>
      rw [Walk.finish_of_stop h]
      exact ⟨hi, h⟩
  | case2 w w' h ih =>
      rw [Walk.finish_of_step h]
      exact ih (inv_move hg hi (move_of_step h))

/-- The layers of a proper graph: each of its names, once and finally. -/
theorem settled_layers (hg : g.Proper) :
    Settled g g.layers ∧ (namesOf g.layers).Perm g.names := by
  obtain ⟨hi, hstop⟩ := inv_finish hg (inv_start g)
  obtain ⟨hfresh, hstack⟩ := eq_nil_of_step_none hstop
  have hparted := hi.parted
  rw [hfresh, hstack] at hparted
  exact ⟨hi.settled, hparted⟩

end SystemMap.Graph
