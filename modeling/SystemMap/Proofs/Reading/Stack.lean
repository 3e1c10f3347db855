/-
Reading on a bounded stack against reading on one without bounds. Where the room is never used
up, the two come to the same (`Visits.within`). Where it is, there is a chain of texts to blame:
the first is included by the text at hand and each later one by the one before it, all different,
and there are more of them than there is room for. A library of a few texts has no longer chains
than it has texts (`IncludeChain.length_le`).

The induction is on the derivation of the walk without bounds. The walk inside an included text
has room for one text fewer, so the room is left to vary.
-/
import Mathlib.Data.List.Perm.Subperm
import SystemMap.Proofs.Reading.Visits
import SystemMap.Reading.Stack

namespace SystemMap

variable {ε : Type}

-- ========================================================== the same outcome

/-- A fault, told by who has a reason not to enter a text. -/
def ReadFault.bounded : ReadFault ε → ReadFault (NotEntered ε)
  | .text f => .text f
  | .library e => .library (.missing e)

/-- A visit that never runs out of room. -/
def Visit.bounded (v : Visit ε) : Visit (NotEntered ε) where
  unopened := v.unopened
  calls := v.calls
  events := v.events
  nodeClasses := v.nodeClasses
  linkClasses := v.linkClasses
  fault := v.fault.map ReadFault.bounded

/-- A reading that never runs out of room. -/
def Reading.bounded (r : Reading ε) : Reading (NotEntered ε) where
  calls := r.calls
  events := r.events
  result := r.result.mapError ReadFault.bounded

@[simp] theorem bounded_meet (s : Segment) (v : Visit ε) :
    (v.meet s).bounded = v.bounded.meet s := by
  cases s with
  | declared d => cases d <;> rfl
  | _ => rfl

/-- A walk that stops at a fault of its own text does so under any bound. -/
theorem bounded_stop (unopened : List String) (fault : Option TextFault) :
    (Visit.stop unopened (fault.map .text) : Visit ε).bounded
      = .stop unopened (fault.map .text) := by
  cases fault <;> rfl

-- ================================================================== chains

/-- Texts that include one another: the first is included among the segments at hand, and each
later one by the text of the one before it. -/
inductive IncludeChain (lib : Library ε) : Option String → List Segment → List String → Prop
  | nil {includer segments} : IncludeChain lib includer segments []
  | cons {includer segments i text chain} (hi : i ∈ segments.filterMap Segment.directive?)
      (hl : lib.lookup i.path includer = .ok text)
      (h : IncludeChain lib (some i.path) (Outline.ofText text).segments chain) :
      IncludeChain lib includer segments (i.path :: chain)

/-- A chain that starts among later segments. -/
theorem IncludeChain.of_later {lib : Library ε} {includer : Option String} {s : Segment}
    {later : List Segment} {chain : List String} (h : IncludeChain lib includer later chain) :
    IncludeChain lib includer (s :: later) chain := by
  cases h with
  | nil => exact .nil
  | cons hi hl h =>
      refine .cons ?_ hl h
      rw [List.filterMap_cons]
      split
      · exact hi
      · exact List.mem_cons_of_mem _ hi

/-- The library has a text for each path of a chain. -/
theorem IncludeChain.given {lib : Library ε} {includer : Option String} {segments : List Segment}
    {chain : List String} (h : IncludeChain lib includer segments chain) :
    ∀ p ∈ chain, ∃ from?, ∃ text, lib.lookup p from? = .ok text := by
  induction h with
  | nil => nofun
  | cons hi hl h ih => exact List.forall_mem_cons.2 ⟨⟨_, _, hl⟩, ih⟩

/-- A chain of different texts is no longer than the list of all texts. -/
theorem IncludeChain.length_le {lib : Library ε} {texts : List (String × String)}
    (hgives : ∀ {path includer text}, lib.lookup path includer = .ok text → (path, text) ∈ texts)
    {includer : Option String} {segments : List Segment} {chain : List String}
    (h : IncludeChain lib includer segments chain) (hdistinct : chain.Nodup) :
    chain.length ≤ texts.length := by
  have hsub : chain ⊆ texts.map (·.1) := by
    intro p hp
    obtain ⟨from?, text, hl⟩ := h.given p hp
    exact List.mem_map_of_mem (hgives hl)
  have hlength := (hdistinct.subperm hsub).length_le
  rwa [List.length_map] at hlength

-- ================================================================== the walk

section Walk

variable {lib : Library ε} {includer : Option String} {unopened : List String}
  {later : List Segment} {fault : Option TextFault} {room : Nat}

/-- The walk on a bounded stack. -/
def visitWithin (room : Nat) (lib : Library ε) (includer : Option String)
    (unopened : List String) (segments : List Segment) (fault : Option TextFault) :
    Visit (NotEntered ε) :=
  (followWithin room (some lib) includer unopened segments fault).1

/-- A segment that is no directive needs no room. -/
theorem visitWithin_plain {s : Segment} (hs : s.directive? = none) :
    visitWithin room lib includer unopened (s :: later) fault
      = (visitWithin room lib includer unopened later fault).meet s := by
  unfold visitWithin
  rw [followWithin.eq_def]
  cases s with
  | declared d =>
      cases d with
      | directive i => cases hs
      | _ => rfl
  | _ => rfl

variable {i : Include}

/-- Nor does a directive that was entered before. -/
theorem visitWithin_skipped (hi : i.path ∉ unopened) :
    visitWithin room lib includer unopened (.declared (.directive i) :: later) fault
      = (visitWithin room lib includer unopened later fault).report
          (.notFollowed i.path .alreadyEntered) := by
  unfold visitWithin
  rw [followWithin.eq_def]
  simp only [dif_neg hi]

/-- A text that the library does not have is missing, whatever the room. -/
theorem visitWithin_missing (hi : i.path ∈ unopened) {e : ε}
    (hl : lib.lookup i.path includer = .error e) :
    visitWithin room lib includer unopened (.declared (.directive i) :: later) fault
      = (Visit.stop (without i.path unopened) (some (.library (.missing e)))).ask
          ⟨i.path, includer⟩ := by
  unfold visitWithin
  rw [followWithin.eq_def]
  simp only [dif_pos hi, hl]

variable {text : String}

/-- Without room no text is entered. -/
theorem visitWithin_noRoom (hi : i.path ∈ unopened) (hl : lib.lookup i.path includer = .ok text) :
    visitWithin 0 lib includer unopened (.declared (.directive i) :: later) fault
      = (Visit.stop (without i.path unopened) (some (.library .noRoom))).ask
          ⟨i.path, includer⟩ := by
  unfold visitWithin
  rw [followWithin.eq_def]
  simp only [dif_pos hi, hl]

/-- The walk inside the text of a directive that is followed. -/
def innerVisit (room : Nat) (lib : Library ε) (path : String) (unopened : List String)
    (text : String) : Visit (NotEntered ε) :=
  visitWithin room lib (some path) (without path unopened) (Outline.ofText text).segments
    (Outline.ofText text).fault

/-- A fault in an included text ends the walk. -/
theorem visitWithin_broken (hi : i.path ∈ unopened) (hl : lib.lookup i.path includer = .ok text)
    {f : ReadFault (NotEntered ε)}
    (hf : (innerVisit room lib i.path unopened text).fault = some f) :
    visitWithin (room + 1) lib includer unopened (.declared (.directive i) :: later) fault
      = (innerVisit room lib i.path unopened text).ask ⟨i.path, includer⟩ := by
  unfold innerVisit visitWithin at *
  rw [followWithin.eq_def]
  simp only [dif_pos hi]
  split
  · next e he => cases he.symm.trans hl
  · next t ht =>
    cases ht.symm.trans hl
    split
    · rfl
    · next hnone => cases hnone.symm.trans hf

/-- An included text is walked with less room, and what is behind the directive with all of it. -/
theorem visitWithin_followed (hi : i.path ∈ unopened)
    (hl : lib.lookup i.path includer = .ok text)
    (hf : (innerVisit room lib i.path unopened text).fault = none) :
    visitWithin (room + 1) lib includer unopened (.declared (.directive i) :: later) fault
      = (innerVisit room lib i.path unopened text).join ⟨i.path, includer⟩
          (visitWithin (room + 1) lib includer
            (innerVisit room lib i.path unopened text).unopened later fault) := by
  unfold innerVisit visitWithin at *
  rw [followWithin.eq_def]
  simp only [dif_pos hi]
  split
  · next e he => cases he.symm.trans hl
  · next t ht =>
    cases ht.symm.trans hl
    split
    · next g hg => cases hg.symm.trans hf
    · rfl

end Walk

/-- The walk runs out of room in a chain of different texts that is too long. -/
structure Overflows (room : Nat) (lib : Library ε) (includer : Option String)
    (unopened : List String) (segments : List Segment) (v : Visit (NotEntered ε)) : Prop where
  noRoom : v.fault = some (.library .noRoom)
  chain : ∃ chain, IncludeChain lib includer segments chain ∧ chain.Nodup ∧
    (∀ p ∈ chain, p ∈ unopened) ∧ chain.length = room + 1

/-- Room that later directives lack is lacking with those in front. -/
theorem Overflows.of_later {room : Nat} {lib : Library ε} {includer : Option String}
    {unopened unopened' : List String} {s : Segment} {later : List Segment}
    {v w : Visit (NotEntered ε)} (h : Overflows room lib includer unopened' later v)
    (hsub : ∀ p ∈ unopened', p ∈ unopened) (hfault : w.fault = v.fault) :
    Overflows room lib includer unopened (s :: later) w := by
  obtain ⟨chain, hchain, hdistinct, hmem, hlength⟩ := h.chain
  exact ⟨hfault.trans h.noRoom, chain, hchain.of_later, hdistinct,
    fun p hp => hsub p (hmem p hp), hlength⟩

/-- The text that is included comes before a chain of texts that starts in it. -/
theorem Overflows.of_inner {room : Nat} {lib : Library ε} {includer : Option String}
    {unopened : List String} {i : Include} {text : String} {later : List Segment}
    {v w : Visit (NotEntered ε)} (hi : i.path ∈ unopened)
    (hl : lib.lookup i.path includer = .ok text)
    (h : Overflows room lib (some i.path) (without i.path unopened)
      (Outline.ofText text).segments v) (hfault : w.fault = v.fault) :
    Overflows (room + 1) lib includer unopened (.declared (.directive i) :: later) w := by
  obtain ⟨chain, hchain, hdistinct, hmem, hlength⟩ := h.chain
  have hfresh : i.path ∉ chain := fun hp => (mem_without.1 (hmem _ hp)).2 rfl
  refine ⟨hfault.trans h.noRoom, i.path :: chain, .cons List.mem_cons_self hl hchain,
    List.nodup_cons.2 ⟨hfresh, hdistinct⟩, ?_, congrArg (· + 1) hlength⟩
  exact List.forall_mem_cons.2 ⟨hi, fun p hp => (mem_without.1 (hmem p hp)).1⟩

/-- A directive that is followed without room makes a chain of one. -/
theorem overflows_at_once {lib : Library ε} {includer : Option String} {unopened : List String}
    {i : Include} {text : String} {later : List Segment} {fault : Option TextFault}
    (hi : i.path ∈ unopened) (hl : lib.lookup i.path includer = .ok text) :
    Overflows 0 lib includer unopened (.declared (.directive i) :: later)
      (visitWithin 0 lib includer unopened (.declared (.directive i) :: later) fault) := by
  rw [visitWithin_noRoom hi hl]
  refine ⟨rfl, [i.path], .cons List.mem_cons_self hl .nil, ?_, ?_, rfl⟩
  · exact List.nodup_cons.2 ⟨List.not_mem_nil, List.nodup_nil⟩
  · exact fun p hp => List.mem_singleton.1 hp ▸ hi

/-- A walk on a bounded stack comes to what the walk without bounds comes to, or it runs out of
room. -/
theorem Visits.within {lib : Library ε} {includer : Option String} {unopened : List String}
    {segments : List Segment} {fault : Option TextFault} {v : Visit ε}
    (h : Visits lib includer unopened segments fault v) (room : Nat) :
    visitWithin room lib includer unopened segments fault = v.bounded ∨
      Overflows room lib includer unopened segments
        (visitWithin room lib includer unopened segments fault) := by
  induction h generalizing room with
  | finished =>
      left
      unfold visitWithin
      rw [followWithin.eq_def, bounded_stop]
  | plain hs hv ih =>
      rw [visitWithin_plain hs]
      rcases ih room with hsame | hover
      · exact .inl (hsame ▸ (bounded_meet ..).symm)
      · exact .inr (hover.of_later (fun _ hp => hp) (meet_fault ..))
  | skipped hi hv ih =>
      rw [visitWithin_skipped hi]
      rcases ih room with hsame | hover
      · exact .inl (hsame ▸ rfl)
      · exact .inr (hover.of_later (fun _ hp => hp) rfl)
  | missing hi hl => exact .inl (visitWithin_missing hi hl)
  | @broken _ unopened i _ _ text inner f hi hl hv hf ih =>
      cases room with
      | zero =>
          exact .inr (overflows_at_once hi hl)
      | succ left =>
          rcases ih left with hsame | hover
          · have hfault : (innerVisit left lib i.path unopened text).fault = some f.bounded := by
              rw [innerVisit, hsame]
              exact congrArg (·.map ReadFault.bounded) hf
            rw [visitWithin_broken hi hl hfault, innerVisit, hsame]
            exact .inl rfl
          · rw [visitWithin_broken hi hl hover.noRoom]
            exact .inr (hover.of_inner hi hl rfl)
  | @followed _ unopened i _ _ text inner outer hi hl hv hf hw ih ihouter =>
      cases room with
      | zero =>
          exact .inr (overflows_at_once hi hl)
      | succ left =>
          rcases ih left with hsame | hover
          · have hinner : innerVisit left lib i.path unopened text = inner.bounded := hsame
            have hfault : (innerVisit left lib i.path unopened text).fault = none := by
              rw [hinner]
              exact congrArg (·.map ReadFault.bounded) hf
            rw [visitWithin_followed hi hl hfault, hinner]
            rcases ihouter (left + 1) with hlater | hover
            · exact .inl (congrArg (inner.bounded.join _) hlater)
            · refine .inr (hover.of_later (fun p hp => ?_) rfl)
              exact (mem_without.1 (hv.unopened_subset hp)).1
          · rw [visitWithin_broken hi hl hover.noRoom]
            exact .inr (hover.of_inner hi hl rfl)

-- ================================================================ readings

/-- Without a library nothing is entered, so there is always room. -/
theorem followWithin_none (room : Nat) (includer : Option String) (unopened : List String)
    (segments : List Segment) (fault : Option TextFault) :
    (followWithin room (none : Option (Library ε)) includer unopened segments fault).1
      = (follow none includer unopened segments fault).1.bounded := by
  induction segments with
  | nil =>
      rw [followWithin.eq_def, follow.eq_def, bounded_stop]
  | cons s later ih =>
      rw [followWithin.eq_def, follow.eq_def]
      cases s with
      | marker s => exact ih
      | passed current kind position =>
          exact congrArg (Visit.report (.passed current kind position)) ih
      | declared d =>
          cases d with
          | nodeClass c => exact congrArg (Visit.gatherNode c) ih
          | linkClass l => exact congrArg (Visit.gatherLink l) ih
          | directive i => exact congrArg (Visit.report (.notFollowed i.path .noLibrary)) ih
          | _ => exact ih

/-- Visits that come to the same make readings that come to the same. -/
theorem bounded_visited (o : Outline) (v : Visit ε) :
    o.visited v.bounded = (o.visited v).bounded := by
  unfold Outline.visited Visit.bounded Reading.bounded
  cases v.fault <;> rfl

/-- Without a library nothing is entered, so no room is needed. -/
theorem readWithin_alone (room : Nat) (path : Option String) (text : String) :
    readWithin room (none : Option (Library ε)) path text
      = (read (none : Option (Library ε)) path text).bounded := by
  unfold readWithin
  dsimp only
  rw [followWithin_none, bounded_visited]
  rfl

/-- Different texts that include one another, the first of them included by a text at hand. -/
structure Library.HasChain (lib : Library ε) (path : Option String) (text : String)
    (chain : List String) : Prop where
  included : IncludeChain lib path (Outline.ofText text).segments chain
  distinct : chain.Nodup

/-- A reading on a bounded stack comes to what the reading without bounds comes to, or it runs out
of room in a chain of texts that is too long. -/
theorem readWithin_cases (room : Nat) (lib : Library ε) (path : Option String) (text : String) :
    readWithin room (some lib) path text = (read (some lib) path text).bounded ∨
      (readWithin room (some lib) path text).result = .error (.library .noRoom) ∧
        ∃ chain, lib.HasChain path text chain ∧ room < chain.length := by
  have hwalk := visits_follow lib path (unopenedAtStart (some lib) path (Outline.ofText text))
    (Outline.ofText text).segments (Outline.ofText text).fault
  rcases hwalk.within room with hsame | hover
  · left
    unfold readWithin
    dsimp only
    unfold visitWithin at hsame
    rw [hsame, bounded_visited]
    rfl
  · right
    obtain ⟨chain, hchain, hdistinct, -, hlength⟩ := hover.chain
    refine ⟨?_, chain, ⟨hchain, hdistinct⟩, hlength ▸ Nat.lt_succ_self room⟩
    have hfault := hover.noRoom
    unfold visitWithin at hfault
    unfold readWithin Outline.visited
    dsimp only
    rw [hfault]

end SystemMap
