/-
What a reading opens and what it gathers, for a library of given texts and whatever way the
texts include one another. The texts form a graph whose edges are the include directives;
`Reached` is reachability in it, from the text that is read and never through the path of
that text itself.

The walk is a depth-first search of this graph. Soundness needs no more than that a call
comes from a directive (`Visits.calls_of_closed`). Completeness is the other half of the
search invariant: a walk that ends without a fault leaves no path unopened that a directive
of it, or of a text opened by it, names (`Visits.exhausts`). So a path that is reached and
was unopened at the start has been opened, and by `Visits.opens` only once.

What is gathered follows the same derivation: a walk that ends without a fault gathers what
its own segments declare and what the text of each of its calls declares (`Visits.gathers`).
-/
import Mathlib.Data.List.Forall2
import Mathlib.Data.List.Perm.Subperm
import Mathlib.Tactic.Set
import SystemMap.Proofs.Reading.Visits

namespace SystemMap

variable {ε : Type}

-- ================================================ walks that end without a fault

/-- A call answered by a text without a fault, all of whose paths are opened by now. -/
def Exhausted (lib : Library ε) (unopened : List String) (c : Call) : Prop :=
  ∃ text, lib.lookup c.path c.includer = .ok text ∧ (Outline.ofText text).fault = none ∧
    ∀ p ∈ (Outline.ofText text).includePaths, p ∉ unopened

/-- A call whose directives are all opened stays so when more is opened. -/
theorem Exhausted.mono {lib : Library ε} {unopened later : List String} {c : Call}
    (h : Exhausted lib unopened c) (hsub : ∀ p ∈ later, p ∈ unopened) :
    Exhausted lib later c := by
  obtain ⟨text, hl, hf, hp⟩ := h
  exact ⟨text, hl, hf, fun p hq hlater => hp p hq (hsub p hlater)⟩

/-- A walk that ends without a fault leaves nothing unopened that its directives, or those
of the texts it opened, name. -/
theorem Visits.exhausts {lib : Library ε} {includer : Option String}
    {unopened : List String} {segments : List Segment} {fault : Option TextFault}
    {v : Visit ε} (h : Visits lib includer unopened segments fault v)
    (hv : v.fault = none) :
    fault = none ∧ (∀ i ∈ segments.filterMap Segment.directive?, i.path ∉ v.unopened) ∧
      ∀ c ∈ v.calls, Exhausted lib v.unopened c := by
  induction h with
  | @finished _ _ fault =>
      refine ⟨?_, by simp, by intro c hc; cases hc⟩
      cases fault with
      | none => rfl
      | some f => cases hv
  | plain hs hw ih =>
      obtain ⟨hf, hd, hc⟩ := ih (by simpa using hv)
      refine ⟨hf, ?_, by simpa using hc⟩
      rw [List.filterMap_cons_none hs, meet_unopened]
      exact hd
  | skipped hi hw ih =>
      obtain ⟨hf, hd, hc⟩ := ih hv
      refine ⟨hf, fun j hj => ?_, hc⟩
      rcases List.mem_cons.1 hj with rfl | hj
      · exact fun hp => hi (hw.unopened_subset hp)
      · exact hd j hj
  | missing hi hl => cases hv
  | broken hi hl hw hf ih => cases hf.symm.trans hv
  | followed hi hl hin hf hw ih ihouter =>
      obtain ⟨hft, hdin, hcin⟩ := ih hf
      obtain ⟨hfl, hdout, hcout⟩ := ihouter hv
      have hsub := fun p => hw.unopened_subset (p := p)
      refine ⟨hfl, fun j hj => ?_, fun c hc => ?_⟩
      · rcases List.mem_cons.1 hj with rfl | hj
        · exact fun hp => (mem_without.1 (hin.unopened_subset (hsub _ hp))).2 rfl
        · exact hdout j hj
      · rcases List.mem_cons.1 hc with rfl | hc
        · refine ⟨_, hl, hft, fun p hp hq => ?_⟩
          rw [includePaths_eq] at hp
          obtain ⟨j, hj, rfl⟩ := List.mem_map.1 hp
          exact hdin j hj (hsub _ hq)
        · rcases List.mem_append.1 hc with hc | hc
          · exact (hcin c hc).mono hsub
          · exact hcout c hc

-- ========================================================= what is gathered

/-- What the text that answers a call declares by itself; nothing if there is none. -/
def Library.declared (lib : Library ε) (c : Call) : Document :=
  match lib.lookup c.path c.includer with
  | .ok text => .ofSegments (Outline.ofText text).segments
  | .error _ => .empty

/-- What a call declares is what the text that it was given declares. -/
theorem declared_of_lookup {lib : Library ε} {c : Call} {text : String}
    (h : lib.lookup c.path c.includer = .ok text) :
    lib.declared c = .ofSegments (Outline.ofText text).segments := by
  unfold Library.declared
  rw [h]

/-- Two gatherings one after the other: what is at home in either comes first. -/
private theorem perm_regroup {α : Type} {a b home part rest more : List α}
    (ha : a.Perm (part ++ more)) (hb : b.Perm (home ++ rest)) :
    (a ++ b).Perm (home ++ (part ++ (more ++ rest))) := by
  calc (a ++ b).Perm ((part ++ more) ++ (home ++ rest)) := ha.append hb
    _ = (part ++ more ++ home) ++ rest := by simp
    _ |>.Perm ((home ++ (part ++ more)) ++ rest) :=
        (List.perm_append_comm).append_right rest
    _ = home ++ (part ++ (more ++ rest)) := by simp

/-- A walk that ends without a fault gathers, up to order, what its segments declare and
what the text of each of its calls declares. -/
theorem Visits.gathers {lib : Library ε} {includer : Option String} {unopened : List String}
    {segments : List Segment} {fault : Option TextFault} {v : Visit ε}
    (h : Visits lib includer unopened segments fault v) (hv : v.fault = none) :
    v.nodeClasses.Perm (segments.filterMap Segment.nodeClass? ++
        v.calls.flatMap fun c => (lib.declared c).nodeClasses) ∧
      v.linkClasses.Perm (segments.filterMap Segment.linkClass? ++
        v.calls.flatMap fun c => (lib.declared c).linkClasses) := by
  induction h with
  | finished => exact ⟨List.Perm.refl _, List.Perm.refl _⟩
  | plain hs hw ih =>
      obtain ⟨hn, hl⟩ := ih (by simpa using hv)
      rw [meet_nodeClasses, meet_linkClasses, meet_calls, filterMap_cons_toList,
        filterMap_cons_toList, List.append_assoc, List.append_assoc]
      exact ⟨hn.append_left _, hl.append_left _⟩
  | skipped hi hw ih => exact ih hv
  | missing hi hl => cases hv
  | broken hi hl hw hf ih => cases hf.symm.trans hv
  | followed hi hl hin hf hw ih ihouter =>
      obtain ⟨hn, hlk⟩ := ih hf
      obtain ⟨hno, hlko⟩ := ihouter hv
      have hcalls : ∀ {α : Type} (f : Document → List α) (c : Call) (l m : List Call),
          (c :: l ++ m).flatMap (fun c => f (lib.declared c))
            = f (lib.declared c) ++ (l.flatMap (fun c => f (lib.declared c)) ++
                m.flatMap fun c => f (lib.declared c)) := by
        intro α f c l m
        simp
      have hown := declared_of_lookup (c := ⟨_, _⟩) hl
      constructor
      · show (_ ++ _ : List NodeClass).Perm (_ ++ List.flatMap _ (_ :: _ ++ _))
        rw [hcalls (·.nodeClasses), hown]
        exact perm_regroup hn hno
      · show (_ ++ _ : List LinkClass).Perm (_ ++ List.flatMap _ (_ :: _ ++ _))
        rw [hcalls (·.linkClasses), hown]
        exact perm_regroup hlk hlko

-- ======================================================== the graph of texts

/-- The paths that a text with path `own` leads to through include directives. The text's
own path is not passed through. -/
inductive Reached (texts : List (String × String)) (own : Option String) (text : String) :
    String → Prop
  | named {p} (hp : p ∈ (Outline.ofText text).includePaths) (hown : own ≠ some p) :
      Reached texts own text p
  | through {p t q} (hp : Reached texts own text p) (ht : texts.lookup p = some t)
      (hq : q ∈ (Outline.ofText t).includePaths) (hown : own ≠ some q) :
      Reached texts own text q

/-- A library of texts answers a path by the first text under it. -/
theorem ofTexts_lookup_ok_iff {texts : List (String × String)} {path : String}
    {includer : Option String} {text : String} :
    (Library.ofTexts texts).lookup path includer = .ok text
      ↔ texts.lookup path = some text := by
  have hfind : texts.lookup path = (texts.find? (·.1 = path)).map (·.2) := by
    induction texts with
    | nil => rfl
    | cons entry later ih =>
        obtain ⟨key, t⟩ := entry
        by_cases hk : key = path
        · simp [hk]
        · have hk' : path ≠ key := fun h => hk h.symm
          simp [List.lookup_cons, hk, beq_false_of_ne hk', ih]
  rw [hfind]
  unfold Library.ofTexts
  dsimp only
  cases texts.find? (·.1 = path) with
  | none => simp
  | some entry => simp

/-- The paths that a walk may still open at its start: those that the text or the library
name, but the text's own. -/
theorem mem_unopenedAtStart {lib : Library ε} {own : Option String} {o : Outline}
    {p : String} :
    p ∈ unopenedAtStart (some lib) own o
      ↔ (p ∈ o.includePaths ∨ p ∈ lib.paths) ∧ own ≠ some p := by
  unfold unopenedAtStart
  rw [List.mem_filter, List.mem_append, decide_eq_true_eq]

/-- Every path that is reached is one that a walk may open at its start. -/
theorem Reached.mem_unopenedAtStart {texts : List (String × String)} {own : Option String}
    {text p : String} (h : Reached texts own text p) :
    p ∈ unopenedAtStart (some (Library.ofTexts texts)) own (Outline.ofText text) := by
  rw [SystemMap.mem_unopenedAtStart]
  cases h with
  | named hp hown => exact ⟨Or.inl hp, hown⟩
  | through _ ht hq hown =>
      have hl : (Library.ofTexts texts).lookup _ none = .ok _ := ofTexts_lookup_ok_iff.2 ht
      exact ⟨Or.inr ((Library.ofTexts texts).closed hl _ hq), hown⟩

-- ============================================================= the reading

section Reading

variable {texts : List (String × String)} {own : Option String} {text : String}
  {v : Visit Library.UnknownPath}

/-- Only reached paths are opened. -/
theorem reached_of_opened
    (h : Visits (Library.ofTexts texts) own
      (unopenedAtStart (some (Library.ofTexts texts)) own (Outline.ofText text))
      (Outline.ofText text).segments (Outline.ofText text).fault v) :
    ∀ p ∈ v.opened, Reached texts own text p := by
  have hcalls := h.calls_of_closed (fun c => Reached texts own text c.path)
    (unopenedAtStart (some (Library.ofTexts texts)) own (Outline.ofText text))
    (fun c t hc hl p hp hb => .through hc (ofTexts_lookup_ok_iff.1 hl) hp
      (mem_unopenedAtStart.1 hb).2)
    (fun _ hp => hp)
    (fun i hi hb => .named (path_mem_includePaths hi) (mem_unopenedAtStart.1 hb).2)
  intro p hp
  obtain ⟨c, hc, rfl⟩ := List.mem_map.1 hp
  exact hcalls c hc

/-- A reading that ends without a fault has opened every reached path. The induction is on
the way to the path: the call that opened the path before it was exhausted. -/
theorem opened_of_reached
    (h : Visits (Library.ofTexts texts) own
      (unopenedAtStart (some (Library.ofTexts texts)) own (Outline.ofText text))
      (Outline.ofText text).segments (Outline.ofText text).fault v)
    (hv : v.fault = none) {p : String} (hp : Reached texts own text p) : p ∈ v.opened := by
  obtain ⟨-, hdirect, hcalls⟩ := h.exhausts hv
  have hopened : ∀ q, Reached texts own text q → q ∉ v.unopened → q ∈ v.opened := by
    intro q hq hleft
    by_contra hno
    exact hleft ((h.opens.after q).2 ⟨hq.mem_unopenedAtStart, hno⟩)
  induction hp with
  | named hp hown =>
      refine hopened _ (.named hp hown) ?_
      rw [includePaths_eq] at hp
      obtain ⟨i, hi, rfl⟩ := List.mem_map.1 hp
      exact hdirect i hi
  | through hp ht hq hown ih =>
      refine hopened _ (.through hp ht hq hown) ?_
      obtain ⟨c, hc, rfl⟩ := List.mem_map.1 ih
      obtain ⟨t', hl, -, hexh⟩ := hcalls c hc
      rw [ofTexts_lookup_ok_iff, ht] at hl
      cases hl
      exact hexh _ hq

end Reading

/-- What a text declares when it is read without a library. -/
def Declares (text : String) (d : Document) : Prop :=
  (read (none : Option (Library Library.UnknownPath)) none text).result = .ok d

/-- A text without a fault declares what its segments do. -/
theorem declares_of_fault {text : String} (h : (Outline.ofText text).fault = none) :
    Declares text (.ofSegments (Outline.ofText text).segments) :=
  result_alone_ok_iff.2 ⟨h, rfl⟩

/-- Reading with a library of texts opens every path at most once, only reached paths, and
no more of them than directives name. If it comes to a document, it has opened exactly the
reached paths, and the node classes and the link classes of the document are, up to order,
those that the text declares by itself together with those that each opened text declares
by itself. -/
theorem read_opens_reached_once (texts : List (String × String)) (own : Option String)
    (text : String) :
    (read (some (Library.ofTexts texts)) own text).opened.Nodup ∧
      (∀ p ∈ (read (some (Library.ofTexts texts)) own text).opened, Reached texts own text p) ∧
      (read (some (Library.ofTexts texts)) own text).opened.length
        ≤ ((Outline.ofText text).includePaths ++ Library.pathsOf (texts.map (·.2))).length ∧
      ∀ d, (read (some (Library.ofTexts texts)) own text).result = .ok d →
        (∀ p, p ∈ (read (some (Library.ofTexts texts)) own text).opened
          ↔ Reached texts own text p) ∧
        ∃ (home : Document) (parts : List Document), Declares text home ∧
          List.Forall₂ (fun p part => ∃ t, texts.lookup p = some t ∧ Declares t part)
            (read (some (Library.ofTexts texts)) own text).opened parts ∧
          d.nodeClasses.Perm (home.nodeClasses ++ parts.flatMap (·.nodeClasses)) ∧
          d.linkClasses.Perm (home.linkClasses ++ parts.flatMap (·.linkClasses)) := by
  have h := visits_follow (Library.ofTexts texts) own
    (unopenedAtStart (some (Library.ofTexts texts)) own (Outline.ofText text))
    (Outline.ofText text).segments (Outline.ofText text).fault
  set v := (follow (some (Library.ofTexts texts)) own
    (unopenedAtStart (some (Library.ofTexts texts)) own (Outline.ofText text))
    (Outline.ofText text).segments (Outline.ofText text).fault).1 with hdef
  have hbound : v.opened.length ≤ ((Outline.ofText text).includePaths ++
      Library.pathsOf (texts.map (·.2))).length := by
    refine (List.subperm_of_subset h.opens.once fun p hp => ?_).length_le
    rcases (mem_unopenedAtStart.1 (h.opens.before p hp)).1 with hp | hp
    · exact List.mem_append_left _ hp
    · exact List.mem_append_right _ hp
  refine ⟨h.opens.once, reached_of_opened h, hbound, fun d hd => ?_⟩
  have hv : v.fault = none := by
    cases hf : v.fault with
    | none => rfl
    | some f =>
        simp only [read, Outline.reading, ← hdef, hf] at hd
        cases hd
  simp only [read, Outline.reading, ← hdef, hv] at hd
  cases hd
  obtain ⟨hft, -, hcalls⟩ := h.exhausts hv
  obtain ⟨hn, hl⟩ := h.gathers hv
  refine ⟨fun p => ⟨reached_of_opened h p, opened_of_reached h hv⟩,
    .ofSegments (Outline.ofText text).segments,
    v.calls.map (Library.ofTexts texts).declared, declares_of_fault hft, ?_, ?_, ?_⟩
  · show List.Forall₂ _ (v.calls.map (·.path)) _
    rw [List.forall₂_map_left_iff, List.forall₂_map_right_iff, List.forall₂_same]
    intro c hc
    obtain ⟨t, ht, hf, -⟩ := hcalls c hc
    refine ⟨t, ofTexts_lookup_ok_iff.1 ht, ?_⟩
    rw [declared_of_lookup ht]
    exact declares_of_fault hf
  · rw [List.flatMap_map]
    exact hn
  · rw [List.flatMap_map]
    exact hl

/-- A library whose one text includes itself. -/
def selfIncluding : List (String × String) := [("a", "include \"a\" #nodeclass A::")]

/-- Two directives for a text that includes itself open it once. -/
theorem selfIncluding_opened_once :
    ∃ d, (read (some (Library.ofTexts selfIncluding)) none
        "include \"a\" include \"a\"").result = .ok d ∧
      d.nodeClasses.length = 1 ∧
      ∀ p, p ∈ (read (some (Library.ofTexts selfIncluding)) none
          "include \"a\" include \"a\"").opened
        ↔ Reached selfIncluding none "include \"a\" include \"a\"" p := by
  have houter : Outline.ofText "include \"a\" include \"a\"" =
      ⟨[.declared (.directive ⟨"a", some ⟨1, 1⟩⟩),
        .declared (.directive ⟨"a", some ⟨1, 13⟩⟩)], none⟩ := by decide +kernel
  have hinner : Outline.ofText "include \"a\" #nodeclass A::" =
      ⟨[.declared (.directive ⟨"a", some ⟨1, 1⟩⟩), .marker .nodeClasses,
        .declared (.nodeClass ⟨"A", [], some ⟨1, 24⟩⟩)], none⟩ := by decide +kernel
  have hread : (read (some (Library.ofTexts selfIncluding)) none
      "include \"a\" include \"a\"").result
        = .ok ⟨[⟨"a", some ⟨1, 1⟩⟩, ⟨"a", some ⟨1, 13⟩⟩], [⟨"A", [], some ⟨1, 24⟩⟩],
          [], [], [], []⟩ := by
    simp [read, Outline.reading, houter, hinner, unopenedAtStart, Outline.includePaths,
      Outline.declarations, Library.ofTexts, Library.pathsOf, selfIncluding, follow, without,
      Visit.join, Visit.gatherNode, Visit.report, Visit.stop]
    exact ⟨rfl, rfl, rfl, rfl⟩
  exact ⟨_, hread, rfl, ((read_opens_reached_once selfIncluding none _).2.2.2 _ hread).1⟩

end SystemMap
