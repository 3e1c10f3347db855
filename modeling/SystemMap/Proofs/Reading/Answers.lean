/-
What a reading owes to its library. It asks a library for texts and sees nothing of it but the
answers, so any other library that answers those calls by the same texts leads to the same
document, by the same calls and events (`read_of_same_texts`).

That frees readings from the list of paths that a library comes with. `ReadsTo` speaks of
answers that are given by any function whatever, and need not name finitely many paths: a
reading that ends has asked for finitely many, and some list of paths is long enough for it.
A path is asked for once, so answers that change from call to call would be no more general.
-/
import SystemMap.Proofs.Reading.Reach

namespace SystemMap

variable {ε ε' : Type}

-- ================================================================ two walks

/-- Two visits that differ in nothing but the unopened paths that are not known. -/
structure Visit.Matches (known : String → Prop) (v : Visit ε) (w : Visit ε') : Prop where
  unopened : ∀ p, known p → (p ∈ w.unopened ↔ p ∈ v.unopened)
  calls : w.calls = v.calls
  events : w.events = v.events
  nodeClasses : w.nodeClasses = v.nodeClasses
  linkClasses : w.linkClasses = v.linkClasses
  fault : w.fault = none

/-- A segment that is passed keeps walks alike. -/
theorem Visit.Matches.meet {known : String → Prop} {v : Visit ε} {w : Visit ε'}
    (h : v.Matches known w) (s : Segment) : (v.meet s).Matches known (w.meet s) := by
  have hevents : (w.meet s).events = (v.meet s).events := by
    cases s with
    | passed current kind position => exact congrArg (_ :: ·) h.events
    | marker s => exact h.events
    | declared d => cases d <;> exact h.events
  refine ⟨?_, ?_, hevents, ?_, ?_, ?_⟩
  · simpa using h.unopened
  · simpa using h.calls
  · simpa using h.nodeClasses
  · simpa using h.linkClasses
  · simpa using h.fault

/-- Two walks through one text, the second with a library that gives all texts that the first
one got. The induction is on the first walk; at each directive the unopened paths decide, and
those agree on every path that a directive names. -/
theorem Visits.matches {lib : Library ε} {lib' : Library ε'} {known : String → Prop}
    {includer : Option String} {unopened unopened' : List String} {segments : List Segment}
    {fault : Option TextFault} {v : Visit ε} {w : Visit ε'}
    (h : Visits lib includer unopened segments fault v)
    (h' : Visits lib' includer unopened' segments fault w) (hv : v.fault = none)
    (hsame : ∀ c ∈ v.calls, ∀ text, lib.lookup c.path c.includer = .ok text →
      lib'.lookup c.path c.includer = .ok text ∧
        ∀ p ∈ (Outline.ofText text).includePaths, known p)
    (hseg : ∀ i ∈ segments.filterMap Segment.directive?, known i.path)
    (hun : ∀ p, known p → (p ∈ unopened' ↔ p ∈ unopened)) :
    v.Matches known w := by
  induction h generalizing unopened' w with
  | @finished _ _ fault =>
      cases h' with
      | finished =>
        cases fault with
        | none => exact ⟨hun, rfl, rfl, rfl, rfl, rfl⟩
        | some f => cases hv
  | @plain _ _ s _ _ _ hs hx ih =>
      have hrest : ∀ {w : Visit ε'}, Visits lib' _ unopened' _ _ w → _ := fun hw =>
        ih hw (by simpa using hv) (by simpa using hsame)
          (by rw [List.filterMap_cons_none hs] at hseg; exact hseg) hun
      cases h' with
      | plain _ hw => exact (hrest hw).meet s
      | _ => cases hs
  | skipped hi hx ih =>
      have hknown := hseg _ (List.mem_cons_self ..)
      have hlater := fun j hj => hseg j (List.mem_cons_of_mem _ hj)
      cases h' with
      | plain hs => cases hs
      | skipped _ hw =>
        have hm := ih hw hv hsame hlater hun
        exact ⟨hm.unopened, hm.calls, congrArg (_ :: ·) hm.events, hm.nodeClasses,
          hm.linkClasses, hm.fault⟩
      -- opened before the first walk came here, so opened before the second did
      | missing hi' | broken hi' | followed hi' => exact absurd ((hun _ hknown).1 hi') hi
  | missing hi hl => cases hv
  | broken hi hl hx hf ih => cases hf.symm.trans hv
  | @followed _ _ i _ _ text inner outer hi hl hx hf hy ih ihouter =>
      have hknown := hseg _ (List.mem_cons_self ..)
      have hlater := fun j hj => hseg j (List.mem_cons_of_mem _ hj)
      obtain ⟨hl', hnamed⟩ := hsame _ (List.mem_cons_self ..) _ hl
      have hsegin : ∀ j ∈ (Outline.ofText text).segments.filterMap Segment.directive?,
          known j.path := fun j hj => hnamed _ (path_mem_includePaths hj)
      have hin : ∀ {w : Visit ε'}, Visits lib' _ (without i.path unopened') _ _ w →
          inner.Matches known w := fun hw =>
        ih hw hf (fun c hc => hsame c (List.mem_cons_of_mem _ (List.mem_append_left _ hc)))
          hsegin fun p hp => by rw [mem_without, mem_without, hun p hp]
      cases h' with
      | plain hs => cases hs
      | skipped hi' => exact absurd ((hun _ hknown).2 hi) hi'
      | missing _ hm => cases hl'.symm.trans hm
      | broken _ hm hw hg =>
        cases hl'.symm.trans hm
        cases hg.symm.trans (hin hw).fault
      | followed _ hm hw hg hz =>
        cases hl'.symm.trans hm
        have hinner := hin hw
        -- the inner walks leave unopened what the outer ones go on with
        have houter := ihouter hz hv
          (fun c hc => hsame c (List.mem_cons_of_mem _ (List.mem_append_right _ hc)))
          hlater hinner.unopened
        refine ⟨houter.unopened, ?_, ?_, ?_, ?_, houter.fault⟩
        · simp only [Visit.join, hinner.calls, houter.calls]
        · simp only [Visit.join, hinner.events, hinner.nodeClasses, hinner.linkClasses,
            houter.events]
        · simp only [Visit.join, hinner.nodeClasses, houter.nodeClasses]
        · simp only [Visit.join, hinner.linkClasses, houter.linkClasses]

-- ============================================================= two readings

/-- The visit that a reading is made of. -/
def firstVisit (lib : Library ε) (own : Option String) (text : String) : Visit ε :=
  (follow (some lib) own (unopenedAtStart (some lib) own (Outline.ofText text))
    (Outline.ofText text).segments (Outline.ofText text).fault).1

/-- The first walk of a reading is one of its text. -/
theorem visits_firstVisit (lib : Library ε) (own : Option String) (text : String) :
    Visits lib own (unopenedAtStart (some lib) own (Outline.ofText text))
      (Outline.ofText text).segments (Outline.ofText text).fault (firstVisit lib own text) :=
  visits_follow ..

/-- A reading comes to a document exactly if its visit has no fault. The document is that of
the text by itself but for the gathered classes. -/
theorem read_ok_iff {lib : Library ε} {own : Option String} {text : String} {d : Document} :
    (read (some lib) own text).result = .ok d ↔ (firstVisit lib own text).fault = none ∧
      d = { Document.ofSegments (Outline.ofText text).segments with
        nodeClasses := (firstVisit lib own text).nodeClasses
        linkClasses := (firstVisit lib own text).linkClasses } := by
  rw [← document_eq_ofSegments]
  unfold read Outline.reading firstVisit
  dsimp only
  generalize (follow (some lib) own (unopenedAtStart (some lib) own (Outline.ofText text))
    (Outline.ofText text).segments (Outline.ofText text).fault).1 = v
  cases v.fault with
  | none => simp [eq_comm]
  | some f => simp

/-- A reading that comes to a document comes to the same one with any library that gives it
the same texts. -/
theorem read_of_same_texts {lib : Library ε} {lib' : Library ε'} {own : Option String}
    {text : String} {d : Document} (h : (read (some lib) own text).result = .ok d)
    (hsame : ∀ c ∈ (read (some lib) own text).calls, ∀ t,
      lib.lookup c.path c.includer = .ok t → lib'.lookup c.path c.includer = .ok t) :
    (read (some lib') own text).result = .ok d ∧
      (read (some lib') own text).calls = (read (some lib) own text).calls ∧
      (read (some lib') own text).events = (read (some lib) own text).events := by
  obtain ⟨hv, hd⟩ := read_ok_iff.1 h
  -- both libraries list every path that a directive of the walks can name
  let known : String → Prop := fun p =>
    (p ∈ (Outline.ofText text).includePaths ∨ p ∈ lib.paths) ∧
      (p ∈ (Outline.ofText text).includePaths ∨ p ∈ lib'.paths)
  have hmatch : (firstVisit lib own text).Matches known (firstVisit lib' own text) := by
    refine (visits_firstVisit lib own text).matches (visits_firstVisit lib' own text) hv
      (fun c hc t ht => ?_) (fun i hi => ?_) fun p hp => ?_
    · have ht' := hsame c hc t ht
      exact ⟨ht', fun p hp => ⟨.inr (lib.closed ht p hp), .inr (lib'.closed ht' p hp)⟩⟩
    · exact ⟨.inl (path_mem_includePaths hi), .inl (path_mem_includePaths hi)⟩
    · rw [mem_unopenedAtStart, mem_unopenedAtStart, and_iff_right hp.1, and_iff_right hp.2]
  refine ⟨read_ok_iff.2 ⟨hmatch.fault, ?_⟩, hmatch.calls, hmatch.events⟩
  rw [hmatch.nodeClasses, hmatch.linkClasses]
  exact hd

-- ============================================================== any answers

/-- The texts that `answer` gives, as far as they name no other paths than those listed. -/
def Library.within (paths : List String)
    (answer : String → Option String → Except ε String) : Library (Option ε) where
  lookup path includer := match answer path includer with
    | .error e => .error (some e)
    | .ok text =>
      if (Outline.ofText text).includePaths ⊆ paths then .ok text else .error none
  paths := paths
  closed := by
    intro path includer text h p hp
    split at h
    · cases h
    · split at h
      · next hsub =>
        cases h
        exact hsub hp
      · cases h

/-- A library of some paths gives a text only if that asks for no others. -/
theorem within_lookup_ok_iff {paths : List String}
    {answer : String → Option String → Except ε String} {path : String}
    {includer : Option String} {text : String} :
    (Library.within paths answer).lookup path includer = .ok text ↔
      answer path includer = .ok text ∧ (Outline.ofText text).includePaths ⊆ paths := by
  unfold Library.within
  dsimp only
  cases answer path includer with
  | error e => simp
  | ok t =>
    by_cases ht : (Outline.ofText t).includePaths ⊆ paths
    · simp only [ht, if_true, Except.ok.injEq]
      exact ⟨fun h => ⟨h, h ▸ ht⟩, fun h => h.1⟩
    · simp only [ht, if_false, Except.ok.injEq, reduceCtorEq, false_iff]
      rintro ⟨rfl, hsub⟩
      exact ht hsub

/-- With the answers that a function gives, reading a text comes to a document. The paths
that the texts name are listed as far as this reading needs it. -/
def ReadsTo (answer : String → Option String → Except ε String) (own : Option String)
    (text : String) (d : Document) : Prop :=
  ∃ paths, (read (some (Library.within paths answer)) own text).result = .ok d

/-- For the answers of a library this is what reading with the library comes to. -/
theorem readsTo_lookup_iff {lib : Library ε} {own : Option String} {text : String}
    {d : Document} :
    ReadsTo lib.lookup own text d ↔ (read (some lib) own text).result = .ok d := by
  constructor
  · rintro ⟨paths, h⟩
    exact (read_of_same_texts h fun c _ t ht => (within_lookup_ok_iff.1 ht).1).1
  · intro h
    refine ⟨lib.paths, (read_of_same_texts h fun c _ t ht => ?_).1⟩
    exact within_lookup_ok_iff.2 ⟨ht, fun p hp => lib.closed ht p hp⟩

/-- The answers determine the document: what is read within one list of paths is read within
every longer one. -/
theorem ReadsTo.unique {answer : String → Option String → Except ε String}
    {own : Option String} {text : String} {d d' : Document} (h : ReadsTo answer own text d)
    (h' : ReadsTo answer own text d') : d = d' := by
  obtain ⟨paths, h⟩ := h
  obtain ⟨paths', h'⟩ := h'
  have hlonger : ∀ {part : List String}, part ⊆ paths ++ paths' →
      ∀ {e}, (read (some (Library.within part answer)) own text).result = .ok e →
        (read (some (Library.within (paths ++ paths') answer)) own text).result = .ok e := by
    intro part hsub e he
    refine (read_of_same_texts he fun c _ t ht => ?_).1
    obtain ⟨ha, hp⟩ := within_lookup_ok_iff.1 ht
    exact within_lookup_ok_iff.2 ⟨ha, fun p hq => hsub (hp hq)⟩
  have hd := hlonger (List.subset_append_left ..) h
  have hd' := hlonger (List.subset_append_right ..) h'
  exact Except.ok.inj (hd.symm.trans hd')

end SystemMap
