/-
What includes leave alone. An included text is read with sections and tokens of its own, and
all that comes of it are classes, which stand between those of the including text. So the text
read by itself declares the same directives, instances, translations and connections, and its
own classes are among the gathered ones, in their order (`readsTo_frames_alone`).
-/
import SystemMap.Proofs.Reading.Answers

namespace SystemMap

variable {ε : Type}

/-- One more item in front of two lists, if there is one. -/
theorem sublist_filterMap_cons {α β : Type} {f : α → Option β} {a : α} {l : List α}
    {m : List β} (h : (l.filterMap f).Sublist m) :
    ((a :: l).filterMap f).Sublist ((f a).toList ++ m) := by
  cases hfa : f a with
  | none =>
    rw [List.filterMap_cons_none hfa]
    exact h
  | some b =>
    rw [List.filterMap_cons_some hfa]
    exact h.cons_cons b

/-- A walk that ends without a fault gathers the classes of its own segments in their order,
whatever it gathers between them. -/
theorem Visits.keeps_own {lib : Library ε} {includer : Option String} {unopened : List String}
    {segments : List Segment} {fault : Option TextFault} {v : Visit ε}
    (h : Visits lib includer unopened segments fault v) (hv : v.fault = none) :
    (segments.filterMap Segment.nodeClass?).Sublist v.nodeClasses ∧
      (segments.filterMap Segment.linkClass?).Sublist v.linkClasses := by
  induction h with
  | finished => exact ⟨List.Sublist.refl _, List.Sublist.refl _⟩
  | plain hs hx ih =>
      obtain ⟨hn, hl⟩ := ih (by simpa using hv)
      rw [meet_nodeClasses, meet_linkClasses]
      exact ⟨sublist_filterMap_cons hn, sublist_filterMap_cons hl⟩
  | skipped hi hx ih => exact ih hv
  | missing hi hl => cases hv
  | broken hi hl hx hf ih => cases hf.symm.trans hv
  | followed hi hl hx hf hy ih ihouter =>
      obtain ⟨hn, hl⟩ := ihouter hv
      exact ⟨hn.trans (List.sublist_append_right ..), hl.trans (List.sublist_append_right ..)⟩

/-- Where no segment is a directive, a library changes nothing. -/
theorem Visits.eq_alone {lib : Library ε} {includer : Option String} {unopened : List String}
    {segments : List Segment} {fault : Option TextFault} {v : Visit ε}
    (h : Visits lib includer unopened segments fault v)
    (hplain : ∀ s ∈ segments, s.directive? = none) :
    v = (follow (none : Option (Library ε)) includer unopened segments fault).1 := by
  rw [follow_none]
  induction h with
  | finished => rfl
  | @plain _ _ s _ _ _ hs hx ih =>
      rw [ih fun s hs => hplain s (List.mem_cons_of_mem _ hs)]
      cases s with
      | declared d => cases d <;> first | rfl | cases hs
      | _ => rfl
  | skipped | missing | broken | followed => exact absurd (hplain _ List.mem_cons_self) nofun

/-- A text without directives is read alone, whatever the library. -/
theorem result_of_no_directive {o : Outline} (h : ∀ s ∈ o.segments, s.directive? = none)
    (library : Option (Library ε)) (path : Option String) :
    (o.reading library path).result = (o.reading (none : Option (Library ε)) path).result := by
  cases library with
  | none => rfl
  | some lib =>
      unfold Outline.reading
      rw [(visits_follow lib path _ o.segments o.fault).eq_alone h, follow_none, follow_none]

/-- Includes leak nothing but classes: if a text read with some answers to its includes comes
to a document, then read alone it comes to one with the same directives, instances,
translations and connections, positions and all, and its node classes and link classes are
among those of the first in the same order. -/
theorem readsTo_frames_alone {answer : String → Option String → Except ε String}
    {own : Option String} {text : String} {d : Document} (h : ReadsTo answer own text d) :
    ∃ home, (read (none : Option (Library ε)) own text).result = .ok home ∧
      home.includes = d.includes ∧ home.instances = d.instances ∧
      home.translations = d.translations ∧ home.connections = d.connections ∧
      home.nodeClasses.Sublist d.nodeClasses ∧ home.linkClasses.Sublist d.linkClasses := by
  obtain ⟨paths, hread⟩ := h
  obtain ⟨hv, rfl⟩ := read_ok_iff.1 hread
  have hwalk := visits_firstVisit (Library.within paths answer) own text
  obtain ⟨hfault, -, -⟩ := hwalk.exhausts hv
  exact ⟨_, result_alone_ok_iff.2 ⟨hfault, rfl⟩, rfl, rfl, rfl, rfl, hwalk.keeps_own hv⟩

/-- A text that changes its section and declares instances and connections of its own, with
one more text below it. -/
def meddling : List (String × String) :=
  [("l", "#nodeclass A:: include \"m\" #connections x -> y"), ("m", "#nodeclass B:: #linkclass , #instances B z")]

/-- Instances before and after a directive for such a text stay the only ones. -/
theorem meddling_framed :
    ∃ d, ReadsTo (Library.ofTexts meddling).lookup none "#instances A a include \"l\" A b" d ∧
      d.nodeClasses.length = 2 ∧
      ∃ home, (read (none : Option (Library Library.UnknownPath)) none
          "#instances A a include \"l\" A b").result = .ok home ∧
        home.includes = d.includes ∧ home.instances = d.instances ∧
        home.translations = d.translations ∧ home.connections = d.connections ∧
        home.nodeClasses.Sublist d.nodeClasses ∧ home.linkClasses.Sublist d.linkClasses := by
  have houter : Outline.ofText "#instances A a include \"l\" A b" =
      ⟨[.marker .instances, .declared (.instances ⟨"A", [⟨"a", none, some ⟨1, 14⟩⟩], some ⟨1, 12⟩⟩),
        .declared (.directive ⟨"l", some ⟨1, 16⟩⟩),
        .declared (.instances ⟨"A", [⟨"b", none, some ⟨1, 30⟩⟩], some ⟨1, 28⟩⟩)], none⟩ := by
    decide +kernel
  have hinner : Outline.ofText "#nodeclass A:: include \"m\" #connections x -> y" =
      ⟨[.marker .nodeClasses, .declared (.nodeClass ⟨"A", [], some ⟨1, 12⟩⟩),
        .declared (.directive ⟨"m", some ⟨1, 16⟩⟩), .marker .connections,
        .declared (.connection ⟨"x", "y", some ⟨1, 41⟩⟩)], none⟩ := by
    decide +kernel
  have hlast : Outline.ofText "#nodeclass B:: #linkclass , #instances B z" =
      ⟨[.marker .nodeClasses, .declared (.nodeClass ⟨"B", [], some ⟨1, 12⟩⟩),
        .marker .linkClasses, .passed (some .linkClasses) .comma ⟨1, 27⟩, .marker .instances,
        .declared (.instances ⟨"B", [⟨"z", none, some ⟨1, 42⟩⟩], some ⟨1, 40⟩⟩)], none⟩ := by
    decide +kernel
  have hread : ∃ d, (read (some (Library.ofTexts meddling)) none
      "#instances A a include \"l\" A b").result = .ok d ∧ d.nodeClasses.length = 2 := by
    simp [read, Outline.reading, houter, hinner, hlast, unopenedAtStart, Outline.includePaths,
      Outline.declarations, Library.ofTexts, Library.pathsOf, meddling, follow, without,
      Visit.join, Visit.gatherNode, Visit.report, Visit.stop]
  obtain ⟨d, hd, hlength⟩ := hread
  have hreads := readsTo_lookup_iff.2 hd
  exact ⟨d, hreads, hlength, readsTo_frames_alone hreads⟩

end SystemMap
