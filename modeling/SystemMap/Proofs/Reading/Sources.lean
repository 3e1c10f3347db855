/-
What a document is made of. Whatever library a text is read with, and however the texts include
one another, the document comes from the text and from texts that the library answered with,
one for each path at most, none of which has a fault. Node classes and link classes come from
all of these texts, the rest from the text itself.

So what holds of everything that one text declares by itself holds of all that a document
declares (`Gathered.writable`).
-/
import SystemMap.Proofs.Printing.RoundTrip
import SystemMap.Proofs.Reading.Reach

namespace SystemMap

variable {ε : Type}

/-- What a text declares, its directives not followed. -/
def declaredBy (text : String) : Document := .ofSegments (Outline.ofText text).segments

/-- The outcome of a text read by itself. -/
theorem result_read_alone (path : Option String) (text : String) :
    (read (none : Option (Library ε)) path text).result =
      (Outline.ofText text).fault.elim (.ok (declaredBy text)) fun fault => .error (.text fault) := by
  unfold read
  rw [reading_alone]
  cases (Outline.ofText text).fault <;> rfl

/-- A document gathered from a text and from included texts, each under its path. -/
structure Gathered (library : Option (Library ε)) (text : String)
    (included : List (String × String)) (d : Document) : Prop where
  once : (included.map (·.1)).Nodup
  answers : ∀ entry ∈ included, ∃ lib includer,
    library = some lib ∧ lib.lookup entry.1 includer = .ok entry.2
  faultless : ∀ t ∈ text :: included.map (·.2), (Outline.ofText t).fault = none
  nodeClasses : d.nodeClasses.Perm
    ((text :: included.map (·.2)).flatMap fun t => (declaredBy t).nodeClasses)
  linkClasses : d.linkClasses.Perm
    ((text :: included.map (·.2)).flatMap fun t => (declaredBy t).linkClasses)
  includes : d.includes = (declaredBy text).includes
  instances : d.instances = (declaredBy text).instances
  translations : d.translations = (declaredBy text).translations
  connections : d.connections = (declaredBy text).connections

/-- A walk that ends without a fault was answered by a text at each call. -/
theorem Visits.exists_answers {lib : Library ε} {includer : Option String}
    {unopened : List String} {segments : List Segment} {fault : Option TextFault}
    {v : Visit ε} (h : Visits lib includer unopened segments fault v) (hv : v.fault = none) :
    ∃ included : List (String × String), included.map (·.1) = v.opened ∧
      (∀ entry ∈ included, ∃ asker, lib.lookup entry.1 asker = .ok entry.2 ∧
        (Outline.ofText entry.2).fault = none) ∧
      v.calls.map lib.declared = included.map fun entry => declaredBy entry.2 := by
  obtain ⟨-, -, hcalls⟩ := h.exhausts hv
  unfold Visit.opened
  generalize v.calls = calls at hcalls
  induction calls with
  | nil => exact ⟨[], rfl, nofun, rfl⟩
  | cons c later ih =>
      obtain ⟨included, hpaths, hanswers, hdeclared⟩ :=
        ih fun c hc => hcalls c (List.mem_cons_of_mem _ hc)
      obtain ⟨t, hlookup, hfault, -⟩ := hcalls c List.mem_cons_self
      refine ⟨(c.path, t) :: included, ?_, ?_, ?_⟩
      · rw [List.map_cons, List.map_cons, hpaths]
      · exact List.forall_mem_cons.2 ⟨⟨c.includer, hlookup, hfault⟩, hanswers⟩
      · rw [List.map_cons, List.map_cons, hdeclared, declared_of_lookup hlookup]
        rfl

theorem Visits.exists_gathered {lib : Library ε} {own : Option String} {unopened : List String}
    {text : String} {v : Visit ε}
    (h : Visits lib own unopened (Outline.ofText text).segments (Outline.ofText text).fault v)
    (hv : v.fault = none) :
    ∃ included, Gathered (some lib) text included
      { declaredBy text with nodeClasses := v.nodeClasses, linkClasses := v.linkClasses } := by
  obtain ⟨included, hpaths, hanswers, hdeclared⟩ := h.exists_answers hv
  obtain ⟨hnodes, hlinks⟩ := h.gathers hv
  have hparts : ∀ {α : Type} (f : Document → List α),
      (text :: included.map (·.2)).flatMap (fun t => f (declaredBy t))
        = f (declaredBy text) ++ v.calls.flatMap fun c => f (lib.declared c) := by
    intro α f
    rw [List.flatMap_cons, ← List.flatMap_map lib.declared f, hdeclared, List.flatMap_map,
      List.flatMap_map]
  refine ⟨included, ?_, ?_, ?_, ?_, ?_, rfl, rfl, rfl, rfl⟩
  · rw [hpaths]
    exact h.opens.once
  · intro entry hentry
    obtain ⟨asker, hlookup, -⟩ := hanswers entry hentry
    exact ⟨lib, asker, rfl, hlookup⟩
  · refine List.forall_mem_cons.2 ⟨(h.exhausts hv).1, List.forall_mem_map.2 ?_⟩
    intro entry hentry
    obtain ⟨-, -, hfault⟩ := hanswers entry hentry
    exact hfault
  · rw [hparts (·.nodeClasses)]
    exact hnodes
  · rw [hparts (·.linkClasses)]
    exact hlinks

/-- Every document that is read is gathered so. -/
theorem exists_gathered {library : Option (Library ε)} {path : Option String} {text : String}
    {d : Document} (h : (read library path text).result = .ok d) :
    ∃ included, Gathered library text included d := by
  cases library with
  | none =>
      obtain ⟨hfault, rfl⟩ := result_alone_ok_iff.1 h
      refine ⟨[], List.nodup_nil, nofun, ?_, ?_, ?_, rfl, rfl, rfl, rfl⟩
      · exact List.forall_mem_singleton.2 hfault
      · simp [declaredBy]
      · simp [declaredBy]
  | some lib =>
      have hwalk := visits_follow lib path (unopenedAtStart (some lib) path (Outline.ofText text))
        (Outline.ofText text).segments (Outline.ofText text).fault
      unfold read Outline.reading at h
      dsimp only at h
      split at h
      · cases h
      · next hv =>
          cases h
          rw [document_eq_ofSegments]
          exact hwalk.exists_gathered hv

-- ================================================================= writable

theorem writable_declaredBy {text : String} (h : (Outline.ofText text).fault = none) :
    (declaredBy text).Writable :=
  writable_of_read (declares_of_fault h)

/-- Whatever library it was read with, a document can be printed. -/
theorem Gathered.writable {library : Option (Library ε)} {text : String}
    {included : List (String × String)} {d : Document} (h : Gathered library text included d) :
    d.Writable := by
  have hparts : ∀ t ∈ text :: included.map (·.2), (declaredBy t).Writable :=
    fun t ht => writable_declaredBy (h.faultless t ht)
  have hown := hparts text List.mem_cons_self
  constructor
  · exact h.includes ▸ hown.includes
  · intro c hc
    obtain ⟨t, ht, hc⟩ := List.mem_flatMap.1 (h.nodeClasses.mem_iff.1 hc)
    exact (hparts t ht).nodeClasses c hc
  · intro l hl
    obtain ⟨t, ht, hl⟩ := List.mem_flatMap.1 (h.linkClasses.mem_iff.1 hl)
    exact (hparts t ht).linkClasses l hl
  · exact h.instances ▸ hown.instances
  · exact h.translations ▸ hown.translations
  · exact h.connections ▸ hown.connections

end SystemMap
