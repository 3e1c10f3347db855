/-
A text read without a library. The walk through its segments then opens nothing, so the
reading is a plain function of the outline: every declaration of the text lands in its own
list of the document, in order, and every directive is reported as not followed.

`reading_alone` says so in one equation. What a text declares by itself, which is what an
including text can gather from it, is `Document.ofSegments`, six projections of the
segments; `document_eq_ofSegments` identifies it with the fold that the reading performs.
-/
import SystemMap.Reading

namespace SystemMap

-- ======================================================= segments, by kind

namespace Segment

/-- The directive that a segment is, if it is one. -/
def directive? : Segment → Option Include
  | .declared (.directive i) => some i
  | _ => none

/-- The node class that a segment declares. -/
def nodeClass? : Segment → Option NodeClass
  | .declared (.nodeClass c) => some c
  | _ => none

/-- The link class that a segment declares. -/
def linkClass? : Segment → Option LinkClass
  | .declared (.linkClass l) => some l
  | _ => none

/-- The instances that a segment declares. -/
def instances? : Segment → Option InstanceGroup
  | .declared (.instances g) => some g
  | _ => none

/-- The address translation that a segment declares. -/
def translation? : Segment → Option Translation
  | .declared (.translation t) => some t
  | _ => none

/-- The connection that a segment declares. -/
def connection? : Segment → Option Connection
  | .declared (.connection c) => some c
  | _ => none

/-- What is reported of a segment when no library is at hand. -/
def event? : Segment → Option ReadingEvent
  | .passed current kind position => some (.passed current kind position)
  | .declared (.directive i) => some (.notFollowed i.path .noLibrary)
  | _ => none

end Segment

-- ===================================================== what a text declares

/-- The declarations among some segments, list by list. -/
def Document.ofSegments (segments : List Segment) : Document where
  includes := segments.filterMap Segment.directive?
  nodeClasses := segments.filterMap Segment.nodeClass?
  linkClasses := segments.filterMap Segment.linkClass?
  instances := segments.filterMap Segment.instances?
  translations := segments.filterMap Segment.translation?
  connections := segments.filterMap Segment.connection?

/-- A declaration in front adds the document of that declaration in front. -/
theorem ofSegments_declared (d : Declaration) (later : List Segment) :
    Document.ofSegments (.declared d :: later)
      = .ofDeclaration d ++ Document.ofSegments later := by
  cases d <;> rfl

/-- A segment that declares nothing adds nothing. -/
theorem ofSegments_silent {s : Segment} (hs : ∀ d, s ≠ .declared d)
    (later : List Segment) :
    Document.ofSegments (s :: later) = Document.ofSegments later := by
  cases s with
  | marker s => rfl
  | declared d => exact absurd rfl (hs d)
  | passed current kind position => rfl

theorem document_eq_ofSegments (o : Outline) :
    o.document = .ofSegments o.segments := by
  unfold Outline.document Outline.declarations
  induction o.segments with
  | nil => rfl
  | cons s later ih =>
      cases s with
      | declared d =>
          rw [ofSegments_declared, ← ih]
          rfl
      | marker s =>
          rw [ofSegments_silent (by intro d h; cases h), ← ih]
          rfl
      | passed current kind position =>
          rw [ofSegments_silent (by intro d h; cases h), ← ih]
          rfl

/-- The paths that an outline names are those of its directives. -/
theorem includePaths_eq (o : Outline) :
    o.includePaths = (o.segments.filterMap Segment.directive?).map (·.path) := by
  unfold Outline.includePaths Outline.declarations
  rw [List.filterMap_filterMap, List.map_filterMap]
  congr 1
  funext s
  cases s with
  | declared d => cases d <;> rfl
  | marker s => rfl
  | passed current kind position => rfl

/-- A directive of an outline has a path that the outline names. -/
theorem path_mem_includePaths {o : Outline} {i : Include}
    (hi : i ∈ o.segments.filterMap Segment.directive?) : i.path ∈ o.includePaths := by
  rw [includePaths_eq]
  exact List.mem_map_of_mem hi

-- ======================================================== without a library

variable {ε : Type}

/-- Without a library the walk opens nothing and breaks off nowhere. -/
theorem follow_none (includer : Option String) (unopened : List String)
    (segments : List Segment) (fault : Option TextFault) :
    (follow (none : Option (Library ε)) includer unopened segments fault).1
      = { unopened := unopened
          calls := []
          events := segments.filterMap Segment.event?
          nodeClasses := segments.filterMap Segment.nodeClass?
          linkClasses := segments.filterMap Segment.linkClass?
          fault := fault.map .text } := by
  induction segments with
  | nil =>
      rw [follow]
      rfl
  | cons s later ih =>
      cases s with
      | marker s =>
          rw [follow, ih]
          rfl
      | passed current kind position =>
          rw [follow]
          simp only [ih]
          rfl
      | declared d =>
          cases d with
          | nodeClass c =>
              rw [follow]
              simp only [ih]
              rfl
          | linkClass l =>
              rw [follow]
              simp only [ih]
              rfl
          | directive i =>
              rw [follow]
              simp only [ih]
              rfl
          | _ =>
              rw [follow, ih]
              · rfl
              all_goals
                intro _ h
                cases h

/-- A text read alone: nothing is asked for, and the document is what the text declares. -/
theorem reading_alone (path : Option String) (o : Outline) :
    o.reading (none : Option (Library ε)) path
      = { calls := []
          events := o.segments.filterMap Segment.event?
          result := match o.fault with
            | some fault => .error (.text fault)
            | none => .ok (.ofSegments o.segments) } := by
  unfold Outline.reading
  simp only [follow_none, document_eq_ofSegments]
  cases o.fault <;> rfl

/-- A text read alone has a document exactly if it has no fault. -/
theorem result_alone_ok_iff {path : Option String} {o : Outline} {d : Document} :
    (o.reading (none : Option (Library ε)) path).result = .ok d
      ↔ o.fault = none ∧ d = .ofSegments o.segments := by
  rw [reading_alone]
  cases o.fault with
  | none => simp [eq_comm]
  | some fault => simp

end SystemMap
