/-
The outline of a text: the segments that its tokens split into, in order. A segment is a
section marker, a declaration, or a single token that starts nothing in the section it
stands in and is passed over. Segments follow one another without gaps, so no token is lost
unseen. A text that cannot be read to its end has the outline of what comes before the fault.

Which text an include directive leads to is no matter of the outline; it only keeps the
directive in its place.
-/
import SystemMap.Outline.Construct

namespace SystemMap

/-- A run of consecutive tokens that belong together. -/
inductive Segment where
  | marker (s : Section)
  | declared (d : Declaration)
  /-- A token passed over, with the section in force. -/
  | passed (current : Option Section) (kind : TokenKind) (position : Position)
deriving DecidableEq

namespace Segment

/-- The section in force after a segment. -/
def sectionAfter (current : Option Section) : Segment → Option Section
  | .marker s => some s
  | _ => current

/-- The segment that starts with token `t`, and the tokens after it. -/
def read (current : Option Section) (t : Token) (tail : List Token) (finish : Position) :
    Except TextFault (Segment × Tokens) :=
  match t.kind with
  | .marker s => .ok (.marker s, ⟨tail, finish⟩)
  | kind =>
    match Declaration.step? current kind with
    | some step => (step.map declared) ⟨t :: tail, finish⟩
    | none => .ok (.passed current kind t.position, ⟨tail, finish⟩)

/-- A segment takes the token it starts with. -/
theorem read_shorter {current : Option Section} {t : Token} {tail : List Token}
    {finish : Position} {seg : Segment} {rest : Tokens}
    (h : read current t tail finish = .ok (seg, rest)) :
    rest.list.length < (t :: tail).length := by
  unfold read at h
  split at h
  · cases h
    simp
  · split at h
    · next step hstep =>
      exact Step.Shrinks.map declared (Declaration.shrinks_of_step? hstep) _ _ _ h
    · cases h
      simp

end Segment

/-- The segments of a text up to its end, or up to the fault that ends the reading. -/
structure Outline where
  segments : List Segment
  fault : Option TextFault
deriving DecidableEq

namespace Outline

/-- The outline of tokens, with some section in force at their start. -/
def ofTokensFrom (current : Option Section) (ts : Tokens) : Outline :=
  match _hts : ts.list with
  | [] => ⟨[], none⟩
  | t :: tail =>
    match _hseg : Segment.read current t tail ts.finish with
    | .error fault => ⟨[], some fault⟩
    | .ok (seg, rest) =>
      let later := ofTokensFrom (seg.sectionAfter current) rest
      ⟨seg :: later.segments, later.fault⟩
termination_by ts.list.length
decreasing_by
  rw [_hts]
  exact Segment.read_shorter _hseg

/-- The outline of tokens. No section is in force before the first marker. -/
def ofTokens (ts : Tokens) : Outline := ofTokensFrom none ts

/-- The outline of a text. One that cannot be cut into tokens has no segments. -/
def ofText (text : String) : Outline :=
  match scan text with
  | .error e => ⟨[], some (.scan e)⟩
  | .ok ts => ofTokens ts

/-- The declarations among the segments. -/
def declarations (o : Outline) : List Declaration :=
  o.segments.filterMap fun
    | .declared d => some d
    | _ => none

/-- The paths of the include directives, in order. -/
def includePaths (o : Outline) : List String :=
  o.declarations.filterMap fun
    | .directive i => some i.path
    | _ => none

end Outline

end SystemMap
