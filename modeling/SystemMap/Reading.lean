/-
Reading a text together with what it includes. Each include directive is answered where it
stands: its text is read with sections and tokens of its own, and its node classes and link
classes join those of the including text at that point; nothing else of it does. A path is
entered once. The path of the text itself, if it has one, counts as entered from the start.

`Visit` is what following the directives of one text amounts to. A visit carries the paths
that are still unopened. Entering a path takes it off that list, and the list never grows,
which is why the walk ends however the texts include one another. A path that is no longer
on the list has been entered, because the list starts with every path that the text and the
library can name.
-/
import SystemMap.Library

namespace SystemMap

-- ========================================================= what happens

/-- Why a directive is not followed. -/
inductive NotFollowed where
  | noLibrary
  | alreadyEntered
deriving DecidableEq

/-- What a reading reports while it goes on. -/
inductive ReadingEvent where
  | notFollowed (path : String) (reason : NotFollowed)
  /-- The text of a path has been read to its end, with so many classes gathered from it and
  from what it includes. -/
  | followed (path : String) (includer : Option String) (nodeClasses linkClasses : Nat)
  /-- A token was passed over in the section in force. -/
  | passed (current : Option Section) (kind : TokenKind) (position : Position)
deriving DecidableEq

/-- A question put to the library. -/
structure Call where
  path : String
  includer : Option String
deriving DecidableEq

/-- Why there is no document. -/
inductive ReadFault (ε : Type) where
  /-- The text, or one that it includes, is at fault. -/
  | text (f : TextFault)
  /-- The library does not have a text. -/
  | library (e : ε)
deriving DecidableEq

/-- The outcome of following the directives of a text: what is left unopened, what was asked
and reported on the way, and what was gathered. After a fault the gathered classes mean
nothing. -/
structure Visit (ε : Type) where
  unopened : List String
  calls : List Call
  events : List ReadingEvent
  nodeClasses : List NodeClass
  linkClasses : List LinkClass
  fault : Option (ReadFault ε)

namespace Visit

variable {ε : Type}

/-- The visit of nothing, which may be where a text breaks off. -/
def stop (unopened : List String) (fault : Option (ReadFault ε)) : Visit ε :=
  ⟨unopened, [], [], [], [], fault⟩

/-- A visit after an event. -/
def report (event : ReadingEvent) (v : Visit ε) : Visit ε :=
  { v with events := event :: v.events }

/-- A visit after a node class. -/
def gatherNode (c : NodeClass) (v : Visit ε) : Visit ε :=
  { v with nodeClasses := c :: v.nodeClasses }

/-- A visit after a link class. -/
def gatherLink (l : LinkClass) (v : Visit ε) : Visit ε :=
  { v with linkClasses := l :: v.linkClasses }

/-- A visit after a call. -/
def ask (call : Call) (v : Visit ε) : Visit ε := { v with calls := call :: v.calls }

/-- The visit of an included text and then of what comes after its directive. -/
def join (call : Call) (inner outer : Visit ε) : Visit ε where
  unopened := outer.unopened
  calls := call :: inner.calls ++ outer.calls
  events := inner.events ++
    .followed call.path call.includer inner.nodeClasses.length inner.linkClasses.length ::
      outer.events
  nodeClasses := inner.nodeClasses ++ outer.nodeClasses
  linkClasses := inner.linkClasses ++ outer.linkClasses
  fault := outer.fault

end Visit

-- ============================================================== the walk

/-- Some paths without one of them. -/
def without (path : String) (paths : List String) : List String := paths.filter (· ≠ path)

/-- Taking a path off a list that has it shortens the list. -/
theorem length_without {path : String} {paths : List String} (h : path ∈ paths) :
    (without path paths).length < paths.length :=
  List.length_filter_lt_length_iff_exists.2 ⟨path, h, by simp⟩

/-- Follows the directives among segments that stand in the text with path `includer`. -/
def follow {ε : Type} (library : Option (Library ε)) (includer : Option String)
    (unopened : List String) (segments : List Segment) (fault : Option TextFault) :
    { v : Visit ε // v.unopened.length ≤ unopened.length } :=
  match segments with
  | [] => ⟨.stop unopened (fault.map .text), Nat.le_refl _⟩
  | .marker _ :: later => follow library includer unopened later fault
  | .passed current kind position :: later =>
    let v := follow library includer unopened later fault
    ⟨v.1.report (.passed current kind position), v.2⟩
  | .declared (.nodeClass c) :: later =>
    let v := follow library includer unopened later fault
    ⟨v.1.gatherNode c, v.2⟩
  | .declared (.linkClass l) :: later =>
    let v := follow library includer unopened later fault
    ⟨v.1.gatherLink l, v.2⟩
  | .declared (.directive i) :: later =>
    match library with
    | none =>
      let v := follow none includer unopened later fault
      ⟨v.1.report (.notFollowed i.path .noLibrary), v.2⟩
    | some lib =>
      if _hmem : i.path ∈ unopened then
        let rest := without i.path unopened
        have hrest : rest.length < unopened.length := length_without _hmem
        let call : Call := ⟨i.path, includer⟩
        match lib.lookup i.path includer with
        | .error e =>
          ⟨(Visit.stop rest (some (.library e))).ask call, Nat.le_of_lt hrest⟩
        | .ok text =>
          let outline := Outline.ofText text
          let inner := follow (some lib) (some i.path) rest outline.segments outline.fault
          have hinner : inner.1.unopened.length ≤ rest.length := inner.2
          match inner.1.fault with
          | some _ => ⟨inner.1.ask call, Nat.le_trans hinner (Nat.le_of_lt hrest)⟩
          | none =>
            let outer := follow (some lib) includer inner.1.unopened later fault
            ⟨inner.1.join call outer.1,
              Nat.le_trans outer.2 (Nat.le_trans hinner (Nat.le_of_lt hrest))⟩
      else
        let v := follow (some lib) includer unopened later fault
        ⟨v.1.report (.notFollowed i.path .alreadyEntered), v.2⟩
  | .declared _ :: later => follow library includer unopened later fault
termination_by (unopened.length, segments.length)
decreasing_by
  iterate 5 exact Prod.Lex.right _ (Nat.lt_succ_self _)
  · exact Prod.Lex.left _ _ hrest
  · exact Prod.Lex.left _ _ (Nat.lt_of_le_of_lt hinner hrest)
  iterate 2 exact Prod.Lex.right _ (Nat.lt_succ_self _)

-- ========================================================== the reading

/-- A text read: the calls and events in their order, and the document or the first fault. -/
structure Reading (ε : Type) where
  calls : List Call
  events : List ReadingEvent
  result : Except (ReadFault ε) Document

/-- The declarations of an outline as a document, includes not followed. -/
def Outline.document (o : Outline) : Document :=
  o.declarations.foldr (fun d rest => .ofDeclaration d ++ rest) .empty

/-- The paths that a walk through a text may still open: all that it or the library can name
but its own. -/
def unopenedAtStart {ε : Type} (library : Option (Library ε)) (path : Option String)
    (o : Outline) : List String :=
  let named := o.includePaths ++ match library with
    | some lib => lib.paths
    | none => []
  named.filter (path ≠ some ·)

/-- Reads an outline, whose text may have a path of its own, with the texts of a library. -/
def Outline.reading {ε : Type} (library : Option (Library ε)) (path : Option String)
    (o : Outline) : Reading ε :=
  let v := (follow library path (unopenedAtStart library path o) o.segments o.fault).1
  { calls := v.calls
    events := v.events
    result := match v.fault with
      | some fault => .error fault
      | none => .ok { o.document with nodeClasses := v.nodeClasses, linkClasses := v.linkClasses } }

/-- Reads a text, which may have a path of its own, with the texts of a library. -/
def read {ε : Type} (library : Option (Library ε)) (path : Option String) (text : String) :
    Reading ε :=
  (Outline.ofText text).reading library path

end SystemMap
