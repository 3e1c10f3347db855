/-
Reading on a stack that has room for so many texts only. The text of a directive is read inside
the reading of the text that has the directive, so every text of a chain of includes takes some
of the stack until the last one is read. `followWithin` is the walk with what room is left: where
there is none, the reading breaks down, with what it has asked and reported so far.

How much room there is depends on who calls. Statements are about any room; `usualRoom` is what a
program has at most that may make a thousand calls inside one another.
-/
import SystemMap.Reading

namespace SystemMap

-- ================================================================ no room

/-- Why a text is not entered. -/
inductive NotEntered (ε : Type) where
  /-- The library does not have it. -/
  | missing (e : ε)
  /-- Too many texts are open already, each inside the one that includes it. -/
  | noRoom
deriving DecidableEq

/-- The most calls that may be open inside one another. -/
def callLimit : Nat := 1000

/-- The calls that an included text takes: for the text, for one of its declarations, and for
the directive that this is. -/
def callsPerText : Nat := 3

/-- Room for as many texts as there can be. -/
def usualRoom : Nat := callLimit / callsPerText

-- =============================================================== the walk

/-- Follows the directives among segments that stand in the text with path `includer`, with room
for `room` texts inside one another. -/
def followWithin {ε : Type} (room : Nat) (library : Option (Library ε))
    (includer : Option String) (unopened : List String) (segments : List Segment)
    (fault : Option TextFault) :
    { v : Visit (NotEntered ε) // v.unopened.length ≤ unopened.length } :=
  match segments with
  | [] => ⟨.stop unopened (fault.map .text), Nat.le_refl _⟩
  | .marker _ :: later => followWithin room library includer unopened later fault
  | .passed current kind position :: later =>
    let v := followWithin room library includer unopened later fault
    ⟨v.1.report (.passed current kind position), v.2⟩
  | .declared (.nodeClass c) :: later =>
    let v := followWithin room library includer unopened later fault
    ⟨v.1.gatherNode c, v.2⟩
  | .declared (.linkClass l) :: later =>
    let v := followWithin room library includer unopened later fault
    ⟨v.1.gatherLink l, v.2⟩
  | .declared (.directive i) :: later =>
    match library with
    | none =>
      let v := followWithin room none includer unopened later fault
      ⟨v.1.report (.notFollowed i.path .noLibrary), v.2⟩
    | some lib =>
      if _hmem : i.path ∈ unopened then
        let rest := without i.path unopened
        have hrest : rest.length < unopened.length := length_without _hmem
        let call : Call := ⟨i.path, includer⟩
        match lib.lookup i.path includer with
        | .error e =>
          ⟨(Visit.stop rest (some (.library (.missing e)))).ask call, Nat.le_of_lt hrest⟩
        | .ok text =>
          match room with
          | 0 => ⟨(Visit.stop rest (some (.library .noRoom))).ask call, Nat.le_of_lt hrest⟩
          | left + 1 =>
            let outline := Outline.ofText text
            let inner :=
              followWithin left (some lib) (some i.path) rest outline.segments outline.fault
            have hinner : inner.1.unopened.length ≤ rest.length := inner.2
            match inner.1.fault with
            | some _ => ⟨inner.1.ask call, Nat.le_trans hinner (Nat.le_of_lt hrest)⟩
            | none =>
              let outer :=
                followWithin (left + 1) (some lib) includer inner.1.unopened later fault
              ⟨inner.1.join call outer.1,
                Nat.le_trans outer.2 (Nat.le_trans hinner (Nat.le_of_lt hrest))⟩
      else
        let v := followWithin room (some lib) includer unopened later fault
        ⟨v.1.report (.notFollowed i.path .alreadyEntered), v.2⟩
  | .declared _ :: later => followWithin room library includer unopened later fault
termination_by (unopened.length, segments.length)
decreasing_by
  iterate 5 exact Prod.Lex.right _ (Nat.lt_succ_self _)
  · exact Prod.Lex.left _ _ hrest
  · exact Prod.Lex.left _ _ (Nat.lt_of_le_of_lt hinner hrest)
  iterate 2 exact Prod.Lex.right _ (Nat.lt_succ_self _)

-- ============================================================ the reading

/-- What following the directives of an outline comes to, as a reading. -/
def Outline.visited {ε : Type} (o : Outline) (v : Visit ε) : Reading ε where
  calls := v.calls
  events := v.events
  result := match v.fault with
    | some fault => .error fault
    | none => .ok { o.document with nodeClasses := v.nodeClasses, linkClasses := v.linkClasses }

/-- Reads a text, which may have a path of its own, with the texts of a library and with room for
`room` texts inside one another. -/
def readWithin {ε : Type} (room : Nat) (library : Option (Library ε)) (path : Option String)
    (text : String) : Reading (NotEntered ε) :=
  let o := Outline.ofText text
  o.visited
    (followWithin room library path (unopenedAtStart library path o) o.segments o.fault).1

end SystemMap
