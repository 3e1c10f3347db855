/-
The value of a settings file. Lists and mappings are filled level by level: the outermost
first, then those that stand in it, from the first to the last, and so on inwards. So of
several scalars that have no value the fault of the outermost counts, and of those on one
level that of the first.

A mapping may take fields over from other mappings, under the key `<<`. They come before its
own and are on its own level. That they can be taken over is found out before any of them
has a value.
-/
import SystemMap.Yaml.Node
import SystemMap.Yaml.Plain

namespace SystemMap.Yaml

-- ================================================================ results

/-- A value, or a fault and how many levels further in it is. -/
inductive Leveled (α : Type) where
  | ok (value : α)
  | fault (level : Nat) (f : Fault)

namespace Leveled

variable {α β γ : Type}

/-- A result on this level. -/
def here : Except Fault α → Leveled α
  | .ok a => .ok a
  | .error f => .fault 0 f

/-- A result seen from one level further out. -/
def deeper : Leveled α → Leveled α
  | .ok a => .ok a
  | .fault level f => .fault (level + 1) f

/-- The image of a value. -/
def map (g : α → β) : Leveled α → Leveled β
  | .ok a => .ok (g a)
  | .fault level f => .fault level f

/-- Two results side by side. Of two faults the one further out counts, and the first one if
they are on one level. -/
def both (g : α → β → γ) : Leveled α → Leveled β → Leveled γ
  | .ok a, .ok b => .ok (g a b)
  | .ok _, .fault level f => .fault level f
  | .fault level f, .ok _ => .fault level f
  | .fault m f, .fault n g => if n < m then .fault n g else .fault m f

/-- Results side by side. -/
def all : List (Leveled α) → Leveled (List α)
  | [] => .ok []
  | r :: rs => both List.cons r (all rs)

/-- A result without its level. -/
def toExcept : Leveled α → Except Fault α
  | .ok a => .ok a
  | .fault _ f => .error f

end Leveled

namespace Node

-- ================================================================= fields

/-- A field of a mapping. -/
abbrev Field := Leveled (Value × Value)

/-- The value of a key, which is a scalar. The sign for a default value is a text here. -/
def keyValue : Node → Except Fault Value
  | .plain s => if s = "=" then .ok (.text (.ofString s)) else Plain.meaning s
  | .quoted s => .ok (.text s)
  | .list _ | .mapping _ => .error .malformed

/-- Whether a node has a level of its own. -/
def isContainer : Node → Bool
  | .list _ | .mapping _ => true
  | .plain _ | .quoted _ => false

/-- The value of a part of a list or a mapping. -/
def part (n : Node) (value : Leveled Value) : Leveled Value :=
  if n.isContainer then value.deeper else value

/-- The mapping of some fields. -/
def mappingOf (fields : List (Value × Value)) : Value :=
  .mapping (fields.foldl (fun fs f => Value.putField fs f.1 f.2) [])

mutual

/-- The value of a node. -/
def value : Node → Leveled Value
  | .plain s => .here (Plain.meaning s)
  | .quoted s => .ok (.text s)
  | .list items => (Leveled.all (parts items)).map .list
  | .mapping fields =>
    match fieldsOf fields with
    | .ok (joined, own) => (Leveled.all (joined ++ own)).map mappingOf
    | .error f => .fault 0 f

/-- The values of the items of a list. -/
def parts : List Node → List (Leveled Value)
  | [] => []
  | n :: ns => n.part n.value :: parts ns

/-- The fields of a mapping: those taken over, and its own. -/
def fieldsOf : List (Node × Node) → Except Fault (List Field × List Field)
  | [] => .ok ([], [])
  | (key, n) :: rest =>
    match key with
    | .plain "<<" => do
      let taken ← n.fieldsToTake
      let (joined, own) ← fieldsOf rest
      return (taken ++ joined, own)
    | key => do
      let field := Leveled.both Prod.mk (.here key.keyValue) (n.part n.value)
      let (joined, own) ← fieldsOf rest
      return (joined, field :: own)

/-- The fields that can be taken over from a node: from a mapping, or from several, of which
the first counts most. -/
def fieldsToTake : Node → Except Fault (List Field)
  | .mapping fields => (fieldsOf fields).map fun (joined, own) => joined ++ own
  | .list items => (mappingsToTake items).map fun fields => fields.reverse.flatten
  | .plain _ | .quoted _ => .error .malformed

/-- The fields of nodes that all have to be mappings. -/
def mappingsToTake : List Node → Except Fault (List (List Field))
  | [] => .ok []
  | .mapping fields :: rest => do
    let (joined, own) ← fieldsOf fields
    return (joined ++ own) :: (← mappingsToTake rest)
  | _ :: _ => .error .malformed

end

end Node

/-- The value of a settings text. A text without a document is null. -/
def read (text : String) : Except Fault Value := do
  match ← Node.ofTokens (← tokens text) with
  | none => return .null
  | some node => node.value.toExcept

end SystemMap.Yaml
