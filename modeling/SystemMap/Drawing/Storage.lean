/-
Storing a placement in doubles. A whole number too large for a double cannot be stored, and
a drawing with such a coordinate is refused: for the first connector of the kind on a box,
or else for all sides of the box together. The radius of connectors is stored only where an
edge is drawn.

Sums of stored coordinates may still be infinite; that is no matter of storage.
-/
import SystemMap.Drawing.OfDocument
import SystemMap.Json.Checked

namespace SystemMap

/-- Why a placement cannot be stored. -/
inductive Unstorable where
  /-- Coordinates of one shape are too large. -/
  | coordinates (names : List String)
  /-- The radius of connectors is too large. -/
  | radius
deriving DecidableEq

namespace Unstorable

/-- The issues that a report of shapes has. -/
def issues : Unstorable → List Json.Issue
  | .coordinates names => names.map fun name => ⟨[.key name], .notReal⟩
  | .radius => []

/-- What a message says about a radius that is too large. -/
def radiusMessage : String := "int too large to convert to float"

end Unstorable

/-- The coordinates of an entity that cannot be stored, if there are any. -/
def PlacedEntity.unstorable? (e : PlacedEntity Int) : Option Unstorable :=
  if e.connectors.all fun c => Decimal.isStorable c.y then
    match (e.box.sides.filter fun side => !Decimal.isStorable side.2).map (·.1) with
    | [] => none
    | names => some (.coordinates names)
  else some (.coordinates ["y"])

/-- An entity with its coordinates stored. -/
def PlacedEntity.store (e : PlacedEntity Int) : Except Unstorable (PlacedEntity Float) :=
  match e.unstorable? with
  | some fault => .error fault
  | none => .ok (e.map Decimal.nearestInt)

/-- What keeps the drawing of a view from being stored, if anything does. -/
def Document.unstorable? (d : Document) (m : Metrics) (view : View) : Option Unstorable :=
  (d.place m view).entities.findSome? (·.unstorable?) <|>
    if Decimal.isStorable m.connectorRadius || (d.drawWith id m view).edges.isEmpty then none
    else some .radius

/-- The drawing of a view in doubles. -/
def Document.draw (d : Document) (m : Metrics) (view : View) :
    Except Unstorable (Drawing Float) :=
  match d.unstorable? m view with
  | some fault => .error fault
  | none => .ok (d.drawWith Decimal.nearestInt m view)

end SystemMap
