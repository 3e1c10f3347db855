/-
Figures: a drawing as shapes, notes and markers on a plane whose `y` grows downwards. Edges
are painted first, then entities, then translations, so that what comes later lies above.

An entity is a rectangle with a darker band for its name; a marker stands on its border for
each connector, servers on the left and clients on the right. A translation is a hexagon. An
edge is a curve that is level at both ends, with an arrowhead at the second.
-/
import SystemMap.Decimal.Notation
import SystemMap.Decimal.Truncated
import SystemMap.Drawing

namespace SystemMap

-- ================================================================ markers

section Marker

variable {α : Type} [Add α]

/-- Where the border of a box bears the connectors of a role. -/
def Box.side (b : Box α) : Role → α
  | .server => b.x
  | .client => b.right

/-- Where the marker of a connector stands. -/
def PlacedEntity.marker (e : PlacedEntity α) (c : PlacedConnector α) : Point α :=
  ⟨e.box.side c.role, e.box.y + c.y⟩

end Marker

namespace Figure

-- ================================================================ elements

/-- What is told apart by colour. -/
inductive Colour where
  | background
  | body
  | frame
  | lettering
  | server
  | client
  | translation
  | edge
  | subtitle
deriving DecidableEq

/-- The code of a colour. -/
def Colour.code : Colour → String
  | .background => "#1a1a2e"
  | .body => "#16213e"
  | .frame => "#0f3460"
  | .lettering => "#e8e8e8"
  | .server => "#4ecca3"
  | .client => "#ff6b6b"
  | .translation => "#f4a261"
  | .edge => "#7f8c8d"
  | .subtitle => "#bdc3c7"

/-- The colour of a role. -/
def Colour.ofRole : Role → Colour
  | .server => .server
  | .client => .client

/-- The line around a shape, or along it. -/
inductive Contour where
  | rectangle (topLeft bottomRight : Point Float)
  | polygon (corners : List (Point Float))
  /-- A cubic curve between two points, pulled towards the two others. -/
  | curve (start pull pullBack finish : Point Float)

/-- A shape: what it is filled with, and the colour of its line unless it shows none. -/
structure Shape where
  contour : Contour
  fill : Option Colour
  stroke : Option Colour

/-- Where a text lies that does not lie around its point. -/
inductive Alignment where
  | fromLeft
  | fromRight
deriving DecidableEq

/-- Names of connectors lie inside their box. -/
def Alignment.ofRole : Role → Alignment
  | .server => .fromLeft
  | .client => .fromRight

/-- What is written or pointed at. -/
inductive Note where
  | text (place : Point Float) (content : String) (colour : Colour) (size : Nat)
      (alignment : Option Alignment)
  /-- An arrowhead at a point, coming from another. -/
  | arrow (tip tail : Point Float)

/-- A marker, with the text that is shown when it is pointed at. -/
structure Marker where
  place : Point Float
  role : Role
  hint : String

/-- Things painted, each kind in its order. -/
structure Artwork where
  shapes : List Shape
  notes : List Note
  markers : List Marker

namespace Artwork

/-- Nothing painted. -/
def empty : Artwork := ⟨[], [], []⟩

/-- One artwork and then another. -/
def append (a b : Artwork) : Artwork :=
  ⟨a.shapes ++ b.shapes, a.notes ++ b.notes, a.markers ++ b.markers⟩

instance : Append Artwork := ⟨append⟩

@[simp] theorem markers_append (a b : Artwork) : (a ++ b).markers = a.markers ++ b.markers := rfl

/-- All of some artworks. -/
def join (as : List Artwork) : Artwork := as.foldr (· ++ ·) empty

@[simp] theorem markers_join (as : List Artwork) : (join as).markers = as.flatMap (·.markers) := by
  induction as with
  | nil => rfl
  | cons a as ih =>
    rw [List.flatMap_cons, ← ih]
    rfl

end Artwork

-- =================================================================== edges

/-- How far from a side of a box its connectors are written, and how long an arrowhead is. -/
def indent : Float := 12

/-- An edge, painted. -/
def paintEdge (e : PlacedEdge Float) : Artwork :=
  let middle := (e.start.x + e.finish.x) / 2
  { shapes := [⟨.curve e.start ⟨middle, e.start.y⟩ ⟨middle, e.finish.y⟩ e.finish,
      none, some .edge⟩]
    notes := [.arrow e.finish ⟨e.finish.x - indent, e.finish.y⟩]
    markers := [] }

-- ================================================================ entities

/-- The height of the band that bears a name. -/
def bandHeight : Float := 28

/-- How far below the top of a box its second line of text is written. -/
def subtitleDrop : Float := 42

/-- The middle between the sides of a box. -/
def centre (b : Box Float) : Float := b.x + b.width / 2

/-- A name in bold type. -/
def bold (name : String) : String := "<b>" ++ name ++ "</b>"

/-- The second line of an entity: its class and its address, if it has one. -/
def subtitle? (e : PlacedEntity Float) : Option String :=
  e.nodeClass.map fun c => match e.address with
    | none => "(" ++ c ++ ")"
    | some address => if address.isEmpty then "(" ++ c ++ ")" else "(" ++ c ++ ") " ++ address

/-- Where the names of connectors of a role begin, or end. -/
def nameEdge (b : Box Float) : Role → Float
  | .server => b.x + indent
  | .client => b.right - indent

/-- A connector of an entity, painted. -/
def paintConnector (e : PlacedEntity Float) (c : PlacedConnector Float) : Artwork :=
  let place := e.marker c
  { shapes := []
    notes := [.text ⟨nameEdge e.box c.role, place.y⟩ c.name .lettering 10
      (some (.ofRole c.role))]
    markers := [⟨place, c.role, e.name ++ "." ++ c.name ++ " (" ++ c.role.label ++ ")"⟩] }

/-- The box of an entity with its texts, painted. -/
def paintBody (view : View) (e : PlacedEntity Float) : Artwork :=
  let b := e.box
  let second := match view with
    | .schema => none
    | .instances => subtitle? e
  { shapes := [
      ⟨.rectangle ⟨b.x, b.y⟩ ⟨b.right, b.bottom⟩, some .body, some .frame⟩,
      ⟨.rectangle ⟨b.x, b.y⟩ ⟨b.right, b.y + bandHeight⟩, some .frame, none⟩]
    notes := .text ⟨centre b, b.y + bandHeight / 2⟩ (bold e.name) .lettering 12 none ::
      (second.map fun s => Note.text ⟨centre b, b.y + subtitleDrop⟩ s .subtitle 10 none).toList
    markers := [] }

/-- An entity, painted. -/
def paintEntity (view : View) (e : PlacedEntity Float) : Artwork :=
  paintBody view e ++ Artwork.join (e.connectors.map (paintConnector e))

/-- An entity has one marker for each connector, in order. -/
theorem markers_paintEntity (view : View) (e : PlacedEntity Float) :
    (paintEntity view e).markers = e.connectors.flatMap fun c => (paintConnector e c).markers := by
  unfold paintEntity
  rw [Artwork.markers_append, Artwork.markers_join, List.flatMap_map]
  rfl

-- ============================================================ translations

/-- The corners of the hexagon in a box, from the top left one on. -/
def hexagon (b : Box Float) : List (Point Float) :=
  let inset := b.width / 6
  let middle := b.y + b.halfHeight
  [⟨b.x + inset, b.y⟩, ⟨b.right - inset, b.y⟩, ⟨b.right, middle⟩,
    ⟨b.right - inset, b.bottom⟩, ⟨b.x + inset, b.bottom⟩, ⟨b.x, middle⟩]

/-- A translation, painted. -/
def paintTranslation (t : PlacedTranslation Float) : Artwork where
  shapes := [⟨.polygon (hexagon t.box), some .body, some .translation⟩]
  notes := [.text ⟨centre t.box, t.box.y + t.box.halfHeight⟩
    (bold t.name ++ "<br>" ++ t.external ++ " → " ++ t.internal) .lettering 11 none]
  markers := []

-- ================================================================== extent

/-- What is kept free to the right of the last box and below it. -/
def border : Float := 40

/-- The first of the largest numbers of a list. -/
def largest (first : Float) (others : List Float) : Float :=
  others.foldl (fun best x => if best < x then x else best) first

/-- The least height of a figure on a page. -/
def leastHeight : Int := 400

end Figure

/-- The boxes of a drawing. -/
def Drawing.boxes {α : Type} (d : Drawing α) : List (Box α) :=
  d.entities.map (·.box) ++ d.translations.map (·.box)

/-- The width and the height that show all of a drawing. -/
def Drawing.extent (d : Drawing Float) : Float × Float :=
  match d.boxes with
  | [] => (800, 600)
  | b :: bs => (Figure.largest b.right (bs.map (·.right)) + Figure.border,
      Figure.largest b.bottom (bs.map (·.bottom)) + Figure.border)

/-- A figure: what is painted, the part of the plane that is shown, and its height on a
page. -/
structure Figure where
  artwork : Figure.Artwork
  width : Float
  height : Float
  pageHeight : Int

/-- All of a drawing, painted. -/
def Drawing.paint (d : Drawing Float) : Figure.Artwork :=
  .join (d.edges.map Figure.paintEdge ++ d.entities.map (Figure.paintEntity d.view) ++
    d.translations.map Figure.paintTranslation)

/-- The figure of a drawing; there is none if the drawing has no end below. -/
def Drawing.figure (d : Drawing Float) : Except Decimal.Unbounded Figure := do
  let (width, height) := d.extent
  let whole ← Decimal.truncate height
  return ⟨d.paint, width, height, max whole Figure.leastHeight⟩

end SystemMap
