/-
Figures as JSON: markers as traces of one point each, shapes and notes as parts of the
layout, which has neither list if there is nothing to list. A contour that is no rectangle
is written as a path of the commands move, line, curve and close.
-/
import SystemMap.Figure
import SystemMap.Json

namespace SystemMap.Figure

/-- A point in a path. -/
def pointText (p : Point Float) : String :=
  Decimal.coordinate.write p.x ++ "," ++ Decimal.coordinate.write p.y

/-- The fields of a contour. -/
def Contour.fields : Contour → List (String × Json)
  | .rectangle a b => [("type", .text "rect"), ("x0", .real a.x), ("y0", .real a.y),
      ("x1", .real b.x), ("y1", .real b.y)]
  | .polygon corners => [("type", .text "path"),
      ("path", .text ("M " ++ " L ".intercalate (corners.map pointText) ++ " Z"))]
  | .curve start pull pullBack finish => [("type", .text "path"),
      ("path", .text ("M " ++ pointText start ++ " C " ++
        " ".intercalate ([pull, pullBack, finish].map pointText)))]

/-- The image of a colour. -/
def Colour.toJson (c : Colour) : Json := .text c.code

/-- The image of a shape's line; one that does not show has no width. -/
def strokeToJson : Option Colour → Json
  | none => .object [("width", .int 0)]
  | some c => .object [("color", c.toJson), ("width", .int 2)]

/-- The image of a shape. -/
def Shape.toJson (s : Shape) : Json :=
  .object (s.contour.fields ++ (s.fill.map fun c => ("fillcolor", c.toJson)).toList ++
    [("line", strokeToJson s.stroke), ("layer", .text "below")])

/-- The word for an alignment. -/
def Alignment.label : Alignment → String
  | .fromLeft => "left"
  | .fromRight => "right"

/-- The image of a note. -/
def Note.toJson : Note → Json
  | .text place content colour size alignment =>
    .object ([("x", .real place.x), ("y", .real place.y), ("text", .text content),
      ("showarrow", .bool false)] ++
      (alignment.map fun a => ("xanchor", Json.text a.label)).toList ++
      [("font", .object [("color", colour.toJson), ("size", .int size)])])
  | .arrow tip tail =>
    .object [("x", .real tip.x), ("y", .real tip.y), ("ax", .real tail.x), ("ay", .real tail.y),
      ("xref", .text "x"), ("yref", .text "y"), ("axref", .text "x"), ("ayref", .text "y"),
      ("showarrow", .bool true), ("arrowhead", .int 2), ("arrowcolor", Colour.edge.toJson),
      ("text", .text "")]

/-- The image of a marker. -/
def Marker.toJson (m : Marker) : Json :=
  .object [("x", .array [.real m.place.x]), ("y", .array [.real m.place.y]),
    ("mode", .text "markers"),
    ("marker", .object [("size", .int 12), ("color", Colour.body.toJson),
      ("line", .object [("color", (Colour.ofRole m.role).toJson), ("width", .int 2)])]),
    ("hovertext", .text m.hint), ("hoverinfo", .text "text"), ("type", .text "scatter")]

/-- A field that is left out if its list is empty. -/
def listField {α : Type} (key : String) (image : α → Json) : List α → List (String × Json)
  | [] => []
  | as => [(key, .ofList image as)]

/-- The image of a figure. -/
def toJson (f : Figure) : Json :=
  .object [("data", .ofList Marker.toJson f.artwork.markers),
    ("layout", .object (listField "shapes" Shape.toJson f.artwork.shapes ++
      listField "annotations" Note.toJson f.artwork.notes ++
      [("xaxis", .object [("visible", .bool false),
          ("range", .array [.int 0, .real f.width])]),
        ("yaxis", .object [("visible", .bool false),
          ("range", .array [.real f.height, .int 0]), ("scaleanchor", .text "x")]),
        ("plot_bgcolor", Colour.background.toJson),
        ("paper_bgcolor", Colour.background.toJson),
        ("margin", .object [("l", .int 0), ("r", .int 0), ("t", .int 0), ("b", .int 0)]),
        ("height", .int f.pageHeight), ("showlegend", .bool false),
        ("dragmode", .text "pan")]))]

end SystemMap.Figure
