/-
The page that shows a figure: a heading, the name of the view, a rule, and the figure, which
can be moved and scaled.
-/
import SystemMap.Figure
import SystemMap.Json

namespace SystemMap

/-- A page. -/
structure Page where
  title : String
  view : View
  figure : Figure

namespace Page

/-- The title of a page that is given none. -/
def usualTitle : String := "SADL Architecture Viewer"

/-- What stands above the figure. -/
inductive Line where
  | heading (content : String)
  | paragraph (content : String)
  | rule
deriving DecidableEq

/-- What stands above the figure, from the top. -/
def lines (p : Page) : List Line :=
  [.heading p.title, .paragraph ("View: " ++ p.view.label), .rule]

/-- The name of a line's element. -/
def Line.element : Line → String
  | .heading _ => "H1"
  | .paragraph _ => "P"
  | .rule => "Hr"

/-- What is written in a line. -/
def Line.content? : Line → Option String
  | .heading s => some s
  | .paragraph s => some s
  | .rule => none

/-- The name of the figure on the page. -/
def figureId : String := "sadl-graph"

/-- How the figure behaves: the wheel scales it, and it bears no badge. -/
def figureBehaviour : Json := .object [("scrollZoom", .bool true), ("displaylogo", .bool false)]

/-- The look of the page. -/
def style : Json := .object [("fontFamily", .text "sans-serif"), ("padding", .text "2rem")]

end Page

/-- The page of a drawing. -/
def Drawing.page (d : Drawing Float) (title : Option String) : Except Decimal.Unbounded Page :=
  d.figure.map fun f => ⟨title.getD Page.usualTitle, d.view, f⟩

end SystemMap
