/-
The log: what readings and placements report, as records of named fields. A record knows
which part of the program it comes from. As a line it starts with a stamp for the time,
which is not part of the record, and ends with its fields in the order of their names.
-/
import SystemMap.Drawing.Placement
import SystemMap.Json
import SystemMap.Reading
import SystemMap.Text.Quoted

namespace SystemMap

/-- A record of the log. -/
structure LogRecord where
  event : String
  logger : String
  fields : List (String × Json)

namespace LogRecord

/-- The level of every record. -/
def level : String := "debug"

/-- A record as one object, what it says of itself first. -/
def toJson (r : LogRecord) : Json :=
  .object ([("event", .text r.event), ("logger_name", .text r.logger),
    ("log_level", .text level)] ++ r.fields)

/-- A text is quoted if it holds a blank, an equals sign or a quote. -/
def needsQuotes (s : String) : Bool :=
  s.toList.any fun c => [' ', '\t', '=', '\r', '\n', '"', '\''].contains c

/-- The value of a field in a line. -/
def valueText : Json → String
  | .text s => if needsQuotes s then Text.quote s else s
  | .int n => toString n
  | _ => "None"

/-- A text filled with blanks to a width. -/
def pad (width : Nat) (s : String) : String :=
  s ++ String.ofList (List.replicate (width - s.length) ' ')

/-- A record as a line, after the time. -/
def line (time : String) (r : LogRecord) : String :=
  let fields := r.fields.mergeSort fun a b => a.1 ≤ b.1
  time ++ " [" ++ pad 9 level ++ "] " ++ pad 30 r.event ++ " [" ++ r.logger ++ "]" ++
    String.join (fields.map fun (key, value) => " " ++ key ++ "=" ++ valueText value)

end LogRecord

/-- The name of the section in force. -/
def Section.nameOrNone : Option Section → String
  | none => "none"
  | some s => s.keyword

/-- The word for why a directive is not followed. -/
def NotFollowed.word : NotFollowed → String
  | .noLibrary => "no_resolver"
  | .alreadyEntered => "already_visited"

/-- The record of an event of a reading. -/
def ReadingEvent.record (e : ReadingEvent) : LogRecord :=
  let logger := "sadl.parser.parser"
  match e with
  | .notFollowed path reason =>
    ⟨"include_skipped", logger, [("path", .text path), ("reason", .text reason.word)]⟩
  | .followed path includer nodeClasses linkClasses =>
    ⟨"include_resolved", logger,
      [("path", .text path), ("from_path", .ofText? includer),
        ("node_classes", .int nodeClasses), ("link_classes", .int linkClasses)]⟩
  | .passed current kind position =>
    ⟨"token_skipped", logger,
      [("section", .text (Section.nameOrNone current)), ("token", .text kind.label),
        ("line", .int position.line), ("column", .int position.column)]⟩

/-- The record of a placement. -/
def PlacementEvent.record (e : PlacementEvent) : LogRecord :=
  ⟨"layout_computed", "sadl.views.layout",
    [("view", .text e.view.label), ("entities", .int e.entities), ("layers", .int e.layers)]⟩

end SystemMap
