/-
Invocations of the command. A command line names one of five tasks and a file; some switches
belong to all tasks and some to a few. What a command line comes to is a call for help, a
refusal, or an invocation.
-/
import SystemMap.Arguments
import SystemMap.Drawing
import SystemMap.Flowchart

namespace SystemMap

open Arguments (Action Grammar Objection Refusal Switch)

-- ================================================================== tasks

/-- What is to be done with a document. -/
inductive Task where
  | parse
  | check
  | layout (view : Option View)
  | chart (view : Option View) (direction : Flowchart.Direction)
  | serve (view : Option View) (port : Int) (host : String)
deriving DecidableEq

/-- A task with the file that it is for. -/
structure Invocation where
  verbose : Bool
  task : Task
  file : String
  settings : Option String
deriving DecidableEq

/-- The names of tasks. -/
inductive Verb where
  | parse
  | check
  | layout
  | chart
  | serve
deriving DecidableEq

namespace Verb

/-- How a task is named in a command line. -/
def label : Verb → String
  | .parse => "parse"
  | .check => "check"
  | .layout => "layout"
  | .chart => "export"
  | .serve => "serve"

/-- All tasks. -/
def all : List Verb := [.parse, .check, .layout, .chart, .serve]

end Verb

namespace Invocation

-- =============================================================== switches

/-- What stands alone before the name of a task. -/
inductive General where
  | help
  | verbose

/-- What a value is given for after the name of a task. -/
inductive Setting where
  | config
  | view
  | direction
  | port
  | host

/-- The names of the call for help. -/
def helpNames : List String := ["-h", "--help"]

/-- The command line up to the name of a task. -/
def general : Grammar General Empty where
  switches := [⟨helpNames, .inl .help⟩, ⟨["-v", "--verbose"], .inl .verbose⟩]
  takesRest := true

/-- How a setting is named. -/
def Setting.name : Setting → String
  | .config => "--config"
  | .view => "--view"
  | .direction => "--direction"
  | .port => "--port"
  | .host => "--host"

/-- The settings that a task has. -/
def settingsOf : Verb → List Setting
  | .parse | .check => [.config]
  | .layout => [.config, .view]
  | .chart => [.config, .view, .direction]
  | .serve => [.config, .view, .port, .host]

/-- The command line after the name of a task. -/
def special (v : Verb) : Grammar Unit Setting where
  switches := ⟨helpNames, .inl ()⟩ :: (settingsOf v).map fun s => ⟨[s.name], .inr s⟩
  takesRest := false

-- ================================================================ choices

/-- What is chosen after the name of a task. -/
structure Choices where
  file : Option String := none
  config : Option String := none
  view : Option View := none
  direction : Flowchart.Direction := .leftToRight
  port : Int := 8050
  host : String := "127.0.0.1"
  extras : List String := []

/-- A choice of one of some named things. -/
def choose {α : Type} (all : List α) (label : α → String) (s : String) : Except Objection α :=
  match all.find? (label · = s) with
  | some a => .ok a
  | none => .error (.notAmong s (all.map label))

/-- Choices with one more, or with another in its place. -/
def Choices.set (c : Choices) (s : String) : Setting → Except Objection Choices
  | .config => .ok { c with config := some s }
  | .view => (choose View.all View.label s).map fun v => { c with view := some v }
  | .direction =>
    (choose Flowchart.Direction.all Flowchart.Direction.label s).map fun d =>
      { c with direction := d }
  | .port => match Text.Numeral.read s with
    | .ok n => .ok { c with port := n }
    | .error _ => .error (.notWhole s)
  | .host => .ok { c with host := s }

/-- The task that a name and choices make. -/
def Choices.task (c : Choices) : Verb → Task
  | .parse => .parse
  | .check => .check
  | .layout => .layout c.view
  | .chart => .chart c.view c.direction
  | .serve => .serve c.view c.port c.host

-- ================================================================ reading

/-- What ends the reading of a command line early. -/
inductive Stop where
  | help
  | refused (program : String) (refusal : Refusal)

/-- The name that messages give to the command. -/
def program : String := "sadl"

/-- The name that messages give to the command with a task. -/
def programOf (v : Verb) : String := program ++ " " ++ v.label

/-- Choices after one action. -/
def Choices.act (v : Verb) (c : Choices) : Action Unit Setting → Except Stop Choices
  | .flag () => .error .help
  | .value name key text =>
    (c.set text key).mapError fun o => .refused (programOf v) (.argument name o)
  | .operand text _ => .ok { c with file := some text }
  | .extra text => .ok { c with extras := c.extras ++ [text] }
  | .refuse refusal => .error (.refused (programOf v) refusal)

/-- The choices that words after the name of a task make, with the file that is always
among them. -/
def readSpecial (v : Verb) (words : List String) : Except Stop (Choices × String) := do
  let actions ← (Arguments.actions (special v) words).mapError (.refused (programOf v))
  let c ← actions.foldlM (Choices.act v) {}
  match c.file with
  | none => throw (.refused (programOf v) (.required "file"))
  | some file => return (c, file)

/-- What has been read of a command line. -/
structure Progress where
  verbose : Bool := false
  extras : List String := []
  chosen : Option (Verb × Choices × String) := none

/-- The progress after one action. -/
def Progress.act (p : Progress) : Action General Empty → Except Stop Progress
  | .flag .help => .error .help
  | .flag .verbose => .ok { p with verbose := true }
  | .value _ key _ => nomatch key
  | .operand text words =>
    match choose Verb.all Verb.label text with
    | .error o => .error (.refused program (.argument "COMMAND" o))
    | .ok v => do
      let (c, file) ← readSpecial v words
      return { p with chosen := some (v, c, file) }
  | .extra text => .ok { p with extras := p.extras ++ [text] }
  | .refuse refusal => .error (.refused program refusal)

/-- The invocation that a command line makes. Words without a meaning are refused last, and a
command line without a task calls for help. -/
def ofArguments (argv : List String) : Except Stop Invocation := do
  let actions ← (Arguments.actions general argv).mapError (.refused program)
  let p ← actions.foldlM Progress.act {}
  let extras := p.extras ++ match p.chosen with
    | some (_, c, _) => c.extras
    | none => []
  if !extras.isEmpty then throw (.refused program (.unrecognized extras))
  match p.chosen with
  | none => throw .help
  | some (v, c, file) => return ⟨p.verbose, c.task v, file, c.config⟩

/-- The line that tells why a command line is refused. -/
def refusalLine (program : String) (refusal : Refusal) : String :=
  program ++ ": error: " ++ refusal.message

end Invocation

end SystemMap
