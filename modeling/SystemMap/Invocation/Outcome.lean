/-
What an invocation comes to. The file is looked up first, then the settings, which are those
of a given file or those beside the file; only then is the file read, with what it includes.
An outcome has what the log reports, whether or not somebody wants to see it, the lines of
output, and a product or the fault that stands in its place.

Some faults are told to whoever called the command; others are breakdowns, which the command
has no words for.
-/
import SystemMap.Check
import SystemMap.Document.Json
import SystemMap.Drawing.Json
import SystemMap.Drawing.Storage
import SystemMap.Files.Search
import SystemMap.Invocation
import SystemMap.Json.Text
import SystemMap.Log
import SystemMap.Page
import SystemMap.Reading.Stack
import SystemMap.Settings

namespace SystemMap

-- ================================================================= faults

/-- Why an invocation has no product. -/
inductive InvocationFault where
  /-- A path holds a character that no name can have. -/
  | badPath
  | noFile (path : Path)
  /-- The file cannot be looked at. -/
  | inaccessible (path : Path) (fault : AccessFault)
  | settings (fault : SettingsFault)
  | reading (path : Path) (fault : ReadFault SearchFault)
  /-- More texts include one another than the stack has room for. -/
  | noRoom
  /-- A number of the document cannot be read or written. -/
  | numeral (fault : Text.Numeral.Fault)
  | drawing (fault : Unstorable)
  | figure (fault : Decimal.Unbounded)

namespace InvocationFault

/-- What is told about settings, unless they are a breakdown. -/
def aboutSettings? (fault : SettingsFault) : Option String :=
  match fault with
  | .refused .. | .missing _ | .unreadable .. => some fault.message
  | .inaccessible .. | .badPath | .undecodable _ | .badScalar _ | .unordered | .longKey _ =>
    none

/-- What is told about a file and what it includes. -/
def aboutReading? (path : Path) : ReadFault SearchFault → Option String
  | .text (.numeral _) => none
  | .text fault => some (path.name ++ ": " ++ fault.message)
  | .library fault =>
    match fault with
    | .notFound .. => some fault.message
    | .inaccessible .. => some ("cannot read '" ++ path.toString ++ "': " ++ fault.message)
    | .undecodable _ =>
      some ("'" ++ path.toString ++ "' or one of its includes is not valid UTF-8: " ++
        fault.message)

/-- What is told about a fault, unless it is a breakdown. -/
def message? : InvocationFault → Option String
  | .badPath => none
  | .noFile path => some ("file '" ++ path.toString ++ "' does not exist.")
  | .inaccessible .. => none
  | .settings fault => aboutSettings? fault
  | .reading path fault => aboutReading? path fault
  | .noRoom | .numeral _ | .drawing _ | .figure _ => none

end InvocationFault

-- =============================================================== products

/-- A viewer to be started. -/
structure Viewer where
  page : Page
  host : String
  port : Int

/-- What an invocation makes beside its output: errors of the document, a viewer. -/
structure Product where
  errors : List String := []
  viewer : Option Viewer := none

/-- What an invocation comes to. -/
structure Outcome where
  log : List LogRecord
  lines : List String
  result : Except InvocationFault Product

namespace Outcome

/-- An outcome of nothing but a fault. -/
def ofFault (fault : InvocationFault) : Outcome := ⟨[], [], .error fault⟩

/-- An outcome of lines and nothing else. -/
def ofLines (lines : List String) : Outcome := ⟨[], lines, .ok {}⟩

/-- The outcome that a result has. -/
def ofResult {α : Type} (toOutcome : α → Outcome) : Except InvocationFault α → Outcome
  | .error fault => ofFault fault
  | .ok a => toOutcome a

end Outcome

namespace Invocation

/-- The findings of a check, the end of which is told if it found no defects. -/
def reportOutcome (r : Report) : Outcome where
  log := []
  lines := (r.suspicions.map fun s => "Warning: " ++ s.message) ++
    if r.defects.isEmpty then ["No issues found."] else []
  result := .ok { errors := r.defects.map (·.message) }

/-- The view that a task is for. -/
def viewOf (view : Option View) (d : Document) : View := view.getD (View.default d)

/-- The page of a viewer is made after its address is told. -/
def viewerOutcome (file : String) (g : Drawing Float) (port : Int) (host : String) :
    Outcome where
  log := []
  lines := ["SADL viewer for " ++ (Path.ofString file).name ++ " on http://" ++ host ++ ":" ++
    toString port ++ "/"]
  result := ((g.page (some ("SADL: " ++ (Path.ofString file).name))).mapError .figure).map
    fun page => { viewer := some ⟨page, host, port⟩ }

/-- The outcome of a task that needs a drawing. The placement is reported before the drawing
is used. -/
def withDrawing (d : Document) (m : Metrics) (view : Option View)
    (use : Drawing Float → Outcome) : Outcome :=
  let view := viewOf view d
  .ofResult (fun g =>
    let o := use g
    { o with log := (d.place m view).event.record :: o.log })
    ((d.draw m view).mapError .drawing)

/-- The outcome of a task on a document. -/
def perform (file : String) (d : Document) (m : Metrics) : Task → Outcome
  | .parse => .ofLines [d.toJson.pretty]
  | .check => .ofResult reportOutcome (d.check.mapError .numeral)
  | .layout view => withDrawing d m view fun g => .ofLines [g.toJson.pretty]
  | .chart view direction => .ofResult (fun t => .ofLines [t])
      ((Flowchart.render d (viewOf view d) direction).mapError .numeral)
  | .serve view port host => withDrawing d m view fun g => viewerOutcome file g port host

-- ==================================================================== run

/-- A path that no file can have. -/
def isBadPath (s : String) : Bool := s.toList.contains '\x00'

/-- The absolute path of the file that an invocation is for. -/
def source (i : Invocation) (directory : Path) : Path :=
  Path.settle directory (Path.ofString i.file)

/-- The settings that an invocation goes by. -/
def loadSettings (i : Invocation) (t : FileTree) (directory : Path) :
    Except SettingsFault Settings :=
  match i.settings with
  | none => Settings.find t directory (i.source directory)
  | some s =>
    if isBadPath s then .error .badPath
    else Settings.load t directory (Path.settle directory (Path.ofString s))

/-- The reading of a file that is there, under some settings. -/
def readFile (t : FileTree) (directory path : Path) (s : Settings) (bytes : List UInt8) :
    Reading SearchFault :=
  let search : Search := ⟨s.root, s.includePaths⟩
  match textOfBytes bytes with
  | .error fault => ⟨[], [], .error (.library (.undecodable fault))⟩
  | .ok text => read (some (search.library t directory)) (some path.toString) text

/-- The outcome of an invocation, given the bytes of its file. -/
def runOn (i : Invocation) (t : FileTree) (directory : Path) (bytes : List UInt8) : Outcome :=
  match i.loadSettings t directory with
  | .error fault => .ofFault (.settings fault)
  | .ok s =>
    let path := i.source directory
    let got := readFile t directory path s bytes
    let log := got.events.map (·.record)
    match got.result with
    | .error fault => ⟨log, [], .error (.reading path fault)⟩
    | .ok d =>
      let o := perform i.file d s.metrics i.task
      { o with log := log ++ o.log }

/-- The outcome of an invocation in a directory, on a stack without bounds. -/
def run (i : Invocation) (t : FileTree) (directory : Path) : Outcome :=
  let path := i.source directory
  if isBadPath i.file then .ofFault .badPath
  else match t.file? directory path with
    | .error fault => .ofFault (.inaccessible path fault)
    | .ok none => .ofFault (.noFile path)
    | .ok (some bytes) => i.runOn t directory bytes

-- =========================================================== bounded stack

/-- The reading of a file that is there, with room for `room` texts inside one another. -/
def readFileWithin (room : Nat) (t : FileTree) (directory path : Path) (s : Settings)
    (bytes : List UInt8) : Reading (NotEntered SearchFault) :=
  let search : Search := ⟨s.root, s.includePaths⟩
  match textOfBytes bytes with
  | .error fault => ⟨[], [], .error (.library (.missing (.undecodable fault)))⟩
  | .ok text =>
    readWithin room (some (search.library t directory)) (some path.toString) text

/-- What has been reported when the reading of the file runs out of room, if it does. -/
def overflow? (room : Nat) (i : Invocation) (t : FileTree) (directory : Path) :
    Option (List LogRecord) :=
  match t.file? directory (i.source directory), i.loadSettings t directory with
  | .ok (some bytes), .ok s =>
    let got := readFileWithin room t directory (i.source directory) s bytes
    match got.result with
    | .error (.library .noRoom) => some (got.events.map (·.record))
    | _ => none
  | _, _ => none

/-- The outcome of an invocation in a directory, with room for `room` texts inside one
another. -/
def runWithin (room : Nat) (i : Invocation) (t : FileTree) (directory : Path) : Outcome :=
  match i.overflow? room t directory with
  | some log => ⟨log, [], .error .noRoom⟩
  | none => i.run t directory

end Invocation

-- ================================================================= places

namespace Invocation

/-- The paths at which the reading of a file looks, under some settings. -/
def readingPlaces (t : FileTree) (directory path : Path) (s : Settings) (bytes : List UInt8) :
    List Path :=
  let search : Search := ⟨s.root, s.includePaths⟩
  (readFile t directory path s bytes).calls.flatMap fun c => search.candidates c.path c.includer

/-- The paths at which an invocation looks. In a tree that lacks some of them, there may be
more once they are in it. -/
def places (i : Invocation) (t : FileTree) (directory : Path) : List Path :=
  let path := i.source directory
  let settings := match i.settings with
    | none => Settings.pathBeside path
    | some s => Path.settle directory (Path.ofString s)
  let included := match t.file? directory path, i.loadSettings t directory with
    | .ok (some bytes), .ok s => readingPlaces t directory path s bytes
    | _, _ => []
  path :: settings :: included

end Invocation

-- ================================================================ streams

namespace Outcome

/-- Lines as a text. -/
def textOfLines (lines : List String) : String := String.join (lines.map (· ++ "\n"))

/-- What goes to the standard output. -/
def output (o : Outcome) : String := textOfLines o.lines

/-- The errors that are told. -/
def errors (o : Outcome) : List String :=
  match o.result with
  | .ok p => p.errors
  | .error fault => fault.message?.toList

/-- What goes to the error stream: the log if it is wanted, then the errors. -/
def complaints (o : Outcome) (verbose : Bool) (time : String) : String :=
  textOfLines ((if verbose then o.log.map (·.line time) else []) ++
    o.errors.map ("Error: " ++ ·))

/-- The exit status; a breakdown has none. -/
def status? (o : Outcome) : Option Nat :=
  match o.result with
  | .ok p => some (if p.errors.isEmpty then 0 else 1)
  | .error fault => fault.message?.map fun _ => 1

end Outcome

end SystemMap
