/-
Settings of a workspace: where included texts are searched, and the measures of drawings.
They are a mapping with at most two keys. `include-paths` lists directories, seen from the
directory of the settings; `layout` sets some of the measures, each a whole number above
zero. All else is refused, with a message that starts with the name of the source.
-/
import SystemMap.Drawing
import SystemMap.Files.Tree
import SystemMap.Yaml.Node.Value

namespace SystemMap

/-- The settings of a workspace. -/
structure Settings where
  root : Path
  includePaths : List Path
  metrics : Metrics
deriving DecidableEq

/-- What may be wrong with settings. -/
inductive SettingsProblem where
  | malformed
  | notMapping
  | unknownKeys (keys : List String)
  | pathsNotList
  | pathNotText (index : Nat)
  | layoutNotMapping
  | unknownMeasure (key : String)
  | badMeasure (key : String)

/-- Why there are no settings. -/
inductive SettingsFault where
  /-- The text of a source is refused. -/
  | refused (source : String) (problem : SettingsProblem)
  /-- There is no file. -/
  | missing (path : Path)
  /-- The file cannot be read. -/
  | unreadable (path : Path) (fault : AccessFault)
  /-- It cannot be told whether there is a file. -/
  | inaccessible (path : Path) (fault : AccessFault)
  /-- The path is none that a file can have. -/
  | badPath
  /-- The file is no text. -/
  | undecodable (fault : Text.Utf8.Fault)
  /-- A scalar is written as a number or a date that does not exist. -/
  | badScalar (fault : Yaml.Fault)
  /-- Unknown keys are of types that have no order among them. -/
  | unordered
  /-- A key is a number that is too long to be told. -/
  | longKey (fault : Text.Numeral.Fault)

/-- What a message says about a problem, after the name of the source. -/
def SettingsProblem.message (source : String) : SettingsProblem → String
  | .malformed => "Invalid YAML in " ++ source
  | .notMapping => source ++ ": configuration must be a YAML mapping"
  | .unknownKeys keys =>
    source ++ ": unknown key(s): " ++ ", ".intercalate keys
  | .pathsNotList => source ++ ": 'include-paths' must be a list"
  | .pathNotText index => source ++ ": include-paths[" ++ toString index ++ "] must be a string"
  | .layoutNotMapping => source ++ ": layout must be a YAML mapping"
  | .unknownMeasure key => source ++ ": layout: unknown key '" ++ key ++ "'"
  | .badMeasure key => source ++ ": layout: '" ++ key ++ "' must be a positive integer"

/-- What a message says about a fault; a fault of order has no wording. -/
def SettingsFault.message : SettingsFault → String
  | .refused source problem => problem.message source
  | .missing path => "Config file not found: " ++ path.toString
  | .unreadable path fault => "Cannot read config file: " ++ fault.message path
  | .inaccessible path fault => fault.message path
  | .badPath => "embedded null byte"
  | .undecodable fault => fault.message
  | .badScalar fault => fault.message
  | .unordered => ""
  | .longKey fault => fault.message

namespace Settings

/-- What keeps a value from being settings, if anything does. -/
inductive Refusal where
  | problem (p : SettingsProblem)
  | unordered
  | longKey (fault : Text.Numeral.Fault)

-- ================================================================ measures

/-- The measures that settings can set. -/
inductive Measure where
  | nodeWidth
  | nodeHeight
  | padding
  | connectorSpacing
deriving DecidableEq

/-- The key of a measure. -/
def Measure.key : Measure → String
  | .nodeWidth => "node-width"
  | .nodeHeight => "node-height"
  | .padding => "padding"
  | .connectorSpacing => "connector-spacing"

/-- The measure that a key names. -/
def Measure.ofKey? : Yaml.Value → Option Measure
  | .text s => [nodeWidth, nodeHeight, padding, connectorSpacing].find? fun m => s = .ofString m.key
  | _ => none

/-- Measures with one of them set. -/
def setMeasure (m : Metrics) : Measure → Int → Metrics
  | .nodeWidth, n => { m with nodeWidth := n }
  | .nodeHeight, n => { m with nodeHeight := n }
  | .padding, n => { m with padding := n }
  | .connectorSpacing, n => { m with connectorSpacing := n }

/-- The whole number above zero that a value is. A truth value is none. -/
def positive? : Yaml.Value → Option Int
  | .int n => if 0 < n then some n else none
  | _ => none

/-- The refusal of a key under `layout`. -/
def unknownMeasure (key : Yaml.Value) : Refusal :=
  match key.shown with
  | .ok shown => .problem (.unknownMeasure shown)
  | .error fault => .longKey fault

/-- Measures with some of them set, field by field. -/
def readMeasures (m : Metrics) : List (Yaml.Value × Yaml.Value) → Except Refusal Metrics
  | [] => .ok m
  | (key, value) :: rest =>
    match Measure.ofKey? key, positive? value with
    | none, _ => .error (unknownMeasure key)
    | some measure, none => .error (.problem (.badMeasure measure.key))
    | some measure, some n => readMeasures (setMeasure m measure n) rest

/-- The measures that the value of `layout` sets. -/
def readLayout : Option Yaml.Value → Except Refusal Metrics
  | none => .ok {}
  | some (.mapping fields) => readMeasures {} fields
  | some _ => .error (.problem .layoutNotMapping)

-- =================================================================== paths

/-- The directories of a list, from position `i` on. -/
def readPaths (root : Path) (i : Nat) : List Yaml.Value → Except SettingsProblem (List Path)
  | [] => .ok []
  | .text s :: rest => (readPaths root (i + 1) rest).map (root.join (Path.ofPoints s) :: ·)
  | _ :: _ => .error (.pathNotText i)

/-- The directories that the value of `include-paths` lists. -/
def readIncludePaths (root : Path) : Option Yaml.Value → Except SettingsProblem (List Path)
  | none => .ok []
  | some (.list items) => readPaths root 0 items
  | some _ => .error .pathsNotList

-- ==================================================================== keys

/-- Puts a key before the first one that it does not come after. -/
def insertKey (key : Yaml.Value) : List Yaml.Value → Option (List Yaml.Value)
  | [] => some [key]
  | k :: ks => do
    if ← k.isBefore? key then return k :: (← insertKey key ks)
    else return key :: k :: ks

/-- Keys in order, if they have one. -/
def sortKeys : List Yaml.Value → Option (List Yaml.Value)
  | [] => some []
  | key :: keys => do insertKey key (← sortKeys keys)

/-- Whether a key is one of the two. -/
def isKnown : Yaml.Value → Bool
  | .text s => s = .ofString "include-paths" || s = .ofString "layout"
  | _ => false

-- ================================================================= reading

/-- The refusal of some keys in order. -/
def unknownKeys (keys : List Yaml.Value) : Refusal :=
  match keys.mapM (·.shown) with
  | .ok shown => .problem (.unknownKeys shown)
  | .error fault => .longKey fault

/-- The settings that the fields of a mapping make. -/
def ofFields (root : Path) (fields : List (Yaml.Value × Yaml.Value)) :
    Except Refusal Settings := do
  let unknown := (fields.map (·.1)).filter fun key => !isKnown key
  match sortKeys unknown with
  | none => throw .unordered
  | some [] =>
    let paths ← (readIncludePaths root (Yaml.Value.field? fields "include-paths")).mapError
      .problem
    let metrics ← readLayout (Yaml.Value.field? fields "layout")
    return ⟨root, paths, metrics⟩
  | some keys => throw (unknownKeys keys)

/-- The settings that a value makes; null makes the usual ones. -/
def ofValue (root : Path) : Yaml.Value → Except Refusal Settings
  | .null => ofFields root []
  | .mapping fields => ofFields root fields
  | _ => .error (.problem .notMapping)

/-- The settings that a text from some source makes, where `loading` tells the value of a text. -/
def ofTextBy (loading : String → Except Yaml.Fault Yaml.Value) (text : String) (root : Path)
    (source : String) : Except SettingsFault Settings :=
  match loading text with
  | .error .malformed => .error (.refused source .malformed)
  | .error fault => .error (.badScalar fault)
  | .ok value => (ofValue root value).mapError fun
    | .problem p => .refused source p
    | .unordered => .unordered
    | .longKey fault => .longKey fault

/-- The settings that a text from some source makes. -/
def ofText : String → Path → String → Except SettingsFault Settings := ofTextBy Yaml.read

/-- The settings of a file. Their root is the directory of the file. -/
def load (t : FileTree) (directory path : Path) : Except SettingsFault Settings :=
  match t.bytes directory path with
  | .error .missing => .error (.missing path)
  | .error .badName => .error .badPath
  | .error fault => .error (.unreadable path fault)
  | .ok bytes =>
    match textOfBytes bytes with
    | .error fault => .error (.undecodable fault)
    | .ok text => ofText text path.parent path.toString

/-- The name of the file that holds the settings of a directory. -/
def fileName : String := ".sadl.yaml"

/-- Where the settings beside a file are. -/
def pathBeside (source : Path) : Path := source.parent.join (Path.ofString fileName)

/-- The settings beside a file, or the usual ones if there are none. -/
def find (t : FileTree) (directory source : Path) : Except SettingsFault Settings :=
  let path := pathBeside source
  match t.exists? directory path with
  | .error fault => .error (.inaccessible path fault)
  | .ok true => load t directory path
  | .ok false => .ok ⟨source.parent, [], {}⟩

end Settings

end SystemMap
