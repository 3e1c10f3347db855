/-
The command. Everything that it does is an outcome of the tree of files that it sees; here
that tree is gathered from the disk, and the outcome is written to the streams. Files are
read only if the invocation looks at them: it is asked for its places again and again, until
no place is left that has not been read.

A viewer is announced but not started.
-/
import SystemMap.Invocation.Outcome

namespace SystemMap.Main

/-- What is written when help is called for. -/
def usage : String :=
  "usage: sadl [-h] [-v] COMMAND [option ...] file\n\n" ++
  "  parse   print the declarations of a description as JSON\n" ++
  "  check   tell what is wrong with a description\n" ++
  "  layout  print a view, laid out, as JSON\n" ++
  "  export  print a view as the text of a flowchart\n" ++
  "  serve   show a view in a browser\n"

/-- The locations on the way to a path, and its own. -/
def locationsTo (p : Path) : List Location :=
  (List.range p.parts.length).map fun n => Path.settleParts (p.parts.take (n + 1))

/-- Whether something can be at a location. -/
def isPossible (l : Location) : Bool :=
  l.all fun name => !FileTree.isTooLong name && !FileTree.isBadName name

/-- What is at a location of the disk. -/
def probe (l : Location) : IO (Option Entry) := do
  match ← (IO.FS.readBinFile (Path.toString ⟨.root, l⟩)).toBaseIO with
  | .ok bytes => return some (.file bytes.toList)
  | .error (.noFileOrDirectory ..) => return none
  | .error (.inappropriateType ..) => return some .directory
  | .error e => throw e

/-- The part of the disk at which an invocation looks. -/
partial def gather (i : Invocation) (directory : Path) (known : List Location)
    (t : FileTree) : IO FileTree := do
  let all := (i.places t directory).flatMap fun p => locationsTo (directory.join p)
  let new := (all.filter fun l => isPossible l && !known.contains l).eraseDups
  if new.isEmpty then return t
  let mut t := t
  for l in new do
    if let some e ← probe l then t := t.put l e
  gather i directory (known ++ new) t

/-- Runs an invocation and tells its exit status. -/
def perform (i : Invocation) : IO UInt32 := do
  let directory := Path.ofString (← IO.currentDir).toString
  let o := i.runWithin usualRoom (← gather i directory [] FileTree.empty) directory
  IO.print o.output
  IO.eprint (o.complaints i.verbose (toString (← IO.monoMsNow)))
  match o.status? with
  | some n => return n.toUInt32
  | none =>
    IO.eprintln (Invocation.program ++ ": cannot go on")
    return 1

end SystemMap.Main

/-- The command. -/
def main (args : List String) : IO UInt32 := do
  match SystemMap.Invocation.ofArguments args with
  | .ok i => SystemMap.Main.perform i
  | .error .help =>
    IO.print SystemMap.Main.usage
    return 0
  | .error (.refused program refusal) =>
    IO.eprintln (SystemMap.Invocation.refusalLine program refusal)
    return 2
