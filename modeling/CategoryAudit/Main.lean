import CategoryAudit.CommandLine
import CategoryAudit.Source.Parse

/-!
# The program

Reads the files that a call may look at into a tree, carries out the call on the tree, and writes
the streams and the report back. Links are followed as if they were what they lead to.
-/

namespace CategoryAudit.Program

partial def entryAt (path : String) : IO Entry := do
  let place := (← IO.currentDir) / path
  if ← place.isDir then
    let mut entries := #[]
    for item in ← place.readDir do
      entries := entries.push (item.fileName, ← entryAt (Path.join path item.fileName))
    return .directory entries.toList
  else return .file (← IO.FS.readBinFile place).data.toList

def add (fs : FileSystem) (path : String) : IO FileSystem := do
  let place := (← IO.currentDir) / path
  if path != "" && (← place.pathExists) then
    let entry ← entryAt path
    match fs.update path true fun _ => .ok (some entry) with
    | .ok fs => return fs
    | .error _ => return fs
  else return fs

def addDirectory (fs : FileSystem) (path : String) : IO FileSystem := do
  let place := (← IO.currentDir) / path
  if ← place.isDir then
    match fs.makeDirectories path with
    | .ok fs => return fs
    | .error _ => return fs
  else return fs

/-- The files that a call with the given options may look at. -/
def filesFor (o : CommandLine.Options) : IO FileSystem := do
  let here ← IO.currentDir
  let working := (Path.components here.toString).filter (· != "")
  let empty : FileSystem := { root := [], working }
  let project := Text.strip o.project
  let isDirectory ← ((here / project).isDir : IO Bool)
  let base := if isDirectory then project else Path.parent project
  let fs ← addDirectory empty "."
  let fs ← match o.out with
    | some out => do addDirectory (← addDirectory fs (Path.join (Path.parent out) ".")) out
    | none => pure fs
  let fs ← add fs (if base == "" then "." else base)
  match o.config with
  | some config => add fs config
  | none => return fs

def writeBack (fs : FileSystem) (path : String) : IO Unit := do
  match fs.read path with
  | .ok bytes => IO.FS.writeBinFile ((← IO.currentDir) / path) ⟨bytes.toArray⟩
  | .error _ => return

def call (arguments : List String) : IO UInt32 := do
  let options := match CommandLine.parse arguments with
    | .ok (.check options) => some options
    | _ => none
  let fs ← match options with
    | some o => filesFor o
    | none => pure { root := [] }
  let patterns := (← IO.getEnv Config.excludeVariable).map ((Config.excludeVariable, ·))
  let outcome := CommandLine.run Source.concreteTree fs patterns.toList arguments
  IO.print outcome.stdout
  IO.eprint outcome.stderr
  match outcome.result with
  | .ok code =>
    match options.bind (·.out) with
    | some out => writeBack outcome.files out
    | none => pure ()
    return code.toUInt32
  | .error (.usage code) => return code.toUInt32
  | .error (.config e) => IO.eprintln e.message; return 1
  | .error (.write path e) => IO.eprintln (e.report path); return 1

end CategoryAudit.Program

def main (arguments : List String) : IO UInt32 := CategoryAudit.Program.call arguments
