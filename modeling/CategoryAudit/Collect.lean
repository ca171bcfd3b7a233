import CategoryAudit.Config
import CategoryAudit.FileSystem
import CategoryAudit.Glob

/-!
# The source files of a project

All files below a directory with one of the configured extensions, unless a pattern excludes the
file or a directory on the way to it. They come in the order of their absolute paths.
-/

namespace CategoryAudit

namespace Config

def selects (c : Config) (name : String) : Bool :=
  c.extensions.contains (Text.lower (Path.suffix name))

def omits (c : Config) (relative name : String) : Bool := Glob.excludes c.exclude relative name

end Config

/-- A source file: its path from the project directory, and its path as it is reported. -/
structure SourceFile where
  relative : String
  path : String
  deriving BEq, DecidableEq, Repr

mutual
def Entry.sources (c : Config) (relative path name : String) : Entry → List SourceFile
  | .file _ =>
    if c.selects name && !c.omits (Path.below relative name) name then
      [⟨Path.below relative name, Path.join path name⟩]
    else []
  | .directory entries =>
    if c.omits (Path.below relative name) name then []
    else sourcesIn c (Path.below relative name) (Path.join path name) entries
def sourcesIn (c : Config) (relative path : String) : List (String × Entry) → List SourceFile
  | [] => []
  | (name, entry) :: rest => entry.sources c relative path name ++ sourcesIn c relative path rest
end

/-- The source files below `root`; none if it is no directory. -/
def FileSystem.collect (fs : FileSystem) (c : Config) (root : String) : List String :=
  match fs.lookup root with
  | .ok (.directory entries) =>
    let keyed := (sourcesIn c "" root entries).map fun f =>
      (Path.absolute fs.working f.path, f.path)
    (keyed.mergeSort fun a b => decide (a.1 ≤ b.1)).map (·.2)
  | _ => []

end CategoryAudit
