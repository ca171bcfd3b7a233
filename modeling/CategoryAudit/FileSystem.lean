import CategoryAudit.Path
import CategoryAudit.Text.Quoted

/-!
# File systems

A tree of directories and files, and a working directory in it. There are no links and no access
rights. Every operation is a function of the tree; the only one that changes it is `write`, with
`makeDirectories` and `remove` for preparing a tree.
-/

namespace CategoryAudit

inductive Entry where
  | file (bytes : List UInt8)
  | directory (entries : List (String × Entry))
  deriving Repr, Inhabited

structure FileSystem where
  root : List (String × Entry)
  working : List String := []
  deriving Repr, Inhabited

namespace FileSystem

inductive Error where
  | noSuchFile
  | notDirectory
  | isDirectory
  | nameTooLong
  deriving BEq, DecidableEq, Repr

def Error.message : Error → String
  | .noSuchFile => "No such file or directory"
  | .notDirectory => "Not a directory"
  | .isDirectory => "Is a directory"
  | .nameTooLong => "File name too long"

def Error.number : Error → Nat
  | .noSuchFile => 2
  | .notDirectory => 20
  | .isDirectory => 21
  | .nameTooLong => 36

def Error.report (path : String) (e : Error) : String :=
  s!"[Errno {e.number}] {e.message}: {Text.quoted path}"

def nameLimit : Nat := 255

def pathLimit : Nat := 4095

/-- Steps from an entry, given with the directories above it, nearest first, along components. The
result is an entry and the directories above it. -/
def follow (here : Entry) (above : List Entry) : List String →
    Except Error (Entry × List Entry)
  | [] => .ok (here, above)
  | c :: rest =>
    match here with
    | .file _ => .error .notDirectory
    | .directory entries =>
      if nameLimit < c.utf8ByteSize then .error .nameTooLong
      else if c == "" || c == "." then follow here above rest
      else if c == ".." then
        match above with
        | up :: more => follow up more rest
        | [] => follow here [] rest
      else match entries.lookup c with
        | some entry => follow entry (here :: above) rest
        | none => .error .noSuchFile

def start (fs : FileSystem) (path : String) : List String :=
  if Path.isAbsolute path then [] else fs.working

def lookup (fs : FileSystem) (path : String) : Except Error Entry :=
  if path == "" then .error .noSuchFile
  else if pathLimit < path.utf8ByteSize then .error .nameTooLong
  else (follow (.directory fs.root) [] (fs.start path ++ Path.components path)).map (·.1)

def isDirectory (fs : FileSystem) (path : String) : Bool :=
  match fs.lookup path with
  | .ok (.directory _) => true
  | _ => false

def isFile (fs : FileSystem) (path : String) : Bool :=
  match fs.lookup path with
  | .ok (.file _) => true
  | _ => false

def read (fs : FileSystem) (path : String) : Except Error (List UInt8) := do
  match ← fs.lookup path with
  | .file bytes => return bytes
  | .directory _ => throw .isDirectory

/-! ## Changes -/

def put (name : String) (entry : Entry) : List (String × Entry) → List (String × Entry)
  | [] => [(name, entry)]
  | (n, e) :: rest => if n == name then (name, entry) :: rest else (n, e) :: put name entry rest

/-- Replaces what is at the end of some names by `change`, which is given what is there now.
Directories on the way are made if `make` says so. -/
def change (make : Bool) (f : Option Entry → Except Error (Option Entry)) :
    List String → List (String × Entry) → Except Error (List (String × Entry))
  | [], entries => .ok entries
  | [name], entries => do
    match ← f (entries.lookup name) with
    | some entry => return put name entry entries
    | none => return entries.filter (·.1 != name)
  | name :: rest, entries => do
    match entries.lookup name with
    | some (.directory inner) =>
      return put name (.directory (← change make f rest inner)) entries
    | some (.file _) => throw .notDirectory
    | none =>
      if make then return put name (.directory (← change make f rest [])) entries
      else throw .noSuchFile

/-- The names that lead to a path, without looking at files. -/
def names (fs : FileSystem) (path : String) : List String :=
  Path.normalize [] (fs.start path ++ Path.components path)

def update (fs : FileSystem) (path : String) (make : Bool)
    (f : Option Entry → Except Error (Option Entry)) : Except Error FileSystem := do
  return { fs with root := ← change make f (fs.names path) fs.root }

def overwrite (bytes : List UInt8) : Option Entry → Except Error (Option Entry)
  | some (.directory _) => .error .isDirectory
  | _ => .ok (some (.file bytes))

/-- Components without the empty ones at their end, which slashes at the end of a path give. -/
def withoutSlashes (comps : List String) : List String :=
  (comps.reverse.dropWhile (· == "")).reverse

def namesDirectory (path : String) : Bool :=
  match (Path.components path).getLast? with
  | some last => last == "" || last == "." || last == ".."
  | none => true

/-- Writes a file. Its directory has to be there. No file has a path with a null character. -/
def write (fs : FileSystem) (path : String) (bytes : List UInt8) : Except Error FileSystem := do
  if path == "" || path.toList.contains '\x00' then throw .noSuchFile
  if pathLimit < path.utf8ByteSize then throw .nameTooLong
  let comps := withoutSlashes (fs.start path ++ Path.components path)
  let (directory, _) ← follow (.directory fs.root) [] comps.dropLast
  match directory with
  | .file _ => throw .notDirectory
  | .directory _ =>
    if namesDirectory path then throw .isDirectory
    if nameLimit < (comps.getLastD "").utf8ByteSize then throw .nameTooLong
    fs.update path false (overwrite bytes)

def place (fs : FileSystem) (path : String) (bytes : List UInt8) : Except Error FileSystem :=
  fs.update path true (overwrite bytes)

def makeDirectories (fs : FileSystem) (path : String) : Except Error FileSystem :=
  fs.update path true fun
    | some entry => .ok (some entry)
    | none => .ok (some (.directory []))

def remove (fs : FileSystem) (path : String) : Except Error FileSystem :=
  fs.update path false fun
    | some _ => .ok none
    | none => .error .noSuchFile

end FileSystem

end CategoryAudit
