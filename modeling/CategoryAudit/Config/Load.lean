import CategoryAudit.Config
import CategoryAudit.FileSystem
import CategoryAudit.ShellWords
import CategoryAudit.Text.Utf8
import CategoryAudit.Yaml.Document

/-!
# Loading a configuration

A configuration comes from a file that is asked for, or from the default file of a project if it
is there, or from nothing. An environment variable adds patterns to those excluded.
-/

namespace CategoryAudit.Config

def defaultName : String := ".catlint.yaml"

def excludeVariable : String := "CATLINT_EXCLUDE"

abbrev Environment := List (String × String)

inductive LoadError where
  | nullInPath
  | notFound (path : String)
  | unreadable (path : String) (error : FileSystem.Error)
  | malformed (path : String)
  | notMapping (path : String)
  /-- The file is not UTF-8; `part` holds the bytes in question. -/
  | undecodable (fault : Text.Utf8.Fault) (part : List UInt8) (offset : Nat)
  | badScalar (fault : Yaml.Fault)
  /-- A key to warn about is a whole number with too many digits. -/
  | endlessKey
  | badVariable (fault : ShellWords.Fault)
  deriving BEq, DecidableEq, Repr

def LoadError.isConfigError : LoadError → Bool
  | .notFound _ | .unreadable .. | .malformed _ | .notMapping _ => true
  | .nullInPath | .undecodable .. | .badScalar _ | .endlessKey | .badVariable _ => false

def undecodableMessage (fault : Text.Utf8.Fault) (part : List UInt8) (offset : Nat) : String :=
  let what := match part with
    | [b] => s!"byte 0x{Text.hex 2 b.toNat} in position {offset}"
    | _ => s!"bytes in position {offset}-{offset + part.length - 1}"
  s!"'utf-8' codec can't decode {what}: {fault.message}"

def LoadError.message : LoadError → String
  | .nullInPath => "embedded null byte"
  | .notFound path => s!"Config file not found: {path}"
  | .unreadable path error => s!"Could not read config file {path}: {error.report path}"
  | .malformed path => s!"Invalid YAML in config file {path}: malformed document"
  | .notMapping path => s!"Config file {path} must contain a mapping at the top level"
  | .undecodable fault part offset => undecodableMessage fault part offset
  | .badScalar fault => fault.message
  | .endlessKey => s!"Exceeds the limit ({Yaml.digitLimit} digits) for integer string conversion; "
    ++ "use sys.set_int_max_str_digits() to increase the limit"
  | .badVariable fault => fault.message

/-- One kind of line break for all: a carriage return, alone or before a line feed, is one. -/
def unifyBreaks : List Char → List Char
  | [] => []
  | '\r' :: '\n' :: rest => '\n' :: unifyBreaks rest
  | '\r' :: rest => '\n' :: unifyBreaks rest
  | c :: rest => c :: unifyBreaks rest

/-- The error about the first ill-formed part of some bytes. A character that the end of the file
cuts off is looked at on its own, so its place is counted from itself. -/
def decodeError (bytes : List UInt8) (e : Text.Utf8.Error) : LoadError :=
  let rest := bytes.drop e.offset
  let length := match rest with
    | b :: more =>
      match Text.Utf8.step b more with
      | .char _ more => 1 + more
      | .fault _ more => 1 + more
    | [] => 0
  let offset := if e.fault == .unexpectedEnd then 0 else e.offset
  .undecodable e.fault (rest.take length) offset

/-- The mapping in a configuration file; an empty document counts as an empty mapping. The whole
file is decoded before any of it is scanned. A reader that takes the file in pieces, of some
kilobytes each, may come to a fault of the document in an early piece before it decodes a later one
that is not UTF-8; of two such faults in a longer file it reports the other. -/
def readMapping (fs : FileSystem) (path : String) : Except LoadError Mapping := do
  if path.toList.contains '\x00' then throw .nullInPath
  let bytes ← match fs.read path with
    | .ok bytes => pure bytes
    | .error .noSuchFile => throw (.notFound path)
    | .error e => throw (.unreadable path e)
  let text ← match Text.Utf8.decode bytes with
    | .ok text => pure text
    | .error e => throw (decodeError bytes e)
  match Yaml.load (String.ofList (unifyBreaks text.toList)) with
  | .error .malformed => throw (.malformed path)
  | .error fault => throw (.badScalar fault)
  | .ok (.scalar .null) => return []
  | .ok (.map entries) => return entries
  | .ok _ => throw (.notMapping path)

/-- What comes of a mapping: a configuration, unless something that is to be told cannot be shown,
and what is told up to there. -/
structure Built where
  result : Except LoadError Config
  told : List Warning

def build (m : Mapping) : Built :=
  ⟨if (ofMapping m).2.all (·.isShowable) then .ok (ofMapping m).1 else .error .endlessKey,
    (ofMapping m).2.takeWhile (·.isShowable)⟩

structure Loaded where
  result : Except LoadError Config
  reported : String := ""

def reportLine (message : String) : String := s!"[catlint] {message}\n"

def source? (fs : FileSystem) (path project : Option String) : Option String :=
  match path, project with
  | some path, _ => some path
  | none, some project =>
    let candidate := Path.join project defaultName
    if project != "" && fs.isFile candidate then some candidate else none
  | none, none => none

def withVariable (env : Environment) (c : Config) : Except LoadError Config :=
  match env.lookup excludeVariable with
  | none => .ok c
  | some extra =>
    match ShellWords.split extra with
    | .ok words => .ok { c with exclude := c.exclude ++ words }
    | .error fault => .error (.badVariable fault)

def load (fs : FileSystem) (env : Environment) (path project : Option String) : Loaded :=
  let source := source? fs path project
  match source.mapM (readMapping fs) with
  | .error e => ⟨.error e, ""⟩
  | .ok mapping =>
    let built := build (mapping.getD [])
    let reported := built.told.map fun w => reportLine (w.message (source.getD "<defaults>"))
    ⟨built.result >>= withVariable env, String.join reported⟩

end CategoryAudit.Config
