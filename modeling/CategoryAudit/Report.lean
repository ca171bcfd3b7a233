import CategoryAudit.Analysis
import CategoryAudit.Json

/-!
# Reports

What came of the files of a project. A file that fails has one error and no findings. A report can
be written as text or as JSON; the JSON form holds everything.
-/

namespace CategoryAudit

inductive FileError.Stage where
  | parse
  | analysis
  deriving BEq, DecidableEq, Repr

def FileError.Stage.name : FileError.Stage → String
  | .parse => "parse"
  | .analysis => "analysis"

structure FileError where
  path : String
  stage : FileError.Stage
  message : String
  deriving BEq, DecidableEq, Repr

structure FileResult where
  path : String
  scope : String := ""
  findings : List Finding := []
  error : Option FileError := none
  deriving BEq, DecidableEq, Repr

def FileResult.isOk (r : FileResult) : Bool := r.error.isNone

structure Report where
  projectPath : String
  filesAnalyzed : Int
  findings : List Finding
  errors : List FileError
  deriving BEq, DecidableEq, Repr

namespace Report

def ofResults (projectPath : String) (results : List FileResult) : Report :=
  { projectPath
    filesAnalyzed := results.length
    findings := results.flatMap (·.findings)
    errors := results.filterMap (·.error) }

def isClean (r : Report) : Bool := r.findings.isEmpty && r.errors.isEmpty

def textLines (r : Report) (markers : Markers) : List String :=
  [s!"Analyzing project: '{r.projectPath}'", ""]
    ++ (if r.findings.isEmpty then
        [s!"All {markers.testMethod}s have the [{markers.testCategory}] attribute."]
      else s!"Methods Missing [{markers.testCategory}] Attribute:"
        :: r.findings.map fun f => s!"- {f.qualifiedName}")
    ++ r.errors.map fun e => s!"Error processing '{e.path}': {e.message}"

def toText (r : Report) (markers : Markers) : String := "\n".intercalate (r.textLines markers)

def toolName : String := "catlint"
def toolVersion : String := "0.1.0"

def findingJson (f : Finding) : Json :=
  .object [("name", .string f.qualifiedName), ("file", .string f.path), ("line", .int f.line)]

def errorJson (e : FileError) : Json :=
  .object [("file", .string e.path), ("kind", .string e.stage.name),
    ("message", .string e.message)]

def toJson (r : Report) : Json :=
  .object
    [("tool", .string toolName),
     ("version", .string toolVersion),
     ("project", .string r.projectPath),
     ("files_analyzed", .int r.filesAnalyzed),
     ("findings", .array (r.findings.map findingJson)),
     ("errors", .array (r.errors.map errorJson))]

inductive Format where
  | text
  | json
  deriving BEq, DecidableEq, Repr

/-- A report in a form, with a line break at its end. -/
def render (r : Report) (format : Format) (markers : Markers) : String :=
  (match format with
    | .text => r.toText markers
    | .json => r.toJson.render) ++ "\n"

end Report

/-! ## Announcements -/

def splitLastPoint (s : String) : String × String :=
  let tail := s.toList.reverse.takeWhile (· != '.')
  match s.toList.reverse.dropWhile (· != '.') with
  | _ :: before => (String.ofList before.reverse, String.ofList tail.reverse)
  | [] => ("", s)

def Finding.announcement (markers : Markers) (f : Finding) : String :=
  let (className, method) := splitLastPoint f.qualifiedName
  s!"  - Method '{method}' in class '{className}' is missing [{markers.testCategory}] attribute.\n"

def FileResult.announcements (markers : Markers) (r : FileResult) : String :=
  String.join (r.findings.map (·.announcement markers))

end CategoryAudit
