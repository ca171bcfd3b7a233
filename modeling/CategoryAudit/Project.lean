import CategoryAudit.Collect
import CategoryAudit.Config.Load
import CategoryAudit.Outline
import CategoryAudit.Report

/-!
# Checking a project

Every source file of a project is read and analyzed on its own. A file that cannot be read or
analyzed gives an error of its own and does not stop the others.
-/

namespace CategoryAudit

def FileResult.ofOutline (path : String) (markers : Markers) (fileScopedCounts : Bool) :
    Except ParseError Outline → FileResult
  | .error e => { path, error := some ⟨path, .parse, e.message⟩ }
  | .ok outline =>
    match outline.analyze markers fileScopedCounts with
    | .error e => { path, error := some ⟨path, .analysis, e.message⟩ }
    | .ok a => { path, scope := a.scope, findings := a.findings }

namespace FileSystem

def outline (fs : FileSystem) (reader : SourceReader) (path : String) :
    Except ParseError Outline :=
  match fs.read path with
  | .ok bytes => reader.outlineOfBytes bytes path
  | .error e => .error (.unreadable e.message)

def check (fs : FileSystem) (reader : SourceReader) (markers : Markers)
    (fileScopedCounts : Bool) (path : String) : FileResult :=
  FileResult.ofOutline path markers fileScopedCounts (fs.outline reader path)

/-- The directory of a project: that of a project file, or the path itself. Blanks around the path
do not count. -/
def projectDirectory? (fs : FileSystem) (project : String) : Option String :=
  let path := Text.strip project
  if fs.isDirectory path then some path
  else if fs.isFile path then
    let directory := Path.parent path
    some (if directory == "" then "." else directory)
  else none

def checkAll (fs : FileSystem) (reader : SourceReader) (c : Config) (directory : String) :
    List FileResult :=
  (fs.collect c directory).map (fs.check reader c.markers c.fileScopedNamespaces)

end FileSystem

inductive ProjectError where
  | notFound (path : String)
  | config (error : Config.LoadError)
  deriving BEq, DecidableEq, Repr

def ProjectError.message : ProjectError → String
  | .notFound path => s!"Project file not found at '{path}'"
  | .config error => error.message

/-- The result of a run: a report with the results of the single files, or an error; and the lines
reported while the configuration was loaded. -/
structure Run where
  result : Except ProjectError (Report × List FileResult)
  reported : String := ""

/-- How to check projects: the grammar of the source files, and whether broken files are read in
part, if not as the configuration says. -/
structure Checker where
  grammar : String → Concrete.Tree
  allowPartial : Option Bool := none

namespace Checker

def reader (k : Checker) (c : Config) : SourceReader :=
  ⟨k.grammar, k.allowPartial.getD c.allowPartialParse⟩

def runIn (k : Checker) (fs : FileSystem) (project directory : String) (c : Config) :
    Report × List FileResult :=
  let results := fs.checkAll (k.reader c) c directory
  (Report.ofResults project results, results)

def runWith (k : Checker) (fs : FileSystem) (project : String) (c : Config) :
    Except ProjectError (Report × List FileResult) :=
  match fs.projectDirectory? project with
  | none => .error (.notFound (Text.strip project))
  | some directory => .ok (k.runIn fs project directory c)

def run (k : Checker) (fs : FileSystem) (env : Config.Environment) (project : String) : Run :=
  match fs.projectDirectory? project with
  | none => ⟨.error (.notFound (Text.strip project)), ""⟩
  | some directory =>
    let loaded := Config.load fs env none (some directory)
    match loaded.result with
    | .error e => ⟨.error (.config e), loaded.reported⟩
    | .ok c => ⟨.ok (k.runIn fs project directory c), loaded.reported⟩

end Checker

end CategoryAudit
