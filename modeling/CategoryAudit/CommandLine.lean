import CategoryAudit.CommandLine.Arguments
import CategoryAudit.Project

/-!
# The command line

One call checks one project and prints or writes the report. The exit code is 0 for a clean
report, 1 for findings or errors of single files, and 2 if the project or its configuration
cannot be found. A call changes at most the file that the report is written to.
-/

namespace CategoryAudit.CommandLine

inductive Failure where
  /-- The arguments were answered with help or a usage error. -/
  | usage (code : Nat)
  | config (error : Config.LoadError)
  | write (path : String) (error : FileSystem.Error)
  deriving BEq, DecidableEq, Repr

/-- What a call leaves behind: an exit code or a failure, what it printed on each stream, and the
files. -/
structure Outcome where
  result : Except Failure Nat
  stdout : String := ""
  stderr : String := ""
  files : FileSystem

def exitOk : Nat := 0
def exitFindings : Nat := 1
def exitUsage : Nat := 2

/-- The failure to write to a path. As with that of a configuration, a null character in it is told
before anything is looked up. -/
def writeFailure (path : String) (e : FileSystem.Error) : Failure :=
  if path.toList.contains '\x00' then .config .nullInPath else .write path e

/-- Puts a report where the options say. An empty name of a file counts as none. -/
def emit (fs : FileSystem) (o : Options) (markers : Markers) (report : Report) (stderr : String) :
    Outcome :=
  let text := report.render o.format markers
  let code := if report.isClean then exitOk else exitFindings
  match o.out.filter (· != "") with
  | none => { result := .ok code, stdout := text, stderr, files := fs }
  | some path =>
    match fs.write path text.toUTF8.data.toList with
    | .ok files => { result := .ok code, stderr, files }
    | .error e => { result := .error (writeFailure path e), stderr, files := fs }

def check (grammar : String → Concrete.Tree) (fs : FileSystem) (env : Config.Environment)
    (o : Options) : Outcome :=
  match fs.projectDirectory? o.project with
  | none =>
    let error := ProjectError.notFound (Text.strip o.project)
    { result := .ok exitUsage, stdout := s!"Error: {error.message}\n", files := fs }
  | some directory =>
    let loaded := Config.load fs env o.config (some directory)
    match loaded.result with
    | .error e =>
      if e.isConfigError then
        { result := .ok exitUsage
          stderr := loaded.reported ++ Config.reportLine e.message
          files := fs }
      else { result := .error (.config e), stderr := loaded.reported, files := fs }
    | .ok c =>
      let c := if o.allowPartialParse then { c with allowPartialParse := true } else c
      let (report, results) := Checker.runIn ⟨grammar, none⟩ fs (Text.strip o.project) directory c
      let announced := if o.verbose then results.map (·.announcements c.markers) else []
      emit fs o c.markers report (loaded.reported ++ String.join announced)

def run (grammar : String → Concrete.Tree) (fs : FileSystem) (env : Config.Environment)
    (arguments : List String) : Outcome :=
  match parse arguments with
  | .error e => { result := .error (.usage exitUsage), stderr := e.report, files := fs }
  | .ok .help => { result := .error (.usage exitOk), stdout := help, files := fs }
  | .ok (.check options) => check grammar fs env options

end CategoryAudit.CommandLine
