import CategoryAudit.Report
import CategoryAudit.Text.Digit
import CategoryAudit.Text.Quoted

/-!
# Arguments

The arguments are one project and some options. An option may be shortened as long as only one
option begins that way; its value follows it, or stands after `=` in the same argument. After
`--` there are no more options. A lone `-`, a negative number, and anything that contains a blank
and is not the beginning of an option are not options.
-/

namespace CategoryAudit.CommandLine

structure Options where
  project : String
  config : Option String := none
  format : Report.Format := .text
  out : Option String := none
  verbose : Bool := false
  allowPartialParse : Bool := false
  deriving BEq, DecidableEq, Repr

inductive Flag where
  | help
  | config
  | format
  | out
  | verbose
  | allowPartialParse
  deriving BEq, DecidableEq, Repr

def Flag.takesValue : Flag → Bool
  | .config | .format | .out => true
  | .help | .verbose | .allowPartialParse => false

def spellings : List (String × Flag) :=
  [("-h", .help), ("--help", .help), ("--config", .config), ("--format", .format),
   ("--out", .out), ("--verbose", .verbose), ("--allow-partial-parse", .allowPartialParse)]

def Flag.shown : Flag → String
  | .help => "-h/--help"
  | .config => "--config"
  | .format => "--format"
  | .out => "--out"
  | .verbose => "--verbose"
  | .allowPartialParse => "--allow-partial-parse"

inductive UsageError where
  | ambiguous (argument : String) (spellings : List String)
  | missingValue (flag : Flag)
  | needlessValue (flag : Flag) (value : String)
  | badChoice (value : String)
  | missingProject
  | unrecognized (arguments : List String)
  deriving BEq, DecidableEq, Repr

def UsageError.message : UsageError → String
  | .ambiguous argument spellings =>
    s!"ambiguous option: {argument} could match " ++ ", ".intercalate spellings
  | .missingValue flag => s!"argument {flag.shown}: expected one argument"
  | .needlessValue flag value =>
    s!"argument {flag.shown}: ignored explicit argument {Text.quoted value}"
  | .badChoice value => s!"argument {Flag.format.shown}: invalid choice: {Text.quoted value} "
      ++ "(choose from 'text', 'json')"
  | .missingProject => "the following arguments are required: project"
  | .unrecognized arguments => "unrecognized arguments: " ++ " ".intercalate arguments

/-! ## Kinds of arguments -/

inductive Argument where
  | plain (text : String)
  /-- The `--` that ends the options. -/
  | dashes
  | option (flag : Flag) (value : Option String)
  /-- A `-h` with more letters right after it. -/
  | letters (more : List Char)
  | unknown (text : String)
  deriving BEq, DecidableEq, Repr

def splitEquals (s : String) : String × Option String :=
  let front := s.toList.takeWhile (· != '=')
  match s.toList.dropWhile (· != '=') with
  | _ :: value => (String.ofList front, some (String.ofList value))
  | [] => (s, none)

def startsWith (s front : String) : Bool := front.toList.isPrefixOf s.toList

def isNegativeNumber (s : String) : Bool :=
  match s.toList with
  | '-' :: rest =>
    let whole := rest.takeWhile Text.isDecimalDigit
    match rest.dropWhile Text.isDecimalDigit with
    | [] => !whole.isEmpty
    | '.' :: digits => !digits.isEmpty && digits.all Text.isDecimalDigit
    | _ => false
  | _ => false

def classifyShortened (s : String) : Except UsageError Argument := do
  let (front, value) := splitEquals s
  match s.toList with
  | '-' :: 'h' :: more => return .letters more
  | '-' :: '-' :: _ =>
    match spellings.filter fun o => startsWith o.1 front with
    | [(_, flag)] => return .option flag value
    | [] => return if s.toList.contains ' ' then .plain s else .unknown s
    | several => throw (.ambiguous s (several.map (·.1)))
  | _ => return if isNegativeNumber s || s.toList.contains ' ' then .plain s else .unknown s

def classify (s : String) : Except UsageError Argument := do
  if !startsWith s "-" || s == "-" then return .plain s
  if s == "--" then return .dashes
  match spellings.lookup s with
  | some flag => return .option flag none
  | none =>
    let (front, value) := splitEquals s
    match spellings.lookup front, value with
    | some flag, some value => return .option flag (some value)
    | _, _ => classifyShortened s

def classifyAll : List String → Except UsageError (List Argument)
  | [] => .ok []
  | s :: rest => do
    match ← classify s with
    | .dashes => return .dashes :: rest.map .plain
    | a => return a :: (← classifyAll rest)

/-! ## Reading the arguments -/

structure Reading where
  project : Option String := none
  config : Option String := none
  format : Report.Format := .text
  out : Option String := none
  verbose : Bool := false
  allowPartialParse : Bool := false
  /-- What belongs to no option and is not the project, backwards. -/
  extra : List String := []
  deriving Repr

inductive Request where
  | help
  | check (options : Options)
  deriving BEq, DecidableEq, Repr

def format? (s : String) : Option Report.Format :=
  if s == "text" then some .text else if s == "json" then some .json else none

def Reading.withValue (r : Reading) (flag : Flag) (value : String) :
    Except UsageError Reading :=
  match flag with
  | .config => .ok { r with config := some value }
  | .out => .ok { r with out := some value }
  | .format =>
    match format? value with
    | some format => .ok { r with format }
    | none => .error (.badChoice value)
  | _ => .ok r

def Reading.withFlag (r : Reading) : Flag → Option Reading
  | .verbose => some { r with verbose := true }
  | .allowPartialParse => some { r with allowPartialParse := true }
  | .help => none
  | _ => some r

def Reading.finish (r : Reading) : Except UsageError Request :=
  match r.project with
  | none => .error .missingProject
  | some project =>
    if r.extra.isEmpty then
      .ok (.check ⟨project, r.config, r.format, r.out, r.verbose, r.allowPartialParse⟩)
    else .error (.unrecognized r.extra.reverse)

/-- Takes over an argument that is no option: it is the project if there is none yet. -/
def Reading.withPlain (r : Reading) (text : String) : Reading :=
  match r.project with
  | none => { r with project := some text }
  | some _ => { r with extra := text :: r.extra }

/-- What letters right after `-h` ask for. The `h` may be repeated; neither a value nor a dash may
follow it, and anything else is left unread, since help was asked for. -/
def afterHelp : List Char → Except UsageError Request
  | 'h' :: '=' :: value => .error (.needlessValue .help (String.ofList value))
  | 'h' :: more => afterHelp more
  | '-' :: more => .error (.needlessValue .help (String.ofList ('-' :: more)))
  | _ => .ok .help

/-- Reads arguments from left to right. The project takes a `--` before or after it along. -/
def readAll (r : Reading) : List Argument → Except UsageError Request
  | [] => r.finish
  | .plain text :: .dashes :: rest =>
    if r.project.isNone then readAll { r with project := some text } rest
    else readAll { r with extra := "--" :: text :: r.extra } rest
  | .plain text :: rest => readAll (r.withPlain text) rest
  | .dashes :: .plain text :: rest =>
    if r.project.isNone then readAll { r with project := some text } rest
    else readAll { r with extra := text :: "--" :: r.extra } rest
  | .dashes :: rest => readAll { r with extra := "--" :: r.extra } rest
  | .unknown text :: rest => readAll { r with extra := text :: r.extra } rest
  | .letters more :: _ => afterHelp more
  | .option flag (some value) :: rest =>
    if flag.takesValue then do readAll (← r.withValue flag value) rest
    else .error (.needlessValue flag value)
  | .option flag none :: rest =>
    if flag.takesValue then
      match rest with
      | .plain value :: rest => do readAll (← r.withValue flag value) rest
      | _ => .error (.missingValue flag)
    else match r.withFlag flag with
      | some r => readAll r rest
      | none => .ok .help

def parse (arguments : List String) : Except UsageError Request := do
  readAll {} (← classifyAll arguments)

/-! ## Texts -/

def usage : String :=
  "usage: catlint [-h] [--config FILE] [--format \x7btext,json\x7d] [--out FILE]\n"
  ++ "               [--verbose] [--allow-partial-parse]\n"
  ++ "               project\n"

def help : String :=
  usage
  ++ "\nReport [TestMethod]s that carry no [TestCategory] attribute.\n"
  ++ "\npositional arguments:\n"
  ++ "  project               Path to a .csproj file or a project directory.\n"
  ++ "\noptions:\n"
  ++ "  -h, --help            show this help message and exit\n"
  ++ "  --config FILE         YAML config (default: .catlint.yaml in the project\n"
  ++ "                        directory).\n"
  ++ "  --format \x7btext,json\x7d  Report format.\n"
  ++ "  --out FILE            Write the report to this file instead of stdout.\n"
  ++ "  --verbose             Announce each finding on stderr as it is found.\n"
  ++ "  --allow-partial-parse\n"
  ++ "                        Analyze files with syntax errors on a best-effort\n"
  ++ "                        basis instead of skipping them.\n"

def UsageError.report (e : UsageError) : String := usage ++ s!"catlint: error: {e.message}\n"

end CategoryAudit.CommandLine
