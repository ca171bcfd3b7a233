import CategoryAudit.Concrete
import CategoryAudit.Declaration
import CategoryAudit.Symbols
import CategoryAudit.Text.Utf8

/-!
# From concrete trees to outlines

Only the active branch of a conditional directive counts. The symbols are those defined earlier
in the same file; they are carried along in the order of the text. A broken region or a directive
that is neither a condition nor a definition is looked into for declarations. Bodies of methods
are not looked at.
-/

namespace CategoryAudit

open Concrete (Node)

inductive ParseError where
  | unreadable (reason : String)
  | notUtf8 (fault : Text.Utf8.Fault) (offset : Nat)
  | syntaxError (line : Int)
  | missingCondition (line : Int)
  | badCondition (fault : Condition.Fault) (text : String) (line : Int)
  | tooDeep
  deriving BEq, DecidableEq, Repr

def ParseError.message : ParseError → String
  | .unreadable reason => s!"could not read file: {reason}"
  | .notUtf8 fault offset => s!"file is not valid UTF-8: {fault.message} at byte {offset}"
  | .syntaxError line => s!"syntax error near line {line}"
  | .missingCondition line => s!"preprocessor condition missing near line {line}"
  | .badCondition fault text line => fault.message text line
  | .tooDeep => "declarations are nested too deeply to parse"

namespace Concrete.Node

def kindBegins (n : Node) (front : String) : Bool := front.toList.isPrefixOf n.kind.toList

def text (n : Node) (source : ByteArray) : String :=
  Text.Utf8.decodeLossy (source.extract n.start n.stop).data.toList

def name? (n : Node) (source : ByteArray) : Option String :=
  match n.child? "name" with
  | none => none
  | some name =>
    if name.missing then none
    else
      let text := Text.compact (name.text source)
      if text == "" then none else some text

def modifiers (n : Node) (source : ByteArray) : List String :=
  (n.children.filter (·.kind == "modifier")).map fun m => Text.strip (m.text source)

def listedAttributes (list : Node) (source : ByteArray) : List Attribute :=
  (list.constructs.filter (·.kind == "attribute")).filterMap fun a =>
    (a.name? source).map (⟨·, a.line⟩)

/-- The attributes in the attribute lists directly below a node. -/
def attributes (n : Node) (source : ByteArray) : List Attribute :=
  (n.children.filter (·.kind == "attribute_list")).flatMap (·.listedAttributes source)

def header (n : Node) (source : ByteArray) : Header :=
  ⟨n.name? source, n.modifiers source, n.attributes source, n.line⟩

inductive DirectiveRole where
  | conditional
  | otherwise
  | definition
  | transparent
  deriving BEq, DecidableEq, Repr

def directiveRole (n : Node) : DirectiveRole :=
  if n.kindBegins "preproc_if" || n.kindBegins "preproc_elif" then .conditional
  else if n.kindBegins "preproc_else" then .otherwise
  else if n.kind == "preproc_define" || n.kind == "preproc_undef" then .definition
  else .transparent

def isBranch (n : Node) : Bool := n.kindBegins "preproc_elif" || n.kindBegins "preproc_else"

/-- Whether a node is one of `excluded`, judged by kind and place. -/
def isAmong (n : Node) (excluded : List Node) : Bool :=
  excluded.any fun m => m.kind == n.kind && m.start == n.start

/-- The constructs of a directive without its further branches and without `excluded`. -/
def branchBody (n : Node) (excluded : List Node) : List Node :=
  n.constructs.filter fun c => !c.isAmong excluded && !c.isBranch

def nextBranch? (n : Node) : Option Node :=
  (n.child? "alternative").or (n.constructs.find? (·.isBranch))

/-- What declares the members of a namespace: its body or, without one, all but its name. -/
def scopeMembers (n : Node) : List Node :=
  match n.child? "body" with
  | some body => body.constructs
  | none =>
    match n.child? "name" with
    | some name => n.constructs.filter (·.start != name.start)
    | none => n.constructs

def typeMembers (n : Node) : List Node :=
  match n.child? "body" with
  | some body => body.constructs
  | none => []

def typeKind? (n : Node) : Option String :=
  match n.kind with
  | "class_declaration" => some "class"
  | "struct_declaration" => some "struct"
  | "interface_declaration" => some "interface"
  | "record_declaration" => some "record"
  | _ => none

def isScope (n : Node) : Bool :=
  n.kind == "namespace_declaration" || n.kind == "file_scoped_namespace_declaration"

end Concrete.Node

/-- Whether a declaration is one of those that are kept by their kind alone. -/
def Declaration.isOther : Declaration → Bool
  | .other .. => true
  | _ => false

namespace Outline

abbrev Reading := StateT Symbols (Except ParseError)

def concat (f : Node → Reading (List Declaration)) : List Node → Reading (List Declaration)
  | [] => return []
  | n :: rest => do
    let here ← f n
    let more ← concat f rest
    return here ++ more

def test (text : String) (line : Int) : Reading Bool := do
  match Condition.evalText text (← get) with
  | .ok value => return value
  | .error fault => throw (.badCondition fault text line)

mutual
def readAll (source : ByteArray) : Nat → List Node → Reading (List Declaration)
  | 0, _ => throw .tooDeep
  | depth + 1, nodes => concat (readOne source depth) nodes
/-- The declarations that one node gives: itself, or those within it. -/
def readOne (source : ByteArray) : Nat → Node → Reading (List Declaration)
  | 0, _ => throw .tooDeep
  | depth + 1, n => do
    if n.kind == "comment" then return []
    else if n.kind == "ERROR" then readAll source depth n.constructs
    else if n.kindBegins "preproc" then readDirective source depth n
    else if n.isScope then
      let members ← readAll source depth n.scopeMembers
      return [.scope ((n.name? source).getD "") (n.kind == "file_scoped_namespace_declaration")
        n.line members]
    else match n.typeKind? with
      | some kind =>
        let members ← readAll source depth n.typeMembers
        return [.type kind (n.header source) members]
      | none =>
        if n.kind == "method_declaration" then return [.method (n.header source)]
        else return [.other n.kind n.line]
def readDirective (source : ByteArray) : Nat → Node → Reading (List Declaration)
  | 0, _ => throw .tooDeep
  | depth + 1, n =>
    match n.directiveRole with
    | .conditional =>
      match n.child? "condition" with
      | none => throw (.missingCondition n.line)
      | some condition => do
        if ← test (condition.text source) n.line then
          readAll source depth
            (n.branchBody (condition :: (n.child? "alternative").toList))
        else match n.nextBranch? with
          | some next => readDirective source depth next
          | none => return []
    | .otherwise => readAll source depth (n.branchBody [])
    | .definition => do
      modify (·.update (n.text source))
      return []
    | .transparent => do
      let found ← readAll source depth n.constructs
      return found.filter (!·.isOther)
end

/-- How deeply declarations and directives may be nested within each other; every declaration
takes two levels and every directive three. The number stands in for the recursion limit that a
program runs under, of which part is in use before a file is read. -/
def depthLimit : Nat := 1000

def declarationsOf (source : ByteArray) (tree : Concrete.Tree) :
    Except ParseError (List Declaration) :=
  ((readAll source depthLimit tree.root.constructs).run []).map (·.1)

end Outline

/-- The outline of a file from its concrete tree. Broken text is an error unless partial outlines
are allowed. -/
def Outline.ofTree (allowPartial : Bool) (source path : String) (tree : Concrete.Tree) :
    Except ParseError Outline := do
  if tree.hasError && !allowPartial then throw (.syntaxError tree.errorLine)
  let declarations ← Outline.declarationsOf source.toUTF8 tree
  return ⟨path, declarations, tree.hasError⟩

structure SourceReader where
  grammar : String → Concrete.Tree
  allowPartial : Bool := false

def SourceReader.outline (r : SourceReader) (source path : String) : Except ParseError Outline :=
  Outline.ofTree r.allowPartial source path (r.grammar source)

/-- The outline of the contents of a file. A byte order mark is left out, also from offsets. -/
def SourceReader.outlineOfBytes (r : SourceReader) (bytes : List UInt8) (path : String) :
    Except ParseError Outline :=
  match Text.Utf8.decode (Text.Utf8.dropMark bytes) with
  | .ok source => r.outline source path
  | .error e => .error (.notUtf8 e.fault e.offset)

end CategoryAudit
