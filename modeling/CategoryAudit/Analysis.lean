import CategoryAudit.Declaration

/-!
# Test methods without a category

A test class is a public class with the class marker, a test method a public method declared
directly in one with the method marker. The findings of a file are its test methods that lack the
category marker. Markers are compared with attribute names as written.
-/

namespace CategoryAudit

structure Markers where
  testClass : String := "TestClass"
  testMethod : String := "TestMethod"
  testCategory : String := "TestCategory"
  deriving BEq, DecidableEq, Repr, Inhabited

structure TestClass where
  name : String
  scope : String
  members : List Declaration
  line : Int
  deriving Repr, Inhabited

structure TestMethod where
  name : String
  hasCategory : Bool
  line : Int
  deriving BEq, DecidableEq, Repr, Inhabited

structure Finding where
  qualifiedName : String
  path : String
  line : Int
  deriving BEq, DecidableEq, Repr, Inhabited

inductive AnalysisError where
  | obstacle (o : Walk.Obstacle)
  | unnamedClass (line : Int)
  | unnamedMethod (line : Int) (className : String)
  deriving BEq, DecidableEq, Repr

def AnalysisError.message : AnalysisError → String
  | .obstacle (.foreign sort) => s!"unexpected declaration node {sort}"
  | .obstacle .tooDeep => "declarations are nested too deeply to analyze"
  | .unnamedClass line => s!"test class at line {line} has no name"
  | .unnamedMethod line className =>
    s!"test method at line {line} in class '{className}' has no name"

def Walk.finish (w : Walk) : Except AnalysisError Unit :=
  match w.obstacle with
  | some o => .error (.obstacle o)
  | none => .ok ()

def Declaration.scopeName? (fileScopedCounts : Bool) : Declaration → Option String
  | .scope name fileScoped _ _ => if fileScoped && !fileScopedCounts then none else some name
  | _ => none

def Declaration.type? : Declaration → Option (String × Header × List Declaration)
  | .type kind header members => some (kind, header, members)
  | _ => none

namespace Outline

/-- The first namespace that counts, or nothing. What comes after it is not looked at. -/
def scope (o : Outline) (fileScopedCounts : Bool) : Except AnalysisError String :=
  match o.walk.visited.findSome? (·.scopeName? fileScopedCounts) with
  | some name => .ok name
  | none => do o.walk.finish; return ""

def types (o : Outline) : Except AnalysisError (List (String × Header × List Declaration)) := do
  o.walk.finish
  return o.walk.visited.filterMap Declaration.type?

end Outline

/-- The test class a declaration is, if any. It has to have a name. -/
def Declaration.testClass? (markers : Markers) (scope : String) :
    Declaration → Except AnalysisError (Option TestClass)
  | .type kind header members =>
    if kind == "class" && header.isPublic && header.carries markers.testClass then
      match header.properName? with
      | some name => .ok (some ⟨name, scope, members, header.line⟩)
      | none => .error (.unnamedClass header.line)
    else .ok none
  | _ => .ok none

def Declaration.testMethod? (markers : Markers) (className : String) :
    Declaration → Except AnalysisError (Option TestMethod)
  | .method header =>
    if header.isPublic && header.carries markers.testMethod then
      match header.properName? with
      | some name => .ok (some ⟨name, header.carries markers.testCategory, header.line⟩)
      | none => .error (.unnamedMethod header.line className)
    else .ok none
  | _ => .ok none

/-- Keeps what a test finds, in order, up to the first failure. -/
def collectM {α β : Type} (f : α → Except AnalysisError (Option β)) :
    List α → Except AnalysisError (List β)
  | [] => .ok []
  | a :: rest => do
    let found ← f a
    let more ← collectM f rest
    return found.toList ++ more

/-- The test classes of a file, outer ones first. A class without a name fails before anything
that the walk meets later. -/
def Outline.testClasses (o : Outline) (markers : Markers) (scope : String) :
    Except AnalysisError (List TestClass) := do
  let found ← collectM (·.testClass? markers scope) o.walk.visited
  o.walk.finish
  return found

def TestClass.methods (c : TestClass) (markers : Markers) :
    Except AnalysisError (List TestMethod) :=
  collectM (·.testMethod? markers c.name) c.members

/-- The findings of one class. The namespace is joined even when it is empty. -/
def TestClass.findings (c : TestClass) (markers : Markers) (path : String) :
    Except AnalysisError (List Finding) := do
  let methods ← c.methods markers
  return methods.filterMap fun m =>
    if m.hasCategory then none
    else some ⟨c.scope ++ "." ++ c.name ++ "." ++ m.name, path, m.line⟩

def findingsOf (markers : Markers) (path : String) :
    List TestClass → Except AnalysisError (List Finding)
  | [] => .ok []
  | c :: rest => do
    let found ← c.findings markers path
    let more ← findingsOf markers path rest
    return found ++ more

structure Analysis where
  scope : String
  findings : List Finding
  deriving BEq, DecidableEq, Repr, Inhabited

def Outline.analyze (o : Outline) (markers : Markers) (fileScopedCounts : Bool) :
    Except AnalysisError Analysis := do
  let scope ← o.scope fileScopedCounts
  let classes ← o.testClasses markers scope
  let findings ← findingsOf markers o.path classes
  return ⟨scope, findings⟩

end CategoryAudit
