/-!
# Declarations

The declaration-level view of one source file: namespaces, types, methods, and everything else by
its kind alone. A `foreign` node stands for a value that is no declaration at all; a walk refuses
it. Names of attributes are kept as written, without resolving them.
-/

namespace CategoryAudit

structure Attribute where
  name : String
  line : Int := 0
  deriving BEq, DecidableEq, Repr, Inhabited

structure Header where
  name : Option String
  modifiers : List String := []
  attributes : List Attribute := []
  line : Int := 0
  deriving BEq, DecidableEq, Repr, Inhabited

namespace Header

def isPublic (h : Header) : Bool := h.modifiers.contains "public"

/-- Whether some attribute is written with exactly this name. -/
def carries (h : Header) (name : String) : Bool := h.attributes.any (·.name == name)

def properName? (h : Header) : Option String := h.name.filter (· != "")

end Header

inductive Declaration where
  | scope (name : String) (fileScoped : Bool) (line : Int) (members : List Declaration)
  | type (kind : String) (header : Header) (members : List Declaration)
  | method (header : Header)
  | other (kind : String) (line : Int)
  | foreign (sort : String)
  deriving Repr, Inhabited

/-- The declarations of one file. `hasErrors` says whether parts of the file were unreadable. -/
structure Outline where
  path : String
  declarations : List Declaration
  hasErrors : Bool := false
  deriving Repr, Inhabited

inductive Walk.Obstacle where
  | foreign (sort : String)
  | tooDeep
  deriving BEq, DecidableEq, Repr

structure Walk where
  visited : List Declaration
  obstacle : Option Walk.Obstacle := none
  deriving Repr

namespace Walk

def append (a : Walk) (b : Unit → Walk) : Walk :=
  match a.obstacle with
  | some _ => a
  | none => let b := b (); ⟨a.visited ++ b.visited, b.obstacle⟩

/-- How many levels of declarations a walk enters. Like `Condition.depthLimit`, the number stands in
for a recursion limit that is reached sooner or later according to the stack already in use. -/
def depthLimit : Nat := 500

mutual
def one (depth : Nat) : Declaration → Walk
  | .scope name fileScoped line members =>
    append ⟨[.scope name fileScoped line members], none⟩ fun _ => inside depth members
  | .type kind header members =>
    append ⟨[.type kind header members], none⟩ fun _ => inside depth members
  | .method header => ⟨[.method header], none⟩
  | .other kind line => ⟨[.other kind line], none⟩
  | .foreign sort => ⟨[], some (.foreign sort)⟩
def inside : Nat → List Declaration → Walk
  | 0, _ => ⟨[], some .tooDeep⟩
  | depth + 1, members => all depth members
def all (depth : Nat) : List Declaration → Walk
  | [] => ⟨[], none⟩
  | d :: rest => append (one depth d) fun _ => all depth rest
end

end Walk

def Outline.walk (o : Outline) : Walk := Walk.all Walk.depthLimit o.declarations

end CategoryAudit
