/-!
# Concrete syntax trees

The tree that a grammar gives for one source file: every token and every construct, with its
place in the text. Places are byte offsets into the UTF-8 text and rows counted from 0. Nothing
here relates the places of a node to those of its children.
-/

namespace CategoryAudit.Concrete

/-- A node. `field` is the role it plays in its parent; a `named` node is a construct rather than
a piece of punctuation; a `missing` node stands for a token that the text lacks. -/
inductive Node where
  | mk (kind : String) (start stop : Nat) (row : Int) (field : Option String)
      (named missing : Bool) (children : List Node)
  deriving Repr, Inhabited

namespace Node

def kind : Node → String | mk k .. => k
def start : Node → Nat | mk _ s .. => s
def stop : Node → Nat | mk _ _ e .. => e
def row : Node → Int | mk _ _ _ r .. => r
def field : Node → Option String | mk _ _ _ _ f .. => f
def named : Node → Bool | mk _ _ _ _ _ n .. => n
def missing : Node → Bool | mk _ _ _ _ _ _ m _ => m
def children : Node → List Node | mk _ _ _ _ _ _ _ c => c

def line (n : Node) : Int := n.row + 1

def constructs (n : Node) : List Node := n.children.filter (·.named)

def child? (n : Node) (role : String) : Option Node := n.children.find? (·.field == some role)

def isBroken (n : Node) : Bool := n.kind == "ERROR" || n.missing

end Node

mutual
def Node.size : Node → Nat
  | .mk _ _ _ _ _ _ _ children => 1 + sizes children
def sizes : List Node → Nat
  | [] => 0
  | n :: rest => n.size + sizes rest
end

theorem sizes_append (a b : List Node) : sizes (a ++ b) = sizes a + sizes b := by
  induction a with
  | nil => simp [sizes]
  | cons n rest ih => simp [sizes, ih, Nat.add_assoc]

theorem Node.size_eq (n : Node) : n.size = 1 + sizes n.children := by
  cases n; simp [size, children]

/-- The first broken node of the waiting trees, a node before its children and those before its
later siblings. -/
def firstBroken? (waiting : List Node) : Option Node :=
  match waiting with
  | [] => none
  | n :: rest => if n.isBroken then some n else firstBroken? (n.children ++ rest)
termination_by sizes waiting
decreasing_by simp only [sizes, sizes_append, Node.size_eq]; omega

/-- The tree of one file. `hasError` says whether any of the text was broken. -/
structure Tree where
  root : Node
  hasError : Bool
  deriving Repr, Inhabited

/-- The line of the first broken node; that of the root if none is. -/
def Tree.errorLine (t : Tree) : Int := ((firstBroken? [t.root]).getD t.root).line

end CategoryAudit.Concrete
