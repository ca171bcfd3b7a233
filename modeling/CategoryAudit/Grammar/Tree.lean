import CategoryAudit.Grammar.Basic
import CategoryAudit.Concrete

/-!
# Trees under construction

A tree keeps the nodes of hidden rules, and the totals by which readings are compared: how much
of the text below it is broken, and how many visible nodes it holds. `Tree.toConcrete` drops the
hidden nodes at the end.
-/

namespace CategoryAudit.Grammar

structure Place where
  index : Nat
  byte : Nat
  row : Nat
  deriving BEq, Repr, Inhabited

/-- What a node stands for: a construct or token of the grammar, a broken region, or a run of
skipped tokens that is not yet part of one. -/
inductive Tree.Role where
  | plain
  | broken
  | skipped
  deriving BEq, Repr, Inhabited

/-- The data of a node. `cost` is the price of all broken text in it. -/
structure Tree.Info where
  label : String
  visible : Bool
  named : Bool
  extra : Bool := false
  missing : Bool := false
  role : Tree.Role := .plain
  start : Place
  stop : Place
  cost : Nat := 0
  /-- Visible children, those of hidden children included. -/
  shown : Nat := 0
  shownBelow : Nat := 0
  weight : Int := 0
  deriving Inhabited

inductive Tree where
  | node (info : Tree.Info) (children : List (Option String × Tree))
  deriving Inhabited

namespace Tree

def info : Tree → Info | node i _ => i
def children : Tree → List (Option String × Tree) | node _ c => c

/-! ## Prices

Broken text is paid for once per region, and then by the visible nodes, bytes and lines given up. -/

def regionPrice : Nat := 500
def absentTokenPrice : Nat := 110
def nodePrice : Nat := 100
def bytePrice : Nat := 1
def linePrice : Nat := 30

def textPrice (start stop : Place) : Nat :=
  (stop.byte - start.byte) * bytePrice + (stop.row - start.row) * linePrice

def childPrice (child : Tree) : Nat :=
  let i := child.info
  if i.extra || (i.role == .broken && child.children.isEmpty) then 0
  else if i.visible then nodePrice
  else if child.children.isEmpty then 0
  else nodePrice * i.shown

def countIn (child : Tree) : Nat :=
  child.info.shownBelow + (if child.info.visible then 1 else 0)

/-- A node over children. `own` holds the label; places and totals are those of the children. -/
def branch (own : Info) (children : List (Option String × Tree)) (place : Place) : Tree :=
  let trees := children.map (·.2)
  let start := match trees.head? with | some t => t.info.start | none => place
  let stop := match trees.getLast? with | some t => t.info.stop | none => place
  let sum (f : Tree → Nat) : Nat := trees.foldl (fun n t => n + f t) 0
  let inherited := sum fun t => if t.info.role == .skipped then 0 else t.info.cost
  let broken := own.role != .plain
  let added := if broken then regionPrice + textPrice start stop + sum childPrice else 0
  node { own with
    start, stop
    cost := inherited + added
    shown := sum fun t => if t.info.visible then 1 else t.info.shown
    shownBelow := sum countIn
    weight := trees.foldl (fun n t => n + t.info.weight) own.weight } children

def leaf (label : String) (visible named extra : Bool) (start stop : Place) : Tree :=
  node { label, visible, named, extra, start, stop } []

def absent (label : String) (visible named : Bool) (place : Place) : Tree :=
  node { label, visible, named, missing := true, start := place, stop := place,
         cost := regionPrice + absentTokenPrice } []

def stray (start stop : Place) : Tree :=
  node { label := "ERROR", visible := true, named := true, role := .broken, start, stop } []

def broken (extra : Bool) (trees : List Tree) (place : Place) : Tree :=
  branch { label := "ERROR", visible := true, named := true, extra, role := .broken,
           start := place, stop := place } (trees.map (none, ·)) place

def skipped (trees : List Tree) (place : Place) : Tree :=
  branch { label := "", visible := false, named := false, role := .skipped,
           start := place, stop := place } (trees.map (none, ·)) place

def construct (n : Nonterminal) (children : List (Option String × Tree)) (place : Place) : Tree :=
  branch { label := n.label.getD "", visible := n.label.isSome, named := true, weight := n.weight,
           start := place, stop := place } children place

mutual
/-- The visible nodes of a tree, before those already in `rest`. A hidden node passes its own
field on to its children. -/
def toNodes (field : Option String) (rest : List Concrete.Node) : Tree → List Concrete.Node
  | node i children =>
    if i.visible then
      .mk i.label i.start.byte i.stop.byte i.start.row field i.named i.missing
        (childNodes none [] children) :: rest
    else childNodes field rest children
def childNodes (inherited : Option String) (rest : List Concrete.Node) :
    List (Option String × Tree) → List Concrete.Node
  | [] => rest
  | (own, t) :: more =>
    let field := if t.info.extra then none else if own.isSome then own else inherited
    toNodes field (childNodes inherited rest more) t
end

def toConcrete (t : Tree) : Concrete.Tree :=
  match toNodes none [] t with
  | root :: _ => ⟨root, 0 < t.info.cost⟩
  | [] => ⟨.mk "ERROR" 0 0 0 none true false [], true⟩

end Tree

end CategoryAudit.Grammar
