import CategoryAudit.Grammar.Tree

/-!
# Parse stacks that share their lower parts

A stack entry may have several links downwards: readings that reached the same state at the same
place at the same price continue as one. Removing entries follows every link, so each reading is
found again when it matters.
-/

namespace CategoryAudit.Grammar

/-- The data of a stack entry. `state` is `none` while skipping broken text. -/
structure Stack.Head where
  id : Nat
  state : Option Nat
  place : Place
  cost : Nat
  /-- Visible nodes pushed so far. -/
  count : Nat
  weight : Int
  deriving Inhabited

mutual
inductive Stack where
  | mk (head : Stack.Head) (links : List Link)
/-- One way down: the tree that lies between two entries, or a gap before skipped text. -/
inductive Link where
  | mk (tree : Option Tree) (below : Stack)
end

namespace Stack

def head : Stack → Head | mk h _ => h
def links : Stack → List Link | mk _ l => l

instance : Inhabited Stack := ⟨mk default []⟩

def base : Stack := mk ⟨0, some 0, ⟨0, 0, 0⟩, 0, 0, 0⟩ []

/-- What a tree adds to the node count. A run of skipped tokens counts as progress. -/
def countOf (tree : Tree) : Nat :=
  tree.countIn + (if tree.info.role == .skipped then 1 else 0)

def push (s : Stack) (id : Nat) (tree : Option Tree) (state : Option Nat) : Stack :=
  match tree with
  | none => mk { s.head with id, state } [.mk none s]
  | some t =>
    mk { id, state
         place := t.info.stop
         cost := s.head.cost + t.info.cost
         count := s.head.count + countOf t
         weight := s.head.weight + t.info.weight } [.mk (some t) s]

mutual
/-- All ways to take `n` trees off the top, lowest first. Extras on the way come along uncounted. -/
def pop (n : Nat) (above : List Tree) : Stack → List (List Tree × Stack)
  | mk h links => if n = 0 then [(above, mk h links)] else popLinks n above links
def popLink (n : Nat) (above : List Tree) : Link → List (List Tree × Stack)
  | .mk none below => pop (n - 1) above below
  | .mk (some t) below => pop (if t.info.extra then n else n - 1) (t :: above) below
def popLinks (n : Nat) (above : List Tree) : List Link → List (List Tree × Stack)
  | [] => []
  | l :: rest => popLink n above l ++ popLinks n above rest
end

mutual
def allTrees (above : List Tree) : Stack → List Tree
  | mk _ links => allTreesLinks above links
def allTreesLinks (above : List Tree) : List Link → List Tree
  | [] => above
  | .mk none below :: _ => allTrees above below
  | .mk (some t) below :: _ => allTrees (t :: above) below
end

def mergeable (a b : Stack) : Bool :=
  a.head.state == b.head.state && a.head.place.byte == b.head.place.byte
    && a.head.cost == b.head.cost

def interchangeable : Option Tree → Option Tree → Bool
  | none, none => true
  | some a, some b =>
    a.info.label == b.info.label && a.info.visible == b.info.visible
      && ((0 < a.info.cost && 0 < b.info.cost)
        || (a.info.start == b.info.start && a.info.stop == b.info.stop
          && a.info.extra == b.info.extra))
  | _, _ => false

def linkLimit : Nat := 8

mutual
def merge (target : Stack) : Stack → Stack
  | mk h links =>
    let all := addLinks target.links links
    mk { target.head with
      count := max target.head.count h.count
      weight := max target.head.weight h.weight } all
def addLinks (target : List Link) : List Link → List Link
  | [] => target
  | l :: rest => addLinks (addLink target l) rest
def addLink (target : List Link) : Link → List Link
  | .mk tree below =>
    let same (l : Link) : Bool := match l with
      | .mk t b => interchangeable t tree
        && (b.head.id == below.head.id || mergeable b below)
    if target.any same then
      let first := target.takeWhile (fun l => !same l)
      let rest := target.dropWhile (fun l => !same l)
      match rest with
      | .mk t b :: more =>
        let heavier : Bool := match t, tree with
          | some x, some y => decide (x.info.weight < y.info.weight)
          | _, _ => false
        if b.head.id == below.head.id then
          first ++ .mk (if heavier then tree else t) b :: more
        else first ++ .mk t (merge b below) :: more
      | [] => target
    else if target.length < linkLimit then target ++ [.mk tree below] else target
end

structure Level where
  depth : Nat
  state : Option Nat
  place : Place
  deriving Inhabited

def descend (frontier : List (Nat × Stack)) : List (Nat × Stack) :=
  frontier.flatMap fun (depth, s) => s.links.map fun
    | .mk none below => (depth + 1, below)
    | .mk (some t) below => (if t.info.extra then depth else depth + 1, below)

def depthLimit : Nat := 16

def breadthLimit : Nat := 64

/-- The states below the top, nearest first, without repetition at one depth. -/
def levels (fuel : Nat) (frontier : List (Nat × Stack)) (found : List Level) : List Level :=
  match fuel with
  | 0 => found.reverse
  | fuel + 1 =>
    let near := frontier.filter (·.1 ≤ depthLimit)
    let found := near.foldl (fun (acc : List Level) (depth, s) =>
      if acc.any (fun l => l.depth == depth && l.state == s.head.state) then acc
      else ⟨depth, s.head.state, s.head.place⟩ :: acc) found
    match descend near with
    | [] => found.reverse
    | next => levels fuel (next.take breadthLimit) found

end Stack

end CategoryAudit.Grammar
