import CategoryAudit.Grammar.Basic

/-!
# The automaton of a grammar

States are sets of half-read productions. `Automaton.ofGrammar` finds every state that a left to
right reading can reach. A finished production may only be reduced before a terminal that can
follow its head somewhere in the grammar; whether the reduction leads anywhere is left to the
reader of the stack.
-/

namespace CategoryAudit.Grammar

/-- A half-read production: its number and how many of its symbols have been read. -/
structure Item where
  production : Nat
  dot : Nat
  deriving BEq, Hashable, Inhabited

structure State where
  next : Std.HashMap Nat Nat
  complete : List Nat
  deriving Inhabited

def Item.symbol? (g : Grammar) (item : Item) : Option Nat :=
  match g.productions[item.production]? with
  | some production => production.symbols[item.dot]?
  | none => none

def leftCorners (g : Grammar) : Array (Array Nat) := Id.run do
  let offset := g.terminals.size
  let firsts : Array (List Nat) := g.alternatives.map fun numbers =>
    (numbers.toList.filterMap fun i =>
      match g.productions[i]? with
      | some production => production.symbols[0]?.bind fun s =>
          if s < offset then none else some (s - offset)
      | none => none).eraseDups
  let mut result := #[]
  for n in [0:g.nonterminals.size] do
    let mut seen : Array Bool := Array.replicate g.nonterminals.size false
    let mut found : Array Nat := #[n]
    seen := seen.setIfInBounds n true
    for k in [0:g.nonterminals.size] do
      match found[k]? with
      | none => break
      | some m =>
        for child in firsts.getD m [] do
          unless seen.getD child true do
            seen := seen.setIfInBounds child true
            found := found.push child
    result := result.push found
  return result

def closure (g : Grammar) (corners : Array (Array Nat)) (kernel : Array Item) : Array Item :=
  Id.run do
  let offset := g.terminals.size
  let mut seen : Array Bool := Array.replicate g.nonterminals.size false
  let mut items := kernel
  for item in kernel do
    match item.symbol? g with
    | some symbol =>
      if offset ≤ symbol then
        for n in corners.getD (symbol - offset) #[] do
          unless seen.getD n true do
            seen := seen.setIfInBounds n true
            for production in g.alternatives.getD n #[] do
              items := items.push ⟨production, 0⟩
    | none => pure ()
  return items

def successors (g : Grammar) (items : Array Item) : Array (Nat × Array Item) := Id.run do
  let mut index : Std.HashMap Nat Nat := {}
  let mut groups : Array (Nat × Array Item) := #[]
  for item in items do
    match item.symbol? g with
    | some symbol =>
      let moved : Item := ⟨item.production, item.dot + 1⟩
      match index[symbol]? with
      | some k => groups := groups.modify k fun group => (group.1, group.2.push moved)
      | none =>
        index := index.insert symbol groups.size
        groups := groups.push (symbol, #[moved])
    | none => pure ()
  return groups

/-- A kernel as a key: equal sets of items have equal keys. -/
def kernelKey (kernel : Array Item) : List Nat :=
  (kernel.toList.map fun item => item.production * 64 + item.dot).mergeSort (· ≤ ·)

/-- More states than any grammar of interest has. -/
def stateLimit : Nat := 20000

def reachableStates (g : Grammar) (first : Array Item) : Array State := Id.run do
  let corners := leftCorners g
  let mut kernels : Array (Array Item) := #[first]
  let mut index := ({} : Std.HashMap (List Nat) Nat).insert (kernelKey first) 0
  let mut states : Array State := #[]
  for k in [0:stateLimit] do
    match kernels[k]? with
    | none => break
    | some kernel =>
      let items := closure g corners kernel
      let mut next : Std.HashMap Nat Nat := {}
      for (symbol, target) in successors g items do
        let key := kernelKey target
        match index[key]? with
        | some number => next := next.insert symbol number
        | none =>
          index := index.insert key kernels.size
          next := next.insert symbol kernels.size
          kernels := kernels.push target
      let complete := items.toList.filterMap fun item =>
        if (item.symbol? g).isNone then some item.production else none
      states := states.push ⟨next, complete⟩
  return states

abbrev Terminals := Nat

/-- The terminals that can begin each nonterminal. Only the start may be empty. -/
def firstSets (g : Grammar) (corners : Array (Array Nat)) : Array Terminals :=
  let offset := g.terminals.size
  let own (numbers : Array Nat) : Terminals := numbers.foldl (fun mask i =>
    match (g.productions[i]?).bind (·.symbols[0]?) with
    | some s => if s < offset then mask ||| (1 <<< s) else mask
    | none => mask) 0
  let owns := g.alternatives.map own
  corners.map fun found => found.foldl (fun mask n => mask ||| owns.getD n 0) 0

/-- The terminals that can stand after each nonterminal; terminal 0 is the end of the text. -/
def followSets (g : Grammar) : Array Terminals := Id.run do
  let offset := g.terminals.size
  let firsts := firstSets g (leftCorners g)
  let mut follow : Array Terminals := (Array.replicate g.nonterminals.size 0).modify 0 (· ||| 1)
  for production in g.productions do
    for i in [0:production.symbols.size] do
      match production.symbols[i]?, production.symbols[i + 1]? with
      | some a, some b =>
        if offset ≤ a then
          let mask := if b < offset then 1 <<< b else firsts.getD (b - offset) 0
          follow := follow.modify (a - offset) (· ||| mask)
      | _, _ => pure ()
  for _ in [0:g.nonterminals.size] do
    let before := follow
    for production in g.productions do
      match production.symbols.back? with
      | some last =>
        if offset ≤ last then
          let mask := follow.getD (production.head - offset) 0
          follow := follow.modify (last - offset) (· ||| mask)
      | none => pure ()
    if before == follow then break
  return follow

end Grammar

structure Automaton where
  grammar : Grammar
  states : Array Grammar.State
  follow : Array Grammar.Terminals
  deriving Inhabited

namespace Automaton

open Grammar

def ofGrammar (g : Grammar) : Automaton :=
  let first := (g.alternatives.getD (g.start - g.terminals.size) #[]).map (⟨·, 0⟩)
  { grammar := g
    states := reachableStates g first
    follow := followSets g }

def next? (a : Automaton) (state symbol : Nat) : Option Nat :=
  match a.states[state]? with
  | some s => s.next[symbol]?
  | none => none

def reductions (a : Automaton) (state terminal : Nat) : List Production :=
  match a.states[state]? with
  | none => []
  | some s => s.complete.filterMap fun i =>
    match a.grammar.productions[i]? with
    | some p =>
      if (a.follow.getD (p.head - a.grammar.terminals.size) 0).testBit terminal then some p
      else none
    | none => none

def completed (a : Automaton) (state : Nat) : List Production :=
  match a.states[state]? with
  | none => []
  | some s => s.complete.filterMap fun i => a.grammar.productions[i]?

end Automaton

end CategoryAudit
