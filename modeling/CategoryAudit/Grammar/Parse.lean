import CategoryAudit.Grammar.Automaton
import CategoryAudit.Grammar.Stack

/-!
# Parsing with competing readings

Several readings of the text are followed side by side. A reading that meets a token it cannot
take is set aside; when no reading can go on, the best of them is repaired: by assuming a token
that the text lacks, by giving up what was read since some earlier state, or by skipping tokens.
Every repair has a price, and the cheapest finished tree is the result.
-/

namespace CategoryAudit.Grammar

/-- A lexeme at a place. A `reserved` word is taken as such only where the grammar expects it, a
`soft` token only where it fits; a `stray` one begins no token at all. -/
structure Token where
  terminal : Nat
  start : Place
  stop : Place
  extra : Bool := false
  reserved : Bool := false
  soft : Bool := false
  stray : Bool := false
  /-- Whether a shorter lexeme at the same place is also worth a try. -/
  splits : Bool := false
  label : String := ""
  deriving Inhabited

structure Version where
  stack : Stack
  /-- The token at which the reading was set aside. -/
  pausedAt : Option Token := none
  halted : Bool := false
  countAtError : Nat := 0
  levels : List Stack.Level := []
  deriving Inhabited

structure Progress where
  versions : Array Version
  nextId : Nat
  finished : Option Tree
  accepted : Nat
  deriving Inhabited

/-- What the parser is given: the automaton and the possible tokens after a place, best first. -/
structure Input where
  automaton : Automaton
  tokensAt : Place → List Token
  /-- Whether a lone word that was read in the given state counts as complete before a terminal,
  even if nothing can go on from there. -/
  settles : Nat → Nat → Bool
  fuel : Nat

abbrev Parse := ReaderT Input (StateM Progress)

namespace Parse

def fresh : Parse Nat := modifyGet fun p => (p.nextId, { p with nextId := p.nextId + 1 })

def leafOf (token : Token) : Parse Tree := do
  let g := (← read).automaton.grammar
  if token.stray then return .stray token.start token.stop
  if token.extra then return .leaf token.label true true true token.start token.stop
  let name := g.terminals.getD token.terminal ""
  return .leaf name (isVisible name) (g.classes.contains name) (token.terminal == 0)
    token.start token.stop

def pushAll (state : Option Nat) : List Tree → Stack → Parse Stack
  | [], s => return s
  | t :: rest, s => do pushAll state rest (s.push (← fresh) (some t) state)

def splitExtras (trees : List Tree) : List Tree × List Tree :=
  let isExtra (t : Tree) : Bool := t.info.extra
  ((trees.reverse.dropWhile isExtra).reverse, (trees.reverse.takeWhile isExtra).reverse)

def withFields : List (Option String) → List Tree → List (Option String × Tree)
  | _, [] => []
  | fields, t :: rest =>
    if t.info.extra then (none, t) :: withFields fields rest
    else (fields.head?.join, t) :: withFields fields.tail rest

/-- Whether the second of two readings of the same text is kept. Between broken readings that are
equal in all else the later one is. -/
def prefersSecond (a b : Tree) : Bool :=
  b.info.cost < a.info.cost
    || (a.info.cost == b.info.cost
      && (a.info.weight < b.info.weight
        || (a.info.weight == b.info.weight && 0 < a.info.cost)))

def reduce (s : Stack) (production : Production) : Parse (List Stack) := do
  let a := (← read).automaton
  let offset := a.grammar.terminals.size
  let nonterminal := a.grammar.nonterminals.getD (production.head - offset) default
  let slices : List (List Tree × Stack) := Stack.pop production.symbols.size [] s
  let built := slices.map fun (trees, below) =>
    let (own, extras) := splitExtras trees
    (Tree.construct nonterminal (withFields production.fields own) s.head.place, extras, below)
  let best := built.foldl (fun (acc : List (Tree × List Tree × Stack)) (tree, extras, below) =>
    if acc.any (fun e => e.2.2.head.id == below.head.id) then
      acc.map fun (e : Tree × List Tree × Stack) =>
        if e.2.2.head.id == below.head.id && prefersSecond e.1 tree then (tree, extras, below)
        else e
    else acc ++ [(tree, extras, below)]) []
  best.filterMapM fun (tree, extras, below) => do
    match below.head.state.bind (a.next? · production.head) with
    | some state => return some (← pushAll (some state) (tree :: extras) below)
    | none => return none

/-- Every stack that reductions make of a given one and on which the token can be shifted. -/
def readyFor (token : Token) : Nat → Stack → Parse (List Stack)
  | 0, _ => return []
  | fuel + 1, s => do
    let a := (← read).automaton
    match s.head.state with
    | none => return []
    | some state =>
      let here := if (a.next? state token.terminal).isSome then [s] else []
      let reduced ← (a.reductions state token.terminal).flatMapM fun production => do
        (← reduce s production).flatMapM (readyFor token fuel)
      return here ++ reduced

def mergeAll (ready : List Stack) : List Stack :=
  ready.foldl (fun acc s =>
    if acc.any (·.mergeable s) then
      let before := acc.takeWhile (fun t => !t.mergeable s)
      match acc.dropWhile (fun t => !t.mergeable s) with
      | t :: after => before ++ t.merge s :: after
      | [] => acc
    else acc ++ [s]) []

def take (token : Token) (s : Stack) : Parse (List Stack) := do
  let a := (← read).automaton
  let leaf ← leafOf token
  let ready ← readyFor token (← read).fuel s
  let shifted ← ready.filterMapM fun t => do
    match t.head.state.bind (a.next? · token.terminal) with
    | some next => return some (t.push (← fresh) (some leaf) (some next))
    | none => return none
  return mergeAll shifted

def readyAfterReduction (token : Token) (s : Stack) : Parse (List Stack) := do
  let a := (← read).automaton
  match s.head.state with
  | none => return []
  | some state =>
    let found ← (a.reductions state token.terminal).flatMapM fun production => do
      (← reduce s production).flatMapM (readyFor token (← read).fuel)
    return mergeAll found

/-! ## Comparing readings -/

def versionLimit : Nat := 6

def trialLimit : Nat := 11

def priceDifference : Nat := 18 * Tree.nodePrice

def isActive (v : Version) : Bool := !v.halted && v.pausedAt.isNone

/-- The price of a reading. Having just given up text is a price of its own. -/
def priceOf (v : Version) : Nat :=
  let gap := v.stack.head.state.isNone && match v.stack.links with
    | .mk none _ :: _ => true
    | _ => false
  v.stack.head.cost + (if v.pausedAt.isSome || gap then Tree.regionPrice else 0)

def countSinceError (v : Version) : Nat := v.stack.head.count - v.countAtError

structure Standing where
  price : Nat
  count : Nat
  weight : Int
  inError : Bool

def standing (v : Version) : Standing :=
  { price := priceOf v + (if v.pausedAt.isSome then Tree.nodePrice else 0)
    count := countSinceError v
    weight := v.stack.head.weight
    inError := v.pausedAt.isSome || v.stack.head.state.isNone }

inductive Verdict where
  | takeLeft | preferLeft | undecided | preferRight | takeRight
  deriving BEq

def compare (a b : Standing) : Verdict :=
  if !a.inError && b.inError then
    if a.price < b.price then .takeLeft else .preferLeft
  else if a.inError && !b.inError then
    if b.price < a.price then .takeRight else .preferRight
  else if a.price < b.price then
    if priceDifference < (b.price - a.price) * (1 + a.count) then .takeLeft else .preferLeft
  else if b.price < a.price then
    if priceDifference < (a.price - b.price) * (1 + b.count) then .takeRight else .preferRight
  else if b.weight < a.weight then .preferLeft
  else if a.weight < b.weight then .preferRight
  else .undecided

def canMerge (a b : Version) : Bool := isActive a && isActive b && a.stack.mergeable b.stack

def mergeVersions (a b : Version) : Version :=
  let stack := a.stack.merge b.stack
  { a with
    stack
    countAtError := if stack.head.state.isNone then stack.head.count else a.countAtError }

/-- Places a reading among those kept so far, best first. All of them are compared with the
`standing` of the reading that is being placed, also after another one gave way to it. -/
def place (rank : Standing) (before : List Version) : List Version → Version → List Version
  | [], v => before.reverse ++ [v]
  | w :: rest, v =>
    match compare (standing w) rank with
    | .takeLeft => before.reverse ++ w :: rest
    | .preferLeft | .undecided =>
      if canMerge w v then before.reverse ++ mergeVersions w v :: rest
      else place rank (w :: before) rest v
    | .preferRight =>
      if canMerge w v then before.reverse ++ mergeVersions w v :: rest
      else place rank (v :: before) rest w
    | .takeRight => place rank before rest v

def betterExists (self : Nat) (price : Nat) : Parse Bool := do
  let p ← get
  match p.finished with
  | some t => if t.info.cost ≤ price then return true
  | none => pure ()
  match p.versions[self]? with
  | none => return false
  | some v =>
    let mine : Standing := ⟨price, countSinceError v, v.stack.head.weight, false⟩
    return p.versions.toList.zipIdx.any fun (w, i) =>
      i != self && isActive w && v.stack.head.place.byte ≤ w.stack.head.place.byte
        && match compare mine (standing w) with
          | .takeRight => true
          | .preferRight => canMerge w v
          | _ => false

/-! ## Finishing -/

def rootOf (trees : List Tree) : Tree :=
  let (own, after) := splitExtras trees
  match own.reverse with
  | [] => .broken false trees ⟨0, 0, 0⟩
  | root :: before =>
    let children := before.reverse.map (none, ·) ++ root.children ++ after.map (none, ·)
    .branch { root.info with cost := 0, shown := 0, shownBelow := 0, weight := 0 } children
      root.info.stop

def finish (root : Tree) : Parse Unit := modify fun p =>
  let better := match p.finished with
    | none => true
    | some t => root.info.cost < t.info.cost
        || (root.info.cost == t.info.cost
          && (t.info.weight < root.info.weight
            || (t.info.weight == root.info.weight && 0 < t.info.cost)))
  { p with finished := if better then some root else p.finished, accepted := p.accepted + 1 }

def setVersion (i : Nat) (v : Version) : Parse Unit :=
  modify fun p => { p with versions := p.versions.setIfInBounds i v }

def addVersion (v : Version) : Parse Unit :=
  modify fun p => { p with versions := p.versions.push v }

def halt (i : Nat) : Parse Unit :=
  modify fun p => { p with versions := p.versions.modify i fun v => { v with halted := true } }

/-! ## Repairs -/

def recoverTo (v : Version) (depth : Nat) (goal : Option Nat) : Parse (Option Version) := do
  match (Stack.pop depth [] v.stack).find? (fun r => r.2.head.state == goal) with
  | none => return none
  | some (trees, below) =>
    -- A broken region directly below joins the new one.
    let (earlier, below) : List Tree × Stack := match below.links with
      | .mk (some t) lower :: _ =>
        if t.info.role == Tree.Role.broken then (t.children.map Prod.snd, lower) else ([], below)
      | _ => ([], below)
    let (own, extras) := splitExtras (earlier ++ trees)
    let body := if own.isEmpty then [] else [Tree.broken true own v.stack.head.place]
    let stack ← pushAll goal (body ++ extras) below
    return some { stack, countAtError := v.countAtError }

/-- The stack with a lone word on top made complete, where the word settles before the token. -/
def settle? (token : Token) (s : Stack) : Parse (Option Stack) := do
  let input ← read
  if token.stray then return none
  match s.head.state with
  | none => return none
  | some state =>
    match (input.automaton.completed state).find? (·.symbols == #[1]) with
    | none => return none
    | some production =>
      match Stack.pop 1 [] s with
      | (_, below) :: _ =>
        if (below.head.state.map (input.settles · token.terminal)).getD false then
          return (← reduce s production).head?
        else return none
      | [] => return none

def fitsAt (v : Version) (depth : Nat) (goal : Option Nat) (token : Token) : Parse Bool := do
  match (Stack.pop depth [] v.stack).find? (fun r => r.2.head.state == goal) with
  | none => return false
  | some (_, below) =>
    return !(← take token below).isEmpty

def findRecovery (self : Nat) (v : Version) (token : Token) :
    List Stack.Level → Parse (Option Version)
  | [] => return none
  | level :: rest => do
    let here := v.stack.head.place
    if level.state.isNone || level.place.byte == here.byte then
      findRecovery self v token rest
    else if (← get).versions.any fun w =>
        w.stack.head.state == level.state && w.stack.head.place.byte == here.byte then
      findRecovery self v token rest
    else
      let price := priceOf v + (level.depth - 1) * Tree.nodePrice + Tree.textPrice level.place here
      if ← betterExists self price then return none
      let depth := level.depth + (if 0 < countSinceError v then 1 else 0)
      if ← fitsAt v depth level.state token then
        match ← recoverTo v depth level.state with
        | some w => return some w
        | none => findRecovery self v token rest
      else findRecovery self v token rest

def recover (self : Nat) (token : Token) : Parse Unit := do
  match (← get).versions[self]? with
  | none => return
  | some v =>
    let found ← if token.stray then pure none else findRecovery self v token v.levels
    match found with
    | some w => addVersion w
    | none => pure ()
    let here := v.stack.head.place
    let leaf ← leafOf token
    if token.terminal == 0 && !token.stray then
      for link in v.stack.links do
        let below := match link with | .mk t b => (t, b)
        let trees := below.2.allTrees (below.1.toList)
        finish (rootOf (trees ++ [.broken false [] here, leaf]))
      halt self
    else if found.isSome && versionLimit < (← get).versions.size then
      halt self
    else if ← betterExists self
        (priceOf v + Tree.nodePrice + Tree.textPrice here token.stop) then
      halt self
    else
      let run := Tree.skipped [leaf] here
      let (run, below) := if 0 < countSinceError v then
          match v.stack.links with
          | .mk (some t) lower :: _ => (Tree.skipped [t, run] here, lower)
          | _ => (run, v.stack)
        else (run, v.stack)
      setVersion self { v with stack := below.push (← fresh) (some run) none }

/-- The stack itself and all that reductions make of it, whatever comes next. -/
def potentialReductions : Nat → Nat → Array Stack → Parse (Array Stack)
  | 0, _, found => return found
  | fuel + 1, i, found => do
    let a := (← read).automaton
    match found[i]? with
    | none => return found
    | some s =>
      let productions := match s.head.state with
        | some state => (a.completed state).filter fun p : Production => 0 < p.symbols.size
        | none => []
      let mut all := found
      for production in productions do
        for t in ← reduce s production do
          match (List.range all.size).find? fun j =>
              j != i && (all[j]?.map (·.mergeable t)).getD false with
          | some j => all := all.modify j (·.merge t)
          | none => if all.size < trialLimit then all := all.push t
      potentialReductions fuel (i + 1) all

def assumeToken (token : Token) (variants : List Stack) : Parse (List Stack) := do
  let a := (← read).automaton
  let g := a.grammar
  if token.stray then return []
  for s in variants do
    match s.head.state with
    | none => pure ()
    | some state =>
      for terminal in [1:g.terminals.size] do
        match a.next? state terminal with
        | none => pure ()
        | some next =>
          if (a.reductions next token.terminal).isEmpty then continue
          let name := g.terminals.getD terminal ""
          let absent := Tree.absent name (isVisible name) (g.classes.contains name) s.head.place
          let trial := s.push (← fresh) (some absent) (some next)
          let ready ← readyAfterReduction token trial
          unless ready.isEmpty do return ready
  return []

def handleError (self : Nat) (token : Token) : Parse Unit := do
  match (← get).versions[self]? with
  | none => return
  | some v =>
    let variants ← potentialReductions trialLimit 0 #[v.stack]
    let assumed ← assumeToken token variants.toList
    let mut stack := v.stack.push (← fresh) none none
    for s in variants.toList.drop 1 do
      stack := stack.merge (s.push (← fresh) none none)
    setVersion self
      { v with
        stack
        pausedAt := none
        countAtError := stack.head.count
        levels := Stack.levels (4 * Stack.depthLimit) [(0, stack)] [] }
    for s in assumed do addVersion { v with stack := s, pausedAt := none }
    recover self token

/-! ## Reading on -/

def stumbling (tokens : List Token) : Option Token :=
  tokens.find? fun t => !t.soft && !t.reserved

def advanceOver (self : Nat) (v : Version) : List Token → Parse Bool
  | [] => return false
  | token :: rest => do
    if token.stray then advanceOver self v rest
    else if token.extra then
      let leaf ← leafOf token
      setVersion self { v with stack := v.stack.push (← fresh) (some leaf) v.stack.head.state }
      return true
    else
      match ← take token v.stack with
      | [] => advanceOver self v rest
      | s :: others =>
        if token.terminal == 0 then
          for t in s :: others do finish (rootOf (t.allTrees []))
          halt self
        else
          setVersion self { v with stack := s }
          for t in others do addVersion { v with stack := t }
          if token.splits then
            for shorter in rest do
              for t in ← take shorter v.stack do addVersion { v with stack := t }
        return true

def advance (self : Nat) : Parse Unit := do
  match (← get).versions[self]? with
  | none => return
  | some v =>
    let tokens := (← read).tokensAt v.stack.head.place
    if v.stack.head.state.isNone then
      match tokens.find? (!·.soft) with
      | some token =>
        if token.extra then
          setVersion self
            { v with stack := v.stack.push (← fresh) (some (← leafOf token)) none }
        else recover self token
      | none => halt self
    else
      unless ← advanceOver self v tokens do
        match stumbling tokens with
        | some token =>
          let stack := (← settle? token v.stack).getD v.stack
          setVersion self { v with stack, pausedAt := some token }
        | none => halt self

def catchUp (self : Nat) : Nat → Nat → Parse Nat
  | 0, last => return last
  | fuel + 1, last => do
    match (← get).versions[self]? with
    | none => return last
    | some v =>
      if !isActive v then return last
      advance self
      match (← get).versions[self]? with
      | none => return last
      | some w =>
        let byte := w.stack.head.place.byte
        if last < byte || (0 < self && byte == last) then return byte
        catchUp self fuel last

def catchUpAll : Nat → Nat → Nat → Parse Nat
  | 0, _, last => return last
  | fuel + 1, self, last => do
    if (← get).versions.size ≤ self then return last
    let last ← catchUp self (← read).fuel last
    catchUpAll fuel (self + 1) last

/-- Orders the readings, drops the hopeless ones, and begins a repair when none can go on. The
result is the least price of a reading that is not being repaired. -/
def condense : Parse (Option Nat) := do
  let versions := (← get).versions.toList.filter (!·.halted)
  let prices := versions.filterMap fun v =>
    if (standing v).inError then none else some (standing v).price
  let kept := (versions.foldl (fun acc v => place (standing v) [] acc v) []).take versionLimit
  let resumed := kept.findIdx? (·.pausedAt.isSome)
  let firstActive := kept.findIdx? (·.pausedAt.isNone)
  let repair := match resumed, firstActive with
    | some r, some a => r < a
    | some _, none => true
    | none, _ => false
  let min := prices.min?
  if repair && (← get).accepted < versionLimit then
    let others := kept.zipIdx.filter fun (v, i) => v.pausedAt.isNone || some i == resumed
    modify fun p => { p with versions := (others.map (·.1)).toArray }
    match (others.map (·.1)).findIdx? (·.pausedAt.isSome) with
    | none => return min
    | some i =>
      match (← get).versions[i]? with
      | none => return min
      | some v =>
        match v.pausedAt with
        | none => return min
        | some token =>
          handleError i token
          return some (priceOf v)
  else
    modify fun p => { p with versions := (kept.filter (·.pausedAt.isNone)).toArray }
    return min

/-- Reads on until no reading is left or none can beat the finished tree. -/
def readOn : Nat → Nat → Parse Unit
  | 0, _ => return
  | fuel + 1, last => do
    let last ← catchUpAll (4 * trialLimit) 0 last
    let min ← condense
    let p ← get
    if p.versions.isEmpty then return
    match p.finished, min with
    | some t, some m => if t.info.cost < m then return
    | some _, none => pure ()
    | none, _ => pure ()
    readOn fuel last

end Parse

def parse (a : Automaton) (tokensAt : Place → List Token) (settles : Nat → Nat → Bool)
    (fuel : Nat) : Concrete.Tree :=
  let initial : Progress :=
    { versions := #[{ stack := .base }], nextId := 1, finished := none, accepted := 0 }
  let final : Progress := (((Parse.readOn fuel 0).run ⟨a, tokensAt, settles, fuel⟩).run initial).2
  match final.finished with
  | some t => t.toConcrete
  | none => ⟨.mk "ERROR" 0 0 0 none true false [], true⟩

end CategoryAudit.Grammar
