import Std.Data.HashMap

/-!
# Grammars with options and repetitions

A `Rule` may use options, repetitions and field names. `Grammar.ofDefinitions` expands a list of
definitions into plain productions over numbered symbols: terminals first, then nonterminals.
A repetition becomes a hidden left-recursive nonterminal, shared by every rule that repeats the
same body, so that two declarations with the same beginning do not compete over it.
-/

namespace CategoryAudit.Grammar

/-- The right-hand side of a definition. `text` is a literal terminal, `token` a class of
lexemes, `many` one or more repetitions. -/
inductive Rule where
  | text (lexeme : String)
  | token (name : String)
  | rule (name : String)
  | seq (first second : Rule)
  | alt (first second : Rule)
  | opt (body : Rule)
  | many (body : Rule)
  | field (name : String) (body : Rule)
  deriving BEq, Repr, Inhabited

namespace Rule

instance : Append Rule := ⟨seq⟩
instance : OrOp Rule := ⟨alt⟩

instance : Coe String Rule := ⟨rule⟩

def star (body : Rule) : Rule := opt (many body)

def commas (body : Rule) : Rule := body ++ star (text "," ++ body)

def oneOf : List String → Rule
  | [] => text ""
  | [lexeme] => text lexeme
  | lexeme :: rest => text lexeme ||| oneOf rest

def terminals : Rule → List String
  | text lexeme => [lexeme]
  | token name => [name]
  | rule _ => []
  | seq a b | alt a b => a.terminals ++ b.terminals
  | opt a | many a | field _ a => a.terminals

end Rule

def Rule.classes : Rule → List String
  | text _ | rule _ => []
  | token name => [name]
  | seq a b | alt a b => a.classes ++ b.classes
  | opt a | many a | field _ a => a.classes

/-- A named rule. A rule without a label leaves no node of its own in the tree: its children
stand in its place. Of two readings of the same text the one with more weight is kept. -/
structure Definition where
  name : String
  label : Option String
  weight : Int
  body : Rule
  deriving Inhabited

def shown (name : String) (body : Rule) : Definition := ⟨name, some name, 0, body⟩

def shownAs (label name : String) (body : Rule) : Definition := ⟨name, some label, 0, body⟩

def hidden (name : String) (body : Rule) : Definition := ⟨name, none, 0, body⟩

structure Production where
  head : Nat
  symbols : Array Nat
  fields : List (Option String)
  deriving Inhabited

structure Nonterminal where
  label : Option String
  weight : Int
  deriving Inhabited

end Grammar

/-- Productions over numbered symbols. Symbols below `terminals.size` are terminals, the others
stand for `nonterminals` in order. -/
structure Grammar where
  terminals : Array String
  terminalIndex : Std.HashMap String Nat
  classes : List String
  nonterminals : Array Grammar.Nonterminal
  productions : Array Grammar.Production
  alternatives : Array (Array Nat)
  start : Nat
  deriving Inhabited

namespace Grammar

structure Expansion where
  terminalIndex : Std.HashMap String Nat
  ruleIndex : Std.HashMap String Nat
  nonterminals : Array Nonterminal
  productions : Array Production
  repetitions : List (Rule × Nat)

abbrev Expand := StateM Expansion

abbrev Phrase := List (Nat × Option String)

def terminalNames (first : List String) (definitions : List Definition) : Array String :=
  let add (seen : Std.HashMap String Unit × Array String) (name : String) :=
    if seen.1.contains name then seen else (seen.1.insert name (), seen.2.push name)
  ((first ++ definitions.flatMap (·.body.terminals)).foldl add ({}, #[])).2

def alternativesOf (offset : Nat) : Rule → Expand (List Phrase)
  | .text lexeme | .token lexeme => do
    return [[((← get).terminalIndex.getD lexeme 0, none)]]
  | .rule name => do
    return [[(offset + (← get).ruleIndex.getD name 0, none)]]
  | .seq a b => do
    let left ← alternativesOf offset a
    let right ← alternativesOf offset b
    return left.flatMap fun l => right.map fun r => l ++ r
  | .alt a b => do
    return (← alternativesOf offset a) ++ (← alternativesOf offset b)
  | .opt a => do
    return (← alternativesOf offset a) ++ [[]]
  | .field name a => do
    return (← alternativesOf offset a).map (·.map fun s => (s.1, some name))
  | .many a => do
    match (← get).repetitions.find? (·.1 == a) with
    | some (_, symbol) => return [[(symbol, none)]]
    | none =>
      let phrases ← alternativesOf offset a
      let state ← get
      let symbol := offset + state.nonterminals.size
      let production (phrase : Phrase) : Production :=
        ⟨symbol, (phrase.map (·.1)).toArray, phrase.map (·.2)⟩
      set { state with
        nonterminals := state.nonterminals.push ⟨none, 0⟩
        productions := state.productions ++ (phrases.map production).toArray
          ++ (phrases.map fun phrase => production ((symbol, none) :: phrase)).toArray
        repetitions := (a, symbol) :: state.repetitions }
      return [[(symbol, none)]]

def addDefinition (offset : Nat) (definition : Definition) : Expand Unit := do
  let head := offset + (← get).ruleIndex.getD definition.name 0
  let phrases ← alternativesOf offset definition.body
  modify fun state => { state with
    productions := state.productions ++ (phrases.map fun phrase =>
      (⟨head, (phrase.map (·.1)).toArray, phrase.map (·.2)⟩ : Production)).toArray }

def groupByHead (offset count : Nat) (productions : Array Production) : Array (Array Nat) :=
  let add (groups : Array (Array Nat)) (i : Nat) : Array (Array Nat) :=
    match productions[i]? with
    | some production => groups.modify (production.head - offset) (·.push i)
    | none => groups
  (List.range productions.size).foldl add (Array.replicate count #[])

/-- The grammar of a list of definitions, whose first one is the start. The terminals named in
`first` come before all others. -/
def ofDefinitions (first : List String) (definitions : List Definition) : Grammar :=
  let terminals := terminalNames first definitions
  let offset := terminals.size
  let index (names : List String) : Std.HashMap String Nat :=
    (names.zipIdx).foldl (fun m p => m.insertIfNew p.1 p.2) {}
  let initial : Expansion :=
    { terminalIndex := index terminals.toList
      ruleIndex := index (definitions.map (·.name))
      nonterminals := (definitions.map fun d => ⟨d.label, d.weight⟩).toArray
      productions := #[]
      repetitions := [] }
  let final := (definitions.forM (addDefinition offset)).run initial |>.2
  { terminals
    terminalIndex := final.terminalIndex
    classes := (definitions.flatMap (·.body.classes)).eraseDups
    nonterminals := final.nonterminals
    productions := final.productions
    alternatives := groupByHead offset final.nonterminals.size final.productions
    start := offset }

def isVisible (name : String) : Bool := !name.startsWith "_"

/-- The number of a terminal; an unknown name is the end of the text. -/
def terminal (g : Grammar) (name : String) : Nat := g.terminalIndex.getD name 0

end Grammar

end CategoryAudit
