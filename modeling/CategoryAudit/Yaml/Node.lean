import CategoryAudit.Yaml.Token

/-!
# Nodes of a document

The tokens of a document form a tree of scalars, sequences and mappings, each with a tag and
perhaps a name for later reference. A reference has to come after the beginning of what it names,
and no two nodes have the same name. At most one document is allowed.
-/

namespace CategoryAudit.Yaml

/-- The tag of a node: none for one whose type follows from its form, `plain` saying whether that
form is open to interpretation. -/
inductive Tag where
  | implicit (plain : Bool)
  | explicit (name : String)
  deriving BEq, DecidableEq, Repr

inductive Node where
  | scalar (anchor : Option String) (tag : Tag) (text : String)
  | sequence (anchor : Option String) (tag : Tag) (items : List Node)
  | mapping (anchor : Option String) (tag : Tag) (entries : List (Node × Node))
  | reference (name : String)
  deriving Repr, Inhabited

def Node.empty : Node := .scalar none (.implicit true) ""

/-- What a parser knows; `beyond` is the fault in the text behind the tokens, if there is one. -/
structure Parser where
  tokens : List Token
  beyond : Option Fault := none
  names : List String := []
  handles : List (String × String) := []

abbrev Parse := StateT Parser (Except Fault)

namespace Parse

/-- The next token. A fault of the text counts where the tokens before it are not enough. -/
def peek : Parse Token := do
  let s ← get
  match s.tokens, s.beyond with
  | t :: _, _ => return t
  | [], some f => throw f
  | [], none => return .streamEnd

def advance : Parse Unit := modify fun s => { s with tokens := s.tokens.tail }

def fail {α : Type} : Parse α := throw .malformed

def expect (t : Token) : Parse Unit := do
  if (← peek) == t then advance else fail

def standard (name : String) : String := "tag:yaml.org,2002:" ++ name

def defaultHandles : List (String × String) := [("!", "!"), ("!!", standard "")]

def anchor? : Parse (Option String) := do
  match ← peek with
  | .anchor name =>
    advance
    return some name
  | _ => return none

def tag? : Parse (Option (Option String × String)) := do
  match ← peek with
  | .tag handle suffix =>
    advance
    return some (handle, suffix)
  | _ => return none

def resolve : Option (Option String × String) → Parse (Option String)
  | none => return none
  | some (none, suffix) => return some suffix
  | some (some handle, suffix) => do
    match (← get).handles.lookup handle with
    | some front => return some (front ++ suffix)
    | none => fail

def declare : Option String → Parse Unit
  | none => return
  | some name => do
    let s ← get
    if s.names.contains name then fail
    set { s with names := name :: s.names }

/-- The tag of a collection or of a scalar that is `plain` or not. A lone `!` counts as no tag,
but makes a scalar open to interpretation. -/
def tagOf (tag : Option String) (plain : Bool) : Tag :=
  match tag with
  | none => .implicit plain
  | some name => if name == "!" then .implicit true else .explicit name

def endsEntry : Token → Bool
  | .blockEntry | .blockEnd => true
  | _ => false

def endsBlockPart : Token → Bool
  | .key | .value | .blockEnd => true
  | _ => false

def endsFlowKey (close : Token) (t : Token) : Bool := t == .value || t == .flowEntry || t == close

def endsFlowValue (close : Token) (t : Token) : Bool := t == .flowEntry || t == close

def emptyNode (anchor tag : Option String) : Parse Node := do
  if anchor.isNone && tag.isNone then fail
  declare anchor
  return .scalar anchor (tagOf tag true) ""

/-- How to read a node inside another one: whether it may be a block, and whether a sequence may
go without indentation. -/
abbrev Inner := Bool → Bool → Parse Node

def blockItems (inner : Inner) : Nat → Parse (List Node)
  | 0 => fail
  | fuel + 1 => do
    if (← peek) == .blockEntry then
      advance
      let item ← if endsEntry (← peek) then pure .empty else inner true false
      return item :: (← blockItems inner fuel)
    else
      expect .blockEnd
      return []

def indentlessItems (inner : Inner) : Nat → Parse (List Node)
  | 0 => fail
  | fuel + 1 => do
    if (← peek) == .blockEntry then
      advance
      let t ← peek
      let item ← if t == .blockEntry || endsBlockPart t then pure .empty else inner true false
      return item :: (← indentlessItems inner fuel)
    else return []

def blockValue (inner : Inner) : Parse Node := do
  if (← peek) == .value then
    advance
    if endsBlockPart (← peek) then return .empty else inner true true
  else return .empty

def blockEntries (inner : Inner) : Nat → Parse (List (Node × Node))
  | 0 => fail
  | fuel + 1 => do
    if (← peek) == .key then
      advance
      let key ← if endsBlockPart (← peek) then pure .empty else inner true true
      let value ← blockValue inner
      return (key, value) :: (← blockEntries inner fuel)
    else
      expect .blockEnd
      return []

def flowKey (inner : Inner) (close : Token) : Parse Node := do
  if endsFlowKey close (← peek) then return .empty else inner false false

def flowValue (inner : Inner) (close : Token) : Parse Node := do
  if (← peek) == .value then
    advance
    if endsFlowValue close (← peek) then return .empty else inner false false
  else return .empty

/-- The items of a sequence in brackets. A pair is a mapping of its own. -/
def flowItems (inner : Inner) (first : Bool) : Nat → Parse (List Node)
  | 0 => fail
  | fuel + 1 => do
    if (← peek) == .flowSequenceEnd then advance; return []
    unless first do expect .flowEntry
    match ← peek with
    | .key =>
      advance
      let key ← flowKey inner .flowSequenceEnd
      let value ← flowValue inner .flowSequenceEnd
      return .mapping none (.implicit false) [(key, value)] :: (← flowItems inner false fuel)
    | .flowSequenceEnd => advance; return []
    | _ =>
      let item ← inner false false
      return item :: (← flowItems inner false fuel)

def flowEntries (inner : Inner) (first : Bool) : Nat → Parse (List (Node × Node))
  | 0 => fail
  | fuel + 1 => do
    if (← peek) == .flowMappingEnd then advance; return []
    unless first do expect .flowEntry
    match ← peek with
    | .key =>
      advance
      let key ← flowKey inner .flowMappingEnd
      let value ← flowValue inner .flowMappingEnd
      return (key, value) :: (← flowEntries inner false fuel)
    | .flowMappingEnd => advance; return []
    | _ =>
      let key ← inner false false
      return (key, .empty) :: (← flowEntries inner false fuel)

def content (inner : Inner) (block indentless : Bool) (anchor tag : Option String) :
    Parse Node := do
  let fuel := (← get).tokens.length + 1
  let form := tagOf tag false
  match ← peek, block, indentless with
  | .blockEntry, _, true =>
    declare anchor
    return .sequence anchor form (← indentlessItems inner fuel)
  | .scalar text plain, _, _ =>
    advance
    declare anchor
    return .scalar anchor (tagOf tag plain) text
  | .flowSequence, _, _ =>
    advance
    declare anchor
    return .sequence anchor form (← flowItems inner true fuel)
  | .flowMapping, _, _ =>
    advance
    declare anchor
    return .mapping anchor form (← flowEntries inner true fuel)
  | .blockSequence, true, _ =>
    advance
    declare anchor
    return .sequence anchor form (← blockItems inner fuel)
  | .blockMapping, true, _ =>
    advance
    declare anchor
    return .mapping anchor form (← blockEntries inner fuel)
  | _, _, _ => emptyNode anchor tag

def node : Nat → Inner
  | 0, _, _ => throw .tooDeep
  | depth + 1, block, indentless => do
    match ← peek with
    | .alias name =>
      advance
      unless (← get).names.contains name do fail
      return .reference name
    | _ =>
      let first ← anchor?
      let raw ← tag?
      let anchor ← if first.isSome then pure first else anchor?
      let tag ← resolve raw
      content (node depth) block indentless anchor tag

def directives (versions : Nat) (handles : List (String × String)) :
    Nat → Parse (List (String × String))
  | 0 => fail
  | fuel + 1 => do
    match ← peek with
    | .directive (.version major) =>
      advance
      if 0 < versions || major != 1 then fail
      directives (versions + 1) handles fuel
    | .directive (.tag handle front) =>
      advance
      if (handles.lookup handle).isSome then fail
      directives versions ((handle, front) :: handles) fuel
    | .directive .reserved =>
      advance
      directives versions handles fuel
    | _ => return handles ++ defaultHandles

/-- How deeply nodes may be nested. The number stands in for a recursion limit; where composing
really gives up also depends on the kinds of the nodes and on the stack already in use. -/
def depthLimit : Nat := 450

def atEnd : Nat → Parse Bool
  | 0 => return false
  | fuel + 1 => do
    match ← peek with
    | .documentEnd => advance; atEnd fuel
    | .streamEnd => return true
    | _ => return false

def markedDocument : Parse Node := do
  let fuel := (← get).tokens.length + 1
  let handles ← directives 0 [] fuel
  modify fun s => { s with handles }
  expect .documentStart
  match ← peek with
  | .directive _ | .documentStart | .documentEnd | .streamEnd => return .empty
  | _ => node depthLimit true false

def document? : Parse (Option Node) := do
  let fuel := (← get).tokens.length + 1
  match ← peek with
  | .streamEnd => return none
  | .directive _ | .documentStart =>
    let root ← markedDocument
    unless ← atEnd fuel do fail
    return some root
  | _ =>
    modify fun s => { s with handles := defaultHandles }
    let root ← node depthLimit true false
    unless ← atEnd fuel do fail
    return some root

end Parse

def Node.ofText? (text : String) : Except Fault (Option Node) := do
  let (tokens, beyond) := tokens text
  return (← Parse.document?.run { tokens, beyond }).1

end CategoryAudit.Yaml
