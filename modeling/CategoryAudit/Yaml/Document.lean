import CategoryAudit.Yaml.Node
import CategoryAudit.Yaml.Plain

/-!
# The value of a document

Values are made from nodes. A key `<<` takes over the entries of other mappings, which the
mapping's own entries override. A node with a name has one value, wherever it is referred to. All
faults are noted with the depth at which they occur; the one reported is the first of the least
depth.
-/

namespace CategoryAudit.Yaml

mutual
def Node.size : Node → Nat
  | .scalar .. | .reference _ => 1
  | .sequence _ _ items => 1 + sizeItems items
  | .mapping _ _ entries => 1 + sizeEntries entries
def sizeItems : List Node → Nat
  | [] => 0
  | n :: rest => n.size + sizeItems rest
def sizeEntries : List (Node × Node) → Nat
  | [] => 0
  | (k, v) :: rest => k.size + v.size + sizeEntries rest
end

mutual
def Node.named : Node → List (String × Node)
  | .scalar anchor tag text => (anchor.map fun a => (a, .scalar anchor tag text)).toList
  | .reference _ => []
  | .sequence anchor tag items =>
    (anchor.map fun a => (a, .sequence anchor tag items)).toList ++ namedItems items
  | .mapping anchor tag entries =>
    (anchor.map fun a => (a, .mapping anchor tag entries)).toList ++ namedEntries entries
def namedItems : List Node → List (String × Node)
  | [] => []
  | n :: rest => n.named ++ namedItems rest
def namedEntries : List (Node × Node) → List (String × Node)
  | [] => []
  | (k, v) :: rest => k.named ++ v.named ++ namedEntries rest
end

def Node.kind : Node → Kind
  | .scalar _ (.implicit true) text => Kind.ofPlain text
  | .scalar _ (.implicit false) _ => .text
  | .sequence _ (.implicit _) _ => .sequence
  | .mapping _ (.implicit _) _ => .mapping
  | .scalar _ (.explicit name) _ | .sequence _ (.explicit name) _ | .mapping _ (.explicit name) _ =>
    Kind.ofTag name
  | .reference _ => .unknown

def Node.anchor? : Node → Option String
  | .scalar anchor .. | .sequence anchor .. | .mapping anchor .. => anchor
  | .reference _ => none

def Node.resolved (names : List (String × Node)) : Node → Node
  | .reference name => (names.lookup name).getD (.reference name)
  | n => n

/-! ## Merge keys -/

abbrev Entries := List (Node × Node)

def isMerge (names : List (String × Node)) (entry : Node × Node) : Bool :=
  (entry.1.resolved names).kind == .merge

/-- The entries of the mappings that a merge key names; of several, the first one wins. -/
def mergeSources (names : List (String × Node)) (flatten : Entries → Option Entries)
    (value : Node) : Option Entries :=
  match value.resolved names with
  | .mapping _ _ entries => flatten entries
  | .sequence _ _ items => do
    let sources ← items.mapM fun item =>
      match item.resolved names with
      | .mapping _ _ entries => flatten entries
      | _ => none
    return sources.reverse.flatten
  | _ => none

def flatten (names : List (String × Node)) : Nat → Entries → Option Entries
  | 0, _ => some []
  | fuel + 1, entries => do
    let merged ← (entries.filter (isMerge names)).mapM fun entry =>
      mergeSources names (flatten names fuel) entry.2
    return merged.flatten ++ entries.filter (!isMerge names ·)

/-! ## Values -/

/-- What is known while values are made: the values of the named nodes that are finished or begun,
and the faults so far, the last first. -/
structure Making where
  values : List (String × Value) := []
  faults : List (Nat × Fault) := []

abbrev Make := StateM Making

namespace Make

def fault (level : Nat) (f : Fault) : Make Value := do
  modify fun s => { s with faults := (level, f) :: s.faults }
  return .other

def remember (name : String) (v : Value) : Make Unit :=
  modify fun s => { s with values := (name, v) :: s.values }

/-- Makes a value once for all references to it. While it is being made it counts as `other`. -/
def once (name : Option String) (make : Make Value) : Make Value := do
  match name with
  | none => make
  | some name =>
    match (← get).values.lookup name with
    | some v => return v
    | none =>
      remember name .other
      let v ← make
      remember name v
      return v

def scalar (level : Nat) (kind : Kind) (text : String) : Make Value := do
  match readScalar kind text with
  | .ok s => return .scalar s
  | .error f => fault level f

def key (level : Nat) (n : Node) (make : Node → Make Value) : Make (Option Scalar) := do
  if n.kind == .fallback then
    match n with
    | .scalar _ _ text => return some (.text text)
    | _ => pure ()
  match ← make n with
  | .scalar s => return some s
  | .list _ | .map _ => discard (fault level .malformed); return none
  | .other => discard (fault level .malformed); return none

/-- The entries of a mapping; a later entry replaces an earlier one with the same key. -/
def entries (level : Nat) (names : List (String × Node)) (make : Node → Make Value) :
    Entries → List (Scalar × Value) → Make (List (Scalar × Value))
  | [], done => return done
  | (k, v) :: rest, done => do
    let key ← key level (k.resolved names) make
    let value ← make v
    match key with
    | some key => entries level names make rest (insertEntry key value done)
    | none => entries level names make rest done

def pairs (level : Nat) (names : List (String × Node)) (make : Node → Make Value) :
    List Node → Make (List Value)
  | [] => return []
  | item :: rest => do
    let pair ← match item.resolved names with
      | .mapping _ _ [(k, v)] => do
        discard (make k)
        discard (make v)
        pure .other
      | _ => fault level .malformed
    return pair :: (← pairs level names make rest)

/-- The text under the key `=` of a mapping, which may stand for the whole. -/
def fallbackText? : Entries → Option String
  | [] => none
  | (k, v) :: rest =>
    if k.kind == .fallback then
      match v with
      | .scalar _ _ text => some text
      | _ => none
    else fallbackText? rest

def node (names : List (String × Node)) : Nat → Nat → Node → Make Value
  | 0, _, _ => return .other
  | fuel + 1, level, n =>
    let inner := node names fuel (level + 1)
    once n.anchor? do
      match n, n.kind with
      | .reference name, _ =>
        match names.lookup name with
        | some target => node names fuel level target
        | none => return .other
      | .scalar .., .sequence | .scalar .., .mapping | .scalar .., .set | .scalar .., .pairs
      | .sequence .., .mapping | .sequence .., .set
      | .mapping .., .sequence | .mapping .., .pairs => fault (level + 1) .malformed
      | .scalar _ _ text, kind => scalar level kind text
      | .sequence _ _ items, .sequence => return .list (← items.mapM inner)
      | .sequence _ _ items, .pairs => return .list (← pairs (level + 1) names inner items)
      | .sequence .., _ => fault level .malformed
      | .mapping _ _ all, kind =>
        if kind == .mapping || kind == .set then
          match flatten names (fuel + 1) all with
          | none => fault (level + 1) .malformed
          | some all =>
            let made ← entries (level + 1) names inner all []
            return if kind == .mapping then .map made else .other
        else match fallbackText? all with
          | some text => scalar level kind text
          | none => fault level .malformed

end Make

/-- The first fault of the least depth; the last one noted comes first. -/
def leastFault : List (Nat × Fault) → Option (Nat × Fault)
  | [] => none
  | (level, f) :: rest =>
    match leastFault rest with
    | some (l, g) => if l ≤ level then some (l, g) else some (level, f)
    | none => some (level, f)

/-- The value of the document in a text; an empty text has the empty value. -/
def load (text : String) : Except Fault Value := do
  match ← Node.ofText? text with
  | none => return .scalar .null
  | some root =>
    let (value, made) := (Make.node root.named (root.size + 1) 0 root).run {}
    match leastFault made.faults with
    | some (_, f) => throw f
    | none => return value

end CategoryAudit.Yaml
