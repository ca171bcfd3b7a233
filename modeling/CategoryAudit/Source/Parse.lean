import CategoryAudit.Grammar.Parse
import CategoryAudit.Source.Rules
import CategoryAudit.Source.Directive

/-!
# Parsing C# text

`concreteTree` gives the concrete syntax tree of any text. Which token stands at a place depends
on what the grammar expects there, so the reader offers every token that the characters allow,
the longest first, and a keyword before the identifier of the same spelling.
-/

namespace CategoryAudit.Source

open Grammar

def automaton : Automaton := Automaton.ofGrammar grammar

def builtinTypes : List String :=
  ["bool", "byte", "char", "decimal", "double", "float", "int", "long", "object", "sbyte", "short",
   "string", "uint", "ulong", "ushort", "nint", "nuint", "void"]

private def isWordLike (name : String) : Bool :=
  match name.toList with
  | c :: _ => c.isAlpha
  | [] => false

private def literals : List (String × Nat) :=
  (grammar.terminals.toList.zipIdx).filter fun p => !grammar.classes.contains p.1

def keywords : Std.HashMap String Nat :=
  let words := literals.filter fun p => isWordLike p.1
  let types := builtinTypes.map fun w => (w, grammar.terminal "predefined_type")
  (words ++ types).foldl (fun m p => m.insert p.1 p.2) {}

def operators : List (List Char × Nat) :=
  let found := literals.filter fun p => !isWordLike p.1 && !p.1.startsWith "#"
  (found.map fun p => (p.1.toList, p.2)).mergeSort fun a b => b.1.length ≤ a.1.length

structure Text where
  places : Array Place
  rests : Array (List Char)
  deriving Inhabited

namespace Text

private def collect : List Char → Place → Text → Text
  | [], place, t => ⟨t.places.push place, t.rests.push []⟩
  | c :: cs, place, t =>
    let next : Place :=
      ⟨place.index + 1, place.byte + c.utf8Size, if c == '\n' then place.row + 1 else place.row⟩
    collect cs next ⟨t.places.push place, t.rests.push (c :: cs)⟩

def ofString (s : String) : Text := collect s.toList ⟨0, 0, 0⟩ ⟨#[], #[]⟩

def later (t : Text) (place : Place) (count : Nat) : Place :=
  t.places.getD (place.index + count) place

def placeOf (t : Text) (rest : List Char) : Place :=
  t.places.getD (t.places.size - 1 - rest.length) default

end Text

private def named (name : String) (start stop : Place) : Token :=
  { terminal := grammar.terminal name, start, stop }

/-- The tokens that the characters at a place allow, best first; the place is not blank. -/
def tokensHere (t : Text) (start : Place) (cs : List Char) : List Token :=
  let upTo (rest : List Char) : Place := t.placeOf rest
  let single (name : String) (rest : Option (List Char)) : List Token :=
    match rest with
    | some rest => [named name start (upTo rest)]
    | none => []
  match Lexeme.comment? cs with
  | some rest => [{ terminal := 0, start, stop := upTo rest, extra := true, label := "comment" }]
  | none =>
  match Directive.standalone? cs with
  | some (w, rest) =>
    [{ terminal := 0, start, stop := upTo rest, extra := true, label := "preproc_" ++ w }]
  | none =>
  match Directive.conditional? cs with
  | some (w, rest) => [named ("#" ++ w) start (upTo rest)]
  | none =>
  let words : List Token := match Lexeme.word? cs with
    | none => []
    | some rest =>
      let stop := upTo rest
      let identifier := named "_identifier_token" start stop
      match keywords[String.ofList (cs.take (stop.index - start.index))]? with
      | some terminal => [{ terminal, start, stop, reserved := true }, identifier]
      | none => [identifier]
  let strings : List Token := match cs with
    | '@' :: '"' :: _ =>
      single "verbatim_string_literal" ((Lexeme.quoted? (cs.length + 1) cs).map Lexeme.byteSuffix)
    | '$' :: _ | '@' :: '$' :: _ =>
      single "interpolated_string_expression" (Lexeme.quoted? (cs.length + 1) cs)
    | '"' :: _ =>
      match Lexeme.raw? cs with
      | some rest => single "raw_string_literal" (some (Lexeme.byteSuffix rest))
      | none => single "string_literal" ((Lexeme.quoted? (cs.length + 1) cs).map Lexeme.byteSuffix)
    | '\'' :: _ => single "character_literal" (Lexeme.character? cs)
    | '#' :: '!' :: rest => single "shebang_directive" (some (rest.dropWhile (· != '\n')))
    | _ => []
  let numbers : List Token := match Lexeme.real? cs with
    | some rest => [named "real_literal" start (upTo rest)]
    | none => single "integer_literal" (Lexeme.integer? cs)
  let marks : List Token := operators.filterMap fun (lexeme, terminal) =>
    if lexeme.isPrefixOf cs && !(lexeme == ['.'] && cs[1]? == some '.') then
      some { terminal, start, stop := t.later start lexeme.length
             splits := lexeme.head? == some '>' }
    else none
  words ++ strings ++ numbers ++ marks

/-- Characters at a place that begin no token, with those after them of the same kind. -/
def strayStop (t : Text) : Nat → List Char → Place
  | 0, cs => t.placeOf cs
  | fuel + 1, cs =>
    let rest := cs.drop (Directive.attempted cs)
    let next := rest.dropWhile Lexeme.isBlank
    if next.isEmpty || !(tokensHere t (t.placeOf next) next).isEmpty then t.placeOf rest
    else strayStop t fuel next

def tokensAt (t : Text) (place : Place) : List Token :=
  let cs := t.rests.getD place.index []
  let semicolon : Token :=
    { terminal := grammar.terminal "_optional_semicolon", start := place
      stop := if cs.head? == some ';' then t.later place 1 else place, soft := true }
  let blanks := cs.takeWhile Lexeme.isBlank
  let newline : List Token := match blanks.findIdx? (· == '\n') with
    | some i =>
      [{ terminal := grammar.terminal "_newline", start := t.later place i
         stop := t.later place (i + 1), soft := true }]
    | none => []
  let start := t.later place blanks.length
  let rest := cs.drop blanks.length
  let tokens : List Token :=
    if rest.isEmpty then [{ terminal := 0, start, stop := start }]
    else match tokensHere t start rest with
      | [] => [{ terminal := 0, start, stop := strayStop t rest.length rest, stray := true }]
      | found => found
  semicolon :: newline ++ tokens

def settlingMarks : List Nat :=
  ["\x7d", "]", ")", "\x7b", ";", ",", ":", "=", "=>"].map grammar.terminal

def conditionSymbol : Nat :=
  grammar.terminals.size
    + ((definitions.map (·.name)).findIdx? (· == "_preproc_operand")).getD 0

/-- Outside conditions a word is complete before any of `settlingMarks`. -/
def settles (state terminal : Nat) : Bool :=
  settlingMarks.contains terminal && (automaton.next? state conditionSymbol).isNone

def concreteTree (source : String) : Concrete.Tree :=
  let t := Text.ofString source
  Grammar.parse automaton (tokensAt t) settles (64 * (t.places.size + 16))

end CategoryAudit.Source
