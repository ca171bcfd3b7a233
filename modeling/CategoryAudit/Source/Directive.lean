import CategoryAudit.Source.Lexeme

/-!
# Directives on a line of their own

Regions, pragmas, definitions and the like may stand between any two tokens and end with their
line. The conditional directives are not among them: they belong to the rules.
-/

namespace CategoryAudit.Source.Directive

open Lexeme

def conditionals : List String := ["if", "elif", "else", "endif"]

def standalone : List String :=
  ["region", "endregion", "line", "pragma", "nullable", "error", "warning", "define", "undef"]

private def isGap (c : Char) : Bool := c == ' ' || c == '\t'

def word? : List Char → Option (String × List Char)
  | '#' :: rest =>
    let found := (conditionals ++ standalone).filterMap fun w =>
      (after? w.toList (rest.dropWhile isGap)).map fun more => (w, more)
    found.foldl (fun best next => match best with
      | some b => if b.1.length < next.1.length then some next else best
      | none => some next) none
  | _ => none

/-- How many characters of a number sign and what follows could still become a directive. -/
def attempted : List Char → Nat
  | '#' :: rest =>
    let body := rest.dropWhile isGap
    let common (w : String) : Nat :=
      ((w.toList.zip body).takeWhile fun p => p.1 == p.2).length
    1 + (rest.length - body.length)
      + ((conditionals ++ standalone).map common).foldl max 0
  | _ => 1

/-- The text of a line without a comment at its end, split at blanks. -/
def words (line : List Char) : List (List Char) :=
  let split := line.foldr (fun c (acc : List (List Char)) =>
    if isBlank c then [] :: acc else match acc with
      | w :: rest => (c :: w) :: rest
      | [] => [[c]]) [[]]
  (split.takeWhile fun w => !(['/', '/'].isPrefixOf w)).filter (!·.isEmpty)

private def isWhole (read : List Char → Option (List Char)) (w : List Char) : Bool :=
  read w == some []

private def isCode (w : List Char) : Bool := isWhole Lexeme.word? w || isWhole integer? w

private def splitCommas (cs : List Char) : List (List Char) :=
  cs.foldr (fun c (acc : List (List Char)) =>
    if c == ',' then [] :: acc else match acc with
      | w :: rest => (c :: w) :: rest
      | [] => [[c]]) [[]]

private def isText (w : List Char) : Bool := match w with
  | '"' :: rest => plainRest? rest == some []
  | _ => false

def suits (directive : String) (line : List Char) : Bool :=
  let ws := words line
  let names := ws.map String.ofList
  match directive with
  | "region" | "endregion" => true
  | "define" | "undef" | "error" | "warning" => line.any (!isBlank ·)
  | "nullable" =>
    match names with
    | [mode] => ["enable", "disable", "restore"].contains mode
    | [mode, target] => ["enable", "disable", "restore"].contains mode
        && ["annotations", "warnings"].contains target
    | _ => false
  | "pragma" =>
    match names with
    | "warning" :: mode :: _ =>
      let codes := splitCommas ((ws.drop 2).flatten)
      ["disable", "restore"].contains mode && (codes == [[]] || codes.all isCode)
    | "checksum" :: _ => ws.length == 4 && (ws.drop 1).all isText
    | _ => false
  | "line" =>
    match ws with
    | [one] => ["default", "hidden"].contains (String.ofList one) || isWhole integer? one
    | number :: rest => (isWhole integer? number && rest.length == 1 && rest.all isText)
        || number.head? == some '('
    | [] => false
  | _ => false

def standalone? (cs : List Char) : Option (String × List Char) :=
  match word? cs with
  | none => none
  | some (w, rest) =>
    if standalone.contains w then
      let line := rest.takeWhile (· != '\n')
      match rest.dropWhile (· != '\n') with
      | _ :: more => if suits w line then some (w, more) else none
      | [] => none
    else none

def conditional? (cs : List Char) : Option (String × List Char) :=
  match word? cs with
  | some (w, rest) => if conditionals.contains w then some (w, rest) else none
  | none => none

end CategoryAudit.Source.Directive
