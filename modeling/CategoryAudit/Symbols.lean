import CategoryAudit.Condition

/-!
# Defined symbols

`#define` adds a symbol and `#undef` removes one, from the place of the directive on. Text that
is not of this form changes nothing.
-/

namespace CategoryAudit

abbrev Symbols := List String

namespace Symbols

def add (s : Symbols) (name : String) : Symbols := if s.contains name then s else name :: s

def remove (s : Symbols) (name : String) : Symbols := s.filter (· != name)

inductive Change where
  | define (name : String)
  | undef (name : String)
  deriving BEq, DecidableEq, Repr

def apply (s : Symbols) : Change → Symbols
  | .define name => s.add name
  | .undef name => s.remove name

def afterWord? (word cs : List Char) : Option (List Char) :=
  if word.isPrefixOf cs then some (cs.drop word.length) else none

/-- The name after one or more blanks: letters, digits and underscores of ASCII, not beginning
with a digit. What follows the name does not matter. -/
def nameAfterBlanks? (cs : List Char) : Option String :=
  match cs with
  | c :: _ =>
    if Text.isBlank c then
      match cs.dropWhile Text.isBlank with
      | d :: rest =>
        if Condition.isWordStart d then
          some (String.ofList (d :: rest.takeWhile Condition.isWordPart))
        else none
      | [] => none
    else none
  | [] => none

def Change.ofText? (text : String) : Option Change :=
  match Text.stripChars text.toList with
  | '#' :: rest =>
    let rest := rest.dropWhile Text.isBlank
    match afterWord? "define".toList rest with
    | some rest => (nameAfterBlanks? rest).map .define
    | none =>
      match afterWord? "undef".toList rest with
      | some rest => (nameAfterBlanks? rest).map .undef
      | none => none
  | _ => none

def update (s : Symbols) (text : String) : Symbols :=
  match Change.ofText? text with
  | some change => s.apply change
  | none => s

end Symbols

end CategoryAudit
