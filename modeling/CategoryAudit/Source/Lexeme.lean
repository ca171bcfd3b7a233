import CategoryAudit.Text.Identifier

/-!
# Lexemes of C#

Each reader takes the characters that are left and says what remains after one lexeme of its
kind, or `none` if there is none.
-/

namespace CategoryAudit.Source.Lexeme

def isBlank (c : Char) : Bool :=
  c == ' ' || ('\t' ≤ c && c ≤ '\r') || c == '\u00A0' || c == '\uFEFF' || c == '\u3000'

def isHex (c : Char) : Bool := c.isDigit || ('a' ≤ c && c ≤ 'f') || ('A' ≤ c && c ≤ 'F')

def after? : List Char → List Char → Option (List Char)
  | [], cs => some cs
  | _ :: _, [] => none
  | x :: xs, c :: cs => if x == c then after? xs cs else none

def unicodeEscape? : List Char → Option (List Char)
  | '\\' :: 'u' :: cs => if (cs.takeWhile isHex).length < 4 then none else some (cs.drop 4)
  | '\\' :: 'U' :: cs => if (cs.takeWhile isHex).length < 8 then none else some (cs.drop 8)
  | _ => none

def wordRest : Nat → List Char → List Char
  | 0, cs => cs
  | fuel + 1, cs =>
    match unicodeEscape? cs with
    | some rest => wordRest fuel rest
    | none =>
      match cs with
      | c :: rest => if Text.isIdentifierContinuation c then wordRest fuel rest else cs
      | [] => []

def word? (cs : List Char) : Option (List Char) :=
  let body := match cs with | '@' :: rest => rest | _ => cs
  match unicodeEscape? body with
  | some rest => some (wordRest rest.length rest)
  | none =>
    match body with
    | c :: rest =>
      if Text.isIdentifierStart c || c == '_' then some (wordRest rest.length rest) else none
    | [] => none

/-! ## Numbers -/

def digits? (isDigit : Char → Bool) (cs : List Char) : Option (List Char) :=
  match cs with
  | c :: _ =>
    if isDigit c then
      let run := cs.takeWhile fun c => isDigit c || c == '_'
      let kept := (run.reverse.dropWhile (· == '_')).length
      some (cs.drop kept)
    else none
  | [] => none

def prefixedDigits? (isDigit : Char → Bool) (cs : List Char) : Option (List Char) :=
  digits? isDigit (cs.dropWhile (· == '_'))

def integerSuffix : List Char → List Char
  | c :: d :: rest =>
    if (c == 'u' || c == 'U') && (d == 'l' || d == 'L') then rest
    else if (c == 'l' || c == 'L') && (d == 'u' || d == 'U') then rest
    else if c == 'u' || c == 'U' || c == 'l' || c == 'L' then d :: rest
    else c :: d :: rest
  | [c] => if c == 'u' || c == 'U' || c == 'l' || c == 'L' then [] else [c]
  | [] => []

def integer? (cs : List Char) : Option (List Char) :=
  let special := match cs with
    | '0' :: 'x' :: rest | '0' :: 'X' :: rest => prefixedDigits? isHex rest
    | '0' :: 'b' :: rest | '0' :: 'B' :: rest =>
      prefixedDigits? (fun c => c == '0' || c == '1') rest
    | _ => none
  (special.orElse fun _ => digits? Char.isDigit cs).map integerSuffix

def exponent? : List Char → Option (List Char)
  | 'e' :: rest | 'E' :: rest =>
    match rest with
    | '+' :: more | '-' :: more => digits? Char.isDigit more
    | _ => digits? Char.isDigit rest
  | _ => none

def realSuffix? : List Char → Option (List Char)
  | c :: rest =>
    if c == 'f' || c == 'F' || c == 'd' || c == 'D' || c == 'm' || c == 'M' then some rest
    else none
  | [] => none

def real? (cs : List Char) : Option (List Char) :=
  let tail (rest : List Char) : List Char :=
    let rest := (exponent? rest).getD rest
    (realSuffix? rest).getD rest
  let fraction (rest : List Char) : Option (List Char) := match rest with
    | '.' :: more => (digits? Char.isDigit more).map tail
    | _ => none
  match digits? Char.isDigit cs with
  | none => fraction cs
  | some rest =>
    (fraction rest).orElse fun _ =>
      match exponent? rest with
      | some more => some ((realSuffix? more).getD more)
      | none => realSuffix? rest

/-! ## Text -/

def plainRest? : List Char → Option (List Char)
  | [] | '\n' :: _ => none
  | '"' :: rest => some rest
  | '\\' :: _ :: rest => plainRest? rest
  | _ :: rest => plainRest? rest

/-- The rest of a string in which a quote is written twice. -/
def verbatimRest? : List Char → Option (List Char)
  | [] => none
  | '"' :: '"' :: rest => verbatimRest? rest
  | '"' :: rest => some rest
  | _ :: rest => verbatimRest? rest

/-- The rest of a string that a run of at least `quotes` quotes ends. -/
def rawRest? (quotes : Nat) : Nat → List Char → Option (List Char)
  | _, [] => none
  | run, c :: rest =>
    if c == '"' then
      if quotes ≤ run + 1 then
        match rest with
        | '"' :: _ => rawRest? quotes (run + 1) rest
        | _ => some rest
      else rawRest? quotes (run + 1) rest
    else rawRest? quotes 0 rest

def character? : List Char → Option (List Char)
  | '\'' :: '\\' :: 'x' :: rest =>
    let hex := rest.takeWhile isHex
    if hex.isEmpty then none else after? ['\''] (rest.drop (min hex.length 4))
  | '\'' :: '\\' :: 'u' :: rest => (unicodeEscape? ('\\' :: 'u' :: rest)).bind (after? ['\''])
  | '\'' :: '\\' :: 'U' :: rest => (unicodeEscape? ('\\' :: 'U' :: rest)).bind (after? ['\''])
  | '\'' :: '\\' :: _ :: '\'' :: rest => some rest
  | '\'' :: c :: '\'' :: rest => if c == '\'' || c == '\\' || c == '\n' then none else some rest
  | _ => none

/-- A string with at least three quotes on each side, after its dollar signs. -/
def raw? (cs : List Char) : Option (List Char) :=
  let quotes := (cs.takeWhile (· == '"')).length
  if quotes < 3 then none else rawRest? quotes 0 (cs.drop quotes)

mutual
def interpolatedRest? (verbatim : Bool) : Nat → List Char → Option (List Char)
  | 0, _ | _, [] => none
  | fuel + 1, c :: rest =>
    match c, rest with
    | '"', '"' :: more => if verbatim then interpolatedRest? verbatim fuel more else some rest
    | '"', _ => some rest
    | '\\', _ :: more =>
      if verbatim then interpolatedRest? verbatim fuel rest
      else interpolatedRest? verbatim fuel more
    | '{', '{' :: more => interpolatedRest? verbatim fuel more
    | '{', _ => (holeRest? verbatim fuel 0 rest).bind (interpolatedRest? verbatim fuel)
    | '\n', _ => if verbatim then interpolatedRest? verbatim fuel rest else none
    | _, _ => interpolatedRest? verbatim fuel rest
/-- The rest of a hole, up to the brace that ends it. `depth` counts open brackets. -/
def holeRest? (verbatim : Bool) : Nat → Nat → List Char → Option (List Char)
  | 0, _, _ | _, _, [] => none
  | fuel + 1, depth, c :: rest =>
    match quoted? fuel (c :: rest) with
    | some more => holeRest? verbatim fuel depth more
    | none =>
      match c with
      | '}' => if depth == 0 then some rest else holeRest? verbatim fuel (depth - 1) rest
      | ')' | ']' => holeRest? verbatim fuel (depth - 1) rest
      | '(' | '[' | '{' => holeRest? verbatim fuel (depth + 1) rest
      | '"' => none
      | ':' =>
        match rest with
        | ':' :: more => holeRest? verbatim fuel depth more
        | _ =>
          if depth == 0 then
            match rest.dropWhile fun d => d != '}' && d != '"' with
            | '}' :: more => some more
            | _ => none
          else holeRest? verbatim fuel depth rest
      | _ => holeRest? verbatim fuel depth rest
def quoted? : Nat → List Char → Option (List Char)
  | 0, _ => none
  | fuel + 1, cs =>
    match cs with
    | '\'' :: _ => character? cs
    | '$' :: '@' :: '"' :: rest | '@' :: '$' :: '"' :: rest => interpolatedRest? true fuel rest
    | '@' :: '"' :: rest => verbatimRest? rest
    | '$' :: rest =>
      match raw? (rest.dropWhile (· == '$')) with
      | some more => some more
      | none =>
        match rest with
        | '"' :: more => interpolatedRest? false fuel more
        | _ => none
    | '"' :: rest =>
      match raw? cs with
      | some more => some more
      | none => plainRest? rest
    | _ => none
end

def byteSuffix : List Char → List Char
  | 'u' :: '8' :: rest | 'U' :: '8' :: rest => rest
  | cs => cs

/-! ## Comments -/

def starRest? : List Char → Option (List Char)
  | [] => none
  | '*' :: '/' :: rest => some rest
  | _ :: rest => starRest? rest

def comment? : List Char → Option (List Char)
  | '/' :: '/' :: rest => some (rest.dropWhile fun c => c != '\n' && c != '\r')
  | '/' :: '*' :: rest => starRest? rest
  | _ => none

end CategoryAudit.Source.Lexeme
