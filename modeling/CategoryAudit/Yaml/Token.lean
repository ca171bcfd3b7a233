import CategoryAudit.Text.Utf8
import CategoryAudit.Yaml.Fault

/-!
# Tokens of a document

The text is cut into tokens from left to right. Indentation becomes explicit start and end tokens.
A key without a `?` in front is recognized only at its `:`; the tokens that announce it are then
put in front of it, so every place where a key may begin is remembered until the line ends. Line
breaks are taken to be unified already: a carriage return is no line break here.
-/

namespace CategoryAudit.Yaml

inductive Directive where
  | version (major : Nat)
  | tag (handle front : String)
  | reserved
  deriving BEq, DecidableEq, Repr

inductive Token where
  | directive (d : Directive)
  | documentStart
  | documentEnd
  | streamEnd
  | blockSequence
  | blockMapping
  | blockEnd
  | flowSequence
  | flowSequenceEnd
  | flowMapping
  | flowMappingEnd
  | blockEntry
  | flowEntry
  | key
  | value
  | alias (name : String)
  | anchor (name : String)
  | tag (handle : Option String) (suffix : String)
  | scalar (text : String) (plain : Bool)
  deriving BEq, DecidableEq, Repr

/-! ## Characters -/

def isBreak (c : Char) : Bool := c == '\n' || c == '\x85' || c == '\u2028' || c == '\u2029'

/-- The end of the text is shown as this character, which no text contains. -/
def ending : Char := '\x00'

def isBreakOrEnd (c : Char) : Bool := c == ending || isBreak c

def isSpaceOrEnd (c : Char) : Bool := c == ' ' || isBreakOrEnd c

def isBlankOrEnd (c : Char) : Bool := c == '\t' || isSpaceOrEnd c

def isNameChar (c : Char) : Bool := c.isAlphanum || c == '-' || c == '_'

def isUriChar (c : Char) : Bool := c.isAlphanum || "-;/?:@&=+$,_.!~*'()[]%".toList.contains c

def hexValue? (c : Char) : Option Nat :=
  if c.isDigit then some (c.toNat - '0'.toNat)
  else if 'a' ≤ c && c ≤ 'f' then some (c.toNat - 'a'.toNat + 10)
  else if 'A' ≤ c && c ≤ 'F' then some (c.toNat - 'A'.toNat + 10)
  else none

def isAllowed (c : Char) : Bool :=
  let n := c.toNat
  n == 0x09 || n == 0x0a || n == 0x0d || (0x20 ≤ n && n ≤ 0x7e) || n == 0x85
    || (0xa0 ≤ n && n ≤ 0xfffd) || 0x10000 ≤ n

/-! ## The state of a scan -/

structure Candidate where
  level : Nat
  token : Nat
  required : Bool
  index : Nat
  line : Nat
  column : Nat
  deriving Repr

structure Scanner where
  rest : List Char
  index : Nat := 0
  line : Nat := 0
  column : Nat := 0
  tokens : Array Token := #[]
  /-- How many brackets and braces are open. -/
  level : Nat := 0
  indent : Int := -1
  outer : List Int := []
  keyAllowed : Bool := true
  candidates : List Candidate := []

abbrev Scan := StateT Scanner (Except Fault)

namespace Scan

def peekAt (k : Nat) : Scan Char := return ((← get).rest[k]?).getD ending

def peek : Scan Char := peekAt 0

def step : Scan Unit := modify fun s =>
  match s.rest with
  | [] => s
  | c :: rest =>
    if isBreak c then { s with rest, index := s.index + 1, line := s.line + 1, column := 0 }
    else { s with rest, index := s.index + 1
                  column := if c == '\ufeff' then s.column else s.column + 1 }

def steps : Nat → Scan Unit
  | 0 => return
  | n + 1 => do step; steps n

def takeWhile (p : Char → Bool) : Scan String := do
  let run := (← get).rest.takeWhile p
  steps run.length
  return String.ofList run

def skipWhile (p : Char → Bool) : Scan Unit := do discard (takeWhile p)

def emit (t : Token) : Scan Unit := modify fun s => { s with tokens := s.tokens.push t }

def fail {α : Type} : Scan α := throw .malformed

/-- Takes a line break; most kinds count as one. -/
def takeBreak : Scan String := do
  let c ← peek
  if c == '\n' || c == '\x85' then step; return "\n"
  else if c == '\u2028' || c == '\u2029' then step; return String.ofList [c]
  else return ""

def atMarker (mark : Char) : Scan Bool := do
  let s ← get
  return s.rest.take 3 == [mark, mark, mark] && isBlankOrEnd ((s.rest[3]?).getD ending)

def atSeparator : Scan Bool := return (← atMarker '-') || (← atMarker '.')

/-! ## Keys and indentation -/

def dropCandidate : Scan Unit := do
  let s ← get
  match s.candidates.find? (·.level == s.level) with
  | none => return
  | some c =>
    if c.required then fail
    set { s with candidates := s.candidates.filter (·.level != s.level) }

def saveCandidate : Scan Unit := do
  let s ← get
  if s.keyAllowed then
    dropCandidate
    let s ← get
    let c : Candidate :=
      { level := s.level
        token := s.tokens.size
        required := s.level == 0 && s.indent == s.column
        index := s.index, line := s.line, column := s.column }
    set { s with candidates := c :: s.candidates }

/-- The greatest length of a key without a `?` in front. -/
def keyLimit : Nat := 1024

def isStale (s : Scanner) (c : Candidate) : Bool :=
  c.line != s.line || keyLimit < s.index - c.index

def dropStale : Scan Unit := do
  let s ← get
  if s.candidates.any fun c => isStale s c && c.required then fail
  set { s with candidates := s.candidates.filter (!isStale s ·) }

def unwind (column : Int) : Scan Unit := do
  let s ← get
  if s.level == 0 then
    let closed := (s.indent :: s.outer).takeWhile (column < ·)
    let left := (s.indent :: s.outer).dropWhile (column < ·)
    set { s with
      indent := left.headD (-1), outer := left.tail
      tokens := s.tokens ++ (closed.map fun _ => Token.blockEnd).toArray }

/-- Opens a block at `column` if none is open there; says whether it did. -/
def indentTo (column : Nat) : Scan Bool := do
  let s ← get
  if s.indent < column then
    set { s with indent := (column : Int), outer := s.indent :: s.outer }
    return true
  else return false

def allowKey (b : Bool) : Scan Unit := modify fun s => { s with keyAllowed := b }

/-! ## Blank space -/

def skipBlank : Nat → Scan Unit
  | 0 => return
  | fuel + 1 => do
    skipWhile (· == ' ')
    if (← peek) == '#' then skipWhile (!isBreakOrEnd ·)
    if (← takeBreak) != "" then
      if (← get).level == 0 then allowKey true
      skipBlank fuel

def skipLine : Scan Unit := do
  skipWhile (· == ' ')
  if (← peek) == '#' then skipWhile (!isBreakOrEnd ·)
  unless isBreakOrEnd (← peek) do fail
  discard takeBreak

/-! ## Tags and directives -/

def uriBytes : Nat → Scan (List UInt8)
  | 0 => return []
  | fuel + 1 => do
    if (← peek) != '%' then return []
    match hexValue? (← peekAt 1), hexValue? (← peekAt 2) with
    | some high, some low =>
      steps 3
      return UInt8.ofNat (16 * high + low) :: (← uriBytes fuel)
    | _, _ => fail

def uriParts : Nat → Scan (List String)
  | 0 => return []
  | fuel + 1 => do
    let c ← peek
    if c == '%' then
      match Text.Utf8.decode (← uriBytes (← get).rest.length) with
      | .ok part => return part :: (← uriParts fuel)
      | .error _ => fail
    else if isUriChar c then
      let part ← takeWhile fun c => isUriChar c && c != '%'
      return part :: (← uriParts fuel)
    else return []

def uri : Scan String := do
  match ← uriParts ((← get).rest.length + 1) with
  | [] => fail
  | parts => return String.join parts

/-- A tag handle: `!`, `!!` or `!name!`. -/
def tagHandle : Scan String := do
  unless (← peek) == '!' do fail
  if (← peekAt 1) == ' ' then step; return "!"
  let name := (← get).rest.tail.takeWhile isNameChar
  unless (← peekAt (1 + name.length)) == '!' do fail
  steps (name.length + 2)
  return "!" ++ String.ofList name ++ "!"

def number : Scan Nat := do
  let digits ← takeWhile Char.isDigit
  if digits.isEmpty then fail
  if digitLimit < digits.length then throw (.tooManyDigits digits.length)
  return digits.toList.foldl (fun n c => 10 * n + (c.toNat - '0'.toNat)) 0

def directive : Scan Directive := do
  step
  let name ← takeWhile isNameChar
  if name.isEmpty then fail
  unless isSpaceOrEnd (← peek) do fail
  let found ←
    if name == "YAML" then do
      skipWhile (· == ' ')
      let major ← number
      unless (← peek) == '.' do fail
      step
      discard number
      unless isSpaceOrEnd (← peek) do fail
      pure (Directive.version major)
    else if name == "TAG" then do
      skipWhile (· == ' ')
      let handle ← tagHandle
      unless (← peek) == ' ' do fail
      skipWhile (· == ' ')
      let front ← uri
      unless isSpaceOrEnd (← peek) do fail
      pure (Directive.tag handle front)
    else do
      skipWhile (!isBreakOrEnd ·)
      pure .reserved
  skipLine
  return found

def tag : Scan Token := do
  let c ← peekAt 1
  let found ←
    if c == '<' then do
      steps 2
      let suffix ← uri
      unless (← peek) == '>' do fail
      step
      pure (Token.tag none suffix)
    else if isBlankOrEnd c then do
      step
      pure (Token.tag none "!")
    else do
      let word := (← get).rest.tail.takeWhile (!isSpaceOrEnd ·)
      let handle ← if word.contains '!' then tagHandle else do step; pure "!"
      let suffix ← uri
      pure (Token.tag (some handle) suffix)
  unless isSpaceOrEnd (← peek) do fail
  return found

def anchorName : Scan String := do
  step
  let name ← takeWhile isNameChar
  if name.isEmpty then fail
  let c ← peek
  unless isBlankOrEnd c || "?:,]\x7d%@`".toList.contains c do fail
  return name

/-! ## Scalars -/

def joined (pieces : List String) : String := String.join pieces

/-- A line break between two lines of a flowing scalar, with the empty lines after it. -/
def fold (lineBreak : String) (breaks : List String) : List String :=
  if lineBreak != "\n" then lineBreak :: breaks
  else if breaks.isEmpty then [" "] else breaks

def blockBreaks (indent : Nat) : Nat → Scan (List String)
  | 0 => return []
  | fuel + 1 => do
    let s ← get
    let spaces := s.rest.takeWhile (· == ' ')
    steps (min spaces.length (indent - s.column))
    if isBreak (← peek) then
      let b ← takeBreak
      return b :: (← blockBreaks indent fuel)
    else return []

def blockIndentation : Nat → Nat → Scan (List String × Nat)
  | 0, deepest => return ([], deepest)
  | fuel + 1, deepest => do
    let c ← peek
    if c == ' ' then
      step
      blockIndentation fuel (max deepest (← get).column)
    else if isBreak c then
      let b ← takeBreak
      let (more, deepest) ← blockIndentation fuel deepest
      return (b :: more, deepest)
    else return ([], deepest)

/-- The lines of a block scalar: its pieces, the last line break and the empty lines after it. -/
def blockLines (folded : Bool) (indent : Nat) (breaks : List String) :
    Nat → Scan (List String × String × List String)
  | 0 => return ([], "", breaks)
  | fuel + 1 => do
    if (← get).column != indent || (← peek) == ending then return ([], "", breaks)
    let flush := !((← peek) == ' ' || (← peek) == '\t')
    let line ← takeWhile (!isBreakOrEnd ·)
    let lineBreak ← takeBreak
    let after ← blockBreaks indent ((← get).rest.length + 1)
    let c ← peek
    if (← get).column == indent && c != ending then
      let between :=
        if folded && lineBreak == "\n" && flush && !(c == ' ' || c == '\t') then
          if after.isEmpty then [" "] else []
        else [lineBreak]
      let (pieces, last, rest) ← blockLines folded indent after fuel
      return (breaks ++ line :: between ++ pieces, last, rest)
    else return (breaks ++ [line], lineBreak, after)

inductive Chomping where
  | clip
  | keep
  | strip
  deriving BEq, DecidableEq, Repr

def chomping? (c : Char) : Option Chomping :=
  if c == '+' then some .keep else if c == '-' then some .strip else none

def increment? : Scan (Option Nat) := do
  let c ← peek
  if c.isDigit then
    if c == '0' then fail
    step
    return some (c.toNat - '0'.toNat)
  else return none

def blockIndicators : Scan (Chomping × Option Nat) := do
  match chomping? (← peek) with
  | some chomping =>
    step
    return (chomping, ← increment?)
  | none =>
    match ← increment? with
    | none => return (.clip, none)
    | some n =>
      match chomping? (← peek) with
      | some chomping => step; return (chomping, some n)
      | none => return (.clip, some n)

def blockScalar (folded : Bool) : Scan String := do
  step
  let (chomping, increment) ← blockIndicators
  unless isSpaceOrEnd (← peek) do fail
  skipLine
  let least := max 1 ((← get).indent + 1).toNat
  let fuel := (← get).rest.length + 1
  let (breaks, indent) ← match increment with
    | none => do
      let (breaks, deepest) ← blockIndentation fuel 0
      pure (breaks, max least deepest)
    | some n => do
      let indent := least + n - 1
      pure (← blockBreaks indent fuel, indent)
  let (pieces, last, after) ← blockLines folded indent breaks fuel
  let tail := match chomping with
    | .strip => []
    | .clip => [last]
    | .keep => last :: after
  return joined (pieces ++ tail)

def quotedBreaks : Nat → Scan (List String)
  | 0 => return []
  | fuel + 1 => do
    if ← atSeparator then fail
    skipWhile fun c => c == ' ' || c == '\t'
    if isBreak (← peek) then
      let b ← takeBreak
      return b :: (← quotedBreaks fuel)
    else return []

def escapes : List (Char × Char) :=
  [('0', '\x00'), ('a', '\x07'), ('b', '\x08'), ('t', '\t'), ('\t', '\t'), ('n', '\n'),
   ('v', '\x0b'), ('f', '\x0c'), ('r', '\r'), ('e', '\x1b'), (' ', ' '), ('\x22', '\x22'),
   ('\\', '\\'), ('/', '/'), ('N', '\x85'), ('_', '\xa0'), ('L', '\u2028'), ('P', '\u2029')]

def escapeDigits? (c : Char) : Option Nat :=
  if c == 'x' then some 2 else if c == 'u' then some 4 else if c == 'U' then some 8 else none

def hexDigits (n : Nat) : Scan Nat := do
  let digits := (← get).rest.take n
  match digits.mapM hexValue? with
  | some values =>
    unless values.length == n do fail
    steps n
    return values.foldl (fun acc d => 16 * acc + d) 0
  | none => fail

/-- The meaning of an escape, whose backslash is already taken. Texts are taken to be without lone
surrogates: no `Char` is one, so an escape that asks for one, such as `\ud800`, gives U+0000. -/
def escape : Scan String := do
  let c ← peek
  match escapes.lookup c with
  | some d => step; return String.ofList [d]
  | none =>
    match escapeDigits? c with
    | some n =>
      step
      let code ← hexDigits n
      if 0x80000000 ≤ code then throw .escapeTooLarge
      if 0x110000 ≤ code then throw .noSuchCharacter
      return String.ofList [Char.ofNat code]
    | none =>
      if isBreak c then
        discard takeBreak
        return joined (← quotedBreaks ((← get).rest.length + 1))
      else fail

def quotedPieces (double : Bool) : Nat → Scan (List String)
  | 0 => fail
  | fuel + 1 => do
    let c ← peek
    if c == ending then fail
    else if double && c == '\x22' then step; return []
    else if !double && c == '\x27' then
      if (← peekAt 1) == '\x27' then
        steps 2
        return "'" :: (← quotedPieces double fuel)
      else step; return []
    else if double && c == '\\' then
      step
      let piece ← escape
      return piece :: (← quotedPieces double fuel)
    else if c == ' ' || c == '\t' || isBreak c then
      let spaces ← takeWhile fun c => c == ' ' || c == '\t'
      let c ← peek
      if c == ending then fail
      else if isBreak c then
        let b ← takeBreak
        let breaks ← quotedBreaks ((← get).rest.length + 1)
        return fold b breaks ++ (← quotedPieces double fuel)
      else return spaces :: (← quotedPieces double fuel)
    else
      step
      return String.ofList [c] :: (← quotedPieces double fuel)

def quotedScalar (double : Bool) : Scan String := do
  step
  return joined (← quotedPieces double ((← get).rest.length + 1))

def plainBreaks : Nat → Scan (Option (List String))
  | 0 => return none
  | fuel + 1 => do
    skipWhile (· == ' ')
    if isBreak (← peek) then
      let b ← takeBreak
      if ← atSeparator then return none
      return (← plainBreaks fuel).map (b :: ·)
    else return some []

/-- What stands between two words of a plain scalar; nothing if there is no space at all. -/
def plainSpaces : Scan (List String) := do
  let spaces ← takeWhile (· == ' ')
  if isBreak (← peek) then
    let b ← takeBreak
    allowKey true
    if ← atSeparator then return []
    match ← plainBreaks ((← get).rest.length + 1) with
    | none => return []
    | some breaks => return fold b breaks
  else return if spaces.isEmpty then [] else [spaces]

def wordLength (flow : Bool) : List Char → Nat
  | [] => 0
  | c :: rest =>
    let next := rest.headD ending
    if isBlankOrEnd c then 0
    else if c == ':' && (isBlankOrEnd next || (flow && ",[]\x7b\x7d".toList.contains next)) then 0
    else if flow && ",?[]\x7b\x7d".toList.contains c then 0
    else 1 + wordLength flow rest

def plainWords (indent : Int) (spaces : List String) : Nat → Scan (List String)
  | 0 => return []
  | fuel + 1 => do
    if (← peek) == '#' then return []
    let flow := (← get).level != 0
    let length := wordLength flow (← get).rest
    if length == 0 then return []
    allowKey false
    let word := (← get).rest.take length
    steps length
    let next ← plainSpaces
    let here := spaces ++ [String.ofList word]
    if next.isEmpty || (← peek) == '#' || (!flow && (← get).column < indent) then return here
    else return here ++ (← plainWords indent next fuel)

def plainScalar : Scan String := do
  let s ← get
  return joined (← plainWords (s.indent + 1) [] (s.rest.length + 1))

/-! ## One token after the other -/

def closeAll : Scan Unit := do
  unwind (-1)
  dropCandidate
  allowKey false

def openFlow (t : Token) : Scan Unit := do
  saveCandidate
  modify fun s => { s with level := s.level + 1, keyAllowed := true }
  step
  emit t

def closeFlow (t : Token) : Scan Unit := do
  dropCandidate
  let s ← get
  if s.level == 0 then fail
  set { s with level := s.level - 1, keyAllowed := false }
  step
  emit t

def openBlock (t : Token) : Scan Unit := do
  let s ← get
  if s.level == 0 then
    unless s.keyAllowed do fail
    if ← indentTo s.column then emit t

/-- Puts the tokens that announce a key in front of it. -/
def announceKey (c : Candidate) : Scan Unit := do
  modify fun s => { s with candidates := s.candidates.filter (·.level != s.level) }
  let opens ← if (← get).level == 0 then indentTo c.column else pure false
  modify fun s => { s with
    tokens := s.tokens.extract 0 c.token ++ (if opens then #[.blockMapping, .key] else #[.key])
      ++ s.tokens.extract c.token s.tokens.size
    keyAllowed := false }

def valueIndicator : Scan Unit := do
  let s ← get
  match s.candidates.find? (·.level == s.level) with
  | some c => announceKey c
  | none =>
    openBlock .blockMapping
    allowKey (s.level == 0)
    dropCandidate
  step
  emit .value

def beginsPlain (level : Nat) (c next : Char) : Bool :=
  !(isBlankOrEnd c || "-?:,[]\x7b\x7d#&*!|>'\"%@`".toList.contains c)
    || (!isBlankOrEnd next && (c == '-' || (level == 0 && (c == '?' || c == ':'))))

def inlineToken (scan : Scan Token) : Scan Unit := do
  saveCandidate
  allowKey false
  emit (← scan)

def next : Scan Bool := do
  skipBlank ((← get).rest.length + 1)
  dropStale
  unwind (← get).column
  let s ← get
  let c ← peek
  let spaced := isBlankOrEnd (← peekAt 1)
  let flow := s.level != 0
  if c == ending then
    closeAll
    emit .streamEnd
    return false
  else if c == '%' && s.column == 0 then
    closeAll
    emit (.directive (← directive))
  else if s.column == 0 && (← atMarker '-') then
    closeAll; steps 3; emit .documentStart
  else if s.column == 0 && (← atMarker '.') then
    closeAll; steps 3; emit .documentEnd
  else if c == '[' then openFlow .flowSequence
  else if c == '{' then openFlow .flowMapping
  else if c == ']' then closeFlow .flowSequenceEnd
  else if c == '}' then closeFlow .flowMappingEnd
  else if c == ',' then
    allowKey true; dropCandidate; step; emit .flowEntry
  else if c == '-' && spaced then
    openBlock .blockSequence
    allowKey true; dropCandidate; step; emit .blockEntry
  else if c == '?' && (flow || spaced) then
    openBlock .blockMapping
    allowKey !flow; dropCandidate; step; emit .key
  else if c == ':' && (flow || spaced) then valueIndicator
  else if c == '*' then inlineToken (return .alias (← anchorName))
  else if c == '&' then inlineToken (return .anchor (← anchorName))
  else if c == '!' then inlineToken tag
  else if (c == '|' || c == '>') && !flow then
    allowKey true; dropCandidate
    emit (.scalar (← blockScalar (c == '>')) false)
  else if c == '\x27' then inlineToken (return .scalar (← quotedScalar false) false)
  else if c == '\x22' then inlineToken (return .scalar (← quotedScalar true) false)
  else if beginsPlain s.level c (← peekAt 1) then inlineToken (return .scalar (← plainScalar) true)
  else fail
  return true

/-- The tokens that stay as they are, whatever follows: those before the first place where a key
may have begun. -/
def settled (s : Scanner) : List Token :=
  let candidates := s.candidates.filter (!isStale s ·)
  s.tokens.toList.take (candidates.foldl (fun n c => min n c.token) s.tokens.size)

/-- Takes one token after the other. Of a text that cannot be scanned to its end, those tokens
are left that are settled before the fault. -/
def all : Nat → Scanner → List Token × Option Fault
  | 0, s => (settled s, some .malformed)
  | fuel + 1, s =>
    match next.run s with
    | .ok (true, s) => all fuel s
    | .ok (false, s) => (s.tokens.toList, none)
    | .error f => (settled s, some f)

end Scan

/-- The tokens of a text, and the fault that ends them before the end of the text. A byte order mark
in front is skipped. All characters are checked before the first token is taken; a scanner that
takes its text in pieces has only checked those up to the present piece when it comes to another
fault, and then that one is reported. -/
def tokens (text : String) : List Token × Option Fault :=
  let chars := text.toList
  if chars.all isAllowed then
    let chars := if chars.head? == some '\ufeff' then chars.tail else chars
    Scan.all (chars.length + 2) { rest := chars }
  else ([], some .malformed)

end CategoryAudit.Yaml
