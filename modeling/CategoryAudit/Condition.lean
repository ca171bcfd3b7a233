import CategoryAudit.Text.Blank

/-!
# Conditions of conditional directives

A condition is built from symbols, `true` and `false` with `!`, `==` and `!=`, `&&`, `||` and
parentheses; `!` binds closest and `||` loosest, and equal operators group to the left. The text
is cut into tokens, the tokens are read from left to right into a condition, and the condition is
evaluated over the symbols that are defined. Reading never looks at the symbols.
-/

namespace CategoryAudit

inductive Condition.Operator where
  | or | and | equal | differ
  deriving BEq, DecidableEq, Repr

inductive Condition where
  | constant (value : Bool)
  | symbol (name : String)
  | not (c : Condition)
  | binary (op : Condition.Operator) (left right : Condition)
  deriving BEq, DecidableEq, Repr

namespace Condition

def Operator.strength : Operator → Nat
  | .or => 0
  | .and => 1
  | .equal | .differ => 2

def Operator.apply : Operator → Bool → Bool → Bool
  | .or, a, b => a || b
  | .and, a, b => a && b
  | .equal, a, b => a == b
  | .differ, a, b => a != b

def eval (defined : List String) : Condition → Bool
  | constant value => value
  | symbol name => defined.contains name
  | not c => !c.eval defined
  | binary op left right => op.apply (left.eval defined) (right.eval defined)

/-! ## Tokens -/

inductive Token where
  | operator (op : Operator)
  | bang
  | opening
  | closing
  | word (name : String)
  deriving BEq, DecidableEq, Repr

def isWordStart (c : Char) : Bool := c.isAlpha || c == '_'

def isWordPart (c : Char) : Bool := c.isAlphanum || c == '_'

/-- The tokens of a text with no blanks at its end; nothing if some part of it is no token. -/
def tokens? (cs : List Char) : Option (List Token) :=
  match cs with
  | [] => some []
  | '|' :: '|' :: rest => (tokens? rest).map (.operator .or :: ·)
  | '&' :: '&' :: rest => (tokens? rest).map (.operator .and :: ·)
  | '=' :: '=' :: rest => (tokens? rest).map (.operator .equal :: ·)
  | '!' :: '=' :: rest => (tokens? rest).map (.operator .differ :: ·)
  | '!' :: rest => (tokens? rest).map (.bang :: ·)
  | '(' :: rest => (tokens? rest).map (.opening :: ·)
  | ')' :: rest => (tokens? rest).map (.closing :: ·)
  | c :: rest =>
    if Text.isBlank c then tokens? rest
    else if isWordStart c then
      (tokens? (rest.dropWhile isWordPart)).map
        (.word (String.ofList (c :: rest.takeWhile isWordPart)) :: ·)
    else none
termination_by cs.length
decreasing_by
  all_goals simp only [List.length_cons]
  all_goals try omega
  exact Nat.lt_succ_of_le (List.dropWhile_sublist _).length_le

/-! ## Reading -/

inductive Fault where
  /-- Some part is no token, or a token stands where it cannot. -/
  | invalid
  | incomplete
  /-- Something other than a closing parenthesis follows a condition in parentheses. -/
  | unbalanced
  | tooDeep
  deriving BEq, DecidableEq, Repr

/-- What still waits for the condition being read, innermost first. -/
inductive Pending where
  | negation
  | parenthesis
  | operand (op : Operator) (left : Condition)
  deriving BEq, DecidableEq, Repr

def Pending.isNesting : Pending → Bool
  | .operand .. => false
  | _ => true

/-- How many parentheses and negations may stand within each other. The number stands in for the
recursion limit that a program runs under: a parenthesis takes several frames of its stack and a
negation one, and part of the stack is in use before, so evaluation really gives up elsewhere. No
general statement depends on the value. -/
def depthLimit : Nat := 500

def applyNegations (c : Condition) : List Pending → Condition × List Pending
  | .negation :: rest => applyNegations (.not c) rest
  | stack => (c, stack)

def applyOperators (strength : Nat) (c : Condition) : List Pending → Condition × List Pending
  | .operand op left :: rest =>
    if strength ≤ op.strength then applyOperators strength (.binary op left c) rest
    else (c, .operand op left :: rest)
  | stack => (c, stack)

def ofWord (name : String) : Condition :=
  if name == "true" then .constant true
  else if name == "false" then .constant false
  else .symbol name

mutual
def readOperand (stack : List Pending) : List Token → Except Fault Condition
  | [] => .error .incomplete
  | .bang :: rest =>
    if depthLimit ≤ stack.countP Pending.isNesting then .error .tooDeep
    else readOperand (.negation :: stack) rest
  | .opening :: rest =>
    if depthLimit ≤ stack.countP Pending.isNesting then .error .tooDeep
    else readOperand (.parenthesis :: stack) rest
  | .word name :: rest =>
    let (c, stack) := applyNegations (ofWord name) stack
    readOperator c stack rest
  | .closing :: _ | .operator _ :: _ => .error .invalid
def readOperator (c : Condition) (stack : List Pending) : List Token → Except Fault Condition
  | [] =>
    match applyOperators 0 c stack with
    | (whole, []) => .ok whole
    | _ => .error .incomplete
  | .operator op :: rest =>
    let (left, stack) := applyOperators op.strength c stack
    readOperand (.operand op left :: stack) rest
  | .closing :: rest =>
    match applyOperators 0 c stack with
    | (inner, .parenthesis :: stack) =>
      let (c, stack) := applyNegations inner stack
      readOperator c stack rest
    | _ => .error .invalid
  | _ :: _ => if stack.contains .parenthesis then .error .unbalanced else .error .invalid
end

def read (tokens : List Token) : Except Fault Condition := readOperand [] tokens

def parse (text : String) : Except Fault Condition :=
  match tokens? (Text.stripChars text.toList) with
  | none => .error .invalid
  | some tokens => read tokens

def evalText (text : String) (defined : List String) : Except Fault Bool :=
  (parse text).map (·.eval defined)

def Fault.message (text : String) (line : Int) : Fault → String
  | .invalid => s!"invalid preprocessor condition '{Text.strip text}' near line {line}"
  | .incomplete => s!"incomplete preprocessor condition '{Text.strip text}' near line {line}"
  | .unbalanced => s!"unbalanced parentheses in preprocessor condition near line {line}"
  | .tooDeep => "declarations are nested too deeply to parse"

end Condition

end CategoryAudit
