/-!
# UTF-8

Bytes are read as well-formed characters. An ill-formed part is the longest stretch of bytes that
could still begin a character; a strict reader stops at the first one, a lenient reader puts a
replacement character in its place.
-/

namespace CategoryAudit.Text.Utf8

inductive Fault where
  | invalidStart
  | invalidContinuation
  | unexpectedEnd
  deriving BEq, DecidableEq, Repr

def Fault.message : Fault → String
  | .invalidStart => "invalid start byte"
  | .invalidContinuation => "invalid continuation byte"
  | .unexpectedEnd => "unexpected end of data"

/-- What stands at the front of some bytes: a character of `1 + more` bytes, or an ill-formed part
of that many bytes. -/
inductive Step where
  | char (c : Char) (more : Nat)
  | fault (f : Fault) (more : Nat)
  deriving Repr

def isContinuation (b : UInt8) : Bool := 0x80 ≤ b && b ≤ 0xbf

/-- The number of bytes a character takes after its first one, and the range of the second. The
range leaves out overlong forms, surrogates and numbers beyond the last code point. -/
def tail? (b : UInt8) : Option (Nat × UInt8 × UInt8) :=
  if b < 0xc2 then none
  else if b < 0xe0 then some (1, 0x80, 0xbf)
  else if b == 0xe0 then some (2, 0xa0, 0xbf)
  else if b == 0xed then some (2, 0x80, 0x9f)
  else if b < 0xf0 then some (2, 0x80, 0xbf)
  else if b == 0xf0 then some (3, 0x90, 0xbf)
  else if b < 0xf4 then some (3, 0x80, 0xbf)
  else if b == 0xf4 then some (3, 0x80, 0x8f)
  else none

def leadBits (tail : Nat) (b : UInt8) : Nat := b.toNat % Nat.pow 2 (6 - tail)

def continuation (code read : Nat) : Nat → List UInt8 → Step
  | 0, _ => .char (Char.ofNat code) read
  | _ + 1, [] => .fault .unexpectedEnd read
  | left + 1, b :: rest =>
    if isContinuation b then continuation (code * 64 + b.toNat % 64) (read + 1) left rest
    else .fault .invalidContinuation read

def step (b : UInt8) (rest : List UInt8) : Step :=
  if b < 0x80 then .char (Char.ofNat b.toNat) 0
  else match tail? b with
    | none => .fault .invalidStart 0
    | some (tail, low, high) =>
      match rest with
      | [] => .fault .unexpectedEnd 0
      | c :: more =>
        if low ≤ c && c ≤ high then
          continuation (leadBits tail b * 64 + c.toNat % 64) 1 (tail - 1) more
        else .fault .invalidContinuation 0

structure Error where
  fault : Fault
  offset : Nat
  deriving BEq, DecidableEq, Repr

/-- The characters of well-formed bytes; `offset` is the place of the first byte. -/
def decodeFrom (offset : Nat) (read : List Char) (bytes : List UInt8) :
    Except Error (List Char) :=
  match bytes with
  | [] => .ok read.reverse
  | b :: rest =>
    match step b rest with
    | .char c more => decodeFrom (offset + 1 + more) (c :: read) (rest.drop more)
    | .fault f _ => .error ⟨f, offset⟩
termination_by bytes.length
decreasing_by simp only [List.length_drop, List.length_cons]; omega

def decode (bytes : List UInt8) : Except Error String :=
  (decodeFrom 0 [] bytes).map String.ofList

def replacement : Char := '\ufffd'

def decodeLossyFrom (read : List Char) (bytes : List UInt8) : List Char :=
  match bytes with
  | [] => read.reverse
  | b :: rest =>
    match step b rest with
    | .char c more => decodeLossyFrom (c :: read) (rest.drop more)
    | .fault _ more => decodeLossyFrom (replacement :: read) (rest.drop more)
termination_by bytes.length
decreasing_by all_goals simp only [List.length_drop, List.length_cons]; omega

def decodeLossy (bytes : List UInt8) : String := String.ofList (decodeLossyFrom [] bytes)

def mark : List UInt8 := [0xef, 0xbb, 0xbf]

def dropMark (bytes : List UInt8) : List UInt8 :=
  if mark.isPrefixOf bytes then bytes.drop mark.length else bytes

end CategoryAudit.Text.Utf8
