import CategoryAudit.Text.Quoted

/-!
# What can be wrong with a document

Everything that breaks the rules of the format is `malformed`. The other faults are scalars that
carry a type explicitly, or are taken for one, and have no value of it.
-/

namespace CategoryAudit.Yaml

/-- The most digits that a whole number may have where it is read or written in decimal. -/
def digitLimit : Nat := 4300

inductive Fault where
  | malformed
  | tooDeep
  | noSuchCharacter
  /-- An escape asks for a character whose number has more than 31 bits. -/
  | escapeTooLarge
  | notInteger (base : Nat) (text : String)
  | tooManyDigits (count : Nat)
  | notFloat (text : String)
  /-- A number in base sixty has a place whose weight is no binary number any more. -/
  | weightTooLarge
  | noDigits
  | notBoolean (text : String)
  | notMoment
  | outOfRange (reason : String)
  deriving BEq, DecidableEq, Repr

def Fault.message : Fault → String
  | .malformed => ""
  | .tooDeep => "maximum nesting depth exceeded"
  | .noSuchCharacter => "chr() arg not in range(0x110000)"
  | .escapeTooLarge => "Python int too large to convert to C int"
  | .notInteger base text =>
    s!"invalid literal for int() with base {base}: {Text.quoted text}"
  | .tooManyDigits count =>
    s!"Exceeds the limit ({digitLimit} digits) for integer string conversion: value has {count} "
      ++ "digits; use sys.set_int_max_str_digits() to increase the limit"
  | .notFloat text => s!"could not convert string to float: {Text.quoted text}"
  | .weightTooLarge => "int too large to convert to float"
  | .noDigits => "string index out of range"
  | .notBoolean text => Text.quoted text
  | .notMoment => "'NoneType' object has no attribute 'groupdict'"
  | .outOfRange reason => reason

end CategoryAudit.Yaml
