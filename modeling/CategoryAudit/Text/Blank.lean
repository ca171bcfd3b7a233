import CategoryAudit.Text.Ranges

/-!
# Blank space

The characters that separate words: the Unicode property `White_Space` and the four information
separators.
-/

namespace CategoryAudit.Text

def blankRanges : List (Nat × Nat) := [
  (0x09, 0x0d), (0x1c, 0x20), (0x85, 0x85), (0xa0, 0xa0), (0x1680, 0x1680), (0x2000, 0x200a),
  (0x2028, 0x2029), (0x202f, 0x202f), (0x205f, 0x205f), (0x3000, 0x3000)]

def isBlank (c : Char) : Bool := inRanges blankRanges c.toNat

def stripChars (cs : List Char) : List Char :=
  ((cs.dropWhile isBlank).reverse.dropWhile isBlank).reverse

def strip (s : String) : String := String.ofList (stripChars s.toList)

/-- A text without any blanks. -/
def compact (s : String) : String := String.ofList (s.toList.filter (!isBlank ·))

end CategoryAudit.Text
