import CategoryAudit.Text.Quoted

/-!
# JSON text

Values are written over several lines, two spaces further in on every level, and in ASCII alone:
other characters are escaped by their UTF-16 units. Numbers are whole.
-/

namespace CategoryAudit

inductive Json where
  | int (n : Int)
  | string (s : String)
  | array (items : List Json)
  | object (fields : List (String × Json))
  deriving Repr, Inhabited

namespace Json

def unit (n : Nat) : String := "\\u" ++ Text.hex 4 n

def escapeChar (c : Char) : String :=
  if c == '\x22' then "\\\""
  else if c == '\\' then "\\\\"
  else if c == '\n' then "\\n"
  else if c == '\r' then "\\r"
  else if c == '\t' then "\\t"
  else if c == '\x08' then "\\b"
  else if c == '\x0c' then "\\f"
  else if 32 ≤ c.toNat && c.toNat ≤ 126 then String.ofList [c]
  else if c.toNat < 65536 then unit c.toNat
  else
    let n := c.toNat - 65536
    unit (0xd800 + n / 1024) ++ unit (0xdc00 + n % 1024)

def quote (s : String) : String := "\"" ++ String.join (s.toList.map escapeChar) ++ "\""

def newline (level : Nat) : String := "\n" ++ String.ofList (List.replicate (2 * level) ' ')

mutual
/-- A value that begins somewhere on a line of the given level. -/
def renderAt (level : Nat) : Json → String
  | int n => toString n
  | string s => quote s
  | array [] => "[]"
  | array (first :: rest) =>
    "[" ++ newline (level + 1) ++ renderAt (level + 1) first ++ renderItems (level + 1) rest
      ++ newline level ++ "]"
  | object [] => "\x7b\x7d"
  | object ((key, value) :: rest) =>
    "\x7b" ++ newline (level + 1) ++ quote key ++ ": " ++ renderAt (level + 1) value
      ++ renderFields (level + 1) rest ++ newline level ++ "\x7d"
def renderItems (level : Nat) : List Json → String
  | [] => ""
  | item :: rest => "," ++ newline level ++ renderAt level item ++ renderItems level rest
def renderFields (level : Nat) : List (String × Json) → String
  | [] => ""
  | (key, value) :: rest =>
    "," ++ newline level ++ quote key ++ ": " ++ renderAt level value ++ renderFields level rest
end

def render (j : Json) : String := renderAt 0 j

end Json

end CategoryAudit
