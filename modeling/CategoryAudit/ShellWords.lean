/-!
# Words of a command line

Text is split at blanks. Single quotes keep everything between them; double quotes keep
everything but a backslash before a quote or a backslash; outside quotes a backslash keeps the
next character. Quotes may begin and end inside a word. There are no comments.
-/

namespace CategoryAudit.ShellWords

inductive Fault where
  | unclosedQuote
  | danglingEscape
  deriving BEq, DecidableEq, Repr

def Fault.message : Fault → String
  | .unclosedQuote => "No closing quotation"
  | .danglingEscape => "No escaped character"

/-- Where a reader is: between words, in a word, in quotes, or after a backslash, which may stand
in double quotes. -/
inductive Mode where
  | between
  | word
  | quoted (quote : Char)
  | escaped (inQuotes : Bool)
  deriving BEq, DecidableEq, Repr

def isSeparator (c : Char) : Bool := c == ' ' || c == '\t' || c == '\r' || c == '\n'

/-- Reads on; `word` is the present word and `words` those before it, both backwards. -/
def splitFrom (words : List String) (word : List Char) : Mode → List Char →
    Except Fault (List String)
  | .between, [] => .ok words.reverse
  | .word, [] => .ok (String.ofList word.reverse :: words).reverse
  | .quoted _, [] => .error .unclosedQuote
  | .escaped _, [] => .error .danglingEscape
  | .between, c :: rest =>
    if isSeparator c then splitFrom words [] .between rest
    else if c == '\\' then splitFrom words [] (.escaped false) rest
    else if c == '\x27' || c == '\x22' then splitFrom words [] (.quoted c) rest
    else splitFrom words [c] .word rest
  | .word, c :: rest =>
    if isSeparator c then splitFrom (String.ofList word.reverse :: words) [] .between rest
    else if c == '\\' then splitFrom words word (.escaped false) rest
    else if c == '\x27' || c == '\x22' then splitFrom words word (.quoted c) rest
    else splitFrom words (c :: word) .word rest
  | .quoted quote, c :: rest =>
    if c == quote then splitFrom words word .word rest
    else if c == '\\' && quote == '\x22' then splitFrom words word (.escaped true) rest
    else splitFrom words (c :: word) (.quoted quote) rest
  | .escaped false, c :: rest => splitFrom words (c :: word) .word rest
  | .escaped true, c :: rest =>
    let kept := if c == '\x22' || c == '\\' then word else '\\' :: word
    splitFrom words (c :: kept) (.quoted '\x22') rest

def split (text : String) : Except Fault (List String) := splitFrom [] [] .between text.toList

end CategoryAudit.ShellWords
